/-
Module: CommonRpc.Core.PeriodicTimer
Purpose: `cl::periodic_timer::impl`. A wait of the timer ends when the period is over or when it is cancelled; its
  handler is then queued, calls the periodic callback outside the lock unless the wait was aborted, and starts the
  next wait or deactivates the timer. Every critical section is one step, so that `start` and `stop_async` may come
  between the invocation of the callback and its return, from the callback itself as well as from other threads.
  Waits are kept in a list although the code means to have one at most. The periods themselves only decide when a
  wait ends, which is left to the environment.
Trusted boundary: the documented cancellation behaviour of `boost::asio::steady_timer`: cancelling ends the waits
  that have not ended, with an error; a handler that is queued already is not changed
-/
import CommonRpc.Lib.Transition

namespace CommonRpc

/-- How far an asynchronous wait has got. -/
inductive WaitStage where
  | waiting
  /-- The handler is queued, with an error code or without. -/
  | queued (aborted : Bool)
  /-- The handler has called the periodic callback, which has not returned. -/
  | calling
deriving DecidableEq, Repr

/-- A wait of `m_timer`. Its handler owns the periodic callback of a run. -/
structure TimerWait where
  run : Nat
  stage : WaitStage := .waiting
deriving DecidableEq, Repr

inductive CallbackRet where
  | continue
  | abort
deriving DecidableEq, Repr

/-- A callback that was handed to `stop_async` and is not empty. -/
structure StopCallback where
  number : Nat
  /-- How many runs had been started by then. -/
  runs : Nat
deriving DecidableEq, Repr

/-- What the timer has done with its callbacks. -/
inductive TimerAction where
  /-- The periodic callback of a run was invoked. -/
  | invoked (run : Nat)
  /-- A stop callback was posted to the io context. -/
  | posted (callback : StopCallback)
deriving DecidableEq, Repr

/-- `periodic_timer::impl`, with a `size_t` of `w` bits. -/
structure PeriodicTimer (w : Nat) where
  isActive : Bool := false
  isStopped : Bool := false
  currentPeriodsCount : BitVec w := 0
  totalPeriodsCount : BitVec w := 0
  stopCallbacks : List StopCallback := []
  waits : List TimerWait := []
  /-- The number of periods that each run was started with. -/
  runs : List (BitVec w) := []
  handed : List StopCallback := []
  log : List TimerAction := []
deriving DecidableEq, Repr

namespace PeriodicTimer

variable {w : Nat}

/-- `m_timer.cancel()`: waits that have not ended are aborted. -/
def cancel (s : PeriodicTimer w) : PeriodicTimer w :=
  { s with waits := s.waits.map fun wait =>
      if wait.stage = .waiting then { wait with stage := .queued true } else wait }

/-- `expires_after` cancels as well. -/
def startPeriod (s : PeriodicTimer w) (run : Nat) : PeriodicTimer w :=
  let s := s.cancel
  { s with waits := s.waits ++ [{ run }] }

def deactivate (s : PeriodicTimer w) : PeriodicTimer w :=
  { s with
    isActive := false
    log := s.log ++ s.stopCallbacks.map .posted
    stopCallbacks := [] }

def start (s : PeriodicTimer w) (totalPeriods : BitVec w) : Except String (PeriodicTimer w) :=
  if s.isActive then .error "periodic timer already running"
  else
    let started := { s with
      isActive := true
      isStopped := false
      currentPeriodsCount := 0
      totalPeriodsCount := totalPeriods
      runs := s.runs ++ [totalPeriods] }
    .ok (started.startPeriod s.runs.length)

/-- The callback of a call of `stop_async`, if it has one. -/
def newCallback (s : PeriodicTimer w) (hasCallback : Bool) : List StopCallback :=
  if hasCallback then [{ number := s.handed.length, runs := s.runs.length }] else []

def stopAsync (s : PeriodicTimer w) (hasCallback : Bool) : PeriodicTimer w :=
  let callback := s.newCallback hasCallback
  let s := { s with handed := s.handed ++ callback }
  if s.isActive then
    let s := { s with stopCallbacks := s.stopCallbacks ++ callback }
    if s.isStopped then s else { s.cancel with isStopped := true }
  else { s with log := s.log ++ callback.map .posted }

/-- The handler of a wait, up to the call of the periodic callback. -/
def handle (s : PeriodicTimer w) (index : Nat) : Option (PeriodicTimer w) :=
  match s.waits[index]? with
  | some ⟨_, .queued true⟩ => some ({ s with waits := s.waits.eraseIdx index }.deactivate)
  | some ⟨run, .queued false⟩ =>
      some { s with
        waits := s.waits.set index ⟨run, .calling⟩
        log := s.log ++ [.invoked run] }
  | some ⟨_, .waiting⟩ | some ⟨_, .calling⟩ | none => none

/-- The rest of the handler; `none` if the callback threw. -/
def callbackReturns (s : PeriodicTimer w) (index : Nat) (ret : Option CallbackRet) : Option (PeriodicTimer w) :=
  match s.waits[index]? with
  | some ⟨run, .calling⟩ =>
      let s := { s with
        waits := s.waits.eraseIdx index
        currentPeriodsCount := s.currentPeriodsCount + 1 }
      if ret = some .continue ∧ s.isStopped = false ∧ s.currentPeriodsCount < s.totalPeriodsCount then
        some (s.startPeriod run)
      else some s.deactivate
  | some ⟨_, .waiting⟩ | some ⟨_, .queued _⟩ | none => none

inductive Event (w : Nat) where
  | start (totalPeriods : BitVec w)
  | stopAsync (hasCallback : Bool)
  /-- The period of a wait is over, and its handler is queued. -/
  | expire (index : Nat)
  | handle (index : Nat)
  | callbackReturns (index : Nat) (ret : Option CallbackRet)
deriving DecidableEq, Repr

def step (s : PeriodicTimer w) : Event w → Option (PeriodicTimer w)
  | .start totalPeriods =>
      match s.start totalPeriods with
      | .ok t => some t
      | .error _ => some s
  | .stopAsync hasCallback => some (s.stopAsync hasCallback)
  | .expire index =>
      match s.waits[index]? with
      | some ⟨run, .waiting⟩ => some { s with waits := s.waits.set index ⟨run, .queued false⟩ }
      | some ⟨_, .queued _⟩ | some ⟨_, .calling⟩ | none => none
  | .handle index => s.handle index
  | .callbackReturns index ret => s.callbackReturns index ret

def machine (w : Nat) : Lib.Machine (PeriodicTimer w) (Event w) where
  step := step

/-- The stop callbacks that were posted. -/
def posted (s : PeriodicTimer w) : List StopCallback :=
  s.log.filterMap fun
    | .posted callback => some callback
    | .invoked _ => none

/-- How often the periodic callback of a run was invoked. -/
def invocations (s : PeriodicTimer w) (run : Nat) : Nat := s.log.count (.invoked run)

end PeriodicTimer

end CommonRpc
