/-
Module: CommonRpc.Core.MemPipeEnv
Purpose: `mem_pipe_env::impl`: two queues of waiting calls, one for each side. A call that finds a waiting call
  of the other side is paired with the oldest one; otherwise it waits, with a timer if it has a timeout. The
  queues are guarded by the mutex of the environment; a promise is moved out of its queue under the mutex and
  set after the mutex is released, so the results a thread still has to deliver are part of the state. Calls
  and `mem_buffers` are numbered in the order they are made; the list of calls is there to be spoken about: no
  step reads it.
Trusted boundary: promise ids do not wrap
-/
import CommonRpc.Core.MultipleTimer
import CommonRpc.Core.Types
import CommonRpc.Lib.Transition

namespace CommonRpc

/-- `promise_data`; the promise is that of the call with the number `promise`. -/
structure PromiseData where
  id : Nat
  clientId : Nat
  timerId : Option Nat
  promise : Nat
deriving DecidableEq, Repr

/-- A call of `create_pipe` (the server side) or `open_pipe` (the client side). -/
structure MemPipeCall where
  isServer : Bool
  clientId : Nat
deriving DecidableEq, Repr

/-- A `mem_pipe_endpoint` as it is constructed: its role and its `mem_buffers`. -/
structure MemPipeEnd where
  isServer : Bool
  buffers : Nat
deriving DecidableEq, Repr

/-- A value for the future of a call. -/
structure MemPipeCompletion where
  call : Nat
  result : PipeWaitRes
  endpoint : Option MemPipeEnd
deriving DecidableEq, Repr

/-- `mem_pipe_env::impl`. -/
structure MemPipeEnv where
  nextReadPromiseId : Nat := 0
  /-- A callback captured the queue it looks into (the server side's or not) and the id of its promise. -/
  timer : MultipleTimer (Bool × Nat) := {}
  clientSidePipePromises : List PromiseData := []
  serverSidePipePromises : List PromiseData := []
  /-- For each thread that has left the mutex, the futures it still has to make ready, in its order. -/
  completing : List (List MemPipeCompletion) := []
  /-- The futures that are ready. -/
  completions : List MemPipeCompletion := []
  /-- The `mem_buffers` made so far. -/
  nextBuffers : Nat := 0
  calls : List MemPipeCall := []
deriving DecidableEq, Repr

namespace MemPipeEnv

/-- What the environment may let happen next. -/
inductive Event where
  | createPipe (clientId : Nat) (timed : Bool)
  | openPipe (clientId : Nat) (timed : Bool)
  /-- A thread makes the next of its futures ready. -/
  | complete (thread : Nat)
  | timerExpires (timerId : Nat)
  | timerHandler (timerId : Nat)
  | cancelPendingClientEndpoints (clientId : Option Nat)
  | cancelPendingServerEndpoints (clientId : Option Nat)
deriving DecidableEq, Repr

/-- The queue of a side. -/
def promises (s : MemPipeEnv) : Bool → List PromiseData
  | true => s.serverSidePipePromises
  | false => s.clientSidePipePromises

def setPromises (s : MemPipeEnv) (isServer : Bool) (queue : List PromiseData) : MemPipeEnv :=
  match isServer with
  | true => { s with serverSidePipePromises := queue }
  | false => { s with clientSidePipePromises := queue }

/-- The record of a call that has to wait. -/
def newPromiseData (s : MemPipeEnv) (clientId : Nat) (timed : Bool) : PromiseData where
  id := s.nextReadPromiseId
  clientId := clientId
  timerId := if timed then some s.timer.nextId else none
  promise := s.calls.length

/-- The branch of `create_new_pipe_end` for an empty `other`: the call waits in `own`. -/
def waitForOther (s : MemPipeEnv) (clientId : Nat) (isServer timed : Bool) : MemPipeEnv :=
  { s.setPromises isServer (s.promises isServer ++ [s.newPromiseData clientId timed]) with
    nextReadPromiseId := s.nextReadPromiseId + 1
    timer := if timed then s.timer.start (isServer, s.nextReadPromiseId) else s.timer
    calls := s.calls ++ [⟨isServer, clientId⟩] }

/-- The branch of `create_new_pipe_end` that takes `other.begin()`. The promise of the waiting call is set
    before the ready future is returned. -/
def pairWith (s : MemPipeEnv) (clientId : Nat) (isServer : Bool) (first : PromiseData)
    (others : List PromiseData) : MemPipeEnv :=
  { s.setPromises (!isServer) others with
    timer := s.timer.cancelOptional first.timerId
    completing := s.completing ++
      [[⟨first.promise, .success, some ⟨!isServer, s.nextBuffers⟩⟩,
        ⟨s.calls.length, .success, some ⟨isServer, s.nextBuffers⟩⟩]]
    nextBuffers := s.nextBuffers + 1
    calls := s.calls ++ [⟨isServer, clientId⟩] }

def createNewPipeEnd (s : MemPipeEnv) (clientId : Nat) (isServer timed : Bool) : MemPipeEnv :=
  match s.promises (!isServer) with
  | [] => s.waitForOther clientId isServer timed
  | first :: others => s.pairWith clientId isServer first others

def createPipe (s : MemPipeEnv) (clientId : Nat) (timed : Bool) : MemPipeEnv :=
  s.createNewPipeEnd clientId true timed

def openPipe (s : MemPipeEnv) (clientId : Nat) (timed : Bool) : MemPipeEnv :=
  s.createNewPipeEnd clientId false timed

/-- The call is one of those a cancellation asks for. -/
def wanted (clientId : Option Nat) (data : PromiseData) : Bool :=
  clientId.all fun client => data.clientId == client

/-- The loop of `cancel_pending_endpoints`: what stays in the queue, the timers, and the promises to
    complete. -/
def cancelLoop (clientId : Option Nat) :
    List PromiseData → MultipleTimer (Bool × Nat) → List PromiseData × MultipleTimer (Bool × Nat) × List Nat
  | [], timer => ([], timer, [])
  | data :: rest, timer =>
      if wanted clientId data then
        let (kept, timer, promisesToComplete) := cancelLoop clientId rest (timer.cancelOptional data.timerId)
        (kept, timer, data.promise :: promisesToComplete)
      else
        let (kept, timer, promisesToComplete) := cancelLoop clientId rest timer
        (data :: kept, timer, promisesToComplete)

def cancelPendingEndpoints (s : MemPipeEnv) (clientId : Option Nat) (isServer : Bool) : MemPipeEnv :=
  let (kept, timer, promisesToComplete) := cancelLoop clientId (s.promises isServer) s.timer
  { s.setPromises isServer kept with
    timer := timer
    completing := s.completing ++ [promisesToComplete.map fun promise => ⟨promise, .canceled, none⟩] }

def cancelPendingClientEndpoints (s : MemPipeEnv) (clientId : Option Nat) : MemPipeEnv :=
  s.cancelPendingEndpoints clientId false

def cancelPendingServerEndpoints (s : MemPipeEnv) (clientId : Option Nat) : MemPipeEnv :=
  s.cancelPendingEndpoints clientId true

def removePromiseByTimeout (s : MemPipeEnv) (isServer : Bool) (id : Nat) : MemPipeEnv :=
  match (s.promises isServer).find? fun data => data.id = id with
  | none => s
  | some data =>
      { s.setPromises isServer ((s.promises isServer).eraseP fun data => data.id = id) with
        completing := s.completing ++ [[⟨data.promise, .timeout, none⟩]] }

def getPendingClientEndpointsCount (s : MemPipeEnv) : Nat := s.clientSidePipePromises.length

def getPendingServerEndpointsCount (s : MemPipeEnv) : Nat := s.serverSidePipePromises.length

def step (s : MemPipeEnv) : Event → Option MemPipeEnv
  | .createPipe clientId timed => some (s.createPipe clientId timed)
  | .openPipe clientId timed => some (s.openPipe clientId timed)
  | .complete thread =>
      match s.completing[thread]? with
      | some (completion :: rest) => some { s with
          completing := s.completing.set thread rest
          completions := s.completions ++ [completion] }
      | _ => none
  | .timerExpires timerId =>
      (s.timer.expire timerId).map fun timer => { s with timer := timer }
  | .timerHandler timerId =>
      (s.timer.handle timerId).map fun handled =>
        match handled.2 with
        | none => { s with timer := handled.1 }
        | some (isServer, id) => { s with timer := handled.1 }.removePromiseByTimeout isServer id
  | .cancelPendingClientEndpoints clientId => some (s.cancelPendingClientEndpoints clientId)
  | .cancelPendingServerEndpoints clientId => some (s.cancelPendingServerEndpoints clientId)

def machine : Lib.Machine MemPipeEnv Event where
  step := step

end MemPipeEnv

end CommonRpc
