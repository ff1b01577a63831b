/-
Module: CommonRpc.Core.TcpPipeClientEnv
Purpose: `tcp_pipe_client_env::impl`: the pipes that are being opened. The map of operations is guarded by the
  mutex of the environment and an operation by a mutex of its own, so the connect handler decides without looking
  at the map. The promise is set, the timer is cancelled and the operation leaves the map afterwards, each in a
  step of its own, and until then timers and cancellations find the operation. `m_next_id` is the number of
  operations.
Trusted boundary: closing a socket aborts the connect that is under way on it; operation ids do not wrap
-/
import CommonRpc.Core.MultipleTimer
import CommonRpc.Core.TcpPipeEndpoint
import CommonRpc.Core.Types
import CommonRpc.Lib.Transition

namespace CommonRpc

/-- How far an operation has come, from `async_connect` to the end of its continuation. -/
inductive OpenStage where
  | connecting
  /-- The connect handler is queued. -/
  | connected (ec : ErrorCode)
  /-- The handler has decided, and will set the promise. -/
  | decided (result : PipeWaitRes)
  /-- The promise is set, and the continuation is queued. -/
  | resolved (result : PipeWaitRes)
  /-- The continuation has cancelled the timer, and will lock the map. -/
  | untimed (result : PipeWaitRes)
  | erased (result : PipeWaitRes)
deriving DecidableEq, Repr

/-- What became of `m_socket`; the last case is a close of a socket that an endpoint has. -/
inductive OpenSocket where
  | held
  | closed
  | moved
  | closedMoved
deriving DecidableEq, Repr

/-- `open_operation`, with the timer that its continuation captured. -/
structure OpenOperation where
  clientId : Nat
  timerId : Option Nat
  stage : OpenStage := .connecting
  isSocketValid : Bool := true
  wasCanceled : Bool := false
  canceledByTimer : Bool := false
  socket : OpenSocket := .held
deriving DecidableEq, Repr

namespace OpenOperation

inductive Event where
  | connectCompletes (ec : ErrorCode)
  | connectHandler
  | setValue
  | cancelTimer
  | erase
deriving DecidableEq, Repr

def cancelResult (op : OpenOperation) : PipeWaitRes := if op.canceledByTimer then .timeout else .canceled

/-- `start`; opening the socket or setting one of its options may fail. -/
def start (op : OpenOperation) (setUp : Bool) : OpenOperation :=
  if op.wasCanceled then { op with stage := .resolved op.cancelResult }
  else if setUp then op
  else { op with stage := .resolved .failed }

/-- The handler of `async_connect`. -/
def onConnect (op : OpenOperation) (ec : ErrorCode) : OpenOperation :=
  if op.wasCanceled then { op with stage := .decided op.cancelResult }
  else if ec = .ok then { op with stage := .decided .success, isSocketValid := false, socket := .moved }
  else { op with stage := .decided .failed }

/-- `m_socket.close`. -/
def close (op : OpenOperation) : OpenOperation :=
  { op with
    socket := if op.socket = .moved then .closedMoved else .closed
    stage := if op.stage = .connecting then .connected .operationAborted else op.stage }

def cancel (op : OpenOperation) (byTimer : Bool) : OpenOperation :=
  if op.wasCanceled then op
  else
    let canceled := { op with wasCanceled := true, canceledByTimer := byTimer }
    if op.isSocketValid then canceled.close else canceled

def step (op : OpenOperation) (e : Event) : Option OpenOperation :=
  match op.stage, e with
  | .connecting, .connectCompletes ec => some { op with stage := .connected ec }
  | .connected ec, .connectHandler => some (op.onConnect ec)
  | .decided result, .setValue => some { op with stage := .resolved result }
  | .resolved result, .cancelTimer => some { op with stage := .untimed result }
  | .untimed result, .erase => some { op with stage := .erased result }
  | _, _ => none

end OpenOperation

/-- `tcp_pipe_client_env::impl`. -/
structure TcpPipeClientEnv where
  /-- The keys of `m_open_operations`. -/
  openOperations : List Nat := []
  timer : MultipleTimer Nat := {}
  /-- All operations, by id; they outlive their place in the map. -/
  operations : List OpenOperation := []
deriving DecidableEq, Repr

namespace TcpPipeClientEnv

inductive Event where
  | openPipe (clientId : Nat) (timed setUp : Bool)
  | operation (id : Nat) (e : OpenOperation.Event)
  | timerExpires (timerId : Nat)
  | timerHandler (timerId : Nat)
  | cancelPendingClientEndpoints (clientId : Option Nat)
deriving DecidableEq, Repr

def openPipe (s : TcpPipeClientEnv) (clientId : Nat) (timed setUp : Bool) : TcpPipeClientEnv :=
  let id := s.operations.length
  let op : OpenOperation :=
    { clientId := clientId
      timerId := if timed then some s.timer.nextId else none }
  { openOperations := s.openOperations ++ [id]
    timer := if timed then s.timer.start id else s.timer
    operations := s.operations ++ [op.start setUp] }

/-- The operations of the map for which `asked` holds are cancelled, in one step: the map is locked, and what the
  handler of one operation does meanwhile commutes with the cancellation of another. -/
def cancelWhere (s : TcpPipeClientEnv) (asked : Nat → OpenOperation → Bool) (byTimer : Bool) : TcpPipeClientEnv :=
  { s with operations := s.operations.mapIdx fun id op =>
      if id ∈ s.openOperations ∧ asked id op then op.cancel byTimer else op }

/-- The callback of a timer. -/
def onTimeout (s : TcpPipeClientEnv) (id : Nat) : TcpPipeClientEnv :=
  s.cancelWhere (fun other _ => other == id) true

def cancelPendingClientEndpoints (s : TcpPipeClientEnv) (clientId : Option Nat) : TcpPipeClientEnv :=
  s.cancelWhere (fun _ op => clientId.all (op.clientId == ·)) false

def step (s : TcpPipeClientEnv) : Event → Option TcpPipeClientEnv
  | .openPipe clientId timed setUp => some (s.openPipe clientId timed setUp)
  | .operation id e =>
      (s.operations[id]?).bind fun op => (op.step e).map fun op' =>
        { openOperations := if e = .erase then s.openOperations.filter (· ≠ id) else s.openOperations
          timer := if e = .cancelTimer then s.timer.cancelOptional op.timerId else s.timer
          operations := s.operations.set id op' }
  | .timerExpires timerId => (s.timer.expire timerId).map fun timer => { s with timer := timer }
  | .timerHandler timerId =>
      (s.timer.handle timerId).map fun handled =>
        match handled.2 with
        | none => { s with timer := handled.1 }
        | some id => { s with timer := handled.1 }.onTimeout id
  | .cancelPendingClientEndpoints clientId => some (s.cancelPendingClientEndpoints clientId)

def machine : Lib.Machine TcpPipeClientEnv Event where
  step := step

end TcpPipeClientEnv

end CommonRpc
