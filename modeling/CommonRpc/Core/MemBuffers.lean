/-
Module: CommonRpc.Core.MemBuffers
Purpose: `mem_buffers` and the two `mem_pipe_endpoint`s on it: the connected in-memory pipe. Each direction is
  a `mem_buffer` of its own. A call of `invalidate` is not one step: it invalidates the buffer towards the
  server, then the buffer towards the client, and then runs the callbacks, each under a lock of its own, and
  calls of both endpoints interleave between these three critical sections.
Trusted boundary: none beyond CommonRpc.Core.MemBuffer
-/
import CommonRpc.Core.MemBuffer

namespace CommonRpc

/-- The next critical section of a running `invalidate_impl`. -/
inductive InvalidateStage where
  | clientToServer
  | serverToClient
  | callbacks
  | returned
deriving DecidableEq, Repr

/-- A call of `invalidate_impl` with its arguments. -/
structure InvalidateCall where
  cancelServerSide : Bool
  cancelClientSide : Bool
  stage : InvalidateStage := .clientToServer
deriving DecidableEq, Repr

/-- `mem_buffers`. -/
structure MemBuffers where
  clientToServer : MemBuffer := {}
  serverToClient : MemBuffer := {}
  invalidated : Bool := false
  onInvalidate : List Nat := []
  /-- The calls of `invalidate_impl` so far; a running call is named by its place here. -/
  calls : List InvalidateCall := []
  /-- The callbacks that were handed to the thread pool. -/
  executed : List Nat := []
deriving DecidableEq, Repr

/-- A step of a buffer that no call makes: a task of one of its strands, or a timer. -/
def MemBuffer.Event.isTask : MemBuffer.Event → Bool
  | .writeImpl _ _ | .resolveReadPromise | .readImpl | .timerExpires _ | .timerHandler _ => true
  | .writeAsync _ _ _ | .readAsync _ | .invalidate _ => false

namespace MemBuffers

/-- What the environment may let happen next. `isServer` says which endpoint makes a call; `toServer` says
    which of the two buffers a strand task or a timer belongs to. -/
inductive Event where
  | writeAsync (isServer : Bool) (data : Buffer) (timeout : Option Nat) (now : Int)
  | readAsync (isServer : Bool) (timeout : Option Nat)
  | setDisconnectCallback (callback : Nat)
  | invalidate (isServer : Bool)
  | invalidateImpl (call : Nat)
  | task (toServer : Bool) (event : MemBuffer.Event)
deriving DecidableEq, Repr

def readAsyncFromServer (s : MemBuffers) (timeout : Option Nat) : MemBuffers :=
  { s with serverToClient := s.serverToClient.readAsync timeout }

def readAsyncFromClient (s : MemBuffers) (timeout : Option Nat) : MemBuffers :=
  { s with clientToServer := s.clientToServer.readAsync timeout }

def writeAsyncToClient (s : MemBuffers) (data : Buffer) (timeout : Option Nat) (now : Int) :
    MemBuffers :=
  { s with serverToClient := s.serverToClient.writeAsync data timeout now }

def writeAsyncToServer (s : MemBuffers) (data : Buffer) (timeout : Option Nat) (now : Int) :
    MemBuffers :=
  { s with clientToServer := s.clientToServer.writeAsync data timeout now }

def setInvalidateCallback (s : MemBuffers) (callback : Nat) : MemBuffers :=
  if s.invalidated then { s with executed := s.executed ++ [callback] }
  else { s with onInvalidate := s.onInvalidate ++ [callback] }

/-- `mem_buffers::invalidate` enters `invalidate_impl`. -/
def invalidate (s : MemBuffers) (byServer : Bool) : MemBuffers :=
  { s with calls := s.calls ++ [{ cancelServerSide := byServer, cancelClientSide := !byServer }] }

/-- The next critical section of `invalidate_impl`; a call that returned has none. -/
def invalidateImpl (s : MemBuffers) (call : InvalidateCall) :
    Option (MemBuffers × InvalidateCall) :=
  match call.stage with
  | .clientToServer =>
      some ({ s with clientToServer := s.clientToServer.invalidate call.cancelServerSide },
        { call with stage := .serverToClient })
  | .serverToClient =>
      some ({ s with serverToClient := s.serverToClient.invalidate call.cancelClientSide },
        { call with stage := .callbacks })
  | .callbacks =>
      some ({ s with
          invalidated := true
          executed := s.executed ++ s.onInvalidate
          onInvalidate := [] },
        { call with stage := .returned })
  | .returned => none

/-- `mem_pipe_endpoint::write_async`. -/
def writeAsync (s : MemBuffers) (isServer : Bool) (data : Buffer) (timeout : Option Nat) (now : Int) :
    MemBuffers :=
  if isServer then s.writeAsyncToClient data timeout now else s.writeAsyncToServer data timeout now

/-- `mem_pipe_endpoint::read_async`. -/
def readAsync (s : MemBuffers) (isServer : Bool) (timeout : Option Nat) : MemBuffers :=
  if isServer then s.readAsyncFromClient timeout else s.readAsyncFromServer timeout

def step (s : MemBuffers) : Event → Option MemBuffers
  | .writeAsync isServer data timeout now => some (s.writeAsync isServer data timeout now)
  | .readAsync isServer timeout => some (s.readAsync isServer timeout)
  | .setDisconnectCallback callback => some (s.setInvalidateCallback callback)
  | .invalidate isServer => some (s.invalidate isServer)
  | .invalidateImpl index =>
      match s.calls[index]? with
      | none => none
      | some call => (s.invalidateImpl call).map fun after =>
          { after.1 with calls := s.calls.set index after.2 }
  | .task toServer event =>
      if !event.isTask then none
      else if toServer then
        (s.clientToServer.step event).map fun buffer => { s with clientToServer := buffer }
      else (s.serverToClient.step event).map fun buffer => { s with serverToClient := buffer }

def machine : Lib.Machine MemBuffers Event where
  step := step

end MemBuffers

end CommonRpc
