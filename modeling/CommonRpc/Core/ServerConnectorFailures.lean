/-
Module: CommonRpc.Core.ServerConnectorFailures
Purpose: `server_connector::impl` over a pipe environment whose `create_pipe` may throw. The call comes after the
  state was changed in the first call of a run, and after the checks in the later ones; an exception leaves `start`,
  or it ends the chain that asked for the next pipe and is handled as a missing pipe is. Everything else is as in
  CommonRpc.Core.ServerConnector.
Trusted boundary: `cancel_pending_server_endpoints` does not throw
-/
import CommonRpc.Core.ServerConnector

namespace CommonRpc.ServerConnector

universe u v

variable {β : Type u} {ε : Type v}

/-- What may leave `start`. -/
inductive StartError (ε : Type v) where
  | logicError (message : String)
  /-- An exception of `create_pipe`. -/
  | createPipe (exception : ε)
deriving DecidableEq, Repr

/-- `start_pipe_connect`, with the exception that `create_pipe` throws if it is called. The state is the one that
    the call leaves behind. -/
def startPipeConnectWith (s : ServerConnector β) (createPipe : Option ε) (firstTime : Bool) (run : Nat) :
    ServerConnector β × Option (StartError ε) :=
  if firstTime then
    if s.isActive then (s, some (.logicError "server connector already running"))
    else
      let started : ServerConnector β := { s with
        notifications := s.notifications ++ [.started]
        runs := s.runs ++ [true]
        isRunningSp := some run }
      match createPipe with
      | some exception => (started, some (.createPipe exception))
      | none => (started.createPipe run, none)
  else if !s.isRunning (some run) then (s, none)
  else
    match createPipe with
    | some exception => (s, some (.createPipe exception))
    | none => (s.createPipe run, none)

def startWith (s : ServerConnector β) (createPipe : Option ε) : ServerConnector β × Option (StartError ε) :=
  s.startPipeConnectWith createPipe true s.runs.length

/-- The events of a connector whose pipe environment may throw. -/
inductive FailingEvent (β : Type u) (ε : Type v) where
  | regular (event : Event β)
  /-- `start`, with a `create_pipe` that throws if it is called. -/
  | startThrows (exception : ε)
  /-- The continuation of a chain that got its pipe, with a `create_pipe` that throws if it is called. -/
  | connectNextThrows (chain : Nat) (exception : ε)
deriving DecidableEq, Repr

def failingStep (s : ServerConnector β) : FailingEvent β ε → Option (ServerConnector β)
  | .regular event => s.step event
  | .startThrows exception => some (s.startWith (some exception)).1
  | .connectNextThrows index exception =>
      s.onChain index .connected fun chain =>
        match s.startPipeConnectWith (some exception) false chain.run with
        -- the handshake goes on
        | (t, none) => t.setChain index { chain with stage := .reading }
        -- the handler of the exception will run `stop_impl`
        | (t, some _) => t.setChain index { chain with stage := .refused }

def failingMachine (β : Type u) (ε : Type v) : Lib.Machine (ServerConnector β) (FailingEvent β ε) where
  step := failingStep

end CommonRpc.ServerConnector
