/-
Module: CommonRpc.Core.ServerConnector
Purpose: `server_connector::impl`: start, stop, and the chain of continuations behind each `create_pipe` call.
  A run shares one flag between the connector and its chains; the chains of a stopped run go on, and only the
  flag tells them from those of a newer run. Every critical section of the mutex is one step, and so is every
  completion a chain waits for; what the pipes, the authenticator and `create_service` answer is part of the
  event. The messages are kept abstract: the connector only hands them from the pipe to the authenticator.
Trusted boundary: `create_pipe` does not throw (CommonRpc.Core.ServerConnectorFailures has one that may);
  `cancel_pending_server_endpoints` is not modelled, since a pending `create_pipe` may end in any way at any time;
  connection ids do not wrap
-/
import CommonRpc.Core.Types
import CommonRpc.Lib.Transition

namespace CommonRpc

universe u

/-- What the chain of one `create_pipe` call waits for. -/
inductive ConnectStage where
  /-- The result of `create_pipe`. -/
  | creating
  /-- There is no pipe: the handler of the exception will run `stop_impl`. -/
  | refused
  /-- There is a pipe: the continuation will run `start_pipe_connect(false)`. -/
  | connected
  /-- The authentication request. -/
  | reading
  /-- The result of writing the response. -/
  | writing
  /-- `notify_on_new_connection`. -/
  | established
  /-- The `finally` that erases the connection id. -/
  | finishing
  | finished
deriving DecidableEq, Repr

/-- The chain of one `create_pipe` call: what its continuations captured, and what they were given. -/
structure ConnectChain (β : Type u) where
  connectionId : Nat
  /-- The run whose `is_running_sp` was captured. -/
  run : Nat
  stage : ConnectStage := .creating
  pipe : Option Nat := none
  /-- What `check_request` was asked, and its answer. -/
  checked : Option (β × Bool) := none
  /-- What `create_response` made of the checked message. -/
  response : Option β := none
  /-- What the write of the response ended with, if the chain went on after it. -/
  written : Option PipeOpRes := none
deriving DecidableEq, Repr

/-- A task posted to `m_notify_strand`. -/
inductive Notification where
  | started
  | newConnection (id pipe : Nat)
  | stopped
deriving DecidableEq, Repr

/-- `server_connector::impl`. -/
structure ServerConnector (β : Type u) where
  nextConnectionId : Nat := 0
  /-- The flag of each run. -/
  runs : List Bool := []
  /-- `m_is_running_sp`, as the number of the run it belongs to. -/
  isRunningSp : Option Nat := none
  /-- The keys of `m_connection_future_map`. -/
  connectionFutureMap : List Nat := []
  chains : List (ConnectChain β) := []
  /-- The calls of `stop` that have read `m_is_running_sp` and not yet called `stop_impl`. -/
  stops : List (Option Nat) := []
  notifications : List Notification := []
deriving DecidableEq, Repr

namespace ServerConnector

variable {β : Type u}

/-- What the environment may let happen next; `chain` is the number of a chain. -/
inductive Event (β : Type u) where
  | start
  | stop
  | stopImpl (index : Nat)
  /-- `create_pipe` ends, with a pipe or without. -/
  | pipeResult (chain : Nat) (pipe : Option Nat)
  | connectNext (chain : Nat)
  | refuse (chain : Nat)
  /-- The read ends; the last two arguments are the answers of the authenticator. -/
  | readCompletes (chain : Nat) (res : PipeOpRes) (request : β) (accepted : Bool) (response : β)
  /-- The write ends; `create_service` may throw. -/
  | writeCompletes (chain : Nat) (res : PipeOpRes) (serviceThrows : Bool)
  | notifyOnNewConnection (chain : Nat)
  | eraseConnectionFutureFromMap (chain : Nat)
deriving DecidableEq, Repr

/-- The step hands neither a pipe nor a message to a chain. -/
def Event.isLocal : Event β → Bool
  | .pipeResult .. | .readCompletes .. => false
  | _ => true

/-- `is_running_sp && *is_running_sp`. -/
def isRunning (s : ServerConnector β) (run : Option Nat) : Bool :=
  run.any fun run => s.runs.getD run false

def isActive (s : ServerConnector β) : Bool := s.isRunning s.isRunningSp

def getPendingConnectionsCount (s : ServerConnector β) : Nat := s.connectionFutureMap.length

/-- The part of `start_pipe_connect` after its checks. -/
def createPipe (s : ServerConnector β) (run : Nat) : ServerConnector β :=
  { s with
    nextConnectionId := s.nextConnectionId + 1
    connectionFutureMap := s.connectionFutureMap ++ [s.nextConnectionId]
    chains := s.chains ++ [{ connectionId := s.nextConnectionId, run := run }] }

def startPipeConnect (s : ServerConnector β) (firstTime : Bool) (run : Nat) :
    Except String (ServerConnector β) :=
  if firstTime then
    if s.isActive then .error "server connector already running"
    else
      let started : ServerConnector β := { s with
        notifications := s.notifications ++ [.started]
        runs := s.runs ++ [true]
        isRunningSp := some run }
      .ok (started.createPipe run)
  else if !s.isRunning (some run) then .ok s
  else .ok (s.createPipe run)

/-- `start`: the new flag gets the next number. -/
def start (s : ServerConnector β) : Except String (ServerConnector β) :=
  s.startPipeConnect true s.runs.length

def stopImpl (s : ServerConnector β) : Option Nat → ServerConnector β
  | none => s
  | some run =>
      if !s.isRunning (some run) then s
      else { s with
        runs := s.runs.set run false
        isRunningSp := none
        connectionFutureMap := []
        notifications := s.notifications ++ [.stopped] }

/-- Let a chain that is in `stage` take its next step. -/
def onChain (s : ServerConnector β) (index : Nat) (stage : ConnectStage)
    (next : ConnectChain β → ServerConnector β) : Option (ServerConnector β) :=
  match s.chains[index]? with
  | none => none
  | some chain => if chain.stage = stage then some (next chain) else none

def setChain (s : ServerConnector β) (index : Nat) (chain : ConnectChain β) : ServerConnector β :=
  { s with chains := s.chains.set index chain }

/-- The continuation of the read. -/
def readCompletes (chain : ConnectChain β) (res : PipeOpRes) (request : β) (accepted : Bool) (response : β) :
    ConnectChain β :=
  if res.isFail then { chain with stage := .finishing }
  else if !accepted then { chain with stage := .finishing, checked := some (request, accepted) }
  else { chain with
    stage := .writing
    checked := some (request, accepted)
    response := some response }

/-- The continuation of the write, up to the new connection. -/
def writeCompletes (chain : ConnectChain β) (res : PipeOpRes) (serviceThrows : Bool) : ConnectChain β :=
  if res.isFail then { chain with stage := .finishing }
  else if serviceThrows then { chain with stage := .finishing, written := some res }
  else { chain with stage := .established, written := some res }

/-- The task that `notify_on_new_connection` posts for the connection over the pipe of the chain. -/
def announcement (chain : ConnectChain β) : List Notification :=
  (chain.pipe.map fun pipe => .newConnection chain.connectionId pipe).toList

def step (s : ServerConnector β) : Event β → Option (ServerConnector β)
  | .start =>
      match s.start with
      | .ok t => some t
      | .error _ => some s
  | .stop => some { s with stops := s.stops ++ [s.isRunningSp] }
  | .stopImpl index =>
      match s.stops[index]? with
      | none => none
      | some run => some ({ s with stops := s.stops.eraseIdx index }.stopImpl run)
  | .pipeResult index pipe =>
      s.onChain index .creating fun chain => s.setChain index
        { chain with stage := if pipe.isSome then .connected else .refused, pipe := pipe }
  | .connectNext index =>
      s.onChain index .connected fun chain =>
        let reading := s.setChain index { chain with stage := .reading }
        match reading.startPipeConnect false chain.run with
        | .ok t => t
        | .error _ => reading
  | .refuse index =>
      s.onChain index .refused fun chain =>
        (s.setChain index { chain with stage := .finished }).stopImpl (some chain.run)
  | .readCompletes index res request accepted response =>
      s.onChain index .reading fun chain =>
        s.setChain index (readCompletes chain res request accepted response)
  | .writeCompletes index res serviceThrows =>
      s.onChain index .writing fun chain => s.setChain index (writeCompletes chain res serviceThrows)
  | .notifyOnNewConnection index =>
      s.onChain index .established fun chain =>
        { s.setChain index { chain with stage := .finishing } with
          notifications :=
            if s.isRunning (some chain.run) then s.notifications ++ announcement chain
            else s.notifications }
  | .eraseConnectionFutureFromMap index =>
      s.onChain index .finishing fun chain =>
        { s.setChain index { chain with stage := .finished } with
          connectionFutureMap := s.connectionFutureMap.erase chain.connectionId }

def machine (β : Type u) : Lib.Machine (ServerConnector β) (Event β) where
  step := step

end ServerConnector

end CommonRpc
