/-
Module: CommonRpc.Core.Handshake
Purpose: Client connectors and a server connector over message pipes. `create_connection_async` is a chain of
  continuations like that of the server: open a pipe, write the request, read one message, ask the
  authenticator. A pipe takes whole messages in order and may lose any of them; a read or a write may end in
  any way. Once a side has its connection, the connection sends frames and dispatches what it reads. Whether a
  message was made by an authenticator or by a connection is kept with the message, and what was sent on a pipe
  is kept with the pipe; no step reads either.
Trusted boundary: a pipe neither changes, reorders nor invents messages
-/
import CommonRpc.Core.ServerConnector

namespace CommonRpc

universe u v

/-- `iauthenticator`. Its answers may depend on more than their arguments: on the object that is asked, its
    state, the time; all that is the first argument. -/
structure Authenticator (ρ : Type v) (β : Type u) where
  createRequest : ρ → β
  createResponse : ρ → β → β
  checkRequest : ρ → β → Bool
  checkResponse : ρ → β → Bool

/-- A buffer on its way through a pipe. -/
structure PipeMessage (β : Type u) where
  bytes : β
  /-- It was made by an authenticator, not by a connection. -/
  isAuth : Bool
deriving DecidableEq, Repr

/-- One direction of a pipe. -/
structure Stream (β : Type u) where
  /-- What was written, in order; nothing is ever taken away from it. -/
  sent : List (PipeMessage β) := []
  inFlight : List (PipeMessage β) := []
  /-- What was read, in order. -/
  received : List (PipeMessage β) := []
  /-- What a connection read and dispatched as an RPC frame. -/
  dispatched : List (PipeMessage β) := []
deriving DecidableEq, Repr

namespace Stream

variable {β : Type u}

def write (stream : Stream β) (message : PipeMessage β) : Stream β :=
  { stream with sent := stream.sent ++ [message], inFlight := stream.inFlight ++ [message] }

def read (stream : Stream β) : Option (PipeMessage β × Stream β) :=
  match stream.inFlight with
  | [] => none
  | message :: rest => some (message, { stream with
      inFlight := rest
      received := stream.received ++ [message] })

/-- The receive loop of a connection. -/
def dispatch (stream : Stream β) : Option (Stream β) :=
  stream.read.map fun (message, rest) => { rest with dispatched := rest.dispatched ++ [message] }

def lose (stream : Stream β) (index : Nat) : Stream β :=
  { stream with inFlight := stream.inFlight.eraseIdx index }

end Stream

/-- A message pipe with its two ends. -/
structure Link (β : Type u) where
  clientTaken : Bool := false
  serverTaken : Bool := false
  toServer : Stream β := {}
  toClient : Stream β := {}
deriving DecidableEq, Repr

/-- What the chain of `create_connection_async` waits for. -/
inductive ClientStage where
  /-- The result of `open_pipe`. -/
  | opening
  /-- The result of writing the request. -/
  | writing
  /-- The response. -/
  | reading
  /-- The future holds a connection. -/
  | connected
  /-- The future holds an exception. -/
  | failed
deriving DecidableEq, Repr

/-- One call of `create_connection_async`. -/
structure ClientCall (β : Type u) where
  stage : ClientStage := .opening
  pipe : Option Nat := none
  /-- What `create_request` returned. -/
  request : Option β := none
  /-- What `check_response` was asked, and its answer. -/
  checked : Option (PipeMessage β × Bool) := none
deriving DecidableEq, Repr

structure Handshake (β : Type u) where
  server : ServerConnector (PipeMessage β) := {}
  clients : List (ClientCall β) := []
  links : List (Link β) := []
deriving DecidableEq, Repr

namespace Handshake

variable {ρ : Type v} {β : Type u}

/-- What may happen next; results of pipes are part of the event, and so is what the answer of an authenticator
    depends on besides its arguments. -/
inductive Event (ρ : Type v) (β : Type u) where
  /-- The pipe environments establish a pipe. -/
  | establish
  | createConnectionAsync
  /-- `open_pipe` ends; with a pipe, the request is written. -/
  | openResult (call : Nat) (pipe : Option Nat) (chance : ρ)
  | requestWritten (call : Nat) (res : PipeOpRes)
  /-- The client reads a message, and `check_response` answers. -/
  | responseRead (call : Nat) (chance : ρ)
  | responseReadFails (call : Nat)
  | clientSends (call : Nat) (frame : β)
  | clientDispatches (call : Nat)
  /-- A step of the server connector that takes nothing from a pipe. -/
  | server (e : ServerConnector.Event (PipeMessage β))
  | pipeResult (chain : Nat) (pipe : Option Nat)
  /-- The server reads a message, and `check_request` and `create_response` answer. -/
  | requestRead (chain : Nat) (chance : ρ)
  /-- The read of the server fails; the buffer it is given is not looked at. -/
  | requestReadFails (chain : Nat) (res : PipeOpRes) (buffer : β)
  | serverSends (pipe : Nat) (frame : β)
  | serverDispatches (pipe : Nat)
  | lose (pipe : Nat) (toServer : Bool) (index : Nat)
deriving DecidableEq, Repr

def setCall (s : Handshake β) (index : Nat) (client : ClientCall β) : Handshake β :=
  { s with clients := s.clients.set index client }

def setLink (s : Handshake β) (pipe : Nat) (link : Link β) : Handshake β :=
  { s with links := s.links.set pipe link }

/-- Let a call that is in `stage` take its next step. -/
def onCall (s : Handshake β) (index : Nat) (stage : ClientStage)
    (next : ClientCall β → Option (Handshake β)) : Option (Handshake β) :=
  match s.clients[index]? with
  | none => none
  | some client => if client.stage = stage then next client else none

def onLink (s : Handshake β) (pipe : Option Nat) (next : Nat → Link β → Option (Handshake β)) :
    Option (Handshake β) :=
  match pipe with
  | none => none
  | some pipe =>
      match s.links[pipe]? with
      | none => none
      | some link => next pipe link

/-- The server connector has published a connection over the pipe. -/
def published (s : Handshake β) (pipe : Nat) : Bool :=
  s.server.notifications.any fun
    | .newConnection _ overPipe => overPipe = pipe
    | _ => false

/-- The continuation of `open_pipe`. -/
def openResult (s : Handshake β) (index : Nat) (client : ClientCall β) (request : β) :
    Option Nat → Option (Handshake β)
  | none => some (s.setCall index { client with stage := .failed })
  | some pipe => s.onLink (some pipe) fun pipe link =>
      if link.clientTaken then none
      else
        let written := { link with
          clientTaken := true
          toServer := link.toServer.write ⟨request, true⟩ }
        let writing := { client with stage := .writing, pipe := some pipe, request := some request }
        some ((s.setCall index writing).setLink pipe written)

/-- The server connector is given its end of the pipe. -/
def pipeResult (s : Handshake β) (chain : Nat) : Option Nat → Option (Handshake β)
  | none => (s.server.step (.pipeResult chain none)).map fun server => { s with server := server }
  | some pipe => s.onLink (some pipe) fun pipe link =>
      if link.serverTaken then none
      else (s.server.step (.pipeResult chain (some pipe))).map fun server =>
        { s with server := server }.setLink pipe { link with serverTaken := true }

/-- The server reads the next message of the pipe of the chain; an accepted one is answered. -/
def requestRead (auth : Authenticator ρ β) (s : Handshake β) (index : Nat) (chain : ConnectChain (PipeMessage β))
    (chance : ρ) : Option (Handshake β) :=
  s.onLink chain.pipe fun pipe link =>
    link.toServer.read.bind fun (message, toServer) =>
      let accepted := auth.checkRequest chance message.bytes
      let response := ⟨auth.createResponse chance message.bytes, true⟩
      let answered := if accepted then link.toClient.write response else link.toClient
      (s.server.step (.readCompletes index .success message accepted response)).map fun server =>
        { s with server := server }.setLink pipe { link with toServer := toServer, toClient := answered }

def step (auth : Authenticator ρ β) (s : Handshake β) : Event ρ β → Option (Handshake β)
  | .establish => some { s with links := s.links ++ [{}] }
  | .createConnectionAsync => some { s with clients := s.clients ++ [{}] }
  | .openResult index pipe chance =>
      s.onCall index .opening fun client => s.openResult index client (auth.createRequest chance) pipe
  | .requestWritten index res =>
      s.onCall index .writing fun client =>
        some (s.setCall index { client with stage := if res.isFail then .failed else .reading })
  | .responseRead index chance =>
      s.onCall index .reading fun client => s.onLink client.pipe fun pipe link =>
        link.toClient.read.map fun (message, toClient) =>
          let accepted := auth.checkResponse chance message.bytes
          let checked := { client with
            stage := if accepted then .connected else .failed
            checked := some (message, accepted) }
          (s.setCall index checked).setLink pipe { link with toClient := toClient }
  | .responseReadFails index =>
      s.onCall index .reading fun client => some (s.setCall index { client with stage := .failed })
  | .clientSends index frame =>
      s.onCall index .connected fun client => s.onLink client.pipe fun pipe link =>
        some (s.setLink pipe { link with toServer := link.toServer.write ⟨frame, false⟩ })
  | .clientDispatches index =>
      s.onCall index .connected fun client => s.onLink client.pipe fun pipe link =>
        link.toClient.dispatch.map fun toClient => s.setLink pipe { link with toClient := toClient }
  | .server e =>
      if e.isLocal then (s.server.step e).map fun server => { s with server := server } else none
  | .pipeResult chain pipe => s.pipeResult chain pipe
  | .requestRead index chance =>
      s.server.chains[index]?.bind fun chain => s.requestRead auth index chain chance
  | .requestReadFails index res buffer =>
      if res.isFail then
        (s.server.step (.readCompletes index res ⟨buffer, false⟩ false ⟨buffer, false⟩)).map fun server =>
          { s with server := server }
      else none
  | .serverSends pipe frame =>
      if s.published pipe then
        s.onLink (some pipe) fun pipe link =>
          some (s.setLink pipe { link with toClient := link.toClient.write ⟨frame, false⟩ })
      else none
  | .serverDispatches pipe =>
      if s.published pipe then
        s.onLink (some pipe) fun pipe link =>
          link.toServer.dispatch.map fun toServer => s.setLink pipe { link with toServer := toServer }
      else none
  | .lose pipe toServer index =>
      s.onLink (some pipe) fun pipe link =>
        some (s.setLink pipe
          (if toServer then { link with toServer := link.toServer.lose index }
          else { link with toClient := link.toClient.lose index }))

def machine (auth : Authenticator ρ β) : Lib.Machine (Handshake β) (Event ρ β) where
  step := step auth

end Handshake

end CommonRpc
