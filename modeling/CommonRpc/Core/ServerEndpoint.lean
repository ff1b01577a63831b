/-
Module: CommonRpc.Core.ServerEndpoint
Purpose: `server_endpoint::impl`: the registration of new connections and their removal. `process_new_connection`
  holds the mutex for its whole body, but the connection it works on may be lost between any two of its
  statements, so each statement is a step. The disconnect callback sets a promise, the promise releases the
  continuation, and the continuation first locks the weak pointer, then takes the mutex to erase the endpoint,
  and then posts the notification; each of these is a task or a step of its own.
Trusted boundary: the connector never reuses a connection id (see CommonRpc.Proofs.ServerConnector); a pipe hands
  a disconnect callback to the thread pool once, when it is lost or at once if it is lost already (for the
  in-memory pipe see MemBuffers.callbacks_accounted); `start` of an endpoint does not throw
-/
import CommonRpc.Lib.Transition

namespace CommonRpc

/-- `connection_state`: what a connection's strand is told. -/
inductive ServerEndpoint.ConnectionState where
  | connected
  | disconnected
deriving DecidableEq, Repr

/-- How far `process_new_connection` has got. -/
inductive Registration where
  /-- The callback of the connector has locked the weak pointer; the mutex comes next. -/
  | arrived
  /-- The mutex is held and the endpoint is made. -/
  | entered
  | callbackSet
  | started
  | inserted
  | announced
  /-- The continuation is attached and the mutex is free again. -/
  | registered
  /-- `m_is_finalizing` was set. -/
  | rejected
deriving DecidableEq, Repr

namespace Registration

/-- The mutex is held. -/
def isInside : Registration → Bool
  | .entered | .callbackSet | .started | .inserted | .announced => true
  | .arrived | .registered | .rejected => false

def isInserted : Registration → Bool
  | .inserted | .announced | .registered => true
  | .arrived | .entered | .callbackSet | .started | .rejected => false

end Registration

/-- The `thread_pool_task` given to `set_disconnect_callback`. -/
inductive DisconnectCallback where
  | unset
  /-- Kept by the pipe. -/
  | waiting
  /-- In the queue of the thread pool. -/
  | posted
  /-- `disconnect_promise` is set. -/
  | done
deriving DecidableEq, Repr

/-- The continuation of `disconnect_future`. -/
inductive DisconnectContinuation where
  | unattached
  | attached
  /-- In the queue of the thread pool. -/
  | posted
  /-- `self.lock()` succeeded; `remove_endpoint_from_map` comes next. -/
  | removing
  /-- The notification comes next. -/
  | removed
  | done
deriving DecidableEq, Repr

namespace DisconnectContinuation

/-- The promise has released the continuation. -/
def isReleased : DisconnectContinuation → Bool
  | .unattached | .attached => false
  | .posted | .removing | .removed | .done => true

def hasRemoved : DisconnectContinuation → Bool
  | .removed | .done => true
  | .unattached | .attached | .posted | .removing => false

end DisconnectContinuation

/-- A connection that the connector has handed over, with its endpoint and its strand. -/
structure RegisteredConnection where
  id : Nat
  registration : Registration := .arrived
  /-- The pipe is lost. -/
  disconnected : Bool := false
  callback : DisconnectCallback := .unset
  continuation : DisconnectContinuation := .unattached
  /-- What was posted to the strand of the connection. -/
  notifications : List ServerEndpoint.ConnectionState := []
deriving DecidableEq, Repr

namespace RegisteredConnection

/-- The pipe is lost, or the endpoint over it is disconnected or destroyed. -/
def disconnect (c : RegisteredConnection) : RegisteredConnection :=
  { c with
    disconnected := true
    callback := if c.callback = .waiting then .posted else c.callback }

def setDisconnectCallback (c : RegisteredConnection) : RegisteredConnection :=
  { c with callback := if c.disconnected then .posted else .waiting }

/-- `disconnect_future.then(..)`: a continuation of a settled future is posted at once. -/
def attachContinuation (c : RegisteredConnection) : RegisteredConnection :=
  { c with continuation := if c.callback = .done then .posted else .attached }

/-- `disconnect_promise.set_value()`. -/
def runCallback (c : RegisteredConnection) : RegisteredConnection :=
  { c with
    callback := .done
    continuation := if c.continuation = .attached then .posted else c.continuation }

/-- The endpoint of the connection is in the map. -/
def isStored (c : RegisteredConnection) : Bool :=
  c.registration.isInserted && !c.continuation.hasRemoved

/-- A thread that works on the connection keeps `server_endpoint::impl` alive. -/
def holdsImpl (c : RegisteredConnection) : Bool :=
  c.registration = .arrived || c.registration.isInside || c.continuation = .removing

/-- A thread works on the connection, or a task of it is in the queue of the thread pool. -/
def hasTask (c : RegisteredConnection) : Bool :=
  c.holdsImpl || c.callback = .posted || c.continuation = .posted || c.continuation = .removed

end RegisteredConnection

/-- `server_endpoint::impl`, with all the connections that were handed to it. -/
structure ServerEndpoint where
  /-- The object exists. -/
  alive : Bool := true
  /-- `server_endpoint` holds `m_impl`. -/
  owned : Bool := true
  isFinalizing : Bool := false
  /-- The keys of `m_endpoints_map`. -/
  endpointsMap : List Nat := []
  /-- The connection whose `process_new_connection` holds `m_mtx`. -/
  mtx : Option Nat := none
  connections : List RegisteredConnection := []
deriving DecidableEq, Repr

namespace ServerEndpoint

/-- What may happen next; `index` is the number of a connection. -/
inductive Event where
  /-- The connector calls back with a new connection. -/
  | onNewConnection (id : Nat)
  /-- The next statement of `process_new_connection`. -/
  | processNewConnection (index : Nat)
  | disconnect (index : Nat)
  | runCallback (index : Nat)
  | runContinuation (index : Nat)
  | removeEndpointFromMap (index : Nat)
  | postDisconnected (index : Nat)
  | finalize
  /-- The end of `~server_endpoint`. -/
  | release
  /-- The last owner of `m_impl` is gone. -/
  | destroyImpl
deriving DecidableEq, Repr

def getActiveConnectionsCount (s : ServerEndpoint) : Nat := s.endpointsMap.length

/-- What was posted to the strands of the connections with this id. -/
def strand (s : ServerEndpoint) (id : Nat) : List ConnectionState :=
  (s.connections.filter fun c => c.id = id).flatMap RegisteredConnection.notifications

/-- No thread works on a connection and no task of one is left in the thread pool. -/
def isIdle (s : ServerEndpoint) : Bool := s.connections.all fun c => !c.hasTask

def setConnection (s : ServerEndpoint) (index : Nat) (c : RegisteredConnection) : ServerEndpoint :=
  { s with connections := s.connections.set index c }

/-- Every endpoint in the map loses its pipe. -/
def disconnectStored (s : ServerEndpoint) : List RegisteredConnection :=
  s.connections.map fun c => if s.endpointsMap.contains c.id then c.disconnect else c

def processNewConnection (s : ServerEndpoint) (index : Nat) (c : RegisteredConnection) :
    Option ServerEndpoint :=
  match c.registration with
  | .arrived =>
      if s.mtx.isSome then none
      -- the connection is destroyed with the argument of the function
      else if s.isFinalizing then
        some (s.setConnection index { c.disconnect with registration := .rejected })
      else some { s.setConnection index { c with registration := .entered } with mtx := some index }
  | .entered => some (s.setConnection index { c.setDisconnectCallback with registration := .callbackSet })
  | .callbackSet => some (s.setConnection index { c with registration := .started })
  | .started =>
      -- `insert` leaves an entry with the same key alone, and the new endpoint is destroyed
      if s.endpointsMap.contains c.id then
        some (s.setConnection index { c.disconnect with registration := .inserted })
      else some { s.setConnection index { c with registration := .inserted } with
        endpointsMap := s.endpointsMap ++ [c.id] }
  | .inserted =>
      some (s.setConnection index
        { c with registration := .announced, notifications := c.notifications ++ [.connected] })
  | .announced =>
      some { s.setConnection index { c.attachContinuation with registration := .registered } with mtx := none }
  | .registered | .rejected => none

def runContinuation (s : ServerEndpoint) (index : Nat) (c : RegisteredConnection) : ServerEndpoint :=
  s.setConnection index { c with continuation := if s.alive then .removing else .removed }

def removeEndpointFromMap (s : ServerEndpoint) (index : Nat) (c : RegisteredConnection) : ServerEndpoint :=
  { s.setConnection index { c.disconnect with continuation := .removed } with
    endpointsMap := s.endpointsMap.erase c.id }

/-- `finalize`; the mutex is free. -/
def finalize (s : ServerEndpoint) : ServerEndpoint :=
  { s with isFinalizing := true, connections := s.disconnectStored }

/-- The destructor of `impl` destroys the map with its endpoints. -/
def destroyImpl (s : ServerEndpoint) : ServerEndpoint :=
  { s with alive := false, endpointsMap := [], connections := s.disconnectStored }

/-- Let a step of the connection with this number happen, if its guard allows it. -/
def onConnection (s : ServerEndpoint) (index : Nat) (guard : RegisteredConnection → Bool)
    (next : RegisteredConnection → Option ServerEndpoint) : Option ServerEndpoint :=
  match s.connections[index]? with
  | none => none
  | some c => if guard c then next c else none

def step (s : ServerEndpoint) : Event → Option ServerEndpoint
  | .onNewConnection id =>
      if s.alive && s.connections.all (fun c => c.id != id) then
        some { s with connections := s.connections ++ [{ id := id }] }
      else none
  | .processNewConnection index => s.onConnection index (fun _ => true) (s.processNewConnection index)
  | .disconnect index =>
      s.onConnection index (fun _ => true) fun c => some (s.setConnection index c.disconnect)
  | .runCallback index =>
      s.onConnection index (fun c => c.callback = .posted) fun c =>
        some (s.setConnection index c.runCallback)
  | .runContinuation index =>
      s.onConnection index (fun c => c.continuation = .posted) fun c => some (s.runContinuation index c)
  | .removeEndpointFromMap index =>
      s.onConnection index (fun c => c.continuation = .removing && s.mtx.isNone) fun c =>
        some (s.removeEndpointFromMap index c)
  | .postDisconnected index =>
      s.onConnection index (fun c => c.continuation = .removed) fun c =>
        some (s.setConnection index
          { c with continuation := .done, notifications := c.notifications ++ [.disconnected] })
  | .finalize => if s.owned && s.mtx.isNone then some s.finalize else none
  | .release => if s.owned && s.isFinalizing then some { s with owned := false } else none
  | .destroyImpl =>
      if s.alive && !s.owned && s.connections.all (fun c => !c.holdsImpl) then some s.destroyImpl else none

def machine : Lib.Machine ServerEndpoint Event where
  step := step

end ServerEndpoint

end CommonRpc
