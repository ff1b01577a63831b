/-
Module: CommonRpc.Core.TcpPeers
Purpose: Two peers whose connections have their `transport` over the two ends of a TCP link: the whole stack from
  `channel::CallMethod` down to the sockets. A frame a connection sends is a `write_async` of its endpoint with
  the send timeout; its receive loop is one `read_async` without a timeout at a time; `is_running` is
  `is_connected` of the endpoint and stopping it is `invalidate`. The continuations of the write and read
  futures run when a thread picks them up, in any order.
Trusted boundary: after the handshake only the connection uses its endpoint
-/
import CommonRpc.Core.Peers
import CommonRpc.Core.TcpLink

namespace CommonRpc

/-- A peer, with the futures its connection waits for. A future that the endpoint refused has no operation; it is
    ready with `failed`. -/
structure TcpPeer where
  peer : Peer
  /-- The requests whose send callback has not run, with their writes. -/
  sends : List (UInt64 × Option Nat) := []
  /-- The read whose result the receive loop has not taken; a loop that ended keeps its last one. -/
  reading : Option (Option Nat) := none

structure TcpPeers where
  sides : Side → TcpPeer
  link : TcpLink := {}

namespace TcpPeers

/-- What a future of an endpoint is ready with; `none` while it is not ready. -/
def resultOf (results : List OpResult) : Option Nat → Option (PipeOpRes × Buffer)
  | none => some (.failed, none)
  | some id => (results.find? fun r => r.id = id).map fun r => (r.result, r.buffer)

/-- The operation a call on an endpoint creates, unless it is refused. -/
def operation (common : EndpointCommon) (nextOpId : Nat) : Option Nat :=
  if common.isOpen then some nextOpId else none

inductive Event where
  /-- A step of the channel, the connection or the service that no future of the endpoint triggers. -/
  | peer (side : Side) (e : Peer.Event)
  /-- The receive loop calls `recv_async`. -/
  | recvAsync (side : Side)
  /-- The continuation of the receive loop runs. -/
  | received (side : Side)
  /-- The send callback of a request runs. -/
  | sendDone (side : Side) (number : UInt64)
  /-- A socket, a timer or a disconnect callback of an endpoint. -/
  | endpoint (side : Side) (e : TcpPipeEndpoint.Event)

/-- The steps that a peer takes by itself; what `m_transport.is_running()` answers is the endpoint's. -/
def isOwn (endpoint : TcpPipeEndpoint) : Peer.Event → Bool
  | .request _ running => running == endpoint.common.isOpen
  | .connection (.sendDone _ _) | .connection (.receiveEnd _) => false
  | _ => true

/-- Whether a step calls `m_transport.stop()`. -/
def stops (c : Connection) : Peer.Event → Bool
  | .connection .deactivate => true
  | .connection (.watch now) => c.watcher.isConnectionNotResponding now
  | _ => false

/-- The events that come from a socket, a timer or `set_stop_callback`. -/
def isIo : TcpPipeEndpoint.Event → Bool
  | .writeAsync _ _ | .readAsync _ | .invalidate => false
  | _ => true

/-- The calls of a transport: its connection's frames, and a stop. -/
def calls (side : Side) (frames : List Bytes) (stop : Bool) : List (Side × TcpPipeEndpoint.Event) :=
  (frames.map fun frame => (side, .writeAsync frame true)) ++ if stop then [(side, .invalidate)] else []

/-- The frames of the connection leave it for the endpoint. -/
def transmit (s : TcpPeers) (side : Side) (own : TcpPeer) (stop : Bool) : Option TcpPeers :=
  let peer := own.peer
  (TcpLink.machine.run s.link (calls side peer.connection.outbox stop)).map fun link =>
    { sides := Function.update s.sides side
        { own with peer := { peer with connection := { peer.connection with outbox := [] } } }
      link := link }

/-- The send futures after a step: `request_async` attaches its callback to a new one. -/
def attach (own : TcpPeer) (endpoint : TcpPipeEndpoint) : Peer.Event → List (UInt64 × Option Nat)
  | .connection .requestSend =>
      own.sends ++ (own.peer.connection.calling.toList.map fun (number, _) =>
        (number, operation endpoint.common endpoint.writes.nextOpId))
  | _ => own.sends

def step (s : TcpPeers) : Event → Option TcpPeers
  | .peer side e =>
      let own := s.sides side
      let endpoint := s.link.ends side
      if isOwn endpoint e then
        (own.peer.step e).bind fun peer =>
          s.transmit side { own with peer := peer, sends := attach own endpoint e } (stops own.peer.connection e)
      else none
  | .recvAsync side =>
      let own := s.sides side
      let endpoint := s.link.ends side
      if own.peer.connection.receiving ∧ own.reading = none then
        (s.link.step (side, .readAsync false)).map fun link =>
          { sides := Function.update s.sides side
              { own with reading := some (operation endpoint.common endpoint.reads.nextOpId) }
            link := link }
      else none
  | .received side =>
      let own := s.sides side
      match own.reading.bind (resultOf (s.link.ends side).reads.results) with
      | none => none
      | some (.success, message) =>
          (own.peer.connection.step (.received message)).bind fun connection =>
            s.transmit side { own with peer := { own.peer with connection := connection }, reading := none } false
      | some (result, _) =>
          (own.peer.connection.step (.receiveEnd result)).map fun connection =>
            { s with
              sides := Function.update s.sides side
                { own with peer := { own.peer with connection := connection } } }
  | .sendDone side number =>
      let own := s.sides side
      match own.sends.find? fun send => send.1 = number with
      | none => none
      | some send =>
          match resultOf (s.link.ends side).writes.results send.2 with
          | none => none
          | some (result, _) =>
              (own.peer.connection.step (.sendDone number result)).map fun connection =>
                { s with
                  sides := Function.update s.sides side
                    { own with
                      peer := { own.peer with connection := connection }
                      sends := own.sends.erase send } }
  | .endpoint side e =>
      if isIo e then (s.link.step (side, e)).map fun link => { s with link := link } else none

def machine : Lib.Machine TcpPeers Event where
  step := step

/-- Fresh connections, each with a service, over a fresh link. -/
def initial (pingTimeout : Int) (gservice : Side → Option ServiceDescriptor) : TcpPeers where
  sides side := { peer := Peers.initial pingTimeout gservice side }

end TcpPeers

end CommonRpc
