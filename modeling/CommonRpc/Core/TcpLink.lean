/-
Module: CommonRpc.Core.TcpLink
Purpose: Two `tcp_pipe_endpoint`s joined by a TCP connection. What one socket was given and the other has not
  handed out yet is on the wire, one stream of bytes for each direction. A socket that reports bytes takes them
  from the front of the stream that comes its way. A connection that breaks is one whose bytes never arrive.
Trusted boundary: TCP neither changes, invents, repeats nor reorders bytes
-/
import CommonRpc.Core.Peers
import CommonRpc.Core.TcpPipeEndpoint

namespace CommonRpc

structure TcpLink where
  ends : Side → TcpPipeEndpoint := fun _ => {}
  /-- The bytes a side has sent and the other has not received. -/
  wire : Side → Bytes := fun _ => []

namespace TcpLink

/-- The bytes an event of an endpoint puts on the wire. -/
def sent (endpoint : TcpPipeEndpoint) : TcpPipeEndpoint.Event → Bytes
  | .written index _ bytes =>
      match endpoint.writes.outstanding[index]? with
      | none => []
      | some socketOp => TcpPipeEndpoint.sentOf bytes socketOp.buffer
  | _ => []

/-- The bytes an event of an endpoint takes off the wire. -/
def arrived : TcpPipeEndpoint.Event → Bytes
  | .received _ _ chunk => chunk
  | _ => []

def step (s : TcpLink) : Side × TcpPipeEndpoint.Event → Option TcpLink
  | (side, e) =>
      if arrived e <+: s.wire side.other then
        ((s.ends side).step e).map fun endpoint =>
          { ends := Function.update s.ends side endpoint
            wire := Function.update
              (Function.update s.wire side (s.wire side ++ sent (s.ends side) e))
              side.other ((s.wire side.other).drop (arrived e).length) }
      else none

def machine : Lib.Machine TcpLink (Side × TcpPipeEndpoint.Event) where
  step := step

end TcpLink

end CommonRpc
