/-
Module: CommonRpc.Core.Peers
Purpose: Two peers joined by a message pipe. A peer is a channel over a connection with a service; the pipe
  takes whole frames from the outbox of one connection to the receive loop of the other, in order. A write
  that fails may leave its frame undelivered. What a thread pool may run is picked by the event that runs it.
Trusted boundary: the pipe neither changes nor invents frames
-/
import CommonRpc.Core.Channel
import CommonRpc.Core.Connection
import CommonRpc.Core.Service
import Mathlib.Logic.Function.Basic

namespace CommonRpc

structure Peer where
  channel : Channel := {}
  connection : Connection
  service : Service

namespace Peer

/-- What may happen inside one peer. -/
inductive Event where
  | callMethod (methodIdx : UInt32) (request : ProtoMessage)
  /-- A pending call goes on to `request_async`. -/
  | request (i : Nat) (running : Bool)
  /-- A step of the connection that neither the channel, the service nor the pipe takes. -/
  | connection (e : Connection.Event)
  /-- The task posted for a request runs. -/
  | process (i : Nat)
  | complete (i : Nat) (unwinding : Bool) (res : ProtoMessage)
  /-- The continuation of an answered request sends the response. -/
  | respond (i : Nat)
  /-- The continuation of a request's future runs. -/
  | reply (i : Nat) (parseFromArray : Bytes → Bool)

def step (p : Peer) : Event → Option Peer
  | .callMethod methodIdx request => some { p with channel := p.channel.callMethod methodIdx request }
  | .request i running =>
      match p.channel.pending[i]? with
      | none => none
      | some (reqId, message) =>
          (p.connection.step (.requestAsync message running)).map fun connection =>
            let channel := { p.channel with pending := p.channel.pending.eraseIdx i }
            { p with
              connection := connection
              channel :=
                if connection.calling.isSome then channel
                -- a ready future with a null buffer, or an exception
                else if connection.refused ≠ p.connection.refused then
                  channel.onReply reqId (fun _ => false) .failed none
                else channel.onException reqId }
  | .connection e =>
      if e.isEnvironment then
        (p.connection.step e).map fun connection => { p with connection := connection }
      else none
  | .process i =>
      p.connection.toService[i]?.map fun message =>
        { p with
          connection := { p.connection with toService := p.connection.toService.eraseIdx i }
          service := p.service.process message }
  | .complete i unwinding res =>
      (p.service.complete i unwinding res).map fun service => { p with service := service }
  | .respond i =>
      match p.service.responses[i]? with
      | none => none
      | some response =>
          (p.connection.step (.respond response)).map fun connection =>
            { p with
              connection := connection
              service := { p.service with responses := p.service.responses.eraseIdx i } }
  | .reply i parseFromArray =>
      match p.connection.results[i]? with
      | none => none
      | some outcome =>
          if ∃ report ∈ p.channel.reports, report.reqId = some outcome.number then none
          else some { p with
            channel := p.channel.onReply outcome.number parseFromArray outcome.result outcome.buffer }

end Peer

/-- The two ends of the pipe. -/
inductive Side where
  | left
  | right
deriving DecidableEq, Repr

def Side.other : Side → Side
  | .left => .right
  | .right => .left

abbrev Peers := Side → Peer

namespace Peers

inductive Event where
  | on (side : Side) (e : Peer.Event)
  /-- The oldest frame of a side arrives at the other. -/
  | deliver (side : Side)
  /-- The oldest frame of a side is lost with its write. -/
  | lose (side : Side)

/-- The pipe takes the oldest frame of a peer. -/
def takeFrame (p : Peer) : Option (Bytes × Peer) :=
  match p.connection.outbox with
  | [] => none
  | frame :: rest => some (frame, { p with connection := { p.connection with outbox := rest } })

/-- The receive loop of a peer gets a frame. -/
def receiveFrame (p : Peer) (frame : Bytes) : Option Peer :=
  (p.connection.step (.received (some frame))).map fun connection => { p with connection := connection }

def step (s : Peers) : Event → Option Peers
  | .on side e => ((s side).step e).map fun p => Function.update s side p
  | .deliver side =>
      match takeFrame (s side) with
      | none => none
      | some (frame, p) =>
          (receiveFrame (s side.other) frame).map fun q =>
            Function.update (Function.update s side p) side.other q
  | .lose side => (takeFrame (s side)).map fun (_, p) => Function.update s side p

def machine : Lib.Machine Peers Event where
  step := step

/-- Fewer than `2 ^ 64 - 1` calls get a number on each channel. -/
def fewCalls (s : Peers) : Event → Bool
  | .on side (.callMethod _ _) => decide ((s side).channel.calls.length + 1 < 2 ^ 64 - 1)
  | _ => true

/-- Two peers with fresh connections, each with a service. -/
def initial (pingTimeout : Int) (gservice : Side → Option ServiceDescriptor) : Peers := fun side =>
  { connection := Connection.initial true pingTimeout, service := { gservice := gservice side } }

end Peers

end CommonRpc
