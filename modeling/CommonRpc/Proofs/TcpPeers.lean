/-
Module: CommonRpc.Proofs.TcpPeers
Purpose: The whole stack over TCP refines the two peers over a message pipe. The pipe has, for each side, the
  frames of the writes that the other side has not passed yet; a message that is taken from the socket is the
  delivery of its frame after the loss of the frames that were given up before it. What holds of the peers over
  every pipe, such as that a call is answered with its own response, holds over the sockets.
Trusted boundary: none
-/
import CommonRpc.Proofs.PeerFrames
import CommonRpc.Proofs.TcpTransport

namespace CommonRpc

open Lib

/-! ### The message pipe over frames under way -/

namespace Peers

variable {s : Peers} {x : Side} {p q : Peer} {frames later : List Bytes} {frame : Bytes}

theorem takeFrame_behind (emptied : p.connection.outbox = []) :
    takeFrame (p.behind (frame :: frames)) = some (frame, p.behind frames) := by
  simp [takeFrame, Peer.behind, Connection.behind, emptied]

/-- The pipe may lose the frames before the one that arrives. -/
theorem run_lose (before : s x = p.behind (frames ++ later)) (emptied : p.connection.outbox = []) :
    (machine.restrict fewCalls).run s (List.replicate frames.length (.lose x)) =
      some (Function.update s x (p.behind later)) := by
  induction frames generalizing s with
  | nil =>
      have same : Function.update s x (p.behind later) = s := by
        rw [show p.behind later = s x from before.symm]
        exact Function.update_eq_self x s
      rw [same]
      rfl
  | cons frame frames ih =>
      have lost : (machine.restrict fewCalls).step s (.lose x) =
          some (Function.update s x (p.behind (frames ++ later))) := by
        refine Machine.restrict_step.mpr ⟨rfl, ?_⟩
        simp only [machine, step, before, List.cons_append, takeFrame_behind emptied]
        rfl
      rw [List.length_cons, List.replicate_succ, Machine.run_cons, lost]
      have rest := ih (s := Function.update s x (p.behind (frames ++ later))) (Function.update_self _ _ _)
      rw [Function.update_idem] at rest
      exact rest

theorem step_deliver {c : Connection} (before : s x = p.behind (frame :: later))
    (emptied : p.connection.outbox = []) (across : s x.other = q.behind frames)
    (received : q.connection.step (.received (some frame)) = some c) :
    (machine.restrict fewCalls).step s (.deliver x) =
      some (Function.update (Function.update s x (p.behind later)) x.other
        (({ q with connection := c } : Peer).behind frames)) := by
  refine Machine.restrict_step.mpr ⟨rfl, ?_⟩
  simp only [machine, step, before, takeFrame_behind emptied, receiveFrame, across]
  change Option.map _ (Option.map _ ((q.connection.behind frames).step _)) = _
  rw [Connection.step_behind, received]
  rfl

end Peers

/-! ### The stack and the pipe -/

namespace TcpPeers

open Peers (Side.other_other Side.other_ne)
open TcpPipeEndpoint (socketBehaves)
open TcpLink (payloads passed sentMessages Grows Feeds)

variable {t t' : TcpPeers} {s s' : Peers} {side : Side}

/-- The sockets keep their contract, and fewer than `2 ^ 64 - 1` calls get a number on each channel. -/
def proper : Machine TcpPeers Event :=
  machine.restrict fun t e =>
    match e with
    | .endpoint side e => socketBehaves (t.link.ends side) e
    | .peer side (.callMethod _ _) => decide ((t.sides side).peer.channel.calls.length + 1 < 2 ^ 64 - 1)
    | _ => true

/-- The receive loop of a side: it has one read at most, the last one that became active, and all that became
    active before were received. -/
structure Reader (own : TcpPeer) (reads : OpSide ReadOperation) : Prop where
  idle : own.reading = none →
    reads.operations = [] ∧ reads.activated.length = own.peer.connection.received.length
  waiting : ∀ id, own.reading = some (some id) →
    reads.activated.length = own.peer.connection.received.length + 1 ∧ reads.activated.getLast? = some id ∧
      ∀ data ∈ reads.operations, data.id = id

/-- The frames that are under way once so many messages were taken: those of the later writes, and those that a
    closed endpoint refused. -/
def Underway (endpoint : TcpPipeEndpoint) (taken : Nat) (frames : List Bytes) : Prop :=
  ∃ refused, frames = (payloads endpoint).drop (passed endpoint taken) ++ refused ∧
    (refused ≠ [] → endpoint.common.isOpen = false)

theorem Underway.grow {endpoint endpoint' : TcpPipeEndpoint} {taken : Nat} {frames new : List Bytes}
    (underway : Underway endpoint taken frames) (framed : endpoint.Framed) (grows : Grows endpoint endpoint')
    (within : taken ≤ endpoint.writes.activated.length)
    (accepted : payloads endpoint' = payloads endpoint ++ if endpoint.common.isOpen then new else []) :
    Underway endpoint' taken (frames ++ new) := by
  obtain ⟨refused, rfl, closed⟩ := underway
  have place := TcpLink.passed_le framed taken
  cases isOpen : endpoint.common.isOpen with
  | true =>
      have none : refused = [] := by_contra fun some_ => by simp [closed some_] at isOpen
      rw [isOpen, if_pos rfl] at accepted
      refine ⟨[], ?_, fun some_ => absurd rfl some_⟩
      rw [none, grows.passed within, accepted, List.drop_append_of_le_length place, List.append_nil,
        List.append_nil]
  | false =>
      rw [isOpen, if_neg (by simp), List.append_nil] at accepted
      refine ⟨refused ++ new, ?_, fun _ => ?_⟩
      · rw [grows.passed within, accepted, List.append_assoc]
      · exact Bool.eq_false_iff.mpr fun still => by simp [grows.closes still] at isOpen

/-- The stack and the peers over the pipe are in the same state, except that what the pipe has is with the
    endpoints and on the wire. -/
structure Stack (t : TcpPeers) (s : Peers) : Prop where
  joined : t.link.Joined
  emptied : ∀ side, (t.sides side).peer.connection.outbox = []
  reader : ∀ side, Reader (t.sides side) (t.link.ends side).reads
  arrived : ∀ side : Side,
    (t.sides side.other).peer.connection.received <+: (sentMessages (t.link.ends side)).map some
  underway : ∀ side : Side, ∃ frames, s side = (t.sides side).peer.behind frames ∧
    Underway (t.link.ends side) (t.sides side.other).peer.connection.received.length frames

theorem Stack.within (stack : Stack t s) (side : Side) :
    (t.sides side.other).peer.connection.received.length ≤ (t.link.ends side).writes.activated.length := by
  have lengths := (stack.arrived side).length_le
  simpa [sentMessages] using lengths

/-- One side takes a step, at whatever the pipe does for it. -/
theorem Stack.update (stack : Stack t s) {own : TcpPeer} {link : TcpLink} {frames new : List Bytes}
    (feeds : Feeds t.link link side new) (emptied : own.peer.connection.outbox = [])
    (reader : Reader own (link.ends side).reads)
    (arrived : own.peer.connection.received <+: (sentMessages (t.link.ends side.other)).map some)
    (underway : Underway (t.link.ends side) (t.sides side.other).peer.connection.received.length frames)
    (here : s' side = own.peer.behind (frames ++ new))
    (there : ∃ frames, s' side.other = (t.sides side.other).peer.behind frames ∧
      Underway (t.link.ends side.other) own.peer.connection.received.length frames) :
    Stack ⟨Function.update t.sides side own, link⟩ s' := by
  have self : Function.update t.sides side own side = own := Function.update_self _ _ _
  have across : Function.update t.sides side own side.other = t.sides side.other :=
    Function.update_of_ne (Side.other_ne side) _ _
  have other := feeds.other
  refine ⟨feeds.joined, fun x => ?_, fun x => ?_, fun x => ?_, fun x => ?_⟩
  · rcases Side.eq_or_eq_other side x with rfl | rfl
    · simp only [self]
      exact emptied
    · simp only [across]
      exact stack.emptied side.other
  · rcases Side.eq_or_eq_other side x with rfl | rfl
    · simp only [self]
      exact reader
    · simp only [across, other]
      exact stack.reader side.other
  · rcases Side.eq_or_eq_other side x with rfl | rfl
    · simp only [across]
      refine (stack.arrived x).trans ?_
      obtain ⟨more, same⟩ := feeds.grows.sentMessages (stack.joined.framed x)
      rw [← same, List.map_append]
      exact List.prefix_append _ _
    · simp only [Side.other_other, self, other]
      exact arrived
  · rcases Side.eq_or_eq_other side x with rfl | rfl
    · simp only [self, across]
      exact ⟨_, here, underway.grow (stack.joined.framed x) feeds.grows (stack.within x) feeds.accepted⟩
    · simp only [Side.other_other, self, across, other]
      exact there

/-- One side takes a step of its own. -/
theorem Stack.update_own (stack : Stack t s) {own : TcpPeer} {link : TcpLink} {frames new : List Bytes}
    (feeds : Feeds t.link link side new) (emptied : own.peer.connection.outbox = [])
    (reader : Reader own (link.ends side).reads)
    (received : own.peer.connection.received = (t.sides side).peer.connection.received)
    (underway : Underway (t.link.ends side) (t.sides side.other).peer.connection.received.length frames)
    (here : s' side = own.peer.behind (frames ++ new)) (there : s' side.other = s side.other) :
    Stack ⟨Function.update t.sides side own, link⟩ s' := by
  have arrived := stack.arrived side.other
  have before := stack.underway side.other
  rw [Side.other_other] at arrived before
  refine stack.update feeds emptied reader ?_ underway here ?_
  · rwa [received]
  · rwa [there, received]

/-- A step after which the pipe has done nothing or something. -/
def Matched (s : Peers) (t' : TcpPeers) : Prop :=
  ∃ es s', (Peers.machine.restrict Peers.fewCalls).run s es = some s' ∧ Stack t' s'

/-- A step of the peers by themselves matches a step of the stack. -/
theorem matched_of_step {e : Peer.Event} {p : Peer} (few : Peers.fewCalls s (.on side e) = true)
    (stepped : (s side).step e = some p) (stack : Stack t' (Function.update s side p)) : Matched s t' := by
  refine ⟨[.on side e], _, Machine.run_cons_eq_some.mpr ⟨_, Machine.restrict_step.mpr ⟨few, ?_⟩, rfl⟩, stack⟩
  simp only [Peers.machine, Peers.step, stepped]
  rfl

theorem Reader.step {own own' : TcpPeer} {reads : OpSide ReadOperation} (reader : Reader own reads)
    (received : own'.peer.connection.received = own.peer.connection.received)
    (reading : own'.reading = own.reading) : Reader own' reads where
  idle none := by
    rw [received]
    exact reader.idle (reading ▸ none)
  waiting id some_ := by
    rw [received]
    exact reader.waiting id (reading ▸ some_)

theorem transmit_eq_some {own : TcpPeer} {stop : Bool} (sent : t.transmit side own stop = some t') :
    ∃ link, TcpLink.machine.run t.link (calls side own.peer.connection.outbox stop) = some link ∧
      t' = ⟨Function.update t.sides side
        { own with peer := { own.peer with connection := { own.peer.connection with outbox := [] } } }, link⟩ := by
  obtain ⟨link, ran, rfl⟩ := Option.map_eq_some_iff.mp sent
  exact ⟨link, ran, rfl⟩

theorem peer_matched (stack : Stack t s) (consistent : s.Consistent) {e : Peer.Event}
    (few : Peers.fewCalls s (.on side e) = true) (stepped : step t (.peer side e) = some t') : Matched s t' := by
  simp only [step, Option.ite_none_right_eq_some, Option.bind_eq_some_iff] at stepped
  obtain ⟨-, p, taken, sent⟩ := stepped
  obtain ⟨link, ran, rfl⟩ := transmit_eq_some sent
  obtain ⟨frames, before, underway⟩ := stack.underway side
  have sound := consistent.sound side
  have moved : (s side).step e = some (p.behind frames) := by
    rw [before]
    exact Peer.step_behind taken
  obtain ⟨received, new, outbox, valid⟩ := sound.speaks moved
  rw [before] at received outbox
  simp only [Peer.behind, Connection.behind, stack.emptied side, List.append_nil, List.append_cancel_left_eq]
    at received outbox
  rw [← outbox] at valid
  have sends := TcpLink.run_calls stack.joined valid ran
  apply matched_of_step few moved
  refine stack.update_own sends.toFeeds rfl ?_ received underway ?_
    (Function.update_of_ne (Side.other_ne side) _ _)
  · rw [sends.reads]
    exact (stack.reader side).step received rfl
  · rw [Function.update_self]
    simp [Peer.behind, Connection.behind]

/-- The connection of one side takes a step that sends nothing and that no call is behind. -/
theorem connection_matched (stack : Stack t s) {e : Connection.Event} {own : TcpPeer} {c : Connection}
    (env : e.isEnvironment = true) (taken : (t.sides side).peer.connection.step e = some c)
    (quiet : c.outbox = (t.sides side).peer.connection.outbox)
    (same : own.peer = { (t.sides side).peer with connection := c })
    (reading : own.reading = (t.sides side).reading) :
    Matched s { t with sides := Function.update t.sides side own } := by
  obtain ⟨frames, before, underway⟩ := stack.underway side
  have stepped : (t.sides side).peer.step (.connection e) = some own.peer := by
    simp only [Peer.step, env, if_true, taken, same]
    rfl
  have moved : (s side).step (.connection e) = some (own.peer.behind frames) := by
    rw [before]
    exact Peer.step_behind stepped
  apply matched_of_step rfl moved
  have received : own.peer.connection.received = (t.sides side).peer.connection.received := by
    rw [same]
    rcases Connection.environment_passes env taken with ⟨quiet⟩ | ⟨_, _, quiet⟩ | ⟨_, _, _, quiet⟩ <;>
      exact quiet.received
  refine stack.update_own (Feeds.refl stack.joined side) ?_ ((stack.reader side).step received reading) received
    underway ?_ (Function.update_of_ne (Side.other_ne side) _ _)
  · rw [same]
    exact quiet.trans (stack.emptied side)
  · rw [Function.update_self, List.append_nil]

theorem sendDone_matched (stack : Stack t s) {number : UInt64}
    (stepped : step t (.sendDone side number) = some t') : Matched s t' := by
  simp only [step] at stepped
  split at stepped
  · cases stepped
  · split at stepped
    · cases stepped
    · next send _ _ result _ _ =>
        obtain ⟨c, taken, rfl⟩ := Option.map_eq_some_iff.mp stepped
        refine connection_matched stack rfl taken ?_ rfl rfl
        simp only [Connection.step, Option.ite_none_right_eq_some, Option.some.injEq] at taken
        rw [← taken.2]
        exact (Connection.sendCallback_quiet { (t.sides side).peer.connection with
          sending := (t.sides side).peer.connection.sending.erase number } number result).outbox

theorem receiveEnd_matched (stack : Stack t s) {result : PipeOpRes} {c : Connection}
    (taken : (t.sides side).peer.connection.step (.receiveEnd result) = some c) :
    Matched s { t with
      sides := Function.update t.sides side
        { t.sides side with peer := { (t.sides side).peer with connection := c } } } := by
  refine connection_matched stack rfl taken ?_ rfl rfl
  simp only [Connection.step, Option.ite_none_right_eq_some, Option.some.injEq] at taken
  rw [← taken.2]
  rfl

theorem endpoint_matched (stack : Stack t s) {e : TcpPipeEndpoint.Event}
    (behaves : socketBehaves (t.link.ends side) e = true) (stepped : step t (.endpoint side e) = some t') :
    Matched s t' := by
  simp only [step, Option.ite_none_right_eq_some, Option.map_eq_some_iff] at stepped
  obtain ⟨io, link, moved, rfl⟩ := stepped
  obtain ⟨feeds, single⟩ := TcpLink.step_io stack.joined io behaves moved
  obtain ⟨frames, before, underway⟩ := stack.underway side
  have reader := stack.reader side
  have same : Function.update t.sides side (t.sides side) = t.sides := Function.update_eq_self _ _
  refine ⟨[], s, rfl, ?_⟩
  rw [show ({ t with link := link } : TcpPeers) = ⟨Function.update t.sides side (t.sides side), link⟩ by rw [same]]
  refine stack.update_own feeds (stack.emptied side) ?_ rfl underway ?_ rfl
  · refine ⟨fun none => ?_, fun id some_ => ?_⟩
    · obtain ⟨idle, count⟩ := reader.idle none
      obtain ⟨activated, still⟩ := single 0 (by simp [idle])
      rw [idle, List.map_nil, List.subset_nil, List.map_eq_nil_iff] at still
      exact ⟨still, by rw [activated, count]⟩
    · obtain ⟨count, last, only⟩ := reader.waiting id some_
      obtain ⟨activated, still⟩ := single id only
      rw [activated]
      refine ⟨count, last, fun data member => ?_⟩
      obtain ⟨old, before, same⟩ := List.mem_map.mp (still (List.mem_map_of_mem member))
      exact same ▸ only old before
  · rw [before, List.append_nil]

theorem recvAsync_matched (stack : Stack t s) (stepped : step t (.recvAsync side) = some t') : Matched s t' := by
  simp only [step, Option.ite_none_right_eq_some, Option.map_eq_some_iff] at stepped
  obtain ⟨⟨-, none⟩, link, moved, rfl⟩ := stepped
  have reader := stack.reader side
  obtain ⟨idle, count⟩ := reader.idle none
  obtain ⟨feeds, active⟩ := TcpLink.step_read stack.joined moved idle
  obtain ⟨frames, before, underway⟩ := stack.underway side
  refine ⟨[], s, rfl, ?_⟩
  refine stack.update_own feeds (stack.emptied side) ?_ rfl underway ?_ rfl
  · refine ⟨by simp, fun id some_ => ?_⟩
    simp only [operation, Option.some.injEq, Option.ite_none_right_eq_some] at some_
    obtain ⟨open_, rfl⟩ := some_
    obtain ⟨activated, only⟩ := active open_
    rw [activated, List.length_append, count]
    exact ⟨rfl, by simp, only⟩
  · rw [before, List.append_nil]

/-- The next message of the other side is the one after those that were passed. -/
theorem Underway.take {endpoint : TcpPipeEndpoint} {taken : Nat} {frames : List Bytes} {message : Bytes}
    (framed : endpoint.Framed) (underway : Underway endpoint taken frames)
    (next : (sentMessages endpoint)[taken]? = some message) :
    ∃ lost later, frames = lost ++ message :: later ∧ Underway endpoint (taken + 1) later := by
  obtain ⟨refused, rfl, closed⟩ := underway
  rw [sentMessages, List.getElem?_map, Option.map_eq_some_iff] at next
  obtain ⟨id, active, same⟩ := next
  obtain ⟨op, -, known⟩ := TcpLink.known_of_activated framed (List.mem_of_getElem? active)
  have there : (payloads endpoint)[id]? = some message := by
    rw [← same, payloads, List.getElem?_map, TcpLink.sentMessage, known]
    rfl
  have later : passed endpoint taken ≤ id := by
    cases taken with
    | zero => exact Nat.zero_le _
    | succ n =>
        obtain ⟨bound, rfl⟩ := List.getElem?_eq_some_iff.mp active
        have before : n < endpoint.writes.activated.length := by omega
        rw [passed, List.getElem?_eq_getElem before, Option.elim_some]
        exact List.pairwise_iff_getElem.mp framed.ordered.writes.increasing n (n + 1) before bound
          (Nat.lt_succ_self n)
  obtain ⟨lost, split_⟩ := Table.drop_split later there
  refine ⟨lost, (payloads endpoint).drop (id + 1) ++ refused, ?_, refused, by rw [passed, active]; rfl, closed⟩
  rw [split_, List.append_assoc, List.cons_append]

/-- A successful read of the receive loop has the next message of the other side. -/
theorem Stack.next_message (stack : Stack t s) {id : Nat} (reading : (t.sides side).reading = some (some id))
    {r : OpResult} (resolved : r ∈ (t.link.ends side).reads.results) (own : r.id = id)
    (success : r.result = .success) :
    ∃ message, (sentMessages (t.link.ends side.other))[(t.sides side).peer.connection.received.length]? =
        some message ∧ r.buffer = some message ∧ (t.link.ends side).reads.operations = [] := by
  obtain ⟨count, last, only⟩ := (stack.reader side).waiting id reading
  have framed := stack.joined.framed side
  have resolved' : r ∈ (t.link.ends side.other.other).reads.results := by rwa [Side.other_other]
  obtain ⟨k, message, active, sent, buffer⟩ := stack.joined.answer side.other resolved' success
  rw [Side.other_other] at active
  have place : k = (t.sides side).peer.connection.received.length := by
    apply framed.ordered.reads.place_unique active
    rw [own, ← last, List.getLast?_eq_getElem?, count, Nat.add_sub_cancel]
  have unlisted := (framed.reads.answered r resolved success).2.1
  refine ⟨message, place ▸ sent, buffer, List.eq_nil_iff_forall_not_mem.mpr fun data member => ?_⟩
  exact unlisted (List.mem_map.mpr ⟨data, member, (only data member).trans own.symm⟩)

theorem delivered_matched (stack : Stack t s) {id : Nat} (reading : (t.sides side).reading = some (some id))
    {r : OpResult} (resolved : r ∈ (t.link.ends side).reads.results) (own : r.id = id)
    (success : r.result = .success) {c : Connection}
    (taken : (t.sides side).peer.connection.step (.received r.buffer) = some c)
    (sent : t.transmit side
      { t.sides side with peer := { (t.sides side).peer with connection := c }, reading := none } false = some t') :
    Matched s t' := by
  obtain ⟨link, ran, rfl⟩ := transmit_eq_some sent
  obtain ⟨message, next, buffer, idle⟩ := stack.next_message reading resolved own success
  rw [buffer] at taken
  have arrives := Connection.received_arrives taken
  have outbox := arrives.outbox
  rw [stack.emptied side, List.nil_append] at outbox
  have valid : ∀ frame ∈ c.outbox, ValidMessage frame := by
    rcases outbox with none | pong
    · simp [none]
    · rw [pong]
      simpa using Peer.validMessage_control (.inr rfl)
  have sends := TcpLink.run_calls stack.joined valid ran
  -- the pipe loses what was given up before the message, and delivers it
  obtain ⟨frames, before, underway⟩ := stack.underway side
  obtain ⟨frames', before', underway'⟩ := stack.underway side.other
  rw [Side.other_other] at underway'
  obtain ⟨lost, later, rfl, left⟩ := underway'.take (stack.joined.framed side.other) next
  have losing := Peers.run_lose before' (stack.emptied side.other)
  have across : Function.update s side.other ((t.sides side.other).peer.behind (message :: later))
      side.other.other = (t.sides side).peer.behind frames := by
    rw [Side.other_other, Function.update_of_ne (Side.other_ne side).symm, before]
  have delivering := Peers.step_deliver (Function.update_self _ _ _) (stack.emptied side.other) across taken
  refine ⟨List.replicate lost.length (.lose side.other) ++ [.deliver side.other], _,
    Machine.run_append_eq_some.mpr ⟨_, losing, Machine.run_cons_eq_some.mpr ⟨_, delivering, rfl⟩⟩, ?_⟩
  rw [Side.other_other, Function.update_idem]
  have count := ((stack.reader side).waiting id reading).1
  refine stack.update sends.toFeeds rfl ?_ ?_ underway ?_ ?_
  · rw [sends.reads]
    refine ⟨fun _ => ⟨idle, ?_⟩, by simp⟩
    simp only [arrives.received, List.length_append, List.length_singleton]
    exact count
  · have start := stack.arrived side.other
    rw [Side.other_other] at start
    simp only [arrives.received]
    exact Table.prefix_next start (by rw [List.getElem?_map, next]; rfl)
  · rw [Function.update_self]
    simp [Peer.behind, Connection.behind]
  · refine ⟨later, ?_, ?_⟩
    · rw [Function.update_of_ne (Side.other_ne side), Function.update_self]
    · simp only [arrives.received, List.length_append, List.length_singleton]
      exact left

theorem received_matched (stack : Stack t s) (stepped : step t (.received side) = some t') : Matched s t' := by
  simp only [step] at stepped
  split at stepped
  · cases stepped
  · next message ready =>
      obtain ⟨c, taken, sent⟩ := Option.bind_eq_some_iff.mp stepped
      obtain ⟨future, reading, result⟩ := Option.bind_eq_some_iff.mp ready
      cases future with
      | none => cases result
      | some id =>
          obtain ⟨r, found, same⟩ := Option.map_eq_some_iff.mp result
          obtain ⟨success, rfl⟩ := Prod.mk.inj same
          exact delivered_matched stack reading (List.mem_of_find?_eq_some found)
            (by simpa using List.find?_some found) success taken sent
  · obtain ⟨c, taken, rfl⟩ := Option.map_eq_some_iff.mp stepped
    exact receiveEnd_matched stack taken

theorem step_matched (stack : Stack t s) (consistent : s.Consistent) {e : Event}
    (stepped : proper.step t e = some t') : Matched s t' := by
  obtain ⟨guarded, taken⟩ := Machine.restrict_step.mp stepped
  cases e with
  | peer side e =>
      refine peer_matched stack consistent ?_ taken
      cases e with
      | callMethod methodIdx request =>
          obtain ⟨frames, before, -⟩ := stack.underway side
          simp only [Peers.fewCalls, before]
          exact guarded
      | _ => rfl
  | recvAsync side => exact recvAsync_matched stack taken
  | received side => exact received_matched stack taken
  | sendDone side number => exact sendDone_matched stack taken
  | endpoint side e => exact endpoint_matched stack guarded taken

variable {pingTimeout : Int} {gservice : Side → Option ServiceDescriptor} {es : List Event}

theorem initial_stack (pingTimeout : Int) (gservice : Side → Option ServiceDescriptor) :
    Stack (initial pingTimeout gservice) (Peers.initial pingTimeout gservice) where
  joined := TcpLink.joined_start
  emptied _ := rfl
  reader _ := {
    idle := fun _ => ⟨rfl, rfl⟩
    waiting := fun _ reading => by cases reading }
  arrived _ := List.nil_prefix
  underway _ := ⟨[], rfl, [], rfl, fun some_ => absurd rfl some_⟩

theorem run_stack (ran : proper.run (initial pingTimeout gservice) es = some t) :
    ∃ es' s, (Peers.machine.restrict Peers.fewCalls).run (Peers.initial pingTimeout gservice) es' = some s ∧
      Stack t s := by
  refine Machine.run_induction (P := fun _ t => ∃ es' s, (Peers.machine.restrict Peers.fewCalls).run
    (Peers.initial pingTimeout gservice) es' = some s ∧ Stack t s)
    ⟨[], _, rfl, initial_stack pingTimeout gservice⟩ ?_ ran
  rintro es a e b - ⟨es₁, s, reached, stack⟩ stepped
  obtain ⟨es₂, s', more, stack'⟩ := step_matched stack (Peers.run_consistent reached) stepped
  exact ⟨es₁ ++ es₂, s', Machine.run_append_eq_some.mpr ⟨s, reached, more⟩, stack'⟩

/-- Over every run of the stack with fewer than `2 ^ 64 - 1` calls on each channel there is a run of the peers over
    the message pipe that leaves the channels, the services and the connections in the same state, frames under
    way apart; and each connection has received the messages its peer's endpoint started to write, in order and
    without a gap. -/
theorem refines_pipe {pingTimeout : Int} {gservice : Side → Option ServiceDescriptor} {es : List Event}
    {t : TcpPeers} (ran : proper.run (initial pingTimeout gservice) es = some t) :
    (∃ es' s, (Peers.machine.restrict Peers.fewCalls).run (Peers.initial pingTimeout gservice) es' = some s ∧
      ∀ side, (s side).channel = (t.sides side).peer.channel ∧ (s side).service = (t.sides side).peer.service ∧
        { (s side).connection with outbox := [] } = (t.sides side).peer.connection) ∧
      ∀ side : Side,
        (t.sides side.other).peer.connection.received <+: (sentMessages (t.link.ends side)).map some := by
  obtain ⟨es', s, reached, stack⟩ := run_stack ran
  refine ⟨⟨es', s, reached, fun side => ?_⟩, stack.arrived⟩
  obtain ⟨frames, same, -⟩ := stack.underway side
  rw [same]
  refine ⟨rfl, rfl, ?_⟩
  have emptied := stack.emptied side
  simp only [Peer.behind, Connection.behind]
  rw [← emptied]

/-- For each direction of calls and over every run of the stack with fewer than `2 ^ 64 - 1` calls on each channel,
    however the sockets split and delay the bytes, whatever times out and whichever end is closed: an invocation of
    a service method belongs to one call, whose method index and payload it has, and no call has two; and a call
    that is reported `ok` carries the response with which the method completed for that very call. -/
theorem calls_answered_over_tcp {pingTimeout : Int} {gservice : Side → Option ServiceDescriptor}
    {es : List Event} {t : TcpPeers} (ran : proper.run (initial pingTimeout gservice) es = some t) (side : Side) :
    ((t.sides side.other).peer.service.invocations.map Invocation.number).Nodup ∧
      (∀ invocation ∈ (t.sides side.other).peer.service.invocations, ∃ call ∈ (t.sides side).peer.channel.calls,
        invocation = ⟨call.reqId, call.methodIdx, call.payload⟩) ∧
      ∀ report ∈ (t.sides side).peer.channel.reports, report.result = .ok →
        ∃ call ∈ (t.sides side).peer.channel.calls, ∃ done ∈ (t.sides side.other).peer.service.completions,
          report.reqId = some call.reqId ∧ done.invocation = ⟨call.reqId, call.methodIdx, call.payload⟩ ∧
            done.rc = .ok ∧ report.response = some done.response.serialization := by
  obtain ⟨es', s, reached, stack⟩ := run_stack ran
  have consistent := Peers.run_consistent reached
  have sound := consistent.sound side
  have linked := consistent.linked side
  have accounted := (consistent.sound side.other).service.accounted
  obtain ⟨_, here, -⟩ := stack.underway side
  obtain ⟨_, there, -⟩ := stack.underway side.other
  have channel : (s side).channel = (t.sides side).peer.channel := by rw [here]; rfl
  have service : (s side.other).service = (t.sides side.other).peer.service := by rw [there]; rfl
  rw [← channel, ← service]
  refine ⟨linked.invocations_nodup sound, fun invocation => linked.invocation_called sound, ?_⟩
  intro report member ok
  obtain ⟨done, completed, number, code, response⟩ := linked.reported sound member ok
  have invoked := accounted.subset (List.mem_append_left _ (List.mem_map_of_mem completed))
  obtain ⟨call, called, same⟩ := linked.invocation_called sound invoked
  refine ⟨call, called, done, completed, ?_, same, code, response⟩
  rw [number, same, Peers.invocationOf]

/-- A call from the left peer to the right one and back, down to the bytes. -/
def callAndReply : List Event :=
  [.peer .left (.connection .start), .recvAsync .left, .peer .right (.connection .start), .recvAsync .right,
    .peer .left (.callMethod 1 ⟨[5], true⟩), .peer .left (.request 0 true), .peer .left (.connection .requestSend),
    .endpoint .left (.written 0 .ok 4), .endpoint .left (.written 0 .ok 11), .endpoint .left (.written 0 .ok 7),
    .endpoint .right (.received 0 .ok [0, 0, 0, 18]), .endpoint .right (.received 0 .ok (reqFrame 0 1 [5])),
    .sendDone .left 0, .received .right, .recvAsync .right, .peer .right (.process 0),
    .peer .right (.complete 0 false ⟨[50], true⟩), .peer .right (.respond 0),
    .endpoint .right (.written 0 .ok 4), .endpoint .right (.written 0 .ok 15),
    .endpoint .left (.received 0 .ok [0, 0]), .endpoint .left (.received 0 .ok [0, 15]),
    .endpoint .left (.received 0 .ok (resFrame 0 .ok [50])), .received .left, .peer .left (.reply 0 fun _ => true)]

theorem run_callAndReply :
    ∃ t, proper.run (initial 1000 fun _ => some ⟨2, fun _ _ => true, fun _ => ⟨[], true⟩⟩) callAndReply = some t ∧
      (t.sides .left).peer.channel.reports = [⟨some 0, .ok, some [50]⟩] := ⟨_, rfl, rfl⟩

theorem refines_pipe_call :
    ∃ t, proper.run (initial 1000 fun _ => some ⟨2, fun _ _ => true, fun _ => ⟨[], true⟩⟩) callAndReply = some t ∧
      (t.sides .left).peer.channel.reports = [⟨some 0, .ok, some [50]⟩] ∧
      ∃ es' s, (Peers.machine.restrict Peers.fewCalls).run
          (Peers.initial 1000 fun _ => some ⟨2, fun _ _ => true, fun _ => ⟨[], true⟩⟩) es' = some s ∧
        (s .left).channel = (t.sides .left).peer.channel := by
  refine Machine.exists_run run_callAndReply fun ran _ => ?_
  obtain ⟨⟨es', s, reached, same⟩, -⟩ := refines_pipe ran
  exact ⟨es', s, reached, (same .left).1⟩

theorem calls_answered_over_tcp_call :
    ∃ t, proper.run (initial 1000 fun _ => some ⟨2, fun _ _ => true, fun _ => ⟨[], true⟩⟩) callAndReply = some t ∧
      (t.sides .left).peer.channel.reports = [⟨some 0, .ok, some [50]⟩] ∧
      ∃ done ∈ (t.sides .right).peer.service.completions, some [50] = some done.response.serialization := by
  refine Machine.exists_run run_callAndReply fun ran reports => ?_
  obtain ⟨-, -, answered⟩ := calls_answered_over_tcp ran .left
  obtain ⟨call, -, done, completed, -, -, -, response⟩ :=
    answered ⟨some 0, .ok, some [50]⟩ (by rw [reports]; simp) rfl
  exact ⟨done, completed, response⟩

end TcpPeers

end CommonRpc
