/-
Module: CommonRpc.Proofs.TcpLink
Purpose: Two `tcp_pipe_endpoint`s joined by a connection are a first-in first-out queue of messages. The bytes
  written on one side are those read on the other and those on the wire, so the frames of the write side are
  what the read side cuts its messages from: the k-th read that becomes active takes the message of the k-th
  write that became active, whatever the sockets do with the bytes in between and whatever times out.
Trusted boundary: none
-/
import CommonRpc.Core.TcpLink
import CommonRpc.Proofs.Peers
import CommonRpc.Proofs.TcpPipeFrames

namespace CommonRpc

open Lib PipeOperation

/-! ### What a step does to the streams of an endpoint -/

namespace Part

variable {ω : Type}

/-- A handler goes on without moving bytes, creating operations or closing the socket. -/
structure Carries (p p' : Part ω) : Prop where
  moved : p'.side.moved = p.side.moved
  created : p'.side.created = p.side.created
  isOpen : p'.common.isOpen = p.common.isOpen

theorem Carries.refl (p : Part ω) : Carries p p := ⟨rfl, rfl, rfl⟩

theorem Carries.trans {p q r : Part ω} (first : Carries p q) (second : Carries q r) : Carries p r :=
  ⟨second.moved.trans first.moved, second.created.trans first.created, second.isOpen.trans first.isOpen⟩

theorem activateBack_carries (p : Part ω) : Carries p p.activateBack := by
  unfold activateBack
  split
  · exact Carries.refl p
  · split
    · exact ⟨rfl, rfl, rfl⟩
    · exact Carries.refl p

variable [PipeOperation ω] {ready : ω → Bool} {p p' : Part ω}

theorem startHeaderAsync_carries (p : Part ω) : Carries p p.startHeaderAsync := by
  unfold startHeaderAsync
  split
  · exact Carries.refl p
  · split <;> exact ⟨rfl, rfl, rfl⟩

theorem startPayloadAsync_carries (p : Part ω) : Carries p p.startPayloadAsync := by
  unfold startPayloadAsync
  split
  · exact Carries.refl p
  · split <;> exact ⟨rfl, rfl, rfl⟩

/-- The next operation is started if it has to be. -/
theorem startNext_carries (p : Part ω) (starts : Prop) [Decidable starts] :
    Carries p (if starts then p.activateBack.startHeaderAsync else p) := by
  split
  · exact (activateBack_carries p).trans (startHeaderAsync_carries _)
  · exact Carries.refl p

section Handler

variable {socketOp : SocketOp} {back : OperationData ω} {rest : List (OperationData ω)} {ec : ErrorCode}
  {bytes : Nat} {arrived : Bytes}

/-- However a handler ends, it moves the bytes it was given. -/
theorem Handles.moved (handles : Handles p (startPayloadIf ready) socketOp back rest ec bytes arrived p') :
    p'.side.moved = (p.handled back rest bytes arrived).side.moved := by
  cases handles with
  | error bad =>
      unfold onError
      split <;> rfl
  | header => exact (startHeaderAsync_carries _).moved
  | payload _ afterHeader =>
      cases isReady : ready (reported back bytes arrived).op with
      | true =>
          simp only [startPayloadIf, handled, arrive, isReady, if_true]
          exact (startPayloadAsync_carries _).moved
      | false =>
          simp only [startPayloadIf, handled, arrive, isReady, Bool.false_eq_true, if_false]
          rfl
  | completed =>
      simp only
      split
      · rfl
      · exact ((activateBack_carries _).trans (startHeaderAsync_carries _)).moved

/-- A handler moves the bytes of its socket operation and no others. -/
theorem onSocketOp_stream (paced : p.side.Paced) {index : Nat} {chunk : SocketBuffer → Bytes}
    (ran : p.onSocketOp (startPayloadIf ready) index ec bytes chunk = some p') :
    ∃ socketOp, p.side.outstanding[index]? = some socketOp ∧
      p'.side.stream = p.side.stream ++ chunk socketOp.buffer := by
  obtain ⟨socketOp, back, rest, rfl, outstanding, -, -, handles⟩ := onSocketOp_handles paced ran
  refine ⟨socketOp, by rw [outstanding]; rfl, ?_⟩
  rw [OpSide.stream, handles.moved]
  simp [OpSide.stream, handled, arrive]

end Handler

/-- A step that is not a handler of this side moves no bytes. -/
theorem Move.stream_same {s s' : OpSide ω} {o o' : Bool} {action : Action ω} (move : Move ready s s' o o' action)
    (quiet : ∀ ec bytes chunk, action ≠ .socket ec bytes chunk) : s'.stream = s.stream ++ [] := by
  rw [List.append_nil]
  cases move with
  | unchanged side => rw [side]
  | refused _ side | queued _ _ _ _ _ side | started _ _ _ _ _ side | timedOut _ _ _ _ _ _ _ _ side
  | timedOutActive _ _ _ _ _ _ side =>
      rw [side]
      rfl
  | ended | continued | finished | finishedNext => exact absurd rfl (quiet _ _ _)

end Part

/-- An operation becomes active once. -/
theorem OpSide.Activated.place_unique {ω : Type} {s : OpSide ω} (activated : s.Activated) {id k k' : Nat}
    (there : s.activated[k]? = some id) (there' : s.activated[k']? = some id) : k = k' :=
  (List.getElem?_inj (List.getElem?_eq_some_iff.mp there).1 (activated.increasing.imp Nat.ne_of_lt)).mp
    (there.trans there'.symm)

namespace TcpPipeEndpoint

variable {s t : TcpPipeEndpoint} {e : Event}

theorem step_writes_stream (ordered : s.Ordered) (stepped : step s e = some t) :
    t.writes.stream = s.writes.stream ++ TcpLink.sent s e := by
  cases e with
  | written index ec bytes =>
      obtain ⟨p, ran, rfl⟩ := Option.map_eq_some_iff.mp stepped
      rw [startWritePayloadAsync_eq] at ran
      obtain ⟨socketOp, found, stream⟩ := Part.onSocketOp_stream ordered.consistent.pacedWrites ran
      have found : s.writes.outstanding[index]? = some socketOp := found
      simp only [TcpLink.sent, found]
      exact stream
  | _ => exact (ordered.steps stepped).1.stream_same (by simp [writeAction])

theorem step_reads_stream (ordered : s.Ordered) (stepped : step s e = some t) :
    t.reads.stream = s.reads.stream ++ TcpLink.arrived e := by
  cases e with
  | received index ec chunk =>
      obtain ⟨p, ran, rfl⟩ := Option.map_eq_some_iff.mp stepped
      rw [startReadPayloadAsync_eq] at ran
      obtain ⟨_, -, stream⟩ := Part.onSocketOp_stream ordered.consistent.pacedReads ran
      exact stream
  | _ => exact (ordered.steps stepped).2.stream_same (by simp [readAction])

end TcpPipeEndpoint

theorem Side.eq_or_eq_other (side x : Side) : x = side ∨ x = side.other := by
  cases side <;> cases x <;> simp [Side.other]

namespace TcpLink

open Peers (Side.other_other Side.other_ne)
open TcpPipeEndpoint (Framed Incoming socketBehaves frameOf)

variable {s t : TcpLink} {side : Side} {e : TcpPipeEndpoint.Event} {es : List (Side × TcpPipeEndpoint.Event)}

/-! ### The streams of the two ends -/

/-- A message that is written can be read. -/
def acceptable : TcpPipeEndpoint.Event → Bool
  | .writeAsync message _ => decide (message.length ≠ 0 ∧ message.length ≤ MaxTransferMessageSize)
  | _ => true

/-- Both sockets keep their contract, and the messages can be read: they have 1 to `MaxTransferMessageSize`
    bytes. -/
def proper : Machine TcpLink (Side × TcpPipeEndpoint.Event) :=
  machine.restrict fun s (side, e) => socketBehaves (s.ends side) e && acceptable e

theorem step_eq_some (stepped : step s (side, e) = some t) :
    arrived e <+: s.wire side.other ∧ (s.ends side).step e = some (t.ends side) ∧
      t.ends side.other = s.ends side.other ∧ t.wire side = s.wire side ++ sent (s.ends side) e ∧
      t.wire side.other = (s.wire side.other).drop (arrived e).length := by
  simp only [step, Option.ite_none_right_eq_some, Option.map_eq_some_iff] at stepped
  obtain ⟨there, endpoint, taken, rfl⟩ := stepped
  refine ⟨there, by simpa using taken, ?_, ?_, ?_⟩
  · simp [Function.update_of_ne (Side.other_ne side)]
  · simp [Function.update_of_ne (Side.other_ne side).symm]
  · simp

theorem proper_step (stepped : proper.step s (side, e) = some t) :
    socketBehaves (s.ends side) e = true ∧ acceptable e = true ∧ step s (side, e) = some t := by
  obtain ⟨guarded, taken⟩ := Machine.restrict_step.mp stepped
  obtain ⟨behaves, accepted⟩ := Bool.and_eq_true_iff.mp guarded
  exact ⟨behaves, accepted, taken⟩

theorem proper_of_step (behaves : socketBehaves (s.ends side) e = true) (accepted : acceptable e = true)
    (stepped : step s (side, e) = some t) : proper.step s (side, e) = some t :=
  Machine.restrict_step.mpr ⟨by simp [behaves, accepted], stepped⟩

/-- What was sent is what was received and what is under way. -/
structure Joined (s : TcpLink) : Prop where
  framed : ∀ side, (s.ends side).Framed
  valid : ∀ side, ∀ op ∈ (s.ends side).writes.created, ValidMessage op.payload
  accounted : ∀ side, (s.ends side).writes.stream = (s.ends side.other).reads.stream ++ s.wire side

theorem joined_start : Joined {} where
  framed _ := ⟨TcpPipeEndpoint.ordered_start, OperationSpec.tracked_start, OperationSpec.tracked_start⟩
  valid _ _ member := absurd member List.not_mem_nil
  accounted _ := rfl

theorem step_joined (joined : s.Joined) (stepped : proper.step s (side, e) = some t) : t.Joined := by
  obtain ⟨behaves, accepted, taken⟩ := proper_step stepped
  obtain ⟨there, own, other, wire, wireOther⟩ := step_eq_some taken
  have ordered := (joined.framed side).ordered
  have writes := TcpPipeEndpoint.step_writes_stream ordered own
  have reads := TcpPipeEndpoint.step_reads_stream ordered own
  constructor
  · intro x
    rcases Side.eq_or_eq_other side x with rfl | rfl
    · exact TcpPipeEndpoint.step_framed (joined.framed x) (Machine.restrict_step.mpr ⟨behaves, own⟩)
    · exact other ▸ joined.framed side.other
  · intro x op member
    rcases Side.eq_or_eq_other side x with rfl | rfl
    · rcases OpSide.created_move (ordered.steps own).1 with same | ⟨new, started, created⟩
      · exact joined.valid x op (same ▸ member)
      · rcases List.mem_append.mp (created ▸ member) with old | isNew
        · exact joined.valid x op old
        · -- the call that created the operation was given an acceptable message
          rw [List.mem_singleton.mp isNew]
          cases e with
          | writeAsync message timed =>
              cases started
              have readable : message.length ≠ 0 ∧ message.length ≤ MaxTransferMessageSize :=
                of_decide_eq_true accepted
              exact readable
          | _ => cases started
    · exact joined.valid side.other op (other ▸ member)
  · intro x
    rcases Side.eq_or_eq_other side x with rfl | rfl
    · rw [writes, other, wire, joined.accounted x, List.append_assoc]
    · obtain ⟨rest, split_⟩ := there
      have before := joined.accounted side.other
      rw [Side.other_other] at before ⊢
      rw [other, before, reads, wireOther, ← split_, List.drop_left, List.append_assoc]

theorem run_joined (ran : proper.run {} es = some s) : s.Joined :=
  Machine.run_invariant (P := Joined) step_joined joined_start ran

/-! ### The messages -/

/-- The message of a write by its id. -/
def sentMessage (w : OpSide WriteOperation) (id : Nat) : Bytes := (w.created[id]?).elim [] WriteOperation.payload

/-- The messages of the writes that became active, in order. -/
def sentMessages (endpoint : TcpPipeEndpoint) : List Bytes :=
  endpoint.writes.activated.map (sentMessage endpoint.writes)

section Sender

variable {endpoint : TcpPipeEndpoint}

theorem known_of_activated (framed : endpoint.Framed) {id : Nat} (member : id ∈ endpoint.writes.activated) :
    ∃ op ∈ endpoint.writes.created, endpoint.writes.created[id]? = some op := by
  have inside : id < endpoint.writes.created.length := by
    rw [framed.writes.count]
    exact framed.ordered.writes.below id member
  exact ⟨_, List.getElem_mem inside, List.getElem?_eq_getElem inside⟩

theorem flatMap_frameOf (framed : endpoint.Framed) :
    endpoint.writes.activated.flatMap (frameOf endpoint.writes) =
      (sentMessages endpoint).flatMap (Framing.frame HeaderSize) := by
  rw [sentMessages, List.flatMap_map]
  apply List.flatMap_congr
  intro id member
  obtain ⟨op, -, known⟩ := known_of_activated framed member
  rw [frameOf, sentMessage, known]
  rfl

/-- The stream is a beginning of the frames of the writes that became active. -/
theorem stream_within (framed : endpoint.Framed) :
    endpoint.writes.stream <+: (sentMessages endpoint).flatMap (Framing.frame HeaderSize) := by
  rw [← flatMap_frameOf framed]
  rcases List.eq_nil_or_concat' endpoint.writes.activated with none | ⟨before, last, order⟩
  · rw [framed.ordered.writes.inOrder, none]
    exact List.prefix_rfl
  · have listed : last ∈ endpoint.writes.activated := by simp [order]
    have within := TcpPipeEndpoint.movedBy_within_frameOf framed listed
    rw [TcpPipeEndpoint.stream_eq framed order, order, List.flatMap_append, List.flatMap_singleton,
      List.flatMap_singleton]
    exact (List.prefix_append_right_inj _).mpr within

end Sender

/-- What arrives at one end are frames of the other end's messages. -/
theorem Joined.incoming (joined : s.Joined) (side : Side) :
    Incoming (s.ends side.other).reads (sentMessages (s.ends side)) [] where
  valid := by
    intro message member
    obtain ⟨id, active, rfl⟩ := List.mem_map.mp member
    obtain ⟨op, created, known⟩ := known_of_activated (joined.framed side) active
    rw [sentMessage, known]
    exact joined.valid side op created
  ending := .inl rfl
  arrived := by
    rw [List.append_nil]
    refine List.IsPrefix.trans ?_ (stream_within (joined.framed side))
    rw [joined.accounted side]
    exact List.prefix_append _ _

/-! ### In order -/

/-- The events of one end. -/
def onSide (side : Side) (es : List (Side × TcpPipeEndpoint.Event)) : List TcpPipeEndpoint.Event :=
  (es.filter fun event => event.1 = side).map Prod.snd

/-- Each end of the link runs as an endpoint by itself. -/
theorem run_onSide (ran : proper.run {} es = some s) (side : Side) :
    TcpPipeEndpoint.behaved.run {} (onSide side es) = some (s.ends side) := by
  refine Machine.run_induction
    (P := fun es s => TcpPipeEndpoint.behaved.run {} (onSide side es) = some (s.ends side)) rfl ?_ ran
  intro es a event b reached before stepped
  obtain ⟨x, e⟩ := event
  obtain ⟨behaves, -, taken⟩ := proper_step stepped
  obtain ⟨-, own, other, -⟩ := step_eq_some taken
  rcases Side.eq_or_eq_other x side with rfl | rfl
  · have more : onSide side (es ++ [(side, e)]) = onSide side es ++ [e] := by simp [onSide]
    rw [more, Machine.run_append_eq_some]
    exact ⟨a.ends side, before, Machine.run_cons_eq_some.mpr
      ⟨b.ends side, Machine.restrict_step.mpr ⟨behaves, own⟩, rfl⟩⟩
  · have same : onSide x.other (es ++ [(x, e)]) = onSide x.other es := by
      simp [onSide, (Side.other_ne x).symm]
    rw [same, other]
    exact before

theorem Joined.sentMessages_sublist (joined : s.Joined) (side : Side) :
    (sentMessages (s.ends side)).Sublist ((s.ends side).writes.created.map WriteOperation.payload) := by
  apply Table.sublist_of_increasing (joined.framed side).ordered.writes.increasing
  intro id member
  obtain ⟨op, -, known⟩ := known_of_activated (joined.framed side) member
  rw [sentMessage, List.getElem?_map, known]
  rfl

/-- A read that has all its bytes has the message of its place. -/
theorem Joined.answer (joined : s.Joined) (side : Side) {r : OpResult}
    (resolved : r ∈ (s.ends side.other).reads.results) (success : r.result = .success) :
    ∃ (k : Nat) (message : Bytes), (s.ends side.other).reads.activated[k]? = some r.id ∧
      (sentMessages (s.ends side))[k]? = some message ∧ r.buffer = some message := by
  have framed := joined.framed side.other
  obtain ⟨member, -, initial, -, ⟨message, valid, whole⟩, answer, bytes, buffer⟩ :=
    framed.reads.answered r resolved success
  obtain ⟨before, after, order⟩ := List.append_of_mem member
  have same : answer = message := by
    rw [← Framing.drop_frame (w := HeaderSize) answer, ← bytes, whole, Framing.drop_frame]
  refine ⟨before.length, message, ?_,
    TcpPipeEndpoint.message_of_whole framed (joined.incoming side) order valid whole, same ▸ buffer⟩
  rw [order, List.getElem?_append_right (Nat.le_refl _), Nat.sub_self, List.getElem?_cons_zero]

/-- The frame at a place, or nothing past the end. -/
def frameAt (messages : List Bytes) (k : Nat) : Bytes := (messages[k]?).elim [] (Framing.frame HeaderSize)

/-- Over every run of two joined endpoints whose messages can be read, in either direction: the messages that go
    out are some of those given to `write_async`, in the order of the calls; the k-th read that becomes active
    takes bytes of the k-th such message only; and a read that succeeds has exactly that message. -/
theorem messages_in_order {es : List (Side × TcpPipeEndpoint.Event)} {s : TcpLink}
    (ran : proper.run {} es = some s) (side : Side) :
    (sentMessages (s.ends side)).Sublist (TcpPipeEndpoint.messages (onSide side es)) ∧
      (∀ k id, (s.ends side.other).reads.activated[k]? = some id →
        (s.ends side.other).reads.movedBy id <+: frameAt (sentMessages (s.ends side)) k) ∧
      ∀ r ∈ (s.ends side.other).reads.results, r.result = .success →
        ∃ (k : Nat) (message : Bytes), (s.ends side.other).reads.activated[k]? = some r.id ∧
          (sentMessages (s.ends side))[k]? = some message ∧ r.buffer = some message := by
  have joined := run_joined ran
  refine ⟨(joined.sentMessages_sublist side).trans (TcpPipeEndpoint.created_sublist (run_onSide ran side)), ?_,
    fun r => joined.answer side⟩
  intro k id there
  obtain ⟨before, after, order, rfl⟩ := TcpPipeEndpoint.split_at there
  cases message : (sentMessages (s.ends side))[before.length]? with
  | none =>
      have silent := TcpPipeEndpoint.within_header (joined.framed side.other) (joined.incoming side) order message
      simpa [frameAt, message] using silent
  | some message' =>
      have within := TcpPipeEndpoint.within_message (joined.framed side.other) (joined.incoming side) order message
      simpa [frameAt, message] using within

/-- A queued write that times out is not sent; a read that times out while it is active uses up its message. -/
theorem messages_in_order_timeouts :
    ∃ s, proper.run {}
        [(.left, .writeAsync [7, 8] true), (.left, .writeAsync [9] true), (.left, .writeAsync [5] false),
          (.right, .readAsync true), (.right, .readAsync false), (.left, .written 0 .ok 3),
          (.left, .timerExpires 1), (.left, .timerHandler 1), (.right, .received 0 .ok [0, 0]),
          (.left, .written 0 .ok 1), (.left, .written 0 .ok 2), (.right, .timerExpires 0),
          (.right, .timerHandler 0), (.right, .received 0 .ok [0, 2]), (.right, .received 0 .ok [7, 8]),
          (.left, .written 0 .ok 4), (.left, .written 0 .ok 1), (.right, .received 0 .ok [0, 0, 0, 1]),
          (.right, .received 0 .ok [5])] = some s ∧
      (sentMessages (s.ends .left) = [[7, 8], [5]] ∧
        (s.ends .right).reads.results = [⟨0, .timeout, none⟩, ⟨1, .success, some [5]⟩]) ∧
      ∃ (k : Nat) (message : Bytes), (s.ends .right).reads.activated[k]? = some 1 ∧
        (sentMessages (s.ends .left))[k]? = some message ∧ some [5] = some message := by
  refine Machine.exists_run ⟨_, rfl, rfl, rfl⟩ fun ran ⟨_, results⟩ => ?_
  exact (messages_in_order ran .left).2.2 ⟨1, .success, some [5]⟩ (by simp [Side.other, results]) rfl

end TcpLink

end CommonRpc
