/-
Module: CommonRpc.Proofs.TcpTransport
Purpose: What the calls of a `transport` do to its end of a TCP link: a frame that is sent is one more write of the
  endpoint, or is refused by a closed one; a receive loop has one read at a time, which is the last that became
  active; and what an end has put on the stream stays there.
Trusted boundary: none
-/
import CommonRpc.Core.TcpPeers
import CommonRpc.Proofs.TcpLink

namespace CommonRpc

open Lib PipeOperation

namespace Part

variable {ω : Type} [PipeOperation ω] {ready : ω → Bool} {s s' : OpSide ω} {o o' : Bool} {action : Action ω}

theorem Move.activated_prefix (move : Move ready s s' o o' action) : s.activated <+: s'.activated := by
  cases move with
  | unchanged side => exact side ▸ List.prefix_rfl
  | refused _ side | queued _ _ _ _ _ side | ended _ _ _ _ _ _ _ _ _ side | continued _ _ _ _ _ _ _ _ _ _ side
  | finished _ _ _ _ _ _ _ _ _ _ _ side | timedOut _ _ _ _ _ _ _ _ side | timedOutActive _ _ _ _ _ _ side =>
      simp only [side, arrive, List.prefix_rfl]
  | started _ _ _ _ _ side | finishedNext _ _ _ _ _ _ _ _ _ _ _ side =>
      rw [side]
      exact List.prefix_append _ _

theorem Move.created_prefix (move : Move ready s s' o o' action) : s.created <+: s'.created := by
  rcases OpSide.created_move move with same | ⟨op, -, more⟩
  · exact same ▸ List.prefix_rfl
  · exact more ▸ List.prefix_append _ _

theorem Move.created_same (move : Move ready s s' o o' action) (quiet : ∀ op, action ≠ .start op) :
    s'.created = s.created := by
  rcases OpSide.created_move move with same | ⟨op, started, -⟩
  · exact same
  · exact absurd started (quiet op)

/-- A list with one operation at most starts no other by itself. -/
theorem Move.single (move : Move ready s s' o o' action) (paced : s.Paced) (quiet : ∀ op, action ≠ .start op)
    {id : Nat} (only : ∀ data ∈ s.operations, data.id = id) :
    s'.activated = s.activated ∧ s'.operations.map OperationData.id ⊆ s.operations.map OperationData.id := by
  have alone {back : OperationData ω} {rest : List (OperationData ω)} (operations : s.operations = back :: rest) :
      rest = [] := by
    refine List.eq_nil_iff_forall_not_mem.mpr fun data member => ?_
    have later := paced.back_lt operations data member
    rw [only back (by simp [operations]), only data (by simp [operations, member])] at later
    exact Nat.lt_irrefl _ later
  cases move with
  | unchanged side => exact side ▸ ⟨rfl, List.Subset.refl _⟩
  | refused | queued | started => exact absurd rfl (quiet _)
  | ended _ _ _ _ _ _ _ _ _ side | finished _ _ _ _ _ _ _ _ _ _ _ side =>
      rw [side]
      exact ⟨rfl, List.nil_subset _⟩
  | continued _ back rest _ _ operations _ _ _ _ side =>
      rw [side, operations]
      exact ⟨rfl, List.Subset.refl _⟩
  | finishedNext _ back next rest _ operations _ _ _ _ _ side => cases alone operations
  | timedOut back data rest _ operations member _ _ side =>
      rw [alone operations] at member
      cases member
  | timedOutActive back rest _ operations _ _ side =>
      rw [side, operations]
      exact ⟨rfl, by simp⟩

theorem startAsync_isOpen (tag : PipeSide) (op : ω) (timed : Bool) (p : Part ω) :
    (p.startAsync tag op timed).common.isOpen = p.common.isOpen := by
  simp only [startAsync]
  split
  · exact (startNext_carries _ _).isOpen
  · rfl

/-- A call on an open endpoint creates its operation. -/
theorem startAsync_created (tag : PipeSide) (op : ω) (timed : Bool) {p : Part ω} (isOpen : p.common.isOpen = true) :
    (p.startAsync tag op timed).side.created = p.side.created ++ [op] := by
  simp only [startAsync, isOpen, if_true]
  exact (startNext_carries _ _).created

/-- A call on an open endpoint with an empty list starts its operation. -/
theorem startAsync_idle (tag : PipeSide) (op : ω) (timed : Bool) {p : Part ω} (isOpen : p.common.isOpen = true)
    (idle : p.side.operations = []) :
    (p.startAsync tag op timed).side.activated = p.side.activated ++ [p.side.nextOpId] ∧
      ∀ data ∈ (p.startAsync tag op timed).side.operations, data.id = p.side.nextOpId := by
  simp [startAsync, isOpen, idle, activateBack, startHeaderAsync, issue]

end Part

namespace TcpLink

open Peers (Side.other_other Side.other_ne)
open TcpPipeEndpoint (socketBehaves)

variable {l l' : TcpLink} {side : Side}

/-- The frames of all writes of an endpoint, in the order of the calls. -/
def payloads (endpoint : TcpPipeEndpoint) : List Bytes := endpoint.writes.created.map WriteOperation.payload

/-- How many of these frames are over once the other end has taken so many messages: those that were sent, and
    those given up between them. -/
def passed (endpoint : TcpPipeEndpoint) : Nat → Nat
  | 0 => 0
  | taken + 1 => (endpoint.writes.activated[taken]?).elim 0 (· + 1)

/-- An end of the link after calls and reports: what it has sent stays sent. -/
structure Grows (endpoint endpoint' : TcpPipeEndpoint) : Prop where
  activated : endpoint.writes.activated <+: endpoint'.writes.activated
  created : endpoint.writes.created <+: endpoint'.writes.created
  closes : endpoint'.common.isOpen = true → endpoint.common.isOpen = true

theorem Grows.refl (endpoint : TcpPipeEndpoint) : Grows endpoint endpoint :=
  ⟨List.prefix_rfl, List.prefix_rfl, fun isOpen => isOpen⟩

theorem Grows.trans {a b c : TcpPipeEndpoint} (first : Grows a b) (second : Grows b c) : Grows a c :=
  ⟨first.activated.trans second.activated, first.created.trans second.created,
    fun isOpen => first.closes (second.closes isOpen)⟩

theorem grows_step {endpoint endpoint' : TcpPipeEndpoint} {e : TcpPipeEndpoint.Event} (ordered : endpoint.Ordered)
    (stepped : endpoint.step e = some endpoint') : Grows endpoint endpoint' := by
  obtain ⟨write, -⟩ := ordered.steps stepped
  exact ⟨write.activated_prefix, write.created_prefix, write.closes⟩

theorem Grows.passed {endpoint endpoint' : TcpPipeEndpoint} (grows : Grows endpoint endpoint') {taken : Nat}
    (within : taken ≤ endpoint.writes.activated.length) : passed endpoint' taken = passed endpoint taken := by
  cases taken with
  | zero => rfl
  | succ n =>
      obtain ⟨more, activated⟩ := grows.activated
      rw [TcpLink.passed, TcpLink.passed, ← activated, List.getElem?_append_left within]

theorem Grows.sentMessages {endpoint endpoint' : TcpPipeEndpoint} (framed : endpoint.Framed)
    (grows : Grows endpoint endpoint') : sentMessages endpoint <+: sentMessages endpoint' := by
  obtain ⟨more, activated⟩ := grows.activated
  obtain ⟨new, created⟩ := grows.created
  have same : endpoint.writes.activated.map (sentMessage endpoint.writes) =
      endpoint.writes.activated.map (sentMessage endpoint'.writes) := by
    apply List.map_congr_left
    intro id member
    obtain ⟨op, -, known⟩ := known_of_activated framed member
    have inside := (List.getElem?_eq_some_iff.mp known).1
    rw [sentMessage, sentMessage, ← created, List.getElem?_append_left inside]
  rw [TcpLink.sentMessages, TcpLink.sentMessages, ← activated, List.map_append, same]
  exact List.prefix_append _ _

theorem passed_le {endpoint : TcpPipeEndpoint} (framed : endpoint.Framed) (taken : Nat) :
    passed endpoint taken ≤ (payloads endpoint).length := by
  cases taken with
  | zero => exact Nat.zero_le _
  | succ n =>
      rw [passed]
      cases active : endpoint.writes.activated[n]? with
      | none => exact Nat.zero_le _
      | some id =>
          have below := framed.ordered.writes.below id (List.mem_of_getElem? active)
          rw [payloads, List.length_map, framed.writes.count]
          exact below

/-- One end of the link moved on and was given frames. -/
structure Feeds (l l' : TcpLink) (side : Side) (frames : List Bytes) : Prop where
  joined : l'.Joined
  other : l'.ends side.other = l.ends side.other
  grows : Grows (l.ends side) (l'.ends side)
  accepted : payloads (l'.ends side) =
    payloads (l.ends side) ++ if (l.ends side).common.isOpen then frames else []

theorem feeds_nothing (joined : l'.Joined) (other : l'.ends side.other = l.ends side.other)
    (grows : Grows (l.ends side) (l'.ends side))
    (created : (l'.ends side).writes.created = (l.ends side).writes.created) : Feeds l l' side [] :=
  ⟨joined, other, grows, by rw [ite_self, List.append_nil, payloads, payloads, created]⟩

theorem Feeds.refl (joined : l.Joined) (side : Side) : Feeds l l side [] :=
  feeds_nothing joined rfl (Grows.refl _) rfl

/-- The frames are given to an end that may be stopped afterwards. -/
structure Sends (l l' : TcpLink) (side : Side) (frames : List Bytes) : Prop extends Feeds l l' side frames where
  reads : (l'.ends side).reads = (l.ends side).reads

theorem step_stop (joined : l.Joined) (stepped : step l (side, .invalidate) = some l') : Sends l l' side [] := by
  obtain ⟨-, own, other, -⟩ := step_eq_some stepped
  have same := Option.some.inj own
  exact ⟨feeds_nothing (step_joined joined (proper_of_step rfl rfl stepped)) other
    (grows_step (joined.framed side).ordered own) (same ▸ rfl), same ▸ rfl⟩

theorem step_send (joined : l.Joined) {frame : Bytes} (valid : ValidMessage frame) {timed : Bool}
    (stepped : step l (side, .writeAsync frame timed) = some l') :
    Sends l l' side [frame] ∧ (l'.ends side).common.isOpen = (l.ends side).common.isOpen := by
  obtain ⟨-, own, other, -⟩ := step_eq_some stepped
  have same := Option.some.inj own
  have accepted : acceptable (.writeAsync frame timed) = true := decide_eq_true valid
  refine ⟨⟨⟨step_joined joined (proper_of_step rfl accepted stepped), other,
    grows_step (joined.framed side).ordered own, ?_⟩, same ▸ rfl⟩, ?_⟩
  · rw [payloads, payloads, ← same]
    change List.map _ (Part.startAsync .write { payload := frame } timed (l.ends side).writePart).side.created = _
    cases isOpen : (l.ends side).common.isOpen with
    | true =>
        rw [Part.startAsync_created _ _ _ isOpen, List.map_append]
        rfl
    | false =>
        simp [Part.startAsync, isOpen, TcpPipeEndpoint.writePart]
  · rw [← same]
    exact Part.startAsync_isOpen _ _ _ _

/-- What a transport does in one step of its connection. -/
theorem run_calls (joined : l.Joined) {frames : List Bytes} (valid : ∀ frame ∈ frames, ValidMessage frame)
    {stop : Bool} (ran : machine.run l (TcpPeers.calls side frames stop) = some l') : Sends l l' side frames := by
  induction frames generalizing l with
  | nil =>
      cases stop with
      | false =>
          cases ran
          exact ⟨Feeds.refl joined side, rfl⟩
      | true =>
          obtain ⟨_, stepped, ended⟩ := Machine.run_cons_eq_some.mp ran
          cases ended
          exact step_stop joined stepped
  | cons frame frames ih =>
      obtain ⟨m, stepped, rest⟩ := Machine.run_cons_eq_some.mp ran
      obtain ⟨first, kept⟩ := step_send joined (valid frame (by simp)) stepped
      have later := ih first.joined (fun frame member => valid frame (List.mem_cons_of_mem _ member)) rest
      refine ⟨⟨later.joined, later.other.trans first.other, first.grows.trans later.grows, ?_⟩,
        later.reads.trans first.reads⟩
      rw [later.accepted, first.accepted, kept, List.append_assoc]
      split <;> rfl

/-- A report, a timer or a disconnect callback creates no write, and leaves a single read the last one. -/
theorem step_io (joined : l.Joined) {e : TcpPipeEndpoint.Event} (io : TcpPeers.isIo e = true)
    (behaves : socketBehaves (l.ends side) e = true) (stepped : step l (side, e) = some l') :
    Feeds l l' side [] ∧ ∀ id, (∀ data ∈ (l.ends side).reads.operations, data.id = id) →
      (l'.ends side).reads.activated = (l.ends side).reads.activated ∧
        (l'.ends side).reads.operations.map OperationData.id ⊆
          (l.ends side).reads.operations.map OperationData.id := by
  obtain ⟨-, own, other, -⟩ := step_eq_some stepped
  have ordered := (joined.framed side).ordered
  obtain ⟨write, read⟩ := ordered.steps own
  have accepted : acceptable e = true := by
    cases e with
    | writeAsync => cases io
    | _ => rfl
  refine ⟨feeds_nothing (step_joined joined (proper_of_step behaves accepted stepped)) other
    (grows_step ordered own) (write.created_same ?_),
    fun id only => read.single ordered.consistent.pacedReads ?_ only⟩
  · cases e with
    | writeAsync => cases io
    | _ => simp [TcpPipeEndpoint.writeAction]
  · cases e with
    | readAsync => cases io
    | _ => simp [TcpPipeEndpoint.readAction]

/-- The receive loop reads on an end without a read. -/
theorem step_read (joined : l.Joined) (stepped : step l (side, .readAsync false) = some l')
    (idle : (l.ends side).reads.operations = []) :
    Feeds l l' side [] ∧ ((l.ends side).common.isOpen = true →
      (l'.ends side).reads.activated = (l.ends side).reads.activated ++ [(l.ends side).reads.nextOpId] ∧
        ∀ data ∈ (l'.ends side).reads.operations, data.id = (l.ends side).reads.nextOpId) := by
  obtain ⟨-, own, other, -⟩ := step_eq_some stepped
  have same := Option.some.inj own
  refine ⟨feeds_nothing (step_joined joined (proper_of_step rfl rfl stepped)) other
    (grows_step (joined.framed side).ordered own) (same ▸ rfl), fun isOpen => ?_⟩
  rw [← same]
  exact Part.startAsync_idle .read {} false (p := (l.ends side).readPart) isOpen idle

end TcpLink

end CommonRpc
