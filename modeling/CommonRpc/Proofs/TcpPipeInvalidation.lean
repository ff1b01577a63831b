/-
Module: CommonRpc.Proofs.TcpPipeInvalidation
Purpose: What becomes of the operations that are pending when the user invalidates a `tcp_pipe_endpoint`. On a
  socket closed by the user every handler gives `canceled`, or `success` to the operation whose payload was
  already under way (`Quiet`, one lemma for each function). There is one exception: a header that
  completes after the close and announces a bad length makes all reads fail, because
  `start_read_payload_async` looks at the header before it looks at the socket.
Trusted boundary: none
-/
import CommonRpc.Proofs.TcpPipeEndpoint

namespace CommonRpc

open PipeOperation

/-- The socket is closed, and it was not an error that closed it. -/
structure EndpointCommon.ClosedByUser (c : EndpointCommon) : Prop where
  closed : c.isOpen = false
  notByFail : c.wasInvalidatedByFail = false

theorem EndpointCommon.ClosedByUser.closedResult {c : EndpointCommon} (closed : c.ClosedByUser) :
    c.closedResult = .canceled := by
  simp [EndpointCommon.closedResult, closed.notByFail]

namespace Part

variable {ω : Type} [PipeOperation ω]

/-- A result given after the close: `canceled`, or `success` if the payload of the operation was already on
    its way. -/
def Decided (outstanding : List SocketOp) (r : OpResult) : Prop :=
  r.result = .canceled ∨
    r.result = .success ∧ ∃ socketOp ∈ outstanding, socketOp.opId = r.id ∧ socketOp.phase = .payload

/-- What a function does on a socket closed by the user: it starts nothing, and gives only such results. -/
structure Quiet (p p' : Part ω) : Prop where
  closed : p'.common.ClosedByUser
  shrinks : p'.side.outstanding ⊆ p.side.outstanding
  ids : p'.side.nextOpId = p.side.nextOpId
  results : ∃ later, p'.side.results = p.side.results ++ later ∧ ∀ r ∈ later, Decided p.side.outstanding r

variable {p p' p'' : Part ω}

omit [PipeOperation ω] in
theorem Quiet.of_same (closed : p'.common.ClosedByUser) (shrinks : p'.side.outstanding ⊆ p.side.outstanding)
    (ids : p'.side.nextOpId = p.side.nextOpId) (results : p'.side.results = p.side.results) : Quiet p p' :=
  ⟨closed, shrinks, ids, [], by simp [results], by simp⟩

omit [PipeOperation ω] in
theorem Quiet.trans (first : Quiet p p') (second : Quiet p' p'') : Quiet p p'' := by
  obtain ⟨later₁, results₁, decided₁⟩ := first.results
  obtain ⟨later₂, results₂, decided₂⟩ := second.results
  refine ⟨second.closed, List.Subset.trans second.shrinks first.shrinks,
    second.ids.trans first.ids, later₁ ++ later₂, ?_, ?_⟩
  · rw [results₂, results₁, List.append_assoc]
  · intro r member
    rcases List.mem_append.mp member with early | late
    · exact decided₁ r early
    · rcases decided₂ r late with canceled | ⟨success, socketOp, inList, own, payload⟩
      · exact .inl canceled
      · exact .inr ⟨success, socketOp, first.shrinks inList, own, payload⟩

theorem result_of_takePendingResult {code : PipeOpRes} {data : OperationData ω} {r : OpResult}
    (taken : takePendingResult code data = some r) : r.id = data.id ∧ r.result = code := by
  simp only [takePendingResult] at taken
  split at taken
  · cases taken
  · cases taken
    exact ⟨rfl, rfl⟩

theorem completeAll_quiet (closed : p.common.ClosedByUser) :
    Quiet p (p.completeAllOperationsUnsafe p.common.closedResult) := by
  refine ⟨⟨closed.closed, closed.notByFail⟩, List.Subset.refl _, rfl, _, rfl, ?_⟩
  intro r member
  obtain ⟨data, _, taken⟩ := List.mem_filterMap.mp member
  left
  rw [(result_of_takePendingResult taken).2, closed.closedResult]

theorem startHeaderAsync_quiet (closed : p.common.ClosedByUser) : Quiet p p.startHeaderAsync := by
  simp only [startHeaderAsync]
  split
  · exact .of_same closed (List.Subset.refl _) rfl rfl
  · simp only [closed.closed, Bool.false_eq_true, if_false]
    exact completeAll_quiet closed

theorem startPayloadAsync_quiet (closed : p.common.ClosedByUser) : Quiet p p.startPayloadAsync := by
  simp only [startPayloadAsync]
  split
  · exact .of_same closed (List.Subset.refl _) rfl rfl
  · simp only [closed.closed, Bool.false_eq_true, if_false]
    exact completeAll_quiet closed

/-- The payload starter, when the back operation may go on. -/
theorem startPayloadIf_quiet {ready : ω → Bool} (closed : p.common.ClosedByUser)
    (good : ∀ back ∈ p.side.operations.head?, ready back.op = true) : Quiet p (startPayloadIf ready p) := by
  simp only [startPayloadIf]
  split
  · exact .of_same closed (List.Subset.refl _) rfl rfl
  · rename_i back rest operations
    rw [if_pos (good back (by simp [operations]))]
    exact startPayloadAsync_quiet closed

theorem onError_quiet {ec : ErrorCode} (closed : p.common.ClosedByUser) : Quiet p (p.onError ec) := by
  rw [onError, if_pos (.inr (by simp [closed.closed]))]
  exact completeAll_quiet closed

omit [PipeOperation ω] in
theorem activateBack_quiet (closed : p.common.ClosedByUser) : Quiet p p.activateBack := by
  simp only [activateBack]
  split
  · exact .of_same closed (List.Subset.refl _) rfl rfl
  · simp only [closed.closed, Bool.false_eq_true, if_false]
    exact .of_same closed (List.Subset.refl _) rfl rfl

/-- The timer of an operation, on a closed socket. -/
theorem onTimer_quiet (closed : p.common.ClosedByUser) (id : Nat) : Quiet p (p.onTimer id) := by
  have canceled {data : OperationData ω} :
      ∀ r ∈ (takePendingResult p.common.closedResult data).toList, Decided p.side.outstanding r := by
    intro r member
    left
    rw [(result_of_takePendingResult (Option.mem_toList.mp member)).2, closed.closedResult]
  simp only [onTimer]
  split
  · exact .of_same closed (List.Subset.refl _) rfl rfl
  · simp only [closed.closed, Bool.false_eq_true, if_false]
    split
    · exact ⟨closed, List.Subset.refl _, rfl, _, rfl, canceled⟩
    · exact ⟨closed, List.Subset.refl _, rfl, _, rfl, canceled⟩

theorem startAsync_quiet (closed : p.common.ClosedByUser) (tag : PipeSide) (op : ω) (timed : Bool) :
    Quiet p (p.startAsync tag op timed) := by
  simp only [startAsync, closed.closed, Bool.false_eq_true, if_false]
  exact .of_same closed (List.Subset.refl _) rfl rfl

section Handler

variable {socketOp : SocketOp} {back : OperationData ω} {rest : List (OperationData ω)} {ec : ErrorCode}
  {bytes : Nat} {chunk : SocketBuffer → Bytes} {ready : ω → Bool}

theorem handled_quiet (closed : p.common.ClosedByUser) (reported : Bytes) :
    Quiet p (p.handled back rest bytes reported) :=
  .of_same closed (List.nil_subset _) rfl rfl

/-- The operation is complete; the others end with the closed socket. -/
theorem finishBack_quiet (closed : p.common.ClosedByUser) (outstanding : p.side.outstanding = [socketOp])
    (own : socketOp.opId = back.id) (payload : socketOp.phase = .payload) (arrived : Bytes) :
    Quiet p ((p.handled back rest bytes arrived).finishBack (reported back bytes arrived) rest) := by
  refine ⟨⟨closed.closed, closed.notByFail⟩, List.nil_subset _, rfl, _, rfl, ?_⟩
  intro r member
  obtain ⟨same, success⟩ := result_of_takePendingResult (Option.mem_toList.mp member)
  refine .inr ⟨success, socketOp, by simp [outstanding], ?_, payload⟩
  rw [own, same]
  rfl

/-- A handler of a socket operation, if an operation that goes on with its payload is ready for it. -/
theorem onSocketOp_quiet (paced : p.side.Paced) (closed : p.common.ClosedByUser) {index : Nat}
    (good : ∀ socketOp back, p.side.outstanding[index]? = some socketOp →
      back ∈ p.side.operations.head? → ec = .ok →
      (socketOp.phase = .header →
        isHeaderCompleted (reported back bytes (chunk socketOp.buffer)).op = true) →
      ready (reported back bytes (chunk socketOp.buffer)).op = true)
    (ran : p.onSocketOp (startPayloadIf ready) index ec bytes chunk = some p') : Quiet p p' := by
  obtain ⟨socketOp, back, rest, rfl, outstanding, operations, own, handles⟩ := onSocketOp_handles paced ran
  have good := good socketOp back (by simp [outstanding]) (by simp [operations])
  have base : Quiet p (p.handled back rest bytes (chunk socketOp.buffer)) := handled_quiet closed _
  cases handles with
  | error => exact base.trans (onError_quiet closed)
  | header => exact base.trans (startHeaderAsync_quiet closed)
  | payload fine afterHeader =>
      apply base.trans (startPayloadIf_quiet closed ?_)
      rintro _ ⟨⟩
      exact good fine afterHeader
  | completed _ phase =>
      have finished : Quiet p ((p.handled back rest bytes (chunk socketOp.buffer)).finishBack
          (reported back bytes (chunk socketOp.buffer)) rest) :=
        finishBack_quiet closed outstanding own phase _
      dsimp only
      split
      · exact finished
      · have activated := finished.trans (activateBack_quiet finished.closed)
        exact activated.trans (startHeaderAsync_quiet activated.closed)

end Handler

end Part

/-- What a side has done about its operations since the socket was closed: every result given since is
    decided, and once nothing is outstanding every operation there was has its result. -/
structure OpSide.SettledSince {ω : Type} (before s : OpSide ω) : Prop where
  results : ∃ later, s.results = before.results ++ later ∧ ∀ r ∈ later, Part.Decided before.outstanding r
  complete : s.outstanding = [] → ∀ id < before.nextOpId, id ∈ s.results.map OpResult.id

theorem OpSide.Paced.settledSince {ω : Type} [PipeOperation ω] {before p : Part ω} (paced : p.side.Paced)
    (accounted : p.side.Accounted) (quiet : Part.Quiet before p) : before.side.SettledSince p.side := by
  refine ⟨quiet.results, ?_⟩
  intro idle id below
  have operations : p.side.operations = [] := by
    by_contra listed
    exact paced.oneAtATime.2.2.mp listed idle
  have all := accounted.all_resolved operations
  rw [quiet.ids] at all
  exact all.mem_iff.mpr (List.mem_range.mpr below)

/-! ### The read side goes on only with a good header -/

/-- A payload is read into a buffer that is there. -/
def OpSide.ReadsReady (s : OpSide ReadOperation) : Prop :=
  ∀ socketOp ∈ s.outstanding, socketOp.phase = .payload →
    ∀ back ∈ s.operations.head?, back.op.isPayloadBufferValid = true

namespace ReadOperation

theorem isPayloadBufferValid_addBytes {op : ReadOperation} {bytes : Nat}
    (valid : op.isPayloadBufferValid = true) : (op.addBytes bytes).isPayloadBufferValid = true := by
  simp only [addBytes]
  split
  · rfl
  · exact valid

theorem isPayloadBufferValid_resolve {op : ReadOperation} {r : PipeOpRes} (failure : r ≠ .success)
    (valid : op.isPayloadBufferValid = true) : (op.resolve r).isPayloadBufferValid = true := by
  cases r with
  | success => exact absurd rfl failure
  | _ => exact valid

end ReadOperation

theorem readsReady_move {s s' : OpSide ReadOperation} {o o' : Bool} {action : Part.Action ReadOperation}
    (ready : s.ReadsReady)
    (move : Part.Move ReadOperation.isPayloadBufferValid s s' o o' action) : s'.ReadsReady := by
  cases move with
  | unchanged side closes => exact side ▸ ready
  | refused closed side =>
      subst side
      exact ready
  | queued timerId promised isOpen wasOpen busy side =>
      subst side
      intro socketOp member payload back head
      apply ready socketOp member payload back
      rw [List.head?_append_of_ne_nil _ busy] at head
      exact head
  | started timerId promised isOpen wasOpen idle side =>
      subst side
      intro socketOp member payload
      rw [List.mem_singleton.mp member] at payload
      cases payload
  | ended socketOp back rest r outstanding operations own failure closing side =>
      subst side
      intro other member
      cases member
  | continued socketOp back rest phase outstanding operations own isOpen wasOpen goesOn side =>
      subst side
      intro other member payload head isHead
      rw [List.mem_singleton.mp member] at payload
      have goesOnPayload : phase = .payload := payload
      cases isHead
      rw [goesOnPayload] at goesOn
      cases phaseBefore : socketOp.phase with
      | header =>
          rw [phaseBefore] at goesOn
          exact goesOn.2
      | payload =>
          rw [phaseBefore] at goesOn
          exact goesOn.2
  | finished socketOp back rest r outstanding operations own same failure payload completed side =>
      subst side
      intro other member
      cases member
  | finishedNext socketOp back next rest outstanding operations own isOpen wasOpen payload completed side =>
      subst side
      intro other member payload
      rw [List.mem_singleton.mp member] at payload
      cases payload
  | timedOut back data rest r operations member failure same side =>
      subst side
      intro socketOp inList payload head isHead
      apply ready socketOp inList payload head
      rw [operations]
      exact isHead
  | timedOutActive back rest r operations failure same side =>
      subst side
      intro socketOp inList payload head isHead
      have valid := ready socketOp inList payload back (by simp [operations])
      cases isHead
      simp only [Part.detached]
      split
      · exact valid
      · exact ReadOperation.isPayloadBufferValid_resolve failure valid

namespace TcpPipeEndpoint

open Lib CommonRpc.Part

/-- No header that completes on a closed socket announces a length outside 1..MaxTransferMessageSize. -/
def announcesWell (s : TcpPipeEndpoint) : Event → Bool
  | .received index ec chunk =>
      match s.reads.outstanding[index]?, s.reads.operations.head? with
      | some socketOp, some back =>
          let op := (reported back chunk.length chunk).op
          s.common.isOpen || ec != .ok || socketOp.phase != .header || !op.isHeaderCompleted ||
            op.isPayloadBufferValid
      | _, _ => true
  | _ => true

/-- The two sides since the socket was closed. -/
structure Closing (before s : TcpPipeEndpoint) : Prop where
  consistent : s.Consistent
  ready : s.reads.ReadsReady
  writes : Quiet before.writePart s.writePart
  reads : Quiet before.readPart s.readPart

variable {before s t : TcpPipeEndpoint} {e : Event}

/-- What a step does on a socket closed by the user. -/
theorem step_quiet (consistent : s.Consistent) (ready : s.reads.ReadsReady) (closed : s.common.ClosedByUser)
    (guarded : announcesWell s e = true) (stepped : step s e = some t) :
    Quiet s.writePart t.writePart ∧ Quiet s.readPart t.readPart := by
  have onWrite {p : Part WriteOperation} (quiet : Quiet s.writePart p) :
      Quiet s.writePart (s.withWrite p).writePart ∧ Quiet s.readPart (s.withWrite p).readPart :=
    ⟨quiet, .of_same quiet.closed (List.Subset.refl _) rfl rfl⟩
  have onRead {p : Part ReadOperation} (quiet : Quiet s.readPart p) :
      Quiet s.writePart (s.withRead p).writePart ∧ Quiet s.readPart (s.withRead p).readPart :=
    ⟨.of_same quiet.closed (List.Subset.refl _) rfl rfl, quiet⟩
  have onCommon {c : EndpointCommon} (same : c.ClosedByUser) :
      Quiet s.writePart { s with common := c }.writePart ∧
        Quiet s.readPart { s with common := c }.readPart :=
    ⟨.of_same same (List.Subset.refl _) rfl rfl, .of_same same (List.Subset.refl _) rfl rfl⟩
  cases e with
  | writeAsync message timed =>
      cases stepped
      exact onWrite (startAsync_quiet closed .write _ timed)
  | readAsync timed =>
      cases stepped
      exact onRead (startAsync_quiet closed .read _ timed)
  | written index ec bytes =>
      obtain ⟨p, ran, rfl⟩ := Option.map_eq_some_iff.mp stepped
      rw [startWritePayloadAsync_eq] at ran
      exact onWrite (onSocketOp_quiet consistent.pacedWrites closed (by simp) ran)
  | received index ec chunk =>
      obtain ⟨p, ran, rfl⟩ := Option.map_eq_some_iff.mp stepped
      rw [startReadPayloadAsync_eq] at ran
      apply onRead (onSocketOp_quiet consistent.pacedReads closed ?_ ran)
      intro socketOp back outstanding isHead fine completed
      cases phase : socketOp.phase with
      | header =>
          have completed : (reported back chunk.length chunk).op.isHeaderCompleted = true := completed phase
          have isHead : s.reads.operations.head? = some back := isHead
          have outstanding : s.reads.outstanding[index]? = some socketOp := outstanding
          simpa [announcesWell, outstanding, isHead, closed.closed, fine, phase, completed] using guarded
      | payload =>
          have valid := ready socketOp (List.mem_of_getElem? outstanding) phase back isHead
          exact ReadOperation.isPayloadBufferValid_addBytes valid
  | timerExpires timerId =>
      obtain ⟨timer, -, rfl⟩ := Option.map_eq_some_iff.mp stepped
      exact onCommon ⟨closed.closed, closed.notByFail⟩
  | timerHandler timerId =>
      obtain ⟨timer, handled⟩ := timerHandler_cases stepped
      have forgotten : EndpointCommon.ClosedByUser { s.common with timer } := ⟨closed.closed, closed.notByFail⟩
      rcases handled with rfl | ⟨id, rfl⟩ | ⟨id, rfl⟩
      · exact onCommon forgotten
      · have quiet : Quiet (⟨s.writes, { s.common with timer }⟩ : Part WriteOperation) _ :=
          onTimer_quiet forgotten id
        exact onWrite ⟨quiet.closed, quiet.shrinks, quiet.ids, quiet.results⟩
      · have quiet : Quiet (⟨s.reads, { s.common with timer }⟩ : Part ReadOperation) _ :=
          onTimer_quiet forgotten id
        exact onRead ⟨quiet.closed, quiet.shrinks, quiet.ids, quiet.results⟩
  | invalidate =>
      cases stepped
      apply onCommon
      refine ⟨rfl, ?_⟩
      simp [EndpointCommon.invalidateUnsafe, closed.closed, closed.notByFail]
  | setDisconnectCallback callback =>
      cases stepped
      apply onCommon
      simp only [EndpointCommon.setDisconnectCallback, closed.closed, Bool.false_eq_true, if_false]
      exact ⟨rfl, closed.notByFail⟩

theorem closing_step (closing : Closing before s) (guarded : announcesWell s e = true)
    (stepped : step s e = some t) : Closing before t := by
  obtain ⟨writes, reads⟩ := step_quiet closing.consistent closing.ready closing.writes.closed guarded stepped
  have steps := step_steps closing.consistent.pacedWrites closing.consistent.pacedReads stepped
  exact
    { consistent := step_consistent closing.consistent stepped
      ready := readsReady_move closing.ready steps.2
      writes := closing.writes.trans writes
      reads := closing.reads.trans reads }

theorem run_readsReady {es : List Event} (ran : machine.run {} es = some s) : s.reads.ReadsReady := by
  have both : s.Consistent ∧ s.reads.ReadsReady := by
    apply Machine.run_invariant (P := fun u => u.Consistent ∧ u.reads.ReadsReady) ?_ ?_ ran
    · rintro u e v ⟨consistent, ready⟩ stepped
      have steps := step_steps consistent.pacedWrites consistent.pacedReads stepped
      exact ⟨step_consistent consistent stepped, readsReady_move ready steps.2⟩
    · refine ⟨consistent_start, ?_⟩
      intro socketOp member
      cases member
  exact both.2

/-- The operations that were pending when the user closed the socket are settled: none of them fails. -/
def SettledSince (before s : TcpPipeEndpoint) : Prop :=
  before.writes.SettledSince s.writes ∧ before.reads.SettledSince s.reads

/-- A header announcing length zero completes after `invalidate`: the pending read fails. -/
theorem pending_read_failed :
    ¬ ∀ (es₁ es₂ : List Event) (s₁ s : TcpPipeEndpoint), machine.run {} es₁ = some s₁ →
      s₁.common.isOpen = true → machine.run s₁ (.invalidate :: es₂) = some s → SettledSince s₁ s := by
  intro claimed
  obtain ⟨-, ⟨later, results, decided⟩, -⟩ := claimed [.readAsync false] [.received 0 .ok [0, 0, 0, 0]] _ _
    rfl rfl rfl
  have failed : later = [⟨0, .failed, none⟩] := results.symm
  subst failed
  rcases decided ⟨0, .failed, none⟩ (List.mem_singleton_self _) with canceled | ⟨success, -⟩
  · cases canceled
  · cases success

/-- Whatever happened before: if the user invalidates an open endpoint, and no header that completes
    afterwards announces a bad length, then every read and write pending at the call completes with
    `canceled`, or with `success` if its payload was already under way, and never with `failed`; and it has
    completed once no handler is outstanding. -/
theorem user_invalidation_settles {es₁ es₂ : List Event} {s₁ s : TcpPipeEndpoint}
    (ran₁ : machine.run {} es₁ = some s₁) (wasOpen : s₁.common.isOpen = true)
    (ran : (machine.restrict announcesWell).run s₁ (.invalidate :: es₂) = some s) : SettledSince s₁ s := by
  obtain ⟨s₂, closed, later⟩ := Machine.run_cons_eq_some.mp ran
  obtain rfl : s₁.invalidate = s₂ := Option.some.inj (Machine.restrict_step.mp closed).2
  have byUser : s₁.invalidate.common.ClosedByUser :=
    ⟨rfl, by simp [invalidate, EndpointCommon.invalidateUnsafe, wasOpen]⟩
  have ready : s₁.reads.ReadsReady := run_readsReady ran₁
  have start : Closing s₁ s₁.invalidate :=
    { consistent := step_consistent (run_consistent ran₁) (e := .invalidate) rfl
      ready := ready
      writes := .of_same byUser (List.Subset.refl _) rfl rfl
      reads := .of_same byUser (List.Subset.refl _) rfl rfl }
  have closing : Closing s₁ s := by
    apply Machine.run_invariant (P := Closing s₁) ?_ start later
    intro u e v inv stepped
    obtain ⟨guarded, plain⟩ := Machine.restrict_step.mp stepped
    exact closing_step inv guarded plain
  exact ⟨OpSide.Paced.settledSince closing.consistent.pacedWrites closing.consistent.accountedWrites closing.writes,
    OpSide.Paced.settledSince closing.consistent.pacedReads closing.consistent.accountedReads closing.reads⟩

/-- The payload of the first write is under way when the user invalidates; the second write and the read
    are cancelled. -/
theorem user_invalidation_settles_example :
    ∃ s₁,
      machine.run {} [.writeAsync [7] false, .writeAsync [8] false, .readAsync true, .written 0 .ok 4] = some s₁ ∧
      (s₁.common.isOpen = true ∧
        ∃ s, (machine.restrict announcesWell).run s₁
            [.invalidate, .written 0 .ok 1, .received 0 .ok [0, 0, 0, 1]] = some s ∧
          s.writes.results = [⟨0, .success, none⟩, ⟨1, .canceled, none⟩] ∧
          s.reads.results = [⟨0, .canceled, none⟩]) ∧
      ∀ later s, (machine.restrict announcesWell).run s₁ (.invalidate :: later) = some s → SettledSince s₁ s :=
  Machine.exists_run ⟨_, rfl, rfl, _, rfl, rfl, rfl⟩ fun ran₁ ⟨wasOpen, _⟩ _ _ ran =>
    user_invalidation_settles ran₁ wasOpen ran

end TcpPipeEndpoint

end CommonRpc
