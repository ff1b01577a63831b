/-
Module: CommonRpc.Proofs.TcpPipeEndpoint
Purpose: The two sides of a `tcp_pipe_endpoint` over every interleaving of calls, socket reports, timers and
  `invalidate`. A step of the endpoint is a move of the write side and a move of the read side
  (`step_steps`), so what the moves keep holds over whole runs: no side ever has two socket
  operations outstanding, stalls, or resolves a promise twice.
Trusted boundary: none
-/
import CommonRpc.Proofs.TcpPipeOperations

namespace CommonRpc

namespace TcpPipeEndpoint

open Lib CommonRpc.Part

/-- What an event is to the write side. -/
def writeAction : Event → Action WriteOperation
  | .writeAsync message _ => .start { payload := message }
  | .written _ ec bytes => .socket ec bytes (sentOf bytes)
  | _ => .other

/-- What an event is to the read side. -/
def readAction : Event → Action ReadOperation
  | .readAsync _ => .start {}
  | .received _ ec chunk => .socket ec chunk.length fun _ => chunk
  | _ => .other

theorem startWritePayloadAsync_eq : startWritePayloadAsync = startPayloadIf fun _ => true := by
  funext p
  rw [startWritePayloadAsync, startPayloadIf]
  cases operations : p.side.operations with
  | nil => simp [startPayloadAsync, operations]
  | cons back rest => rfl

theorem startReadPayloadAsync_eq :
    startReadPayloadAsync = startPayloadIf ReadOperation.isPayloadBufferValid := by
  funext p
  rw [startReadPayloadAsync, startPayloadIf]
  cases p.side.operations <;> rfl

variable {s t : TcpPipeEndpoint} {e : Event}

/-- What a step does to the two sides. -/
def Steps (s t : TcpPipeEndpoint) (e : Event) : Prop :=
  Moves (fun _ => true) s.writePart t.writePart (writeAction e) ∧
    Moves ReadOperation.isPayloadBufferValid s.readPart t.readPart (readAction e)

/-- A move of the write side leaves the read side alone, except that it may close the socket. -/
theorem steps_of_write {p : Part WriteOperation}
    (move : Moves (fun _ => true) s.writePart p (writeAction e)) : Steps s (s.withWrite p) e :=
  ⟨move, .unchanged rfl move.closes⟩

theorem steps_of_read {p : Part ReadOperation}
    (move : Moves ReadOperation.isPayloadBufferValid s.readPart p (readAction e)) :
    Steps s (s.withRead p) e :=
  ⟨.unchanged rfl move.closes, move⟩

theorem steps_of_common {c : EndpointCommon} (closes : c.isOpen = true → s.common.isOpen = true) :
    Steps s { s with common := c } e :=
  ⟨.unchanged rfl closes, .unchanged rfl closes⟩

/-- The handler of a timer has forgotten it and, unless it was cancelled, times out an operation of one side. -/
theorem timerHandler_cases {timerId : Nat} (stepped : step s (.timerHandler timerId) = some t) :
    ∃ timer, t = { s with common := { s.common with timer } } ∨
      (∃ id, t = s.withWrite (Part.onTimer id ⟨s.writes, { s.common with timer }⟩)) ∨
      ∃ id, t = s.withRead (Part.onTimer id ⟨s.reads, { s.common with timer }⟩) := by
  simp only [step] at stepped
  split at stepped
  · cases stepped
  · next timer callback handled =>
      split at stepped
      · cases stepped
        exact ⟨timer, .inl rfl⟩
      · next operation =>
          cases stepped
          obtain ⟨tag, id⟩ := operation
          cases tag with
          | write => exact ⟨timer, .inr (.inl ⟨id, rfl⟩)⟩
          | read => exact ⟨timer, .inr (.inr ⟨id, rfl⟩)⟩

theorem step_steps (pacedWrites : s.writes.Paced) (pacedReads : s.reads.Paced)
    (stepped : step s e = some t) : Steps s t e := by
  cases e with
  | writeAsync message timed =>
      cases stepped
      exact steps_of_write (startAsync_move pacedWrites .write rfl timed)
  | readAsync timed =>
      cases stepped
      exact steps_of_read (startAsync_move pacedReads .read rfl timed)
  | written index ec bytes =>
      obtain ⟨p, ran, rfl⟩ := Option.map_eq_some_iff.mp stepped
      rw [startWritePayloadAsync_eq] at ran
      exact steps_of_write (onSocketOp_move pacedWrites ran)
  | received index ec chunk =>
      obtain ⟨p, ran, rfl⟩ := Option.map_eq_some_iff.mp stepped
      rw [startReadPayloadAsync_eq] at ran
      exact steps_of_read (onSocketOp_move pacedReads ran)
  | timerExpires timerId =>
      obtain ⟨timer, -, rfl⟩ := Option.map_eq_some_iff.mp stepped
      exact steps_of_common fun isOpen => isOpen
  | timerHandler timerId =>
      obtain ⟨timer, rfl | ⟨id, rfl⟩ | ⟨id, rfl⟩⟩ := timerHandler_cases stepped
      · exact steps_of_common fun isOpen => isOpen
      · -- no side looks at the timer
        have move : Moves (fun _ => true) ⟨s.writes, { s.common with timer }⟩ _ .other :=
          onTimer_move pacedWrites id
        exact ⟨move, .unchanged rfl move.closes⟩
      · have move : Moves ReadOperation.isPayloadBufferValid ⟨s.reads, { s.common with timer }⟩ _ .other :=
          onTimer_move pacedReads id
        exact ⟨.unchanged rfl move.closes, move⟩
  | invalidate =>
      cases stepped
      exact steps_of_common fun isOpen => by cases isOpen
  | setDisconnectCallback callback =>
      cases stepped
      apply steps_of_common
      simp only [EndpointCommon.setDisconnectCallback]
      split <;> exact fun isOpen => isOpen

/-- What holds of an endpoint at every moment. -/
structure Consistent (s : TcpPipeEndpoint) : Prop where
  pacedWrites : s.writes.Paced
  pacedReads : s.reads.Paced
  accountedWrites : s.writes.Accounted
  accountedReads : s.reads.Accounted

theorem consistent_start : Consistent {} where
  pacedWrites := ⟨.inl ⟨rfl, rfl⟩, by simp, by simp⟩
  pacedReads := ⟨.inl ⟨rfl, rfl⟩, by simp, by simp⟩
  accountedWrites := ⟨by simp, by simp⟩
  accountedReads := ⟨by simp, by simp⟩

theorem step_consistent (consistent : s.Consistent) (stepped : step s e = some t) : t.Consistent := by
  obtain ⟨write, read⟩ := step_steps consistent.pacedWrites consistent.pacedReads stepped
  exact ⟨write.paced consistent.pacedWrites, read.paced consistent.pacedReads,
    consistent.accountedWrites.move write, consistent.accountedReads.move read⟩

theorem run_consistent {es : List Event} (ran : machine.run {} es = some s) : s.Consistent :=
  Machine.run_invariant (P := Consistent) step_consistent consistent_start ran

end TcpPipeEndpoint

/-! ### The discipline of a side -/

namespace OpSide

variable {ω : Type} {s : OpSide ω}

/-- At most one socket operation is outstanding, it is for the back operation, and it is there exactly while
    the list is not empty. -/
def OneAtATime (s : OpSide ω) : Prop :=
  s.outstanding.length ≤ 1 ∧
    (∀ socketOp ∈ s.outstanding, s.operations.head?.map OperationData.id = some socketOp.opId) ∧
    (s.operations ≠ [] ↔ s.outstanding ≠ [])

theorem Paced.oneAtATime (paced : s.Paced) : s.OneAtATime := by
  rcases paced.shape with ⟨outstanding, operations⟩ | ⟨socketOp, back, rest, outstanding, operations, own⟩
  · simp [OneAtATime, outstanding, operations]
  · simp [OneAtATime, outstanding, operations, own]

variable [PipeOperation ω]

theorem Accounted.nodup_results (accounted : s.Accounted) : (s.results.map OpResult.id).Nodup :=
  (accounted.ids.nodup_iff.mpr List.nodup_range).sublist (List.sublist_append_left _ _)

theorem Accounted.result_lt (accounted : s.Accounted) {r : OpResult} (resolved : r ∈ s.results) :
    r.id < s.nextOpId := by
  have place : r.id ∈ s.results.map OpResult.id ++ owed s.operations :=
    List.mem_append_left _ (List.mem_map_of_mem resolved)
  exact List.mem_range.mp (accounted.ids.mem_iff.mp place)

/-- With an empty list every promise has been resolved. -/
theorem Accounted.all_resolved (accounted : s.Accounted) (idle : s.operations = []) :
    (s.results.map OpResult.id).Perm (List.range s.nextOpId) := by
  have ids := accounted.ids
  rwa [idle, owed_nil, List.append_nil] at ids

end OpSide

namespace TcpPipeEndpoint

/-- Over every interleaving: each side has at most one socket operation outstanding, for its back operation,
    exactly while its list is not empty; every promise is resolved at most once; and when no socket
    operation is outstanding on a closed socket, both lists are empty and every promise that was ever created
    has been resolved. -/
theorem operations_resolved_once {es : List Event} {s : TcpPipeEndpoint} (ran : machine.run {} es = some s) :
    s.writes.OneAtATime ∧ s.reads.OneAtATime ∧
    (s.writes.results.map OpResult.id).Nodup ∧ (s.reads.results.map OpResult.id).Nodup ∧
    (∀ r ∈ s.writes.results, r.id < s.writes.nextOpId) ∧ (∀ r ∈ s.reads.results, r.id < s.reads.nextOpId) ∧
    (s.common.isOpen = false → s.writes.outstanding = [] → s.reads.outstanding = [] →
      s.writes.operations = [] ∧ s.reads.operations = [] ∧
      (s.writes.results.map OpResult.id).Perm (List.range s.writes.nextOpId) ∧
      (s.reads.results.map OpResult.id).Perm (List.range s.reads.nextOpId)) := by
  have consistent := run_consistent ran
  have writes := consistent.pacedWrites.oneAtATime
  have reads := consistent.pacedReads.oneAtATime
  refine ⟨writes, reads, consistent.accountedWrites.nodup_results, consistent.accountedReads.nodup_results,
    fun r => consistent.accountedWrites.result_lt, fun r => consistent.accountedReads.result_lt, ?_⟩
  intro _ noWrite noRead
  have idleWrites : s.writes.operations = [] := by
    by_contra listed
    exact writes.2.2.mp listed noWrite
  have idleReads : s.reads.operations = [] := by
    by_contra listed
    exact reads.2.2.mp listed noRead
  exact ⟨idleWrites, idleReads, consistent.accountedWrites.all_resolved idleWrites,
    consistent.accountedReads.all_resolved idleReads⟩

/-- Two writes and a read; the read's timer fires, and `invalidate` strikes between two completions. -/
theorem operations_resolved_once_invalidated :
    ∃ s, machine.run {} [.writeAsync [7] false, .writeAsync [8, 9] true, .readAsync true, .written 0 .ok 4,
        .timerExpires 1, .invalidate, .timerHandler 1, .written 0 .ok 1,
        .received 0 .operationAborted []] = some s ∧
      (s.common.isOpen = false ∧ s.writes.outstanding = [] ∧ s.reads.outstanding = [] ∧ s.writes.nextOpId = 2 ∧
        s.reads.nextOpId = 1) ∧
      (s.writes.results.map OpResult.id).Perm (List.range 2) ∧
      (s.reads.results.map OpResult.id).Perm (List.range 1) := by
  refine Lib.Machine.exists_run ⟨_, rfl, rfl, rfl, rfl, rfl, rfl⟩
    fun ran ⟨closed, noWrite, noRead, writes, reads⟩ => ?_
  have resolved := (operations_resolved_once ran).2.2.2.2.2.2 closed noWrite noRead
  exact ⟨writes ▸ resolved.2.2.1, reads ▸ resolved.2.2.2⟩

end TcpPipeEndpoint

end CommonRpc
