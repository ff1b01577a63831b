/-
Module: CommonRpc.Proofs.TcpPipeOperations
Purpose: What one side of a `tcp_pipe_endpoint` does, for any kind of operation. `Move` says once what a step
  can do to a list of operations, its outstanding socket operation and its results; the invariants of the
  later modules are checked per move. Here: one socket operation is outstanding exactly while the list is not
  empty (`Paced`), and every operation has its promise or its result (`Accounted`).
Trusted boundary: none
-/
import CommonRpc.Core.TcpPipeEndpoint
import Mathlib.Data.List.Nodup
import Mathlib.Data.List.Perm.Basic

namespace CommonRpc

open PipeOperation

/-! ### The shape of a side -/

/-- One socket operation is outstanding exactly while the list is not empty, and it is for the back. -/
structure OpSide.Paced {ω : Type} (s : OpSide ω) : Prop where
  shape : (s.outstanding = [] ∧ s.operations = []) ∨
    ∃ socketOp back rest, s.outstanding = [socketOp] ∧ s.operations = back :: rest ∧ socketOp.opId = back.id
  increasing : (s.operations.map OperationData.id).Pairwise (· < ·)
  below : ∀ data ∈ s.operations, data.id < s.nextOpId

theorem OpSide.Paced.back_lt {ω : Type} {s : OpSide ω} {back : OperationData ω}
    {rest : List (OperationData ω)} (paced : s.Paced) (operations : s.operations = back :: rest) :
    ∀ data ∈ rest, back.id < data.id := by
  have increasing := paced.increasing
  rw [operations, List.map_cons, List.pairwise_cons] at increasing
  intro data member
  exact increasing.1 data.id (List.mem_map_of_mem member)

namespace Part

variable {ω : Type} [PipeOperation ω]

/-- Both payload starters: the write side is always ready to go on. -/
def startPayloadIf (ready : ω → Bool) (p : Part ω) : Part ω :=
  match p.side.operations with
  | [] => p
  | back :: _ =>
      if ready back.op then p.startPayloadAsync
      else { p with common := p.common.invalidateUnsafe false }.completeAllOperationsUnsafe .failed

/-- What reaches one side of the endpoint. -/
inductive Action (ω : Type) where
  | start (op : ω)
  | socket (ec : ErrorCode) (bytes : Nat) (chunk : SocketBuffer → Bytes)
  | other

/-- The operation after its socket operation was reported. -/
def reported (back : OperationData ω) (bytes : Nat) (chunk : Bytes) : OperationData ω :=
  { back with op := addBytes (receive back.op chunk) bytes }

@[simp] theorem reported_id (back : OperationData ω) (bytes : Nat) (chunk : Bytes) :
    (reported back bytes chunk).id = back.id := rfl

/-- The side after its only socket operation was reported and before the handler goes on. -/
def arrive (s : OpSide ω) (back : OperationData ω) (rest : List (OperationData ω)) (bytes : Nat)
    (chunk : Bytes) : OpSide ω :=
  { s with
    outstanding := []
    moved := s.moved ++ [(back.id, chunk)]
    operations := reported back bytes chunk :: rest }

def bufferFor : OpPhase → ω → SocketBuffer
  | .header => headerBuffer
  | .payload => payloadBuffer

/-- The phase an operation goes on with. -/
def GoesOn (ready : ω → Bool) (op : ω) : OpPhase → OpPhase → Prop
  | .header, .header => isHeaderCompleted op = false
  | .header, .payload => isHeaderCompleted op = true ∧ ready op = true
  | .payload, .payload => isPayloadCompleted op = false ∧ ready op = true
  | .payload, .header => False

/-- The back operation without its promise. -/
def detached (r : PipeOpRes) (data : OperationData ω) : OperationData ω :=
  if isPromiseResolved data.op then data else { data with op := resolve data.op r }

@[simp] theorem detached_id (r : PipeOpRes) (data : OperationData ω) : (detached r data).id = data.id := by
  unfold detached
  split <;> rfl

/-- What a step of the endpoint can do to one side; `o` says whether the socket is open before the step and
    `o'` whether it is after it. -/
inductive Move (ready : ω → Bool) (s s' : OpSide ω) (o o' : Bool) : Action ω → Prop where
  /-- The step is none of this side's business, except that it may close the socket. -/
  | unchanged {action : Action ω} (side : s' = s)
      (closes : o' = true → o = true) : Move ready s s' o o' action
  | refused {op : ω} (closed : o' = o)
      (side : s' = { s with refused := s.refused + 1 }) : Move ready s s' o o' (.start op)
  /-- A call queues its operation behind others. -/
  | queued {op : ω} (timerId : Option Nat) (promised : isPromiseResolved op = false) (isOpen : o' = true)
      (wasOpen : o = true) (busy : s.operations ≠ [])
      (side : s' = { s with
        nextOpId := s.nextOpId + 1
        created := s.created ++ [op]
        operations := s.operations ++ [⟨s.nextOpId, op, timerId⟩] }) : Move ready s s' o o' (.start op)
  /-- A call starts its operation at once. -/
  | started {op : ω} (timerId : Option Nat) (promised : isPromiseResolved op = false) (isOpen : o' = true)
      (wasOpen : o = true) (idle : s.operations = [])
      (side : s' = { s with
        nextOpId := s.nextOpId + 1
        created := s.created ++ [op]
        operations := [⟨s.nextOpId, op, timerId⟩]
        activated := s.activated ++ [s.nextOpId]
        outstanding := [⟨s.nextOpId, .header, headerBuffer op⟩] }) :
      Move ready s s' o o' (.start op)
  /-- A handler ends everything: an error, a bad header, or a socket closed meanwhile. -/
  | ended {ec : ErrorCode} {bytes : Nat} {chunk : SocketBuffer → Bytes} (socketOp : SocketOp)
      (back : OperationData ω) (rest : List (OperationData ω)) (r : PipeOpRes)
      (outstanding : s.outstanding = [socketOp]) (operations : s.operations = back :: rest)
      (own : socketOp.opId = back.id) (failure : r ≠ .success)
      (closing : o' = false ∨ (ec = .operationAborted ∧ o' = o))
      (side : s' = { arrive s back rest bytes (chunk socketOp.buffer) with
        operations := []
        results := s.results ++
          (reported back bytes (chunk socketOp.buffer) :: rest).filterMap (takePendingResult r) }) :
      Move ready s s' o o' (.socket ec bytes chunk)
  /-- A handler goes on with the same operation. -/
  | continued {ec : ErrorCode} {bytes : Nat} {chunk : SocketBuffer → Bytes} (socketOp : SocketOp)
      (back : OperationData ω) (rest : List (OperationData ω)) (phase : OpPhase)
      (outstanding : s.outstanding = [socketOp]) (operations : s.operations = back :: rest)
      (own : socketOp.opId = back.id) (isOpen : o' = true) (wasOpen : o = true)
      (goesOn : GoesOn ready (reported back bytes (chunk socketOp.buffer)).op socketOp.phase phase)
      (side : s' = { arrive s back rest bytes (chunk socketOp.buffer) with
        outstanding := [⟨back.id, phase,
          bufferFor phase (reported back bytes (chunk socketOp.buffer)).op⟩] }) :
      Move ready s s' o o' (.socket ec bytes chunk)
  /-- A handler finishes the last operation, or the socket is closed and the others end with it. -/
  | finished {ec : ErrorCode} {bytes : Nat} {chunk : SocketBuffer → Bytes} (socketOp : SocketOp)
      (back : OperationData ω) (rest : List (OperationData ω)) (r : PipeOpRes)
      (outstanding : s.outstanding = [socketOp]) (operations : s.operations = back :: rest)
      (own : socketOp.opId = back.id) (same : o' = o) (failure : r ≠ .success)
      (payload : socketOp.phase = .payload)
      (completed : isPayloadCompleted (reported back bytes (chunk socketOp.buffer)).op = true)
      (side : s' = { arrive s back rest bytes (chunk socketOp.buffer) with
        operations := []
        results := s.results ++
          (takePendingResult .success (reported back bytes (chunk socketOp.buffer))).toList ++
          rest.filterMap (takePendingResult r) }) :
      Move ready s s' o o' (.socket ec bytes chunk)
  /-- A handler finishes the operation and starts the next one. -/
  | finishedNext {ec : ErrorCode} {bytes : Nat} {chunk : SocketBuffer → Bytes} (socketOp : SocketOp)
      (back next : OperationData ω) (rest : List (OperationData ω))
      (outstanding : s.outstanding = [socketOp]) (operations : s.operations = back :: next :: rest)
      (own : socketOp.opId = back.id) (isOpen : o' = true) (wasOpen : o = true)
      (payload : socketOp.phase = .payload)
      (completed : isPayloadCompleted (reported back bytes (chunk socketOp.buffer)).op = true)
      (side : s' = { arrive s back (next :: rest) bytes (chunk socketOp.buffer) with
        operations := next :: rest
        activated := s.activated ++ [next.id]
        outstanding := [⟨next.id, .header, headerBuffer next.op⟩]
        results := s.results ++
          (takePendingResult .success (reported back bytes (chunk socketOp.buffer))).toList }) :
      Move ready s s' o o' (.socket ec bytes chunk)
  /-- The timer of a queued operation removes it. -/
  | timedOut (back data : OperationData ω) (rest : List (OperationData ω)) (r : PipeOpRes)
      (operations : s.operations = back :: rest) (member : data ∈ rest) (failure : r ≠ .success)
      (same : o' = o)
      (side : s' = { s with
        results := s.results ++ (takePendingResult r data).toList
        operations := back :: rest.eraseP fun other => other.id = data.id }) : Move ready s s' o o' .other
  /-- The timer of the active operation only takes its promise. -/
  | timedOutActive (back : OperationData ω) (rest : List (OperationData ω)) (r : PipeOpRes)
      (operations : s.operations = back :: rest) (failure : r ≠ .success)
      (same : o' = o)
      (side : s' = { s with
        results := s.results ++ (takePendingResult r back).toList
        operations := detached r back :: rest }) : Move ready s s' o o' .other

/-- A step of a part is a move of its side. -/
def Moves (ready : ω → Bool) (p p' : Part ω) (action : Action ω) : Prop :=
  Move ready p.side p'.side p.common.isOpen p'.common.isOpen action

/-! ### The steps of a side are moves -/

variable {ready : ω → Bool} {p p' : Part ω}

theorem closedResult_ne_success (c : EndpointCommon) : c.closedResult ≠ .success := by
  simp only [EndpointCommon.closedResult]
  split <;> decide

theorem startAsync_move (paced : p.side.Paced) (tag : PipeSide) {op : ω}
    (promised : isPromiseResolved op = false) (timed : Bool) :
    Moves ready p (p.startAsync tag op timed) (.start op) := by
  cases isOpen : p.common.isOpen with
  | false => exact Move.refused (by simp [startAsync, isOpen]) (by simp [startAsync, isOpen])
  | true =>
      rcases paced.shape with ⟨outstanding, idle⟩ | ⟨socketOp, back, rest, outstanding, operations, own⟩
      · refine Move.started (if timed then some p.common.timer.nextId else none) promised ?_ isOpen idle ?_
        · simp [startAsync, isOpen, idle, activateBack, startHeaderAsync, issue]
        · simp [startAsync, isOpen, idle, activateBack, startHeaderAsync, issue, outstanding]
      · refine Move.queued (if timed then some p.common.timer.nextId else none) promised ?_ isOpen
          (by simp [operations]) ?_
        · simp [startAsync, isOpen, operations]
        · simp [startAsync, isOpen, operations]

/-- A socket operation's memory belongs to the back operation only. -/
theorem transfer_eq (paced : p.side.Paced) {socketOp : SocketOp} {back : OperationData ω}
    {rest : List (OperationData ω)} (outstanding : p.side.outstanding = [socketOp])
    (operations : p.side.operations = back :: rest) (own : socketOp.opId = back.id) (chunk : Bytes)
    (bytes : Nat) :
    (p.transfer 0 socketOp chunk).addBytesToBack bytes =
      { p with side := arrive p.side back rest bytes chunk } := by
  have apart := paced.back_lt operations
  have kept : (rest.map fun data : OperationData ω =>
      if data.id = back.id then { data with op := receive data.op chunk } else data) = rest := by
    conv_rhs => rw [← List.map_id rest]
    apply List.map_congr_left
    intro data member
    have ne := apart data member
    simp [Nat.ne_of_gt ne]
  simp [transfer, addBytesToBack, arrive, reported, outstanding, operations, own, kept]

section Handler

variable {socketOp : SocketOp} {back : OperationData ω} {rest : List (OperationData ω)} {ec : ErrorCode}
  {bytes : Nat} {chunk : SocketBuffer → Bytes}

/-- The part as the handler finds it after `add_bytes`. -/
def handled (p : Part ω) (back : OperationData ω) (rest : List (OperationData ω)) (bytes : Nat)
    (chunk : Bytes) : Part ω :=
  { p with side := arrive p.side back rest bytes chunk }

theorem onError_move (outstanding : p.side.outstanding = [socketOp]) (operations : p.side.operations = back :: rest)
    (own : socketOp.opId = back.id) :
    Moves ready p ((p.handled back rest bytes (chunk socketOp.buffer)).onError ec) (.socket ec bytes chunk) := by
  by_cases quiet : ec = .operationAborted ∨ ¬ p.common.isOpen
  · have branch : (p.handled back rest bytes (chunk socketOp.buffer)).onError ec =
        (p.handled back rest bytes (chunk socketOp.buffer)).completeAllOperationsUnsafe
          p.common.closedResult := if_pos quiet
    rw [branch]
    refine Move.ended socketOp back rest p.common.closedResult outstanding operations own
      (closedResult_ne_success _) ?_ rfl
    rcases quiet with aborted | closed
    · exact .inr ⟨aborted, rfl⟩
    · exact .inl (Bool.eq_false_iff.mpr closed)
  · have branch : (p.handled back rest bytes (chunk socketOp.buffer)).onError ec =
        { p.handled back rest bytes (chunk socketOp.buffer) with
          common := p.common.invalidateUnsafe false }.completeAllOperationsUnsafe .failed := if_neg quiet
    rw [branch]
    exact Move.ended socketOp back rest .failed outstanding operations own (by decide) (.inl rfl) rfl

theorem startHeaderAsync_move (outstanding : p.side.outstanding = [socketOp])
    (operations : p.side.operations = back :: rest) (own : socketOp.opId = back.id)
    (phase : socketOp.phase = .header)
    (incomplete : isHeaderCompleted (reported back bytes (chunk socketOp.buffer)).op = false) :
    Moves ready p (p.handled back rest bytes (chunk socketOp.buffer)).startHeaderAsync
      (.socket ec bytes chunk) := by
  cases isOpen : p.common.isOpen with
  | true =>
      refine Move.continued socketOp back rest .header outstanding operations own ?_ isOpen ?_ ?_
      · simp [startHeaderAsync, handled, arrive, isOpen, issue]
      · rw [phase]
        exact incomplete
      · simp [startHeaderAsync, handled, arrive, isOpen, issue, bufferFor]
  | false =>
      refine Move.ended socketOp back rest p.common.closedResult outstanding operations own
        (closedResult_ne_success _) (.inl ?_) ?_
      · simp [startHeaderAsync, handled, arrive, isOpen, completeAllOperationsUnsafe]
      · simp [startHeaderAsync, handled, arrive, isOpen, completeAllOperationsUnsafe]

theorem startPayloadIf_move (outstanding : p.side.outstanding = [socketOp])
    (operations : p.side.operations = back :: rest) (own : socketOp.opId = back.id)
    (goesOn : ready (reported back bytes (chunk socketOp.buffer)).op = true →
      GoesOn ready (reported back bytes (chunk socketOp.buffer)).op socketOp.phase .payload) :
    Moves ready p (startPayloadIf ready (p.handled back rest bytes (chunk socketOp.buffer)))
      (.socket ec bytes chunk) := by
  cases isReady : ready (reported back bytes (chunk socketOp.buffer)).op with
  | false =>
      refine Move.ended socketOp back rest .failed outstanding operations own (by decide) (.inl ?_) ?_
      · simp [startPayloadIf, handled, arrive, isReady, completeAllOperationsUnsafe,
          EndpointCommon.invalidateUnsafe]
      · simp [startPayloadIf, handled, arrive, isReady, completeAllOperationsUnsafe]
  | true =>
      cases isOpen : p.common.isOpen with
      | true =>
          refine Move.continued socketOp back rest .payload outstanding operations own ?_ isOpen
            (goesOn isReady) ?_
          · simp [startPayloadIf, startPayloadAsync, handled, arrive, isReady, isOpen, issue]
          · simp [startPayloadIf, startPayloadAsync, handled, arrive, isReady, isOpen, issue, bufferFor]
      | false =>
          refine Move.ended socketOp back rest p.common.closedResult outstanding operations own
            (closedResult_ne_success _) (.inl ?_) ?_
          · simp [startPayloadIf, startPayloadAsync, handled, arrive, isReady, isOpen,
              completeAllOperationsUnsafe]
          · simp [startPayloadIf, startPayloadAsync, handled, arrive, isReady, isOpen,
              completeAllOperationsUnsafe]

/-- The operation is complete: the list goes on with the next one, if there is one. -/
theorem finishBack_move (outstanding : p.side.outstanding = [socketOp])
    (operations : p.side.operations = back :: rest) (own : socketOp.opId = back.id)
    (payload : socketOp.phase = .payload)
    (completed : isPayloadCompleted (reported back bytes (chunk socketOp.buffer)).op = true) :
    Moves ready p
      (let q := (p.handled back rest bytes (chunk socketOp.buffer)).finishBack
          (reported back bytes (chunk socketOp.buffer)) rest
        if rest.isEmpty then q else q.activateBack.startHeaderAsync)
      (.socket ec bytes chunk) := by
  cases rest with
  | nil =>
      refine Move.finished socketOp back [] .failed outstanding operations own ?_ (by decide) payload
        completed ?_
      · simp [finishBack, handled]
      · simp [finishBack, handled, arrive]
  | cons next rest =>
      cases isOpen : p.common.isOpen with
      | true =>
          refine Move.finishedNext socketOp back next rest outstanding operations own ?_ isOpen payload
            completed ?_
          · simp [finishBack, handled, activateBack, startHeaderAsync, issue, isOpen]
          · simp [finishBack, handled, activateBack, startHeaderAsync, issue, isOpen, arrive]
      | false =>
          refine Move.finished socketOp back (next :: rest) p.common.closedResult outstanding operations own
            ?_ (closedResult_ne_success _) payload completed ?_
          · simp [finishBack, handled, activateBack, startHeaderAsync, completeAllOperationsUnsafe, isOpen]
          · simp [finishBack, handled, activateBack, startHeaderAsync, completeAllOperationsUnsafe, isOpen,
              arrive, EndpointCommon.closedResult]

/-- How a handler goes on with the back operation, whose socket operation it is. -/
inductive Handles (p : Part ω) (startPayload : Part ω → Part ω) (socketOp : SocketOp) (back : OperationData ω)
    (rest : List (OperationData ω)) (ec : ErrorCode) (bytes : Nat) (arrived : Bytes) : Part ω → Prop where
  | error (bad : ec ≠ .ok) :
      Handles p startPayload socketOp back rest ec bytes arrived ((p.handled back rest bytes arrived).onError ec)
  | header (good : ec = .ok) (phase : socketOp.phase = .header)
      (incomplete : isHeaderCompleted (reported back bytes arrived).op = false) :
      Handles p startPayload socketOp back rest ec bytes arrived
        (p.handled back rest bytes arrived).startHeaderAsync
  | payload (good : ec = .ok)
      (afterHeader : socketOp.phase = .header → isHeaderCompleted (reported back bytes arrived).op = true)
      (afterPayload : socketOp.phase = .payload → isPayloadCompleted (reported back bytes arrived).op = false) :
      Handles p startPayload socketOp back rest ec bytes arrived (startPayload (p.handled back rest bytes arrived))
  | completed (good : ec = .ok) (phase : socketOp.phase = .payload)
      (complete : isPayloadCompleted (reported back bytes arrived).op = true) :
      Handles p startPayload socketOp back rest ec bytes arrived
        (let q := (p.handled back rest bytes arrived).finishBack (reported back bytes arrived) rest
          if rest.isEmpty then q else q.activateBack.startHeaderAsync)

theorem onSocketOp_handles (paced : p.side.Paced) {startPayload : Part ω → Part ω} {index : Nat}
    (ran : p.onSocketOp startPayload index ec bytes chunk = some p') :
    ∃ socketOp back rest, index = 0 ∧ p.side.outstanding = [socketOp] ∧ p.side.operations = back :: rest ∧
      socketOp.opId = back.id ∧
      Handles p startPayload socketOp back rest ec bytes (chunk socketOp.buffer) p' := by
  rcases paced.shape with ⟨outstanding, -⟩ | ⟨socketOp, back, rest, outstanding, operations, own⟩
  · simp [onSocketOp, outstanding] at ran
  · cases index with
    | succ index => simp [onSocketOp, outstanding] at ran
    | zero =>
        refine ⟨socketOp, back, rest, rfl, outstanding, operations, own, ?_⟩
        have found := transfer_eq paced outstanding operations own (chunk socketOp.buffer) bytes
        simp only [onSocketOp, outstanding, List.getElem?_cons_zero] at ran
        cases phase : socketOp.phase with
        | header =>
            simp only [phase, onHeaderOperation, found, Option.some.injEq] at ran
            subst ran
            by_cases good : ec = .ok
            · cases completed : isHeaderCompleted (reported back bytes (chunk socketOp.buffer)).op with
              | false =>
                  simp only [arrive, good, completed, ne_eq, not_true_eq_false, if_false, Bool.false_eq_true]
                  exact .header rfl phase completed
              | true =>
                  simp only [arrive, good, completed, ne_eq, not_true_eq_false, if_false, if_true]
                  exact .payload rfl (fun _ => completed) fun payload => by simp [phase] at payload
            · simp only [arrive, good, ne_eq, not_false_eq_true, if_true]
              exact .error good
        | payload =>
            simp only [phase, onPayloadOperation, found, Option.some.injEq] at ran
            subst ran
            by_cases good : ec = .ok
            · cases completed : isPayloadCompleted (reported back bytes (chunk socketOp.buffer)).op with
              | false =>
                  simp only [arrive, good, completed, ne_eq, not_true_eq_false, if_false, Bool.not_false, if_true]
                  exact .payload rfl (fun header => by simp [phase] at header) fun _ => completed
              | true =>
                  simp only [arrive, good, completed, ne_eq, not_true_eq_false, if_false, Bool.not_true,
                    Bool.false_eq_true]
                  exact .completed rfl phase completed
            · simp only [arrive, good, ne_eq, not_false_eq_true, if_true]
              exact .error good

theorem onSocketOp_move (paced : p.side.Paced) {index : Nat}
    (ran : p.onSocketOp (startPayloadIf ready) index ec bytes chunk = some p') :
    Moves ready p p' (.socket ec bytes chunk) := by
  obtain ⟨socketOp, back, rest, -, outstanding, operations, own, handles⟩ := onSocketOp_handles paced ran
  cases handles with
  | error => exact onError_move outstanding operations own
  | header _ phase incomplete => exact startHeaderAsync_move outstanding operations own phase incomplete
  | payload _ afterHeader afterPayload =>
      apply startPayloadIf_move outstanding operations own
      intro isReady
      cases phase : socketOp.phase with
      | header => exact ⟨afterHeader phase, isReady⟩
      | payload => exact ⟨afterPayload phase, isReady⟩
  | completed _ phase complete => exact finishBack_move outstanding operations own phase complete

end Handler

theorem onTimer_move (paced : p.side.Paced) (id : Nat) : Moves ready p (p.onTimer id) .other := by
  cases found : p.side.operations.find? fun data => data.id = id with
  | none => exact Move.unchanged (by simp [onTimer, found]) (by simp [onTimer, found])
  | some data =>
      have same : data.id = id := by simpa using List.find?_some found
      have member := List.mem_of_find?_eq_some found
      have failure : (if p.common.isOpen then .timeout else p.common.closedResult) ≠ PipeOpRes.success := by
        split
        · decide
        · exact closedResult_ne_success _
      cases operations : p.side.operations with
      | nil => simp [operations] at member
      | cons back rest =>
          have apart := paced.back_lt operations
          rw [operations] at found member
          by_cases active : back.id = id
          · -- The ids differ, so the operation that was found is the back itself.
            have isBack : data = back := by
              rw [List.find?_cons_of_pos (by simpa using active)] at found
              exact (Option.some.inj found).symm
            have kept : ∀ r : PipeOpRes, (rest.map fun other : OperationData ω =>
                if other.id = id ∧ isPromiseResolved other.op = false then
                  { other with op := resolve other.op r } else other) = rest := by
              intro r
              conv_rhs => rw [← List.map_id rest]
              apply List.map_congr_left
              intro other inRest
              have ne := apart other inRest
              rw [active] at ne
              simp [Nat.ne_of_gt ne]
            apply Move.timedOutActive back rest _ operations failure
            · simp only [onTimer, operations, found, active, List.head?_cons, Option.map_some, if_true]
            · subst isBack
              simp only [onTimer, operations, found, active, List.head?_cons, Option.map_some, if_true,
                List.map_cons, kept, detached, true_and]
              cases isPromiseResolved data.op <;> simp
          · have inRest : data ∈ rest := by
              rcases List.mem_cons.mp member with isBack | inRest
              · exact absurd (isBack ▸ same) active
              · exact inRest
            apply Move.timedOut back data rest _ operations inRest failure
            · simp only [onTimer, operations, found, active, List.head?_cons, Option.map_some,
                Option.some.injEq, if_false]
            · simp only [onTimer, operations, found, active, List.head?_cons, Option.map_some,
                Option.some.injEq, if_false, same]
              rw [List.eraseP_cons_of_neg (by simpa using active)]

/-- A closed socket stays closed. -/
theorem Move.closes {s s' : OpSide ω} {o o' : Bool} {action : Action ω} (move : Move ready s s' o o' action)
    (isOpen : o' = true) : o = true := by
  cases move with
  | unchanged _ closes => exact closes isOpen
  | refused same | finished _ _ _ _ _ _ _ same | timedOut _ _ _ _ _ _ _ same
  | timedOutActive _ _ _ _ _ same => exact same ▸ isOpen
  | ended _ _ _ _ _ _ _ _ closing =>
      rcases closing with closed | ⟨_, same⟩
      · rw [closed] at isOpen
        cases isOpen
      · exact same ▸ isOpen
  | queued _ _ _ wasOpen | started _ _ _ wasOpen | continued _ _ _ _ _ _ _ _ wasOpen
  | finishedNext _ _ _ _ _ _ _ _ wasOpen => exact wasOpen

/-! ### One socket operation at a time -/

theorem Move.paced {s s' : OpSide ω} {o o' : Bool} {action : Action ω} (move : Move ready s s' o o' action)
    (paced : s.Paced) : s'.Paced := by
  cases move with
  | unchanged side _ => exact side ▸ paced
  | refused _ side =>
      rw [side]
      exact ⟨paced.shape, paced.increasing, paced.below⟩
  | queued timerId _ _ _ busy side =>
      rw [side]
      rcases paced.shape with ⟨-, idle⟩ | ⟨socketOp, back, rest, outstanding, operations, own⟩
      · exact absurd idle busy
      · refine ⟨.inr ⟨socketOp, back, rest ++ [⟨_, _, timerId⟩], outstanding, by rw [operations]; rfl, own⟩, ?_, ?_⟩
        · simp only [List.map_append, List.pairwise_append, List.map_cons, List.map_nil,
            List.pairwise_cons, List.mem_map, List.mem_singleton]
          refine ⟨paced.increasing, by simp, ?_⟩
          rintro _ ⟨data, member, rfl⟩ _ rfl
          exact paced.below data member
        · intro data member
          rcases List.mem_append.mp member with old | new
          · exact Nat.lt_succ_of_lt (paced.below data old)
          · simp only [List.mem_singleton] at new
            simp [new]
  | started timerId _ _ _ idle side =>
      rw [side]
      exact ⟨.inr ⟨_, _, [], rfl, rfl, rfl⟩, by simp, by simp⟩
  | ended _ _ _ _ _ _ _ _ _ side | finished _ _ _ _ _ _ _ _ _ _ _ side =>
      rw [side]
      exact ⟨.inl ⟨rfl, rfl⟩, by simp, by simp⟩
  | continued socketOp back rest phase outstanding operations own _ _ _ side =>
      rw [side]
      have increasing := paced.increasing
      have below := paced.below
      rw [operations] at increasing below
      exact ⟨.inr ⟨_, _, rest, rfl, rfl, rfl⟩, by simpa [arrive] using increasing,
        by simpa [arrive] using below⟩
  | finishedNext socketOp back next rest outstanding operations own _ _ _ _ side =>
      rw [side]
      have increasing := paced.increasing
      have below := paced.below
      rw [operations] at increasing below
      refine ⟨.inr ⟨_, _, rest, rfl, rfl, rfl⟩, ?_, ?_⟩
      · exact (List.pairwise_cons.mp increasing).2
      · intro data member
        exact below data (List.mem_cons_of_mem _ member)
  | timedOut back data rest r operations member _ _ side =>
      rw [side]
      have increasing := paced.increasing
      rw [operations] at increasing
      have sub : (back :: rest.eraseP fun other => other.id = data.id).Sublist (back :: rest) :=
        List.eraseP_sublist.cons_cons back
      rcases paced.shape with ⟨-, idle⟩ | ⟨socketOp, _, _, outstanding, listed, own⟩
      · simp [idle] at operations
      · obtain ⟨rfl, rfl⟩ : back = _ ∧ rest = _ := by simpa [operations] using listed
        refine ⟨.inr ⟨socketOp, back, _, outstanding, rfl, own⟩, ?_, ?_⟩
        · exact increasing.sublist (sub.map _)
        · intro other inSub
          exact paced.below other (operations ▸ sub.subset inSub)
  | timedOutActive back rest r operations _ _ side =>
      rw [side]
      have increasing := paced.increasing
      have below := paced.below
      rw [operations] at increasing below
      rcases paced.shape with ⟨-, idle⟩ | ⟨socketOp, _, _, outstanding, listed, own⟩
      · simp [idle] at operations
      · obtain ⟨rfl, rfl⟩ : back = _ ∧ rest = _ := by simpa [operations] using listed
        refine ⟨.inr ⟨socketOp, _, rest, outstanding, rfl, by simpa using own⟩, ?_, ?_⟩
        · simpa using increasing
        · simpa using below

end Part

/-! ### Every promise is resolved once -/

namespace OpSide

variable {ω : Type} [PipeOperation ω]

/-- The operation, if its promise is not resolved. -/
def promise (data : OperationData ω) : List Nat := if isPromiseResolved data.op then [] else [data.id]

/-- The listed operations whose promise is not resolved. -/
def owed (operations : List (OperationData ω)) : List Nat := operations.flatMap promise

/-- Each operation ever created has a result or is still listed with its promise, and not both. Only the
    active operation can have lost its promise. -/
structure Accounted (s : OpSide ω) : Prop where
  ids : (s.results.map OpResult.id ++ owed s.operations).Perm (List.range s.nextOpId)
  promised : ∀ data ∈ s.operations.tail, isPromiseResolved data.op = false

@[simp] theorem owed_nil : owed ([] : List (OperationData ω)) = [] := rfl

@[simp] theorem owed_cons (data : OperationData ω) (rest : List (OperationData ω)) :
    owed (data :: rest) = promise data ++ owed rest := rfl

theorem map_id_toList_take (r : PipeOpRes) (data : OperationData ω) :
    (Part.takePendingResult r data).toList.map OpResult.id = promise data := by
  simp only [Part.takePendingResult, promise]
  split <;> rfl

theorem map_id_filterMap_take (r : PipeOpRes) (operations : List (OperationData ω)) :
    (operations.filterMap (Part.takePendingResult r)).map OpResult.id = owed operations := by
  induction operations with
  | nil => rfl
  | cons data rest ih =>
      rw [owed_cons, ← ih, ← map_id_toList_take r data, ← List.map_append]
      cases taken : Part.takePendingResult r data <;> simp [taken]

@[simp] theorem promise_reported (back : OperationData ω) (bytes : Nat) (chunk : Bytes) :
    promise (Part.reported back bytes chunk) = promise back := by
  simp [promise, Part.reported, isPromiseResolved_addBytes, isPromiseResolved_receive]

/-- A queued operation that is removed takes its promise along. -/
theorem owed_eraseP {rest : List (OperationData ω)} {data : OperationData ω} (member : data ∈ rest)
    (promised : ∀ other ∈ rest, isPromiseResolved other.op = false) :
    (owed rest).Perm (data.id :: owed (rest.eraseP fun other => other.id = data.id)) := by
  obtain ⟨found, before, after, -, same, split_, erased⟩ :=
    List.exists_of_eraseP (p := fun other : OperationData ω => decide (other.id = data.id)) member (by simp)
  have open_ := promised found (by simp [split_])
  have id : found.id = data.id := by simpa using same
  rw [erased, split_]
  simp only [owed, List.flatMap_append, List.flatMap_cons, promise, open_, id]
  exact List.perm_middle

/-- Ending all operations hands every promise that is left to the results. -/
theorem Accounted.of_idle {s s' : OpSide ω} (accounted : s.Accounted) (ids : s'.nextOpId = s.nextOpId)
    (results : s'.results.map OpResult.id = s.results.map OpResult.id ++ owed s.operations)
    (idle : s'.operations = []) : s'.Accounted := by
  refine ⟨?_, by simp [idle]⟩
  rw [results, ids, idle, owed_nil, List.append_nil]
  exact accounted.ids

theorem Accounted.move {ready : ω → Bool} {s s' : OpSide ω} {o o' : Bool} {action : Part.Action ω}
    (move : Part.Move ready s s' o o' action) (accounted : s.Accounted) : s'.Accounted := by
  cases move with
  | unchanged side _ => exact side ▸ accounted
  | refused _ side =>
      rw [side]
      exact ⟨accounted.ids, accounted.promised⟩
  | @queued op timerId promised _ _ busy side =>
      rw [side]
      have ids := accounted.ids.append_right [s.nextOpId]
      constructor
      · simpa [owed, promise, promised, List.range_succ] using ids
      · cases operations : s.operations with
        | nil => exact absurd operations busy
        | cons back rest =>
            intro data member
            simp only [List.cons_append, List.tail_cons, List.mem_append, List.mem_singleton] at member
            rcases member with old | rfl
            · exact accounted.promised data (by simpa [operations] using old)
            · exact promised
  | @started op timerId promised _ _ idle side =>
      rw [side]
      have ids := accounted.ids.append_right [s.nextOpId]
      rw [idle] at ids
      exact ⟨by simpa [owed, promise, promised, List.range_succ] using ids, by simp⟩
  | ended socketOp back rest r _ operations _ _ _ side =>
      rw [side]
      refine accounted.of_idle rfl ?_ rfl
      simp [map_id_filterMap_take, operations]
  | finished socketOp back rest r _ operations _ _ _ _ _ side =>
      rw [side]
      refine accounted.of_idle rfl ?_ rfl
      simp [map_id_toList_take, map_id_filterMap_take, operations]
  | continued socketOp back rest phase _ operations _ _ _ _ side =>
      rw [side]
      have ids := accounted.ids
      have promised := accounted.promised
      rw [operations] at ids promised
      exact ⟨by simpa [Part.arrive] using ids, by simpa [Part.arrive] using promised⟩
  | finishedNext socketOp back next rest _ operations _ _ _ _ _ side =>
      rw [side]
      have ids := accounted.ids
      have promised := accounted.promised
      rw [operations] at ids promised
      refine ⟨?_, fun data member => promised data (List.mem_cons_of_mem _ member)⟩
      simpa [Part.arrive, map_id_toList_take] using ids
  | timedOut back data rest r operations member _ _ side =>
      rw [side]
      have ids := accounted.ids
      have promised := accounted.promised
      rw [operations] at ids promised
      have own : promise data = [data.id] := by simp [promise, promised data member]
      refine ⟨?_, fun other inSub => promised other (List.eraseP_subset inSub)⟩
      have removed := owed_eraseP member promised
      rw [List.perm_iff_count] at ids removed ⊢
      intro id
      have before := ids id
      have after := removed id
      simp only [owed_cons, List.map_append, map_id_toList_take, own, List.count_append, List.count_cons,
        List.count_nil] at before after ⊢
      omega
  | timedOutActive back rest r operations _ _ side =>
      rw [side]
      have ids := accounted.ids
      have promised := accounted.promised
      rw [operations] at ids promised
      refine ⟨?_, promised⟩
      have taken : promise (Part.detached r back) = [] := by
        unfold Part.detached promise
        split <;> simp_all [isPromiseResolved_resolve]
      simpa [map_id_toList_take, taken] using ids

end OpSide

end CommonRpc
