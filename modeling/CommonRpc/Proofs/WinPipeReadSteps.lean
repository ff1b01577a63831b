/-
Module: CommonRpc.Proofs.WinPipeReadSteps
Purpose: Every step of an endpoint that stays open is a few moves of its reader. What the threads of the iocp owner
  and the system do are moves of the operation that is worked on.
Trusted boundary: none
-/
import CommonRpc.Proofs.WinPipeReadMoves

namespace CommonRpc

namespace WinPipeReader

open ReadView

variable {s : WinPipeReader}

def view (s : WinPipeReader) : ReadView where
  ops := s.endpoint.reads.ops
  buffers := s.buffers
  working := (s.endpoint.flow .read).stages.head?
  halted := s.endpoint.reads.halted
  pipe := s.pipe
  sent := s.sent
  received := s.received

/-- The view after the read side has become another one. -/
def become (s : WinPipeReader) (g : WinPipeFlow) : ReadView where
  ops := g.side.ops
  buffers := allocateAll s.buffers g.side.ops
  working := g.stages.head?
  halted := g.side.halted
  pipe := s.pipe
  sent := s.sent
  received := s.received ++ (g.side.resolved.drop s.endpoint.reads.resolved.length).map fun (id, _) =>
    (g.side.ops[id]?.getD {}).promised id ((allocateAll s.buffers g.side.ops)[id]?.getD [])

theorem view_follow (s : WinPipeReader) (endpoint : WinPipeEndpoint) :
    (s.follow endpoint).view = s.become (endpoint.flow .read) := rfl

/-- What is known of the state before a step. -/
structure Kept (s : WinPipeReader) : Prop where
  sound : (s.endpoint.flow .read).Sound
  sized : Sized s.buffers s.endpoint.reads.ops
  logged : s.received.map ReadPromise.id = s.endpoint.reads.resolved.map Prod.fst

theorem become_eq {g : WinPipeFlow} {working : Option (Nat × ReadStage)} (sized : Sized s.buffers g.side.ops)
    (resolved : g.side.resolved = s.endpoint.reads.resolved) (halted : g.side.halted = s.endpoint.reads.halted)
    (reached : g.stages.head? = working) : s.become g = { s.view with ops := g.side.ops, working } := by
  simp [become, view, allocateAll_eq sized, resolved, halted, reached]

/-- A chunk is pushed. -/
theorem become_grow {g : WinPipeFlow} {id : Nat} {op grown : WinPipeOperation} {working : Option (Nat × ReadStage)}
    (sized : Sized s.buffers s.endpoint.reads.ops) (found : s.endpoint.reads.ops[id]? = some op)
    (ops : g.side.ops = s.endpoint.reads.ops.set id grown) (resolved : g.side.resolved = s.endpoint.reads.resolved)
    (halted : g.side.halted = s.endpoint.reads.halted) (reached : g.stages.head? = working) :
    s.become g = { s.view with
      ops := s.endpoint.reads.ops.set id grown
      buffers := s.buffers.modify id fun own => allocate own grown.buffers
      working } := by
  simp [become, view, ops, allocateAll_set sized found, resolved, halted, reached]

/-- A promise is set. -/
theorem become_resolve {g : WinPipeFlow} {id : Nat} {op : WinPipeOperation} {own : List ReadBuffer}
    {working : Option (Nat × ReadStage)} {halted : Bool} (ops : g.side.ops = s.endpoint.reads.ops)
    (sized : Sized s.buffers s.endpoint.reads.ops) (resolved : g.side.resolved = s.endpoint.reads.resolved)
    (found : s.endpoint.reads.ops[id]? = some op) (entry : s.buffers[id]? = some own)
    (reached : g.stages.head? = working) (halts : (g.side.resolve id).halted = halted) :
    s.become { g with side := g.side.resolve id } =
      { s.view with working, halted, received := s.received ++ [op.promised id own] } := by
  have foundG : g.side.ops[id]? = some op := ops ▸ found
  subst reached halts
  simp [become, view, WinPipeFlow.stages, WinPipeSide.resolve_of_entry foundG, ops, allocateAll_eq sized, resolved,
    found, entry]

/-- The task at the head is that of the back operation. -/
theorem Kept.back {id : Nat} (kept : s.Kept) (carried : id ∈ (s.endpoint.flow .read).tokens.carriers) :
    s.endpoint.reads.backId = some id := by
  have first := kept.sound.tokens.active id carried
  rwa [WinPipeFlow.head_tokens] at first

theorem Kept.carried {id : Nat} {stage : ReadStage} (working : s.view.working = some (id, stage)) :
    id ∈ (s.endpoint.flow .read).tokens.carriers := by
  rw [← WinPipeFlow.map_stages]
  exact List.mem_map_of_mem (List.mem_of_mem_head? working)

/-- The iocp thread or the worker loop resolves the operation. -/
theorem works_resolve {g : WinPipeFlow} {id : Nat} (kept : s.Kept)
    (working : s.view.working = some (id, .resolve)) (ops : g.side.ops = s.endpoint.reads.ops)
    (resolved : g.side.resolved = s.endpoint.reads.resolved) (halted : g.side.halted = s.endpoint.reads.halted)
    (back : g.side.backId = s.endpoint.reads.backId) (idle : g.stages = []) :
    Works s.view (s.become { g with side := g.side.resolve id }) := by
  have carried := Kept.carried working
  have inside : id < s.endpoint.reads.ops.length := kept.sound.tokens.lt_created_of_carries carried
  obtain ⟨op, found⟩ : ∃ op, s.endpoint.reads.ops[id]? = some op := ⟨_, List.getElem?_eq_getElem inside⟩
  obtain ⟨own, entry, -⟩ := kept.sized.of_entry found
  have before : s.endpoint.reads.halted = false :=
    WinPipeFlow.halted_eq_false kept.sound.tokens (List.ne_nil_of_mem carried)
  have halts : (g.side.resolve id).halted = decide (op.result = .failed) := by
    rw [WinPipeSide.halted_resolve (ops ▸ found), halted, before, back, kept.back carried]
    simp [WinPipeContinuation.halts]
  have done := become_resolve ops kept.sized resolved found entry (congrArg List.head? idle) halts
  exact (Work.resolves working found entry).works done

/-- `CancelIo` reaches the I/O of the operation or nothing. -/
theorem works_cancel {rest : List IocpTask} {id : Nat} {isOpen : Bool} (kept : s.Kept)
    (running : s.endpoint.reads.tasks = .cancel id :: rest) :
    Works s.view (s.become ⟨{ s.endpoint.reads with tasks := rest }.cancel .read isOpen id,
      (s.endpoint.flow .read).work⟩) := by
  have tasks : s.endpoint.reads.tasks.filterMap IocpTask.stage = rest.filterMap IocpTask.stage := by
    rw [running]
    rfl
  have working : s.view.working = (rest.filterMap IocpTask.stage ++ s.endpoint.reads.inFlight.map PendingIo.stage ++
      (s.endpoint.flow .read).work.map WorkerItem.stage).head? := by
    rw [← tasks]
    rfl
  have skipped : s.become ⟨{ s.endpoint.reads with tasks := rest }, (s.endpoint.flow .read).work⟩ = s.view :=
    become_eq kept.sized rfl rfl working.symm
  cases found : s.endpoint.reads.ops[id]? with
  | none =>
      simp only [WinPipeSide.cancel, found]
      rw [skipped]
  | some op =>
      simp only [WinPipeSide.cancel, found]
      split
      next reaches =>
        by_cases nothing : s.endpoint.reads.inFlight = []
        · rw [nothing] at working
          have missed : s.become ⟨{ s.endpoint.reads with tasks := rest }.cancelIo id,
              (s.endpoint.flow .read).work⟩ = s.view := by
            refine become_eq kept.sized rfl rfl ?_
            simp only [WinPipeFlow.stages, WinPipeSide.cancelIo, nothing]
            exact working.symm
          rw [missed]
        · obtain ⟨io, others, inFlight⟩ := List.exists_cons_of_ne_nil nothing
          have flying : (s.endpoint.flow .read).side.inFlight[0]? = some io := congrArg (·[0]?) inFlight
          obtain ⟨noTask, onlyIo, -, noWork⟩ := WinPipeFlow.alone_of_io kept.sound.tokens flying
          replace noTask : s.endpoint.reads.tasks.filterMap IocpTask.stage = [] := noTask
          replace onlyIo : s.endpoint.reads.inFlight = [io] := onlyIo
          obtain rfl : io.id = id :=
            WinPipeFlow.cancel_own kept.sound.tokens kept.sound.cancels running (List.mem_of_getElem? flying)
          have isKnown : op.result ≠ .unknown := by
            obtain ⟨op', found', isKnown⟩ := kept.sound.known io.id (.inr (.inl (running ▸ .head _)))
            cases found.symm.trans found'
            exact isKnown
          rw [tasks] at noTask
          rw [noTask, onlyIo, noWork] at working
          have reached : (WinPipeFlow.mk ({ s.endpoint.reads with tasks := rest }.cancelIo io.id)
              (s.endpoint.flow .read).work).stages.head? = some (io.id, .inFlight true) := by
            simp [WinPipeFlow.stages, WinPipeSide.cancelIo, noTask, onlyIo, PendingIo.stage]
          exact (Work.cancels working found isKnown reaches.1).works (become_eq kept.sized rfl rfl reached)
      next => rw [skipped]

theorem works_runTask {side : WinPipeSide} {isOpen : Bool} (kept : s.Kept)
    (ran : s.endpoint.reads.runTask .read isOpen = some side) :
    Works s.view (s.become { s.endpoint.flow .read with side }) := by
  unfold WinPipeSide.runTask at ran
  split at ran
  next => cases ran
  next => cases ran
  next id rest running =>
    have working : s.view.working = some (id, .start) := WinPipeFlow.head_of_task running rfl
    split at ran
    next => cases ran
    next op found =>
      split at ran
      next isUnknown =>
        cases ran
        exact (Work.begins working found isUnknown).works (become_eq kept.sized rfl rfl rfl)
      next isKnown =>
        cases ran
        exact (Work.skips working found isKnown).works (become_eq kept.sized rfl rfl rfl)
  next id rest running =>
    cases ran
    have working : s.view.working = some (id, .fail) := WinPipeFlow.head_of_task running rfl
    have sized : Sized s.buffers (s.endpoint.reads.ops.modify id .setFailedIfPossible) :=
      kept.sized.modify WinPipeOperation.setFailedIfPossible_buffers
    exact (Work.fails working).works (become_eq sized rfl rfl rfl)
  next id rest running =>
    cases ran
    have working : s.view.working = some (id, .resolve) := WinPipeFlow.head_of_task running rfl
    obtain ⟨noTask, noIo, noWork⟩ := WinPipeFlow.alone_of_task kept.sound.tokens running rfl
    replace noIo : s.endpoint.reads.inFlight = [] := noIo
    let g : WinPipeFlow := ⟨{ s.endpoint.reads with tasks := rest }, (s.endpoint.flow .read).work⟩
    have idle : g.stages = [] := by simp [g, WinPipeFlow.stages, noTask, noIo, noWork]
    exact works_resolve (g := g) kept working rfl rfl rfl rfl idle
  next id rest running =>
    cases ran
    exact works_cancel kept running

/-- The worker loop goes on with the packet of the operation. -/
theorem works_runWorker {item : WorkerItem} {rest : List WorkerItem} (kept : s.Kept)
    (running : (s.endpoint.flow .read).work = item :: rest) :
    Works s.view (s.become ⟨(s.endpoint.reads.runWorker .read item.id item.job).1,
      ((s.endpoint.reads.runWorker .read item.id item.job).2.map fun job => { item with job }).toList ++
        rest⟩) := by
  obtain ⟨noTask, noIo, rfl⟩ := WinPipeFlow.alone_of_work kept.sound.tokens running
  replace noTask : s.endpoint.reads.tasks.filterMap IocpTask.stage = [] := noTask
  replace noIo : s.endpoint.reads.inFlight = [] := noIo
  have working : s.view.working = some item.stage := by
    simp only [view, WinPipeFlow.stages, running]
    rw [show (s.endpoint.flow .read).side = s.endpoint.reads from rfl, noTask, noIo]
    rfl
  have inside : item.id < s.endpoint.reads.ops.length :=
    kept.sound.tokens.lt_created_of_carries (Kept.carried working)
  obtain ⟨op, found⟩ : ∃ op, s.endpoint.reads.ops[item.id]? = some op := ⟨_, List.getElem?_eq_getElem inside⟩
  -- what is left of the item is the only stage
  have reached (ops : List WinPipeOperation) (job : WorkerJob) :
      (WinPipeFlow.mk { s.endpoint.reads with ops } [{ item with job }]).stages.head? =
        some (item.id, job.stage) := by
    simp [WinPipeFlow.stages, noTask, noIo, WorkerItem.stage]
  cases job : item.job with
  | completed status bytes =>
      rw [WorkerItem.stage, job] at working
      have counted : Sized s.buffers (s.endpoint.reads.ops.modify item.id (.addReadBytes bytes)) :=
        kept.sized.modify fun _ => rfl
      cases status with
      | success => exact (Work.concludes working (by simp)).works (become_eq counted rfl rfl (reached _ .succeed))
      | moreData =>
          simp only [WinPipeSide.runWorker, WinPipeSide.readCompleted, WinPipeSide.addBufferChunk_updateOp found]
          cases added : (op.addReadBytes bytes).addBufferChunk with
          | none => exact (Work.exceeds working found added).works (become_eq counted rfl rfl (reached _ .fail))
          | some grown =>
              refine (Work.grows working found added).works (become_grow kept.sized found rfl rfl rfl ?_)
              simp [WinPipeFlow.stages, noTask, noIo, IocpTask.stage]
      | operationAborted =>
          exact (Work.concludes working (by simp)).works (become_eq counted rfl rfl (reached _ .resolve))
      | other => exact (Work.concludes working (by simp)).works (become_eq counted rfl rfl (reached _ .fail))
  | succeed =>
      rw [WorkerItem.stage, job] at working
      exact (Work.succeeds working).works (become_eq (kept.sized.modify fun _ => rfl) rfl rfl (reached _ .resolve))
  | fail =>
      rw [WorkerItem.stage, job] at working
      have sized : Sized s.buffers (s.endpoint.reads.ops.modify item.id .setFailedIfPossible) :=
        kept.sized.modify WinPipeOperation.setFailedIfPossible_buffers
      exact (Work.fails working).works (become_eq sized rfl rfl (reached _ .resolve))
  | resolve =>
      rw [WorkerItem.stage, job] at working
      have idle : (WinPipeFlow.mk s.endpoint.reads []).stages = [] := by simp [WinPipeFlow.stages, noTask, noIo]
      exact works_resolve kept working rfl rfl rfl rfl idle

/-- The read is pending. -/
theorem issued_readPending {side : WinPipeSide} {isOpen : Bool} (kept : s.Kept)
    (called : s.endpoint.reads.ioCall .read isOpen .pending = some side) :
    ∃ id, s.view.working = some (id, .issue) ∧
      Works (s.view.reach id (.inFlight false)) (s.become { s.endpoint.flow .read with side }) := by
  unfold WinPipeSide.ioCall at called
  split at called
  next id rest running =>
    obtain ⟨-, done⟩ := Option.ite_none_right_eq_some.mp called
    cases done
    obtain ⟨noTask, noIo, noWork⟩ := WinPipeFlow.alone_of_task kept.sound.tokens running rfl
    replace noIo : s.endpoint.reads.inFlight = [] := noIo
    have reached : (WinPipeFlow.mk { s.endpoint.reads with
        tasks := rest, inFlight := s.endpoint.reads.inFlight ++ [{ id }] }
        (s.endpoint.flow .read).work).stages.head? = some (id, .inFlight false) := by
      simp [WinPipeFlow.stages, noTask, noIo, PendingIo.stage]
    exact ⟨id, WinPipeFlow.head_of_task running rfl, become_eq kept.sized rfl rfl reached ▸ .refl⟩
  next => cases called

theorem transfer_eq_some {t : WinPipeReader} {id : Nat} {read : PipeRead} (moved : s.transfer id = some (read, t)) :
    ∃ own back, s.buffers[id]? = some own ∧ own.getLast? = some back ∧
      readMessage s.pipe back.length = some read ∧
      t = { s with pipe := read.left, buffers := s.buffers.modify id (fillLast read.bytes) } := by
  unfold transfer at moved
  split at moved
  next => cases moved
  next back found =>
    obtain ⟨own, entry, last⟩ := Option.bind_eq_some_iff.mp found
    obtain ⟨read', taken, same⟩ := Option.map_eq_some_iff.mp moved
    cases same
    exact ⟨own, back, entry, last, taken, rfl⟩

/-- The transfer itself, and what it leaves to be done. -/
theorem Kept.transfer {t : WinPipeReader} {id : Nat} {read : PipeRead} (kept : s.Kept)
    (moved : s.transfer id = some (read, t)) : t.Kept ∧ t.endpoint = s.endpoint := by
  obtain ⟨own, back, entry, last, taken, rfl⟩ := transfer_eq_some moved
  exact ⟨⟨kept.sound, kept.sized.fillLast entry last (length_of_readMessage taken).1, kept.logged⟩, rfl⟩

theorem arrives {t : WinPipeReader} {v : ReadView} {id : Nat} {read : PipeRead} {aborted : Bool}
    (moved : s.transfer id = some (read, t)) (working : v.working = some (id, .inFlight aborted))
    (buffers : v.buffers = s.buffers) (pipe : v.pipe = s.pipe) : Work v { v with
      pipe := t.pipe
      buffers := t.buffers
      working := some (id, .arrived (if read.moreData then .moreData else .success) read.bytes.length) } := by
  obtain ⟨own, back, entry, last, taken, rfl⟩ := transfer_eq_some moved
  have work := Work.arrives working (buffers ▸ entry) last (pipe ▸ taken)
  rwa [buffers] at work

/-- The read completes inside `start`: it is issued, completes and is counted in one step. -/
theorem issued_readMoreData {t : WinPipeReader} {side : WinPipeSide} {isOpen : Bool} {id : Nat}
    {rest : List IocpTask} {read : PipeRead} (kept : s.Kept) (running : s.endpoint.reads.tasks = .issue id :: rest)
    (moved : s.transfer id = some (read, t)) (more : read.moreData = true)
    (called : t.endpoint.reads.ioCall .read isOpen .moreData = some side) :
    s.view.working = some (id, .issue) ∧
      Works (s.view.reach id (.inFlight false)) (t.become { t.endpoint.flow .read with side }) := by
  obtain ⟨keptT, -⟩ := kept.transfer moved
  have working : s.view.working = some (id, .issue) := WinPipeFlow.head_of_task running rfl
  have inside : id < s.endpoint.reads.ops.length :=
    kept.sound.tokens.lt_created_of_carries (Kept.carried working)
  obtain ⟨op, found⟩ : ∃ op, s.endpoint.reads.ops[id]? = some op := ⟨_, List.getElem?_eq_getElem inside⟩
  have arrived := arrives (v := s.view.reach id (.inFlight false)) moved rfl rfl rfl
  rw [if_pos more] at arrived
  refine ⟨working, .trans (.single arrived) ?_⟩
  obtain ⟨own, back, entry, last, taken, rfl⟩ := transfer_eq_some moved
  have whole : op.buffers.getLast?.getD 0 = read.bytes.length := by
    obtain ⟨own', entry', sizes⟩ := kept.sized.of_entry found
    cases entry.symm.trans entry'
    rw [(length_of_readMessage taken).2 more, ← sizes, List.getLast?_map, last]
    rfl
  cases isOpen with
  | false => simp [WinPipeSide.ioCall, running] at called
  | true =>
      simp only [WinPipeSide.ioCall, running, WinPipeSide.addBufferChunk_updateOp found, whole] at called
      cases added : (op.addReadBytes read.bytes.length).addBufferChunk with
      | none =>
          rw [added] at called
          cases called
          have counted : (s.endpoint.reads.ops.modify id fun op => op.addReadBytes (op.buffers.getLast?.getD 0)) =
              s.endpoint.reads.ops.modify id (.addReadBytes read.bytes.length) := by
            apply List.ext_getElem?
            intro i
            grind
          have sized : Sized (s.buffers.modify id (fillLast read.bytes))
              (s.endpoint.reads.ops.modify id fun op => op.addReadBytes (op.buffers.getLast?.getD 0)) :=
            keptT.sized.modify fun _ => rfl
          refine (Work.exceeds rfl found added).works ((become_eq sized rfl rfl rfl).trans ?_)
          simp only [WinPipeSide.updateOp, counted]
          rfl
      | some grown =>
          rw [added] at called
          cases called
          exact (Work.grows rfl found added).works (become_grow keptT.sized found rfl rfl rfl rfl)

/-- The completion packet of a read is queued. -/
theorem reached_packet {index : Nat} {io : PendingIo} (kept : s.Kept)
    (found : s.endpoint.reads.inFlight[index]? = some io) (status : IoStatus) (bytes : Nat) :
    s.view.working = some (io.id, .inFlight io.aborted) ∧
    (WinPipeFlow.mk { s.endpoint.reads with inFlight := s.endpoint.reads.inFlight.eraseIdx index }
      ((s.endpoint.flow .read).work ++
        [{ tag := .read, id := io.id, job := .completed status bytes }])).stages.head? =
      some (io.id, .arrived status bytes) := by
  obtain ⟨noTask, onlyIo, rfl, noWork⟩ := WinPipeFlow.alone_of_io kept.sound.tokens found
  replace noTask : s.endpoint.reads.tasks.filterMap IocpTask.stage = [] := noTask
  replace onlyIo : s.endpoint.reads.inFlight = [io] := onlyIo
  constructor
  · simp only [view, WinPipeFlow.stages, noWork]
    rw [show (s.endpoint.flow .read).side = s.endpoint.reads from rfl, noTask, onlyIo]
    rfl
  · simp only [WinPipeFlow.stages, noTask, onlyIo, noWork]
    rfl

/-! ### Callers and timers -/

/-- An operation is created. -/
theorem become_create {g : WinPipeFlow} {working : Option (Nat × ReadStage)} {halted : Bool}
    (sized : Sized s.buffers s.endpoint.reads.ops)
    (ops : g.side.ops = s.endpoint.reads.ops ++ [({} : WinPipeOperation)])
    (resolved : g.side.resolved = s.endpoint.reads.resolved) (halts : g.side.halted = halted)
    (reached : g.stages.head? = working) : s.become g = { s.view with
      ops := s.endpoint.reads.ops ++ [{}]
      buffers := s.buffers ++ [[newBuffer 8192]]
      working
      halted } := by
  simp [become, view, ops, allocateAll_append sized, resolved, halts, reached]
  rfl

theorem Kept.stages_of_empty (kept : s.Kept) (empty : s.endpoint.reads.queue = []) :
    (s.endpoint.flow .read).stages = [] := by
  have carriers : (s.endpoint.flow .read).tokens.carriers = [] := by
    rw [List.eq_nil_iff_forall_not_mem]
    intro id carried
    have back := kept.back carried
    simp [WinPipeSide.backId, empty] at back
  rw [← WinPipeFlow.map_stages] at carriers
  exact List.map_eq_nil_iff.mp carriers

/-- Continuations are of operations that are resolved. -/
theorem Kept.resolved_of_continuation {continuation : WinPipeContinuation} (kept : s.Kept)
    (listed : continuation ∈ s.endpoint.reads.continuations) :
    continuation.id ∈ s.endpoint.reads.resolved.map Prod.fst :=
  kept.sound.tokens.settled_of_pending (List.mem_map_of_mem listed)

/-- If the back is an operation without a result, nothing has failed. -/
theorem Kept.halted_of_back {side : WinPipeSide} (kept : s.Kept)
    (same : side.continuations ⊆ s.endpoint.reads.continuations)
    (back : ∀ id, side.backId = some id → id ∉ s.endpoint.reads.resolved.map Prod.fst) : side.halted = false := by
  rw [Bool.eq_false_iff]
  intro halted
  obtain ⟨continuation, listed, -, -, isBack⟩ := WinPipeSide.halted_iff.mp halted
  exact back _ isBack (kept.resolved_of_continuation (same listed))

theorem moves_startAsync (kept : s.Kept) (timerId : Option Nat) :
    Moves s.view (s.become { s.endpoint.flow .read with side := s.endpoint.reads.startAsync timerId }) := by
  by_cases empty : s.endpoint.reads.queue = []
  · obtain ⟨timerIds, handed, started⟩ := WinPipeSide.startAsync_of_empty empty timerId
    rw [started]
    have unused : s.endpoint.reads.ops.length ∉ s.endpoint.reads.resolved.map Prod.fst := fun settled =>
      Nat.lt_irrefl _ (kept.sound.tokens.lt_created_of_settled settled)
    have idle := kept.stages_of_empty empty
    have goesOn : s.view.halted = false :=
      kept.halted_of_back (List.Subset.refl _) (by simp [WinPipeSide.backId, empty])
    let created : ReadView := { s.view with
      ops := s.view.ops ++ [{}]
      buffers := s.view.buffers ++ [[newBuffer 8192]] }
    have starts : ReadView.Call created (created.reach s.endpoint.reads.ops.length .start) := by
      refine .starts (congrArg List.head? idle) goesOn ?_ (kept.logged ▸ unused)
      simp [created, view]
    refine (ReadView.Call.creates.moves rfl).trans (starts.moves (become_create kept.sized rfl rfl ?_ ?_))
    · refine Eq.trans (kept.halted_of_back (List.Subset.refl _) fun id back => ?_) goesOn.symm
      cases back
      exact unused
    · have noTask := (List.append_eq_nil_iff.mp (List.append_eq_nil_iff.mp idle).1).1
      replace noTask : s.endpoint.reads.tasks.filterMap IocpTask.stage = [] := noTask
      simp [WinPipeFlow.stages, noTask, IocpTask.stage]
  · obtain ⟨timerIds, started⟩ := WinPipeSide.startAsync_of_busy empty timerId
    rw [started]
    refine ReadView.Call.creates.moves (become_create kept.sized rfl rfl ?_ rfl)
    exact WinPipeSide.halted_congr rfl (WinPipeFlow.backId_append empty)

theorem moves_cancelOpByTimeout (kept : s.Kept) (id : Nat) :
    Moves s.view (s.become { s.endpoint.flow .read with side := s.endpoint.reads.cancelOpByTimeout id }) := by
  have sized : Sized s.buffers (s.endpoint.reads.ops.modify id .setTimeoutIfPossible) :=
    kept.sized.modify (WinPipeOperation.exchange_buffers _ _)
  unfold WinPipeSide.cancelOpByTimeout
  split
  next listed =>
    dsimp only
    split
    next back =>
      refine (ReadView.Call.timesOut id).moves (become_eq sized rfl rfl ?_)
      simp [WinPipeSide.hand, WinPipeSide.updateOp, WinPipeFlow.stages, IocpTask.stage, view, WinPipeEndpoint.flow,
        WinPipeEndpoint.side]
    next waits =>
      refine (ReadView.Call.timesOut id).moves (become_eq sized rfl ?_ rfl)
      exact WinPipeSide.halted_congr rfl (WinPipeFlow.backId_eraseP waits)
  next =>
    have same : s.become (s.endpoint.flow .read) = s.view := become_eq kept.sized rfl rfl rfl
    exact same ▸ .refl

theorem moves_resolveTimedOut {index id : Nat} (kept : s.Kept)
    (found : s.endpoint.reads.resolving[index]? = some id) :
    Moves s.view (s.become { s.endpoint.flow .read with
      side := { s.endpoint.reads with resolving := s.endpoint.reads.resolving.eraseIdx index }.resolve id }) := by
  have diverted := List.mem_of_getElem? found
  obtain ⟨idle, unsettled, waits⟩ := kept.sound.tokens.alone_of_diverted diverted
  rw [WinPipeFlow.head_tokens] at waits
  obtain ⟨op, entry, isKnown⟩ := kept.sound.known id (.inr (.inr (.inr (.inr diverted))))
  obtain ⟨own, allocated, -⟩ := kept.sized.of_entry entry
  have idle' (stage : ReadStage) : s.view.working ≠ some (id, stage) := fun working => idle (Kept.carried working)
  let g : WinPipeFlow := { s.endpoint.flow .read with
    side := { s.endpoint.reads with resolving := s.endpoint.reads.resolving.eraseIdx index } }
  have halts : (g.side.resolve id).halted = s.endpoint.reads.halted := by
    have missed : WinPipeContinuation.halts s.endpoint.reads.backId { id, result := op.result } = false := by
      simp [WinPipeContinuation.halts, show s.endpoint.reads.backId ≠ some id from waits]
    have entryG : g.side.ops[id]? = some op := entry
    refine (WinPipeSide.halted_resolve entryG).trans ?_
    change (s.endpoint.reads.halted || WinPipeContinuation.halts s.endpoint.reads.backId _) = _
    rw [missed, Bool.or_false]
  exact (ReadView.Call.resolvesAside entry allocated (kept.logged ▸ unsettled) idle' isKnown).moves
    (become_resolve (g := g) rfl kept.sized rfl entry allocated rfl halts)

/-! ### Callbacks on the futures -/

/-- The callback of a result that is not a failure. -/
theorem moves_check {index : Nat} {continuation : WinPipeContinuation} (kept : s.Kept)
    (found : s.endpoint.reads.continuations[index]? = some continuation) (fine : continuation.result ≠ .failed) :
    Moves s.view (s.become { s.endpoint.flow .read with side := { s.endpoint.reads with
      continuations := s.endpoint.reads.continuations.set index { continuation with checked := true } } }) := by
  have same : s.become { s.endpoint.flow .read with side := { s.endpoint.reads with
      continuations := s.endpoint.reads.continuations.set index { continuation with checked := true } } } =
      s.view := by
    refine become_eq kept.sized rfl ?_ rfl
    exact Lib.Table.any_set found (by simp [WinPipeContinuation.halts, fine]) (by simp [WinPipeContinuation.halts])
  rw [same]

/-- Every operation has one callback. -/
theorem Kept.continuation_unique {continuation continuation' : WinPipeContinuation} (kept : s.Kept)
    (listed : continuation ∈ s.endpoint.reads.continuations)
    (listed' : continuation' ∈ s.endpoint.reads.continuations)
    (same : continuation.id = continuation'.id) : continuation = continuation' :=
  List.inj_on_of_nodup_map kept.sound.tokens.nodup_pending listed listed' same

/-- The callback of the back operation ends, so the operation has not failed. -/
theorem Kept.halted_of_checked {continuation : WinPipeContinuation} (kept : s.Kept)
    (listed : continuation ∈ s.endpoint.reads.continuations) (checked : continuation.checked = true)
    (back : s.endpoint.reads.backId = some continuation.id) : s.endpoint.reads.halted = false := by
  rw [Bool.eq_false_iff]
  intro halted
  obtain ⟨other, listed', unchecked, -, isBack⟩ := WinPipeSide.halted_iff.mp halted
  have same : other.id = continuation.id := Option.some.inj (isBack.symm.trans back)
  obtain rfl := kept.continuation_unique listed' listed same
  rw [checked] at unchecked
  cases unchecked

theorem moves_completeOp {index : Nat} {continuation : WinPipeContinuation} (kept : s.Kept)
    (found : s.endpoint.reads.continuations[index]? = some continuation) (checked : continuation.checked = true) :
    Moves s.view (s.become { s.endpoint.flow .read with side := ({ s.endpoint.reads with
      continuations := s.endpoint.reads.continuations.eraseIdx index }.completeOp continuation.id).1 }) := by
  have listed := List.mem_of_getElem? found
  have subset : s.endpoint.reads.continuations.eraseIdx index ⊆ s.endpoint.reads.continuations :=
    List.eraseIdx_subset ..
  by_cases isBack : s.endpoint.reads.backId = some continuation.id
  · have settled := kept.resolved_of_continuation listed
    have idle : (s.endpoint.flow .read).stages = [] := by
      have carriers := kept.sound.tokens.carriers_eq_nil ((WinPipeFlow.head_tokens _).trans isBack) settled
      rw [← WinPipeFlow.map_stages] at carriers
      exact List.map_eq_nil_iff.mp carriers
    have goesOn := kept.halted_of_checked listed checked isBack
    obtain ⟨back, queued, own⟩ := Option.map_eq_some_iff.mp isBack
    obtain ⟨rest, queue⟩ := List.head?_eq_some_iff.mp queued
    cases rest with
    | nil =>
        simp only [WinPipeSide.completeOp, queue, own, if_true]
        have same : s.become { s.endpoint.flow .read with side := { s.endpoint.reads with
            queue := [], continuations := s.endpoint.reads.continuations.eraseIdx index } } = s.view := by
          refine become_eq kept.sized rfl ?_ rfl
          exact (kept.halted_of_back subset (by simp [WinPipeSide.backId])).trans goesOn.symm
        rw [same]
    | cons next later =>
        simp only [WinPipeSide.completeOp, queue, own, if_true, WinPipeSide.hand]
        have waits : next.id ∈ (s.endpoint.flow .read).tokens.queue.tail := by
          simp [WinPipeFlow.tokens, WinPipeEndpoint.flow, WinPipeEndpoint.side, queue]
        have unsettled := kept.sound.tokens.notMem_settled_of_waits waits
        have inside := kept.sound.tokens.lt_created_of_queued (List.mem_of_mem_tail waits)
        have starts : ReadView.Call s.view (s.view.reach next.id .start) :=
          .starts (congrArg List.head? idle) goesOn inside (kept.logged ▸ unsettled)
        refine starts.moves (become_eq kept.sized rfl ?_ ?_)
        · refine Eq.trans (kept.halted_of_back subset fun id back => ?_) goesOn.symm
          cases back
          exact unsettled
        · have noTask := (List.append_eq_nil_iff.mp (List.append_eq_nil_iff.mp idle).1).1
          replace noTask : s.endpoint.reads.tasks.filterMap IocpTask.stage = [] := noTask
          simp [WinPipeFlow.stages, noTask, IocpTask.stage]
  · have stays : ({ s.endpoint.reads with
        continuations := s.endpoint.reads.continuations.eraseIdx index }.completeOp continuation.id).1 =
        { s.endpoint.reads with continuations := s.endpoint.reads.continuations.eraseIdx index } := by
      unfold WinPipeSide.completeOp
      split
      next => rfl
      next back rest queue =>
        have other : back.id ≠ continuation.id := by
          simpa [WinPipeSide.backId, show s.endpoint.reads.queue = _ from queue] using isBack
        rw [if_neg other]
    rw [stays]
    have same : s.become { s.endpoint.flow .read with side := { s.endpoint.reads with
        continuations := s.endpoint.reads.continuations.eraseIdx index } } = s.view := by
      refine become_eq kept.sized rfl ?_ rfl
      have missed : continuation.halts s.endpoint.reads.backId = false := by
        simp [WinPipeContinuation.halts, isBack]
      have taken : s.endpoint.reads.halted = (continuation :: s.endpoint.reads.continuations.eraseIdx index).any
          (WinPipeContinuation.halts s.endpoint.reads.backId) := (Lib.Table.eraseIdx_perm found).any_eq
      rw [taken, List.any_cons, missed, Bool.false_or]
      rfl
    rw [same]

/-! ### Every step -/

/-- What the threads of the iocp owner and the system do. -/
def Event.isWork : Event → Bool
  | .readMoreData | .readPending | .readCompletes _ | .readAborted _ => true
  | .other (.runTask .read) | .other .runWorker => true
  | _ => false

/-- What a step can do: the transfer that may go before, and the step of the endpoint. -/
inductive Steps (s : WinPipeReader) : Event → WinPipeReader → Prop where
  | sends (message : Bytes) :
      Steps s (.send message) { s with pipe := s.pipe ++ [message], sent := s.sent ++ [message] }
  | moreData {u : WinPipeReader} {endpoint : WinPipeEndpoint} {id : Nat} {rest : List IocpTask} {read : PipeRead}
      (running : s.endpoint.reads.tasks = .issue id :: rest) (moved : s.transfer id = some (read, u))
      (more : read.moreData = true)
      (called : WinPipeEndpoint.step u.endpoint (.ioCall .read .moreData) = some endpoint) :
      Steps s .readMoreData (u.follow endpoint)
  | completes {u : WinPipeReader} {endpoint : WinPipeEndpoint} {index : Nat} {io : PendingIo} {read : PipeRead}
      (found : s.endpoint.reads.inFlight[index]? = some io) (moved : s.transfer io.id = some (read, u))
      (completed : WinPipeEndpoint.step u.endpoint (.ioCompletes .read index
        (if read.moreData then .moreData else .success) read.bytes.length) = some endpoint) :
      Steps s (.readCompletes index) (u.follow endpoint)
  | pending {endpoint : WinPipeEndpoint}
      (called : WinPipeEndpoint.step s.endpoint (.ioCall .read .pending) = some endpoint) :
      Steps s .readPending (s.follow endpoint)
  | fails {endpoint : WinPipeEndpoint} (closed : s.endpoint.isOpen ≠ true)
      (called : WinPipeEndpoint.step s.endpoint (.ioCall .read .error) = some endpoint) :
      Steps s .readFails (s.follow endpoint)
  | aborted {endpoint : WinPipeEndpoint} {index : Nat}
      (completed : WinPipeEndpoint.step s.endpoint (.ioCompletes .read index .operationAborted 0) = some endpoint) :
      Steps s (.readAborted index) (s.follow endpoint)
  | other {endpoint : WinPipeEndpoint} {event : WinPipeEndpoint.Event} (allowed : event.isReadIo = false)
      (stepped : WinPipeEndpoint.step s.endpoint event = some endpoint) :
      Steps s (.other event) (s.follow endpoint)

theorem steps_of_step {event : Event} {t : WinPipeReader} (stepped : step s event = some t) : Steps s event t := by
  cases event with
  | send message =>
      cases stepped
      exact .sends message
  | readMoreData =>
      simp only [step] at stepped
      split at stepped
      next id rest running =>
        split at stepped
        next => cases stepped
        next read u moved =>
          obtain ⟨more, stepped⟩ := Option.ite_none_right_eq_some.mp stepped
          obtain ⟨endpoint, called, rfl⟩ := Option.map_eq_some_iff.mp stepped
          exact .moreData running moved more called
      next => cases stepped
  | readPending =>
      obtain ⟨endpoint, called, rfl⟩ := Option.map_eq_some_iff.mp stepped
      exact .pending called
  | readFails =>
      obtain ⟨closed, stepped⟩ := Option.ite_none_left_eq_some.mp stepped
      obtain ⟨endpoint, called, rfl⟩ := Option.map_eq_some_iff.mp stepped
      exact .fails closed called
  | readCompletes index =>
      simp only [step] at stepped
      split at stepped
      next => cases stepped
      next io found =>
        split at stepped
        next => cases stepped
        next read u moved =>
          obtain ⟨endpoint, completed, rfl⟩ := Option.map_eq_some_iff.mp stepped
          exact .completes found moved completed
  | readAborted index =>
      obtain ⟨endpoint, completed, rfl⟩ := Option.map_eq_some_iff.mp stepped
      exact .aborted completed
  | other event =>
      obtain ⟨allowed, stepped⟩ := Option.ite_none_left_eq_some.mp stepped
      obtain ⟨endpoint, advanced, rfl⟩ := Option.map_eq_some_iff.mp stepped
      exact .other (by simpa using allowed) advanced

theorem become_self (kept : s.Kept) : s.become (s.endpoint.flow .read) = s.view :=
  become_eq kept.sized rfl rfl rfl

/-- What happens on the write side. -/
theorem works_of_flow {endpoint : WinPipeEndpoint} (kept : s.Kept)
    (same : endpoint.flow .read = s.endpoint.flow .read) : Works s.view (s.follow endpoint).view := by
  rw [view_follow, same, become_self kept]

theorem works_worker {endpoint : WinPipeEndpoint} (kept : s.Kept) (ran : s.endpoint.runWorker = some endpoint) :
    Works s.view (s.follow endpoint).view := by
  unfold WinPipeEndpoint.runWorker at ran
  split at ran
  next => cases ran
  next item rest running =>
    cases ran
    obtain ⟨tag, id, job⟩ := item
    cases tag with
    | write =>
        apply works_of_flow kept
        simp [WinPipeEndpoint.flow, WinPipeEndpoint.setSide, WinPipeEndpoint.side, running]
    | read =>
        have own : (s.endpoint.flow .read).work = ⟨.read, id, job⟩ :: rest.filter fun item => item.tag = .read := by
          simp [WinPipeEndpoint.flow, running]
        have kept' (left : Option WorkerJob) :
            ((left.map fun job => (⟨.read, id, job⟩ : WorkerItem)).toList ++ rest).filter
                (fun item => item.tag = .read) =
              (left.map fun job => (⟨.read, id, job⟩ : WorkerItem)).toList ++
                rest.filter fun item => item.tag = .read := by
          cases left with
          | none => rfl
          | some job => simp
        have works := works_runWorker kept own
        rw [← kept'] at works
        exact works

/-- A completion packet is queued. -/
theorem ioCompletes_flow {endpoint : WinPipeEndpoint} {index bytes : Nat} {status : IoStatus}
    (completed : WinPipeEndpoint.step s.endpoint (.ioCompletes .read index status bytes) = some endpoint) :
    ∃ io, s.endpoint.reads.inFlight[index]? = some io ∧ (status = .operationAborted → io.aborted = true) ∧
      endpoint.flow .read =
        ⟨{ s.endpoint.reads with inFlight := s.endpoint.reads.inFlight.eraseIdx index },
          (s.endpoint.flow .read).work ++ [{ tag := .read, id := io.id, job := .completed status bytes }]⟩ := by
  simp only [WinPipeEndpoint.step] at completed
  split at completed
  next => cases completed
  next io found =>
    obtain ⟨allowed, done⟩ := Option.ite_none_left_eq_some.mp completed
    cases done
    refine ⟨io, found, fun isAborted => by simpa [isAborted] using allowed, ?_⟩
    simp [WinPipeEndpoint.flow, WinPipeEndpoint.setSide, WinPipeEndpoint.side]

/-- `ReadFile` is called. -/
theorem issued_step {event : Event} {t : WinPipeReader} (kept : s.Kept) (steps : Steps s event t)
    (calls : event = .readMoreData ∨ event = .readPending) :
    ∃ id, s.view.working = some (id, .issue) ∧ Works (s.view.reach id (.inFlight false)) t.view := by
  rcases calls with rfl | rfl
  · cases steps with
    | moreData running moved more called =>
        obtain ⟨side, answered, rfl⟩ := Option.map_eq_some_iff.mp called
        exact ⟨_, issued_readMoreData kept running moved more answered⟩
  · cases steps with
    | pending called =>
        obtain ⟨side, answered, rfl⟩ := Option.map_eq_some_iff.mp called
        exact issued_readPending kept answered

theorem works_step {event : Event} {t : WinPipeReader} (kept : s.Kept) (steps : Steps s event t)
    (isWork : event.isWork = true) : Works s.view t.view := by
  cases steps with
  | sends | fails => cases isWork
  | moreData running moved more called =>
      obtain ⟨id, working, works⟩ := issued_step kept (.moreData running moved more called) (.inl rfl)
      exact .head (.issues working) works
  | pending called =>
      obtain ⟨id, working, works⟩ := issued_step kept (.pending called) (.inr rfl)
      exact .head (.issues working) works
  | @completes u endpoint index io read found moved completed =>
      obtain ⟨keptU, same⟩ := kept.transfer moved
      obtain ⟨io', found', -, flow⟩ := ioCompletes_flow completed
      obtain rfl : io = io' := Option.some.inj ((same ▸ found).symm.trans found')
      obtain ⟨working, -⟩ := reached_packet kept found .success 0
      obtain ⟨-, reached⟩ := reached_packet keptU found' (if read.moreData then .moreData else .success)
        read.bytes.length
      have arrived := arrives (v := s.view) moved working rfl rfl
      rw [view_follow, flow]
      refine arrived.works ((become_eq keptU.sized rfl rfl reached).trans ?_)
      obtain ⟨own, back, entry, last, taken, rfl⟩ := transfer_eq_some moved
      rfl
  | aborted completed =>
      obtain ⟨io, found, aborted, flow⟩ := ioCompletes_flow completed
      obtain ⟨working, reached⟩ := reached_packet kept found .operationAborted 0
      rw [aborted rfl] at working
      rw [view_follow, flow]
      exact (Work.aborts working).works (become_eq kept.sized rfl rfl reached)
  | @other endpoint event allowed stepped =>
      cases event with
      | runTask tag =>
          cases tag with
          | write => cases isWork
          | read =>
              obtain ⟨side, advanced, rfl⟩ := Option.map_eq_some_iff.mp stepped
              exact works_runTask kept advanced
      | runWorker => exact works_worker kept stepped
      | _ => cases isWork

theorem isOpen_invalidateImpl (endpoint : WinPipeEndpoint) (byCancel : Bool) :
    (endpoint.invalidateImpl byCancel).isOpen = false := by
  unfold WinPipeEndpoint.invalidateImpl
  split
  next => rfl
  next closed => simpa using closed

/-- The callback on a future; after a failure it closes the pipe. -/
theorem moves_continuation {endpoint : WinPipeEndpoint} {tag : PipeSide} {index : Nat} (kept : s.Kept)
    (opened : endpoint.isOpen = true) (ran : s.endpoint.runContinuation tag index = some endpoint) :
    Moves s.view (s.follow endpoint).view := by
  unfold WinPipeEndpoint.runContinuation at ran
  split at ran
  next => cases ran
  next continuation found =>
    split at ran
    next checked =>
      cases ran
      cases tag with
      | write => exact (works_of_flow kept rfl).moves
      | read =>
          rw [view_follow, WinPipeEndpoint.flow_completeOp, if_pos rfl]
          exact moves_completeOp kept found checked
    next =>
      cases ran
      split at opened
      next failed =>
        have closed := isOpen_invalidateImpl s.endpoint false
        cases tag with
        | write => exact absurd (closed.symm.trans opened) Bool.false_ne_true
        | read => exact absurd (closed.symm.trans opened) Bool.false_ne_true
      next fine =>
        rw [if_neg fine]
        cases tag with
        | write => exact (works_of_flow kept rfl).moves
        | read => exact moves_check kept found fine

theorem moves_endpoint {event : WinPipeEndpoint.Event} {endpoint : WinPipeEndpoint} (kept : s.Kept)
    (opened : endpoint.isOpen = true) (other : event.isReadIo = false)
    (stepped : WinPipeEndpoint.step s.endpoint event = some endpoint) : Moves s.view (s.follow endpoint).view := by
  cases event with
  | writeAsync timed =>
      cases stepped
      have same : (s.endpoint.startAsync .write timed).flow .read = s.endpoint.flow .read := by
        unfold WinPipeEndpoint.startAsync
        split
        · rfl
        · rfl
      exact (works_of_flow kept same).moves
  | readAsync timed =>
      cases stepped
      unfold WinPipeEndpoint.startAsync at opened ⊢
      split at opened
      next isOpen =>
        rw [if_pos isOpen]
        exact moves_startAsync kept _
      next isClosed => exact absurd opened isClosed
  | timerExpires timerId =>
      obtain ⟨timer, -, rfl⟩ := Option.map_eq_some_iff.mp stepped
      exact (works_of_flow kept rfl).moves
  | timerHandler timerId =>
      simp only [WinPipeEndpoint.step] at stepped
      split at stepped
      next => cases stepped
      next =>
        cases stepped
        exact (works_of_flow kept rfl).moves
      next timer tag id handled =>
        cases stepped
        cases tag with
        | write => exact (works_of_flow kept rfl).moves
        | read => exact moves_cancelOpByTimeout kept id
  | resolveTimedOut tag index =>
      simp only [WinPipeEndpoint.step] at stepped
      split at stepped
      next => cases stepped
      next id found =>
        cases stepped
        cases tag with
        | write => exact (works_of_flow kept rfl).moves
        | read => exact moves_resolveTimedOut kept found
  | runTask tag =>
      obtain ⟨side, ran, rfl⟩ := Option.map_eq_some_iff.mp stepped
      cases tag with
      | write => exact (works_of_flow kept rfl).moves
      | read => exact (works_runTask kept ran).moves
  | ioCall tag call =>
      obtain ⟨side, called, rfl⟩ := Option.map_eq_some_iff.mp stepped
      cases tag with
      | write => exact (works_of_flow kept rfl).moves
      | read => cases other
  | ioCompletes tag index status bytes =>
      cases tag with
      | write =>
          simp only [WinPipeEndpoint.step] at stepped
          split at stepped
          next => cases stepped
          next io found =>
            obtain ⟨-, done⟩ := Option.ite_none_left_eq_some.mp stepped
            cases done
            refine (works_of_flow kept ?_).moves
            simp [WinPipeEndpoint.flow, WinPipeEndpoint.setSide, WinPipeEndpoint.side]
      | read => cases other
  | runWorker => exact (works_worker kept stepped).moves
  | continuation tag index => exact moves_continuation kept opened stepped
  | invalidate =>
      cases stepped
      exact absurd ((isOpen_invalidateImpl s.endpoint true).symm.trans opened) Bool.false_ne_true
  | setDisconnectCallback callback =>
      simp only [WinPipeEndpoint.step] at stepped
      split at stepped
      · cases stepped
        exact (works_of_flow kept rfl).moves
      · cases stepped
        exact (works_of_flow kept rfl).moves

theorem moves_step {event : Event} {t : WinPipeReader} (kept : s.Kept) (opened : t.endpoint.isOpen = true)
    (steps : Steps s event t) : Moves s.view t.view := by
  cases event with
  | send message =>
      cases steps
      exact (ReadView.Call.sends message).moves rfl
  | readFails =>
      cases steps with
      | fails closed called =>
          obtain ⟨side, -, rfl⟩ := Option.map_eq_some_iff.mp called
          exact absurd opened closed
  | other event =>
      cases steps with
      | other allowed stepped => exact moves_endpoint kept opened allowed stepped
  | readMoreData | readPending | readCompletes index | readAborted index =>
      exact (works_step kept steps rfl).moves

end WinPipeReader

end CommonRpc
