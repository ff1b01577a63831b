/-
Module: CommonRpc.Proofs.WinPipeEndpoint
Purpose: What holds of a `win_pipe_endpoint` in every interleaving of its callers, timers, iocp threads,
  completion packets and the worker loop. An operation is resolved exactly once, when its tasks, its I/O and its
  packets have run; they can always run (`exists_run_idle`).
Trusted boundary: none
-/
import CommonRpc.Lib.Table
import CommonRpc.Proofs.WinPipeFlow
import Mathlib.Algebra.GroupWithZero.Nat

namespace CommonRpc

namespace WinPipeFlow

variable {f : WinPipeFlow} {id : Nat}

/-- A task, I/O or a packet of the operation is on its way, or a timer callback is about to resolve it. -/
def Busy (f : WinPipeFlow) (id : Nat) : Prop :=
  (∃ task ∈ f.side.tasks, task.carrier = some id) ∨ (∃ io ∈ f.side.inFlight, io.id = id) ∨
    (∃ item ∈ f.work, item.id = id) ∨ id ∈ f.side.resolving

/-- The operation waits behind the back of the list. -/
def Waits (f : WinPipeFlow) (id : Nat) : Prop := id ∈ f.side.queue.tail.map WinPipeOpData.id

/-- The callback on the future of the operation has not finished. -/
def Acknowledging (f : WinPipeFlow) (id : Nat) : Prop :=
  ∃ continuation ∈ f.side.continuations, continuation.id = id

/-- Everything has run. -/
structure Idle (f : WinPipeFlow) : Prop where
  tasks : f.side.tasks = []
  inFlight : f.side.inFlight = []
  work : f.work = []
  resolving : f.side.resolving = []
  continuations : f.side.continuations = []

theorem busy_iff : f.Busy id ↔ id ∈ f.tokens.carriers ∨ id ∈ f.tokens.diverted := by
  simp [Busy, tokens, or_assoc]

namespace Sound

/-- An operation is resolved once, and exactly if nothing of it is left to run. -/
theorem resolved_once (sound : f.Sound) (created : id < f.side.ops.length) :
    (f.Busy id ∨ f.Waits id) ∧ id ∉ f.side.resolved.map Prod.fst ∨
      (¬ f.Busy id ∧ ¬ f.Waits id) ∧ (f.side.resolved.map Prod.fst).count id = 1 := by
  have account := sound.tokens.account id
  rw [if_pos (show id < f.tokens.created from created)] at account
  have waits : f.Waits id ↔ id ∈ f.tokens.queue.tail := by rw [Waits, WinPipeFlow.tokens, List.map_tail]
  rw [busy_iff, waits, ← List.count_pos_iff, ← List.count_pos_iff, ← List.count_pos_iff, ← List.count_pos_iff]
  change _ ∧ ¬ 0 < f.tokens.settled.count id ∨ _ ∧ f.tokens.settled.count id = 1
  omega

/-- The back of the list is not left behind. -/
theorem back_active (sound : f.Sound) (back : f.side.backId = some id) : f.Busy id ∨ f.Acknowledging id := by
  rw [← head_tokens] at back
  have first := sound.tokens.first id back
  have kept := sound.tokens.kept id back
  by_cases carried : id ∈ f.tokens.carriers
  · exact .inl (busy_iff.mpr (.inl carried))
  · right
    rw [List.count_eq_zero.mpr carried] at first
    exact List.mem_map.mp (List.count_pos_iff.mp (show 0 < f.tokens.pending.count id by omega))

theorem waits_behind (sound : f.Sound) (waits : f.Waits id) :
    ∃ back, f.side.backId = some back ∧ (f.Busy back ∨ f.Acknowledging back) := by
  cases queue : f.side.queue with
  | nil => simp [Waits, queue] at waits
  | cons back rest =>
      have isBack : f.side.backId = some back.id := by simp [WinPipeSide.backId, queue]
      exact ⟨back.id, isBack, sound.back_active isBack⟩

theorem resolved_of_idle (sound : f.Sound) (idle : f.Idle) :
    f.side.queue = [] ∧ ∀ id < f.side.ops.length, (f.side.resolved.map Prod.fst).count id = 1 := by
  have carriers : f.tokens.carriers = [] := by
    simp [WinPipeFlow.tokens, idle.tasks, idle.inFlight, idle.work]
  have pending : f.tokens.pending = [] := by simp [WinPipeFlow.tokens, idle.continuations]
  obtain ⟨empty, settled⟩ := sound.tokens.idle carriers idle.resolving pending
  exact ⟨List.map_eq_nil_iff.mp empty, settled⟩

end Sound

end WinPipeFlow

/-! ### Everything can run -/

/-- How many steps a task takes at most, if the call of `ReadFile` or `WriteFile` fails. -/
def IocpTask.weight : IocpTask → Nat
  | .start _ => 6
  | .issue _ => 5
  | .fail _ => 4
  | .resolve _ => 3
  | .cancel _ => 1

def WorkerJob.weight : WorkerJob → Nat
  | .completed _ _ => 6
  | .succeed | .fail => 4
  | .resolve => 3

def WinPipeContinuation.weight (continuation : WinPipeContinuation) : Nat := if continuation.checked then 1 else 2

namespace WinPipeSide

def weight (side : WinPipeSide) : Nat :=
  7 * side.queue.length + (side.tasks.map IocpTask.weight).sum + 7 * side.inFlight.length +
    3 * side.resolving.length + (side.continuations.map WinPipeContinuation.weight).sum

theorem weight_resolve (side : WinPipeSide) (id : Nat) : (side.resolve id).weight ≤ side.weight + 2 := by
  unfold resolve
  split
  · omega
  · simp [weight, WinPipeContinuation.weight]
    omega

theorem weight_cons {side : WinPipeSide} {task : IocpTask} {rest : List IocpTask}
    (running : side.tasks = task :: rest) : side.weight = weight { side with tasks := rest } + task.weight := by
  simp only [weight, running, List.map_cons, List.sum_cons]
  omega

/-- The thread goes on with a task. -/
theorem weight_task {side : WinPipeSide} {task task' : IocpTask} {rest : List IocpTask}
    (running : side.tasks = task :: rest) (less : task'.weight < task.weight) :
    weight { side with tasks := task' :: rest } < side.weight := by
  have after : weight { side with tasks := task' :: rest } = weight { side with tasks := rest } + task'.weight :=
    weight_cons rfl
  rw [weight_cons running, after]
  exact Nat.add_lt_add_left less _

theorem weight_cancel (side : WinPipeSide) (tag : PipeSide) (isOpen : Bool) (id : Nat) :
    (side.cancel tag isOpen id).weight = side.weight := by
  have reached : (side.cancelIo id).weight = side.weight := by simp [weight, cancelIo]
  unfold cancel
  split
  · split
    · exact reached
    · rfl
  · split
    · exact reached
    · rfl
  · rfl

theorem weight_runTask {side side' : WinPipeSide} {tag : PipeSide} {isOpen : Bool}
    (ran : side.runTask tag isOpen = some side') : side'.weight < side.weight := by
  unfold runTask at ran
  split at ran
  next => cases ran
  next => cases ran
  next id rest running =>
    split at ran
    next => cases ran
    next =>
      split at ran
      · cases ran
        exact weight_task running (by simp [IocpTask.weight])
      · cases ran
        exact weight_task running (by simp [IocpTask.weight])
  next id rest running =>
    cases ran
    have less : (IocpTask.resolve id).weight < (IocpTask.fail id).weight := by simp [IocpTask.weight]
    exact weight_task running less
  next id rest running =>
    cases ran
    have before := weight_cons running
    have resolved := weight_resolve { side with tasks := rest } id
    simp only [IocpTask.weight] at before
    omega
  next id rest running =>
    cases ran
    rw [weight_cancel, weight_cons running]
    exact Nat.lt_add_of_pos_right (by simp [IocpTask.weight])

theorem weight_ioCall {side side' : WinPipeSide} {tag : PipeSide} {isOpen : Bool}
    (called : side.ioCall tag isOpen .error = some side') : side'.weight < side.weight := by
  unfold ioCall at called
  split at called
  next id rest running =>
    cases called
    exact weight_task running (by simp [IocpTask.weight])
  next => cases called

/-- The iocp thread can always go on. -/
theorem exists_task_step {side : WinPipeSide} {task : IocpTask} {rest : List IocpTask} (tag : PipeSide)
    (isOpen : Bool) (running : side.tasks = task :: rest)
    (inside : ∀ id, task.carrier = some id → id < side.ops.length) :
    (∃ side', side.runTask tag isOpen = some side') ∨ ∃ side', side.ioCall tag isOpen .error = some side' := by
  cases task with
  | start id =>
      have found := List.getElem?_eq_getElem (inside id rfl)
      simp only [runTask, running, found, ← apply_ite some]
      exact .inl ⟨_, rfl⟩
  | issue id => simp [ioCall, running]
  | fail id => simp [runTask, running]
  | resolve id => simp [runTask, running]
  | cancel id => simp [runTask, running]

theorem weight_left (side : WinPipeSide) {job : WorkerJob} {bound : Nat} (less : job.weight < bound) :
    side.weight + ((some job).toList.map WorkerJob.weight).sum < side.weight + bound := by
  simpa using less

theorem weight_readCompleted (side : WinPipeSide) (id : Nat) (status : IoStatus) (bytes : Nat) :
    (side.readCompleted id status bytes).1.weight +
      ((side.readCompleted id status bytes).2.toList.map WorkerJob.weight).sum < side.weight + 6 := by
  unfold readCompleted
  cases status with
  | success => exact weight_left side (by decide : WorkerJob.succeed.weight < 6)
  | moreData =>
      dsimp only
      split
      next => exact weight_left side (by decide : WorkerJob.fail.weight < 6)
      next side' added =>
        obtain ⟨ops, rfl, -⟩ := addBufferChunk_evolves added
        simp [weight, updateOp, IocpTask.weight]
        omega
  | operationAborted => exact weight_left side (by decide : WorkerJob.resolve.weight < 6)
  | other => exact weight_left side (by decide : WorkerJob.fail.weight < 6)

theorem weight_runWorker (side : WinPipeSide) (tag : PipeSide) (id : Nat) (job : WorkerJob) :
    (side.runWorker tag id job).1.weight + ((side.runWorker tag id job).2.toList.map WorkerJob.weight).sum <
      side.weight + job.weight := by
  cases job with
  | completed status bytes =>
      cases tag with
      | write =>
          have less : (writeCompleted status).weight < 6 := by cases status with | _ => decide
          exact weight_left side less
      | read => exact weight_readCompleted side id status bytes
  | succeed => exact weight_left side (by decide : WorkerJob.resolve.weight < 4)
  | fail => exact weight_left side (by decide : WorkerJob.resolve.weight < 4)
  | resolve =>
      have resolved := weight_resolve side id
      exact Nat.lt_succ_of_le resolved

theorem weight_completeOp (side : WinPipeSide) (id : Nat) : (side.completeOp id).1.weight ≤ side.weight := by
  unfold completeOp
  split
  next => exact le_rfl
  next back rest queue =>
    split
    next =>
      split
      next => simp [weight, queue]
      next =>
        simp [weight, hand, queue, IocpTask.weight]
        omega
    next => exact le_rfl

/-- The first half of a callback on a future. -/
theorem weight_check {side : WinPipeSide} {index : Nat} {continuation checked : WinPipeContinuation}
    (found : side.continuations[index]? = some continuation) (less : checked.weight < continuation.weight) :
    weight { side with continuations := side.continuations.set index checked } < side.weight := by
  have changed : ((side.continuations.set index checked).map WinPipeContinuation.weight).sum +
      continuation.weight = (side.continuations.map WinPipeContinuation.weight).sum + checked.weight :=
    Lib.Table.sum_map_set found
  simp only [weight]
  omega

/-- The second half, which takes the callback away. -/
theorem weight_acknowledge {side : WinPipeSide} {index : Nat} {continuation : WinPipeContinuation}
    (found : side.continuations[index]? = some continuation) :
    weight { side with continuations := side.continuations.eraseIdx index } < side.weight := by
  have taken := ((Lib.Table.eraseIdx_perm found).map WinPipeContinuation.weight).sum_nat
  have positive : 0 < continuation.weight := by
    unfold WinPipeContinuation.weight
    split
    · decide
    · decide
  simp only [weight, taken, List.map_cons, List.sum_cons]
  omega

theorem weight_invalidate (side : WinPipeSide) (setResult : WinPipeOperation → WinPipeOperation) :
    (side.invalidate setResult).weight = side.weight := by
  simp [invalidate_eq, weight]

end WinPipeSide

namespace WinPipeEndpoint

open WinPipeFlow

variable {s s' : WinPipeEndpoint}

def weight (s : WinPipeEndpoint) : Nat :=
  s.writes.weight + s.reads.weight + (s.worker.map fun item => item.job.weight).sum

theorem sound_step {event : Event} (sound : ∀ tag, (s.flow tag).Sound) (stepped : machine.step s event = some s')
    (tag : PipeSide) : (s'.flow tag).Sound := by
  have moves := step_moves stepped tag
  generalize s'.flow tag = after at moves ⊢
  induction moves with
  | refl => exact sound tag
  | tail _ move ih => exact move.sound ih

theorem sound_start (tag : PipeSide) : (flow {} tag).Sound := by
  have empty : flow {} tag = ⟨{}, []⟩ := by cases tag with | _ => rfl
  rw [empty]
  exact {
    tokens := Lib.TokenQueue.sound_empty
    cancels := by simp [CancelsOwn]
    known := by simp [Concluded]
    handed := nofun
    resolved := nofun
    cancelHits := nofun }

theorem sound_of_run {events : List Event} (ran : machine.run {} events = some s) (tag : PipeSide) :
    (s.flow tag).Sound :=
  Lib.Machine.run_invariant (P := fun s => ∀ tag, (s.flow tag).Sound) sound_step sound_start ran tag

theorem weight_invalidateImpl (s : WinPipeEndpoint) (byCancel : Bool) :
    (s.invalidateImpl byCancel).weight = s.weight := by
  unfold invalidateImpl
  split
  · simp [weight, WinPipeSide.weight_invalidate]
  · rfl

/-- The weight of a side is replaced. -/
theorem weight_setSide (s : WinPipeEndpoint) (tag : PipeSide) (side : WinPipeSide) :
    (s.setSide tag side).weight + (s.side tag).weight = s.weight + side.weight := by
  cases tag with
  | write =>
      simp only [weight, setSide, WinPipeEndpoint.side]
      omega
  | read =>
      simp only [weight, setSide, WinPipeEndpoint.side]
      omega

theorem setWorker_lowers {tag : PipeSide} {side : WinPipeSide} {worker : List WorkerItem}
    (lower : side.weight + (worker.map fun item => item.job.weight).sum <
      (s.side tag).weight + (s.worker.map fun item => item.job.weight).sum) :
    ({ s with worker }.setSide tag side).weight < s.weight := by
  have exchanged := weight_setSide { s with worker } tag side
  have same : WinPipeEndpoint.side { s with worker } tag = s.side tag := rfl
  rw [same] at exchanged
  simp only [weight] at exchanged ⊢
  omega

theorem setSide_lowers {tag : PipeSide} {side : WinPipeSide} (lower : side.weight < (s.side tag).weight) :
    (s.setSide tag side).weight < s.weight :=
  setWorker_lowers (Nat.add_lt_add_right lower _)

/-- The event is possible and leaves less to run. -/
def Lowers (s : WinPipeEndpoint) (event : Event) : Prop :=
  ∃ s', machine.step s event = some s' ∧ s'.weight < s.weight

theorem task_lowers {tag : PipeSide} (sound : (s.flow tag).Sound) (busy : (s.side tag).tasks ≠ []) :
    s.Lowers (.runTask tag) ∨ s.Lowers (.ioCall tag .error) := by
  obtain ⟨task, rest, running⟩ := List.exists_cons_of_ne_nil busy
  have inside (id : Nat) (carrier : task.carrier = some id) : id < (s.side tag).ops.length :=
    lt_of_carries sound.tokens running carrier
  rcases WinPipeSide.exists_task_step tag s.isOpen running inside with ⟨side, ran⟩ | ⟨side, called⟩
  · refine .inl ⟨s.setSide tag side, ?_, setSide_lowers (WinPipeSide.weight_runTask ran)⟩
    exact Option.map_eq_some_iff.mpr ⟨side, ran, rfl⟩
  · refine .inr ⟨s.setSide tag side, ?_, setSide_lowers (WinPipeSide.weight_ioCall called)⟩
    exact Option.map_eq_some_iff.mpr ⟨side, called, rfl⟩

theorem ioCompletes_lowers {tag : PipeSide} (busy : (s.side tag).inFlight ≠ []) :
    s.Lowers (.ioCompletes tag 0 .other 0) := by
  obtain ⟨io, rest, inFlight⟩ := List.exists_cons_of_ne_nil busy
  refine ⟨_, by simp [machine, step, inFlight]; rfl, setWorker_lowers ?_⟩
  simp only [WinPipeSide.weight, inFlight, List.length_cons, List.map_append, List.map_cons, List.map_nil,
    List.sum_append, List.sum_cons, List.sum_nil, WorkerJob.weight]
  omega

theorem resolveTimedOut_lowers {tag : PipeSide} (busy : (s.side tag).resolving ≠ []) :
    s.Lowers (.resolveTimedOut tag 0) := by
  obtain ⟨id, rest, resolving⟩ := List.exists_cons_of_ne_nil busy
  refine ⟨_, by simp [machine, step, resolving]; rfl, setSide_lowers ?_⟩
  apply Nat.lt_of_le_of_lt (WinPipeSide.weight_resolve _ id)
  simp only [WinPipeSide.weight, resolving, List.length_cons]
  omega

theorem weight_completeOp (s : WinPipeEndpoint) (tag : PipeSide) (id : Nat) :
    (s.completeOp tag id).weight ≤ s.weight := by
  have lower := WinPipeSide.weight_completeOp (s.side tag) id
  -- the timer has no weight
  have bounded (timer : MultipleTimer (PipeSide × Nat)) :
      ({ s with timer }.setSide tag ((s.side tag).completeOp id).1).weight ≤ s.weight := by
    have exchanged : ({ s with timer }.setSide tag ((s.side tag).completeOp id).1).weight + (s.side tag).weight =
        s.weight + ((s.side tag).completeOp id).1.weight := weight_setSide { s with timer } tag _
    omega
  exact bounded _

theorem weight_runContinuation {tag : PipeSide} {index : Nat} (ran : s.runContinuation tag index = some s') :
    s'.weight < s.weight := by
  unfold runContinuation at ran
  split at ran
  next => cases ran
  next continuation found =>
    split at ran
    next =>
      cases ran
      exact Nat.lt_of_le_of_lt (weight_completeOp _ tag _) (setSide_lowers (WinPipeSide.weight_acknowledge found))
    next unchecked =>
      cases ran
      have less : WinPipeContinuation.weight { continuation with checked := true } < continuation.weight := by
        simp [WinPipeContinuation.weight, unchecked]
      split
      next =>
        rw [← weight_invalidateImpl s false]
        rw [← continuations_invalidateImpl s false tag] at found
        exact setSide_lowers (WinPipeSide.weight_check found less)
      next => exact setSide_lowers (WinPipeSide.weight_check found less)

theorem continuation_lowers {tag : PipeSide} (busy : (s.side tag).continuations ≠ []) :
    s.Lowers (.continuation tag 0) := by
  obtain ⟨continuation, rest, continuations⟩ := List.exists_cons_of_ne_nil busy
  have found : (s.side tag).continuations[0]? = some continuation := by rw [continuations]; rfl
  cases ran : s.runContinuation tag 0 with
  | none =>
      simp only [runContinuation, found] at ran
      split at ran
      · cases ran
      · cases ran
  | some s' => exact ⟨s', ran, weight_runContinuation ran⟩

theorem runWorker_lowers (busy : s.worker ≠ []) : s.Lowers .runWorker := by
  obtain ⟨item, rest, running⟩ := List.exists_cons_of_ne_nil busy
  have worked := WinPipeSide.weight_runWorker (s.side item.tag) item.tag item.id item.job
  have kept (left : Option WorkerJob) :
      ((left.map fun job => { item with job }).toList.map fun item => item.job.weight) =
        left.toList.map WorkerJob.weight := by
    cases left with | _ => rfl
  cases ran : s.runWorker with
  | none =>
      simp only [runWorker, running] at ran
      cases ran
  | some s' =>
      refine ⟨s', ran, ?_⟩
      simp only [runWorker, running] at ran
      cases ran
      apply setWorker_lowers
      rw [List.map_append, kept, running, List.sum_append, List.map_cons, List.sum_cons]
      omega

/-- Whatever is left to run can go on. -/
theorem exists_lowers (sound : ∀ tag, (s.flow tag).Sound) (busy : ¬ ∀ tag, (s.flow tag).Idle) :
    ∃ event, s.Lowers event := by
  by_cases worker : s.worker = []
  · obtain ⟨tag, busy⟩ := not_forall.mp busy
    by_cases tasks : (s.side tag).tasks = []
    · by_cases inFlight : (s.side tag).inFlight = []
      · by_cases resolving : (s.side tag).resolving = []
        · by_cases continuations : (s.side tag).continuations = []
          · exact absurd ⟨tasks, inFlight, by simp [flow, worker], resolving, continuations⟩ busy
          · exact ⟨_, continuation_lowers continuations⟩
        · exact ⟨_, resolveTimedOut_lowers resolving⟩
      · exact ⟨_, ioCompletes_lowers inFlight⟩
    · rcases task_lowers (sound tag) tasks with lowers | lowers
      · exact ⟨_, lowers⟩
      · exact ⟨_, lowers⟩
  · exact ⟨_, runWorker_lowers worker⟩

theorem exists_run_idle {events : List Event} (ran : machine.run {} events = some s) :
    ∃ later s', machine.run s later = some s' ∧ ∀ tag, (s'.flow tag).Idle := by
  apply Lib.Machine.exists_run_final weight (P := fun s => ∀ tag, (s.flow tag).Sound) sound_step _
    (sound_of_run ran)
  intro s sound busy
  obtain ⟨event, s', stepped, lower⟩ := exists_lowers sound busy
  exact ⟨event, s', stepped, lower⟩

/-! ### Every interleaving -/

theorem advances_of_run {events : List Event} (ran : machine.run s events = some s') (tag : PipeSide) :
    WinPipeSide.Advances (s.side tag).ops (s'.side tag).ops := by
  refine Lib.Machine.run_invariant (P := fun t => WinPipeSide.Advances (s.side tag).ops (t.side tag).ops) ?_
    (.refl _) ran
  intro t event t' advances stepped
  have moves := step_moves stepped tag
  have onwards : ∀ {f g : WinPipeFlow}, Moves f g → WinPipeSide.Advances f.side.ops g.side.ops := by
    intro f g moves
    induction moves with
    | refl => exact .refl _
    | tail _ move ih => exact ih.trans move.advances
  exact advances.trans (onwards moves)

/-- Whatever callers, timers, iocp threads, completions, invalidations and failures do in whatever order: only the
    back of a list is handed to the iocp owner. An operation of which something is left to run is not resolved,
    and one of which nothing is left is resolved exactly once, with a result. Results only move forward.
    `CancelIo` for an operation reaches no I/O but its own. From every state the endpoint can run until nothing is
    left. -/
theorem iocp_operations_resolved_once {earlier later : List Event} {s₀ s : WinPipeEndpoint}
    (ran₀ : machine.run {} earlier = some s₀) (ran : machine.run s₀ later = some s) (tag : PipeSide) :
    (∀ id back, (id, back) ∈ (s.side tag).handed → back = some id) ∧
    (∀ id < (s.side tag).ops.length,
      ((s.flow tag).Busy id ∨ (s.flow tag).Waits id) ∧ id ∉ (s.side tag).resolved.map Prod.fst ∨
      (¬ (s.flow tag).Busy id ∧ ¬ (s.flow tag).Waits id) ∧ ((s.side tag).resolved.map Prod.fst).count id = 1) ∧
    (∀ id, (s.flow tag).Waits id →
      ∃ back, (s.side tag).backId = some back ∧ ((s.flow tag).Busy back ∨ (s.flow tag).Acknowledging back)) ∧
    (∀ id result, (id, result) ∈ (s.side tag).resolved → result ≠ .unknown) ∧
    (∀ (id : Nat) (op : WinPipeOperation), (s₀.side tag).ops[id]? = some op →
      ∃ op' : WinPipeOperation, (s.side tag).ops[id]? = some op' ∧
        WinPipeOperationRes.Moves op.result op'.result) ∧
    (∀ id reached, (id, reached) ∈ (s.side tag).cancelHits → reached = id) ∧
    ∃ rest s', machine.run s rest = some s' ∧ (s'.flow tag).Idle ∧ (s'.side tag).queue = [] ∧
      ∀ id < (s'.side tag).ops.length, ((s'.side tag).resolved.map Prod.fst).count id = 1 := by
  have fromStart : machine.run {} (earlier ++ later) = some s :=
    Lib.Machine.run_append_eq_some.mpr ⟨s₀, ran₀, ran⟩
  have sound := sound_of_run fromStart tag
  refine ⟨fun id back listed => sound.handed _ listed, fun id created => sound.resolved_once created,
    fun id waits => sound.waits_behind waits, fun id result listed => sound.resolved _ listed,
    advances_of_run ran tag, fun id reached listed => sound.cancelHits _ listed, ?_⟩
  obtain ⟨rest, s', drained, idle⟩ := exists_run_idle fromStart
  have sound' := sound_of_run (Lib.Machine.run_append_eq_some.mpr ⟨s, fromStart, drained⟩) tag
  obtain ⟨empty, settled⟩ := sound'.resolved_of_idle (idle tag)
  exact ⟨rest, s', drained, idle tag, empty, settled⟩

/-- A write times out while its I/O is pending and another one waits. `CancelIo` reaches the first one, and only
    after its packet has been handled the second one is handed over. -/
theorem iocp_operations_resolved_once_timeout :
    ∃ s₀,
      machine.run {} [.writeAsync true, .writeAsync false, .runTask .write, .ioCall .write .pending] = some s₀ ∧
      ((s₀.side .write).ops[0]? = some ({} : WinPipeOperation) ∧
        ∃ s, machine.run s₀ [.timerExpires 0, .timerHandler 0, .runTask .write,
            .ioCompletes .write 0 .operationAborted 0, .runWorker, .runWorker, .continuation .write 0,
            .continuation .write 0] = some s ∧
          (s.side .write).cancelHits = [(0, 0)] ∧ (s.side .write).resolved = [(0, .timeout)] ∧
          (s.side .write).handed = [(0, some 0), (0, some 0), (1, some 1)]) ∧
      ∀ later s, machine.run s₀ later = some s → ∃ op' : WinPipeOperation, (s.side .write).ops[0]? = some op' ∧
        WinPipeOperationRes.Moves .unknown op'.result := by
  refine Lib.Machine.exists_run ⟨_, rfl, rfl, _, rfl, rfl, rfl, rfl⟩ fun ran₀ ⟨created, _⟩ later s ran => ?_
  obtain ⟨-, -, -, -, moves, -, -⟩ := iocp_operations_resolved_once ran₀ ran .write
  exact moves 0 {} created

end WinPipeEndpoint

end CommonRpc
