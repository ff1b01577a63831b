/-
Module: CommonRpc.Proofs.WinPipeFlow
Purpose: The invariant of one side of a `win_pipe_endpoint`. The work on an operation is a token that passes from
  the iocp thread to the I/O and from there to the worker loop; only the back operation has one. A `CancelIo`
  that is still to come is either for the back operation or has nothing in front of it that it could reach,
  because the tasks run in post order.
Trusted boundary: none
-/
import CommonRpc.Lib.Table
import CommonRpc.Lib.TokenQueue
import CommonRpc.Proofs.WinPipeMoves

namespace CommonRpc

/-- The worker loop will resolve the operation without looking at it. -/
def WorkerJob.Concluded (job : WorkerJob) : Prop :=
  job = .resolve ∨ ∃ bytes, job = .completed .operationAborted bytes

namespace WinPipeFlow

open WinPipeSide WinPipeOperationRes

variable {f g : WinPipeFlow}

/-! ### Who works on an operation -/

/-- The queue of the side: tasks, I/O and packets carry the token of their operation. -/
def tokens (f : WinPipeFlow) : Lib.TokenQueue where
  created := f.side.ops.length
  queue := f.side.queue.map WinPipeOpData.id
  carriers := f.side.tasks.filterMap IocpTask.carrier ++ f.side.inFlight.map PendingIo.id ++
    f.work.map WorkerItem.id
  diverted := f.side.resolving
  settled := f.side.resolved.map Prod.fst
  pending := f.side.continuations.map WinPipeContinuation.id

theorem head_tokens (f : WinPipeFlow) : f.tokens.queue.head? = f.side.backId := List.head?_map

theorem tokens_resolve {id : Nat} (inside : id < f.side.ops.length) :
    { f with side := f.side.resolve id }.tokens = { f.tokens with
      settled := f.tokens.settled ++ [id]
      pending := f.tokens.pending ++ [id] } := by
  have found : f.side.ops[id]? = some f.side.ops[id] := List.getElem?_eq_getElem inside
  simp [tokens, resolve, found]

theorem move_of_tokens_eq (same : g.tokens = f.tokens) : f.tokens.Move g.tokens := by
  rw [same]
  exact .carry (.refl _)

theorem map_eraseP (queue : List WinPipeOpData) (id : Nat) :
    (queue.eraseP fun data => data.id = id).map WinPipeOpData.id = (queue.map WinPipeOpData.id).erase id := by
  rw [List.erase_eq_eraseP', List.eraseP_map]
  rfl

/-- A continuation that goes on stays the continuation of its operation. -/
theorem map_check {continuations : List WinPipeContinuation} {index : Nat} {continuation : WinPipeContinuation}
    (found : continuations[index]? = some continuation) :
    (continuations.set index { continuation with checked := true }).map WinPipeContinuation.id =
      continuations.map WinPipeContinuation.id := by
  apply List.ext_getElem?
  intro i
  grind

theorem lt_of_carries {task : IocpTask} {rest : List IocpTask} {id : Nat} (sound : f.tokens.Sound)
    (running : f.side.tasks = task :: rest) (carrier : task.carrier = some id) : id < f.side.ops.length := by
  apply sound.lt_created_of_carries
  simp [tokens, running, List.filterMap_cons_some carrier]

theorem move_tokens (sound : f.tokens.Sound) (move : Move f g) : f.tokens.Move g.tokens := by
  cases move with
  | refuse => exact .carry (.refl _)
  | createFirst timerId empty =>
      have moved : f.tokens.Move { f.tokens with
          created := f.tokens.created + 1, queue := [f.tokens.created],
          carriers := (f.side.tasks ++ [IocpTask.start f.side.ops.length]).filterMap IocpTask.carrier ++
            f.side.inFlight.map PendingIo.id ++ f.work.map WorkerItem.id } := by
        refine .first (by simp [tokens, empty]) ?_
        simp only [tokens, List.filterMap_append, List.append_assoc]
        exact List.perm_middle
      simpa [tokens] using moved
  | createLater timerId busy =>
      have moved := Lib.TokenQueue.Move.enqueue (s := f.tokens) (by simpa [tokens] using busy)
      simpa [tokens] using moved
  | advance running carrier carrier' evolves =>
      apply move_of_tokens_eq
      simp [tokens, running, List.filterMap_cons_some carrier, List.filterMap_cons_some carrier', evolves.length]
  | @issue rest id running =>
      refine .carry (List.perm_iff_count.mpr fun other => ?_)
      simp only [tokens, running, List.filterMap_cons, IocpTask.carrier, List.map_append, List.map_cons,
        List.map_nil, List.count_append, List.count_cons, List.count_nil]
      omega
  | @resolveTask rest id running =>
      have inside := lt_of_carries sound running rfl
      rw [tokens_resolve (f := { f with side := { f.side with tasks := rest } }) inside]
      refine .settle (List.Perm.of_eq ?_)
      simp [tokens, running, IocpTask.carrier]
  | skipCancel running =>
      apply move_of_tokens_eq
      simp [tokens, running, List.filterMap_cons, IocpTask.carrier]
  | cancelIo running =>
      apply move_of_tokens_eq
      simp [tokens, cancelIo, running, List.filterMap_cons, IocpTask.carrier]
  | @complete index io packet found own =>
      have taken := (Lib.Table.eraseIdx_perm found).map PendingIo.id
      refine .carry (List.perm_iff_count.mpr fun other => ?_)
      have count := taken.count_eq other
      simp only [tokens, own, List.map_append, List.map_cons, List.map_nil, List.count_append, List.count_cons,
        List.count_nil] at count ⊢
      omega
  | work running evolves =>
      apply move_of_tokens_eq
      simp [tokens, running, evolves.length]
  | postRest running evolves =>
      simp only [tokens, evolves.length]
      refine .carry (List.perm_iff_count.mpr fun other => ?_)
      simp only [running, List.filterMap_append, List.filterMap_cons, List.filterMap_nil, IocpTask.carrier,
        List.map_cons, List.count_append, List.count_cons, List.count_nil]
      omega
  | @resolveWork item rest running ready =>
      have inside : item.id < f.side.ops.length := sound.lt_created_of_carries (by simp [tokens, running])
      have resolved := tokens_resolve (f := { f with work := rest }) inside
      rw [resolved]
      refine .settle (List.perm_iff_count.mpr fun other => ?_)
      simp only [tokens, running, List.map_cons, List.count_append, List.count_cons]
      omega
  | timeoutBack back =>
      apply move_of_tokens_eq
      simp [tokens, IocpTask.carrier]
  | @timeoutWaiting id listed waits =>
      cases queue : f.side.queue with
      | nil => simp [queue] at listed
      | cons back rest =>
          have behind : back.id ≠ id := by simpa [backId, queue] using waits
          have waiting : id ∈ rest.map WinPipeOpData.id := by
            simpa [queue, behind.symm] using listed
          have active := congrArg (List.map WinPipeOpData.id) queue
          have moved := Lib.TokenQueue.Move.divert (s := f.tokens) active waiting
          simpa [tokens, behind, map_eraseP] using moved
  | @resolveTimedOut index id found =>
      have inside := sound.lt_created_of_diverted (List.mem_of_getElem? found)
      have resolved := tokens_resolve
        (f := { f with side := { f.side with resolving := f.side.resolving.eraseIdx index } }) inside
      rw [resolved]
      exact .settleDiverted (Lib.Table.eraseIdx_perm found)
  | check found =>
      apply move_of_tokens_eq
      simp only [tokens, map_check found]
  | @acknowledgeBack index continuation back rest found queue own =>
      refine .acknowledge ((Lib.Table.eraseIdx_perm found).map WinPipeContinuation.id) ?_
        (List.perm_iff_count.mpr fun other => ?_)
      · simp [tokens, queue, own]
      · cases rest with
        | nil => simp [tokens]
        | cons next later =>
            simp only [tokens, IocpTask.carrier, List.filterMap_append, List.filterMap_cons, List.filterMap_nil,
              List.head?_cons, Option.toList_some, List.map_cons, List.map_nil, List.count_append,
              List.count_cons, List.count_nil]
            omega
  | acknowledgeOther found other =>
      refine .pass ((Lib.Table.eraseIdx_perm found).map WinPipeContinuation.id) ?_
      rwa [head_tokens]
  | invalidate evolves =>
      apply move_of_tokens_eq
      simp [tokens, evolves.length]

/-! ### What a `CancelIo` can reach -/

theorem backId_append {side : WinPipeSide} {new : WinPipeOpData} (busy : side.queue ≠ []) :
    backId { side with queue := side.queue ++ [new] } = side.backId := by
  obtain ⟨back, rest, queue⟩ := List.exists_cons_of_ne_nil busy
  simp [backId, queue]

theorem backId_eraseP {side : WinPipeSide} {id : Nat} (waits : side.backId ≠ some id) :
    backId { side with queue := side.queue.eraseP fun data => data.id = id } = side.backId := by
  cases queue : side.queue with
  | nil => rw [backId, backId, queue, List.eraseP_nil]
  | cons back rest =>
      have behind : back.id ≠ id := by simpa [backId, queue] using waits
      simp [backId, queue, behind]

/-- Neither the tasks in front nor the I/O nor the worker loop have an operation. -/
structure Quiet (ahead : List IocpTask) (inFlight : List PendingIo) (work : List WorkerItem) : Prop where
  tasks : ahead.filterMap IocpTask.carrier = []
  inFlight : inFlight = []
  work : work = []

/-- A `CancelIo` that is still to come is for the back operation, or when its turn comes there is no I/O. -/
def CancelsOwn (f : WinPipeFlow) : Prop :=
  ∀ (ahead : List IocpTask) (id : Nat), ahead ++ [.cancel id] <+: f.side.tasks →
    f.side.backId = some id ∨ Quiet ahead f.side.inFlight f.work

/-- A `CancelIo` in front of a new task of an operation was there before. -/
theorem prefix_of_append {ahead tasks : List IocpTask} {id id' : Nat} {new : IocpTask}
    (listed : ahead ++ [.cancel id] <+: tasks ++ [new]) (carrier : new.carrier = some id') :
    ahead ++ [.cancel id] <+: tasks := by
  rcases List.prefix_concat_iff.mp listed with last | earlier
  · cases List.append_inj_right' last rfl
    cases carrier
  · exact earlier

/-- While a task of an operation is in front of it, a `CancelIo` is for the back operation. -/
theorem back_of_carrier {task : IocpTask} {rest ahead : List IocpTask} {id id' : Nat} (own : f.CancelsOwn)
    (running : f.side.tasks = task :: rest) (carrier : task.carrier = some id')
    (listed : ahead ++ [.cancel id] <+: rest) : f.side.backId = some id := by
  have before : (task :: ahead) ++ [.cancel id] <+: f.side.tasks := by
    rw [running]
    exact (List.prefix_cons_inj task).mpr listed
  rcases own (task :: ahead) id before with back | quiet
  · exact back
  · have none := quiet.tasks
    rw [List.filterMap_cons_some carrier] at none
    cases none

/-- A `CancelIo` has run: those behind it have the same in front of them. -/
theorem own_of_cancel {rest ahead : List IocpTask} {id id' : Nat} (own : f.CancelsOwn)
    (running : f.side.tasks = .cancel id' :: rest) (listed : ahead ++ [.cancel id] <+: rest) :
    f.side.backId = some id ∨ Quiet ahead f.side.inFlight f.work := by
  have before : (.cancel id' :: ahead) ++ [.cancel id] <+: f.side.tasks := by
    rw [running]
    exact (List.prefix_cons_inj _).mpr listed
  exact (own _ id before).imp_right fun quiet => ⟨quiet.tasks, quiet.inFlight, quiet.work⟩

/-- While the worker loop has an item of the side, every `CancelIo` is for the back operation. -/
theorem back_of_work {item : WorkerItem} {rest : List WorkerItem} {ahead : List IocpTask} {id : Nat}
    (own : f.CancelsOwn) (running : f.work = item :: rest) (listed : ahead ++ [.cancel id] <+: f.side.tasks) :
    f.side.backId = some id := by
  rcases own ahead id listed with back | quiet
  · exact back
  · have none := quiet.work
    rw [running] at none
    cases none

/-- When the back operation is resolved, nothing is left of it. -/
theorem quiet_of_acknowledged {ahead : List IocpTask} {back : WinPipeOpData} {rest : List WinPipeOpData}
    {index : Nat} {continuation : WinPipeContinuation} (sound : f.tokens.Sound)
    (found : f.side.continuations[index]? = some continuation) (queue : f.side.queue = back :: rest)
    (own : back.id = continuation.id) (listed : ahead <+: f.side.tasks) : Quiet ahead f.side.inFlight f.work := by
  have pending : back.id ∈ f.tokens.pending := own ▸ List.mem_map_of_mem (List.mem_of_getElem? found)
  have first : f.tokens.queue.head? = some back.id := by simp [tokens, queue]
  have idle := sound.carriers_eq_nil first (sound.settled_of_pending pending)
  simp only [tokens, List.append_eq_nil_iff, List.map_eq_nil_iff] at idle
  obtain ⟨⟨tasks, inFlight⟩, work⟩ := idle
  have carriers := listed.filterMap IocpTask.carrier
  rw [tasks] at carriers
  exact ⟨List.prefix_nil.mp carriers, inFlight, work⟩

theorem cancelsOwn_move (sound : f.tokens.Sound) (own : f.CancelsOwn) (move : Move f g) : g.CancelsOwn := by
  cases move with
  | refuse => exact own
  | createFirst timerId empty =>
      intro ahead id listed
      rcases own ahead id (prefix_of_append listed rfl) with back | quiet
      · simp [backId, empty] at back
      · exact .inr quiet
  | createLater timerId busy =>
      intro ahead id listed
      rcases own ahead id listed with back | quiet
      · left
        rw [← back]
        exact backId_append busy
      · exact .inr quiet
  | advance running carrier carrier' =>
      intro ahead id listed
      rcases List.prefix_cons_iff.mp listed with none | ⟨later, tasks, listed⟩
      · simp at none
      · cases ahead with
        | nil =>
            cases tasks
            cases carrier'
        | cons first ahead =>
            cases tasks
            have back := back_of_carrier own running carrier listed
            exact .inl back
  | issue running =>
      intro ahead id listed
      have back := back_of_carrier own running rfl listed
      exact .inl back
  | resolveTask running =>
      rw [resolve_eq]
      intro ahead id listed
      have back := back_of_carrier own running rfl listed
      exact .inl back
  | skipCancel running =>
      intro ahead id listed
      rcases own_of_cancel own running listed with back | quiet
      · exact .inl back
      · exact .inr quiet
  | cancelIo running =>
      intro ahead id listed
      rcases own_of_cancel own running listed with back | quiet
      · exact .inl back
      · exact .inr ⟨quiet.tasks, List.map_eq_nil_iff.mpr quiet.inFlight, quiet.work⟩
  | complete found =>
      intro ahead id listed
      rcases own ahead id listed with back | quiet
      · exact .inl back
      · rw [quiet.inFlight] at found
        cases found
  | work running =>
      intro ahead id listed
      have back := back_of_work own running listed
      exact .inl back
  | postRest running =>
      intro ahead id listed
      have back := back_of_work own running (prefix_of_append listed rfl)
      exact .inl back
  | resolveWork running =>
      rw [resolve_eq]
      intro ahead id listed
      have back := back_of_work own running listed
      exact .inl back
  | @timeoutBack timedOut back =>
      intro ahead id listed
      rcases List.prefix_concat_iff.mp listed with last | earlier
      · cases List.append_inj_right' last rfl
        exact .inl back
      · rcases own ahead id earlier with back | quiet
        · exact .inl back
        · exact .inr quiet
  | @timeoutWaiting timedOut listed waits =>
      intro ahead id listed
      rcases own ahead id listed with back | quiet
      · exact .inl ((backId_eraseP waits).trans back)
      · exact .inr quiet
  | resolveTimedOut =>
      rw [resolve_eq]
      exact own
  | check => exact own
  | @acknowledgeBack index continuation back rest found queue same =>
      intro ahead id listed
      have before : ahead ++ [.cancel id] <+: f.side.tasks := by
        cases rest with
        | nil => simpa using listed
        | cons next later => exact prefix_of_append listed rfl
      have quiet := quiet_of_acknowledged sound found queue same ((List.prefix_append _ _).trans before)
      exact .inr quiet
  | acknowledgeOther => exact own
  | invalidate =>
      intro ahead id listed
      rcases own ahead id listed with back | quiet
      · exact .inl back
      · exact .inr ⟨quiet.tasks, List.map_eq_nil_iff.mpr quiet.inFlight, quiet.work⟩

/-! ### Results -/

/-- What is on its way for the operation will not give it a result any more. -/
def Concluded (f : WinPipeFlow) (id : Nat) : Prop :=
  .resolve id ∈ f.side.tasks ∨ .cancel id ∈ f.side.tasks ∨
    (∃ io ∈ f.side.inFlight, io.aborted = true ∧ io.id = id) ∨
    (∃ item ∈ f.work, item.job.Concluded ∧ item.id = id) ∨ id ∈ f.side.resolving

/-- I/O is that of the back operation. -/
theorem back_of_inFlight {io : PendingIo} (sound : f.tokens.Sound) (listed : io ∈ f.side.inFlight) :
    f.side.backId = some io.id := by
  rw [← head_tokens]
  apply sound.active
  simp only [tokens, List.mem_append]
  exact .inl (.inr (List.mem_map_of_mem listed))

/-- `CancelIo` reaches the I/O of its operation only. -/
theorem cancel_own {id : Nat} {rest : List IocpTask} {io : PendingIo} (sound : f.tokens.Sound)
    (own : f.CancelsOwn) (running : f.side.tasks = .cancel id :: rest) (listed : io ∈ f.side.inFlight) :
    io.id = id := by
  have first : [] ++ [.cancel id] <+: f.side.tasks := by
    rw [running]
    exact List.prefix_append [_] rest
  rcases own [] id first with back | quiet
  · exact Option.some.inj ((back_of_inFlight sound listed).symm.trans back)
  · rw [quiet.inFlight] at listed
    cases listed

theorem lt_of_listed {id : Nat} (sound : f.tokens.Sound) (listed : id ∈ f.side.queue.map WinPipeOpData.id) :
    id < f.side.ops.length :=
  sound.lt_created_of_queued listed

theorem listed_of_back {side : WinPipeSide} {id : Nat} (back : side.backId = some id) :
    id ∈ side.queue.map WinPipeOpData.id := by
  obtain ⟨data, first, rfl⟩ := Option.map_eq_some_iff.mp back
  exact List.mem_map_of_mem (List.mem_of_mem_head? first)

/-- The timer gives an operation a result before it is cancelled or taken out. -/
theorem known_timeout {id : Nat} (sound : f.tokens.Sound) (listed : id ∈ f.side.queue.map WinPipeOpData.id) :
    Known (f.side.ops.modify id .setTimeoutIfPossible) id :=
  known_modify (WinPipeOperation.exchange_known (by decide)) (lt_of_listed sound listed)

theorem concluded_move (sound : f.tokens.Sound) (own : f.CancelsOwn) (move : Move f g) {id : Nat}
    (concluded : Concluded g id) : Concluded f id ∨ Known g.side.ops id := by
  cases move with
  | refuse | check | acknowledgeOther | createLater => exact .inl concluded
  | createFirst =>
      left
      simpa [Concluded] using concluded
  | @advance task task' rest ops id' running carrier carrier' evolves ready =>
      have inside : id' < ops.length := evolves.length ▸ lt_of_carries sound running carrier
      rcases concluded with listed | listed | others
      · cases listed with
        | head =>
            cases carrier'
            exact .inr (ready rfl inside)
        | tail _ later => exact .inl (.inl (running ▸ .tail _ later))
      · cases listed with
        | head => cases carrier'
        | tail _ later => exact .inl (.inr (.inl (running ▸ .tail _ later)))
      · exact .inl (.inr (.inr others))
  | issue running =>
      left
      simp only [Concluded, running, List.mem_append, List.mem_cons] at concluded ⊢
      grind
  | resolveTask running =>
      left
      rw [resolve_eq] at concluded
      simp only [Concluded, running, List.mem_cons] at concluded ⊢
      grind
  | skipCancel running =>
      left
      simp only [Concluded, running, List.mem_cons] at concluded ⊢
      grind
  | @cancelIo rest id' running =>
      left
      rcases concluded with listed | listed | ⟨io, reached, -, same⟩ | others
      · exact .inl (running ▸ .tail _ listed)
      · exact .inr (.inl (running ▸ .tail _ listed))
      · obtain ⟨io, listed, rfl⟩ := List.mem_map.mp reached
        have reaches : io.id = id' := cancel_own sound own running listed
        refine .inr (.inl ?_)
        rw [running, ← same, reaches]
        exact .head _
      · exact .inr (.inr (.inr others))
  | @complete index io packet found same aborted raw =>
      left
      rcases concluded with listed | listed | ⟨io', listed, rest⟩ | ⟨item, listed, job, rest⟩ | listed
      · exact .inl listed
      · exact .inr (.inl listed)
      · exact .inr (.inr (.inl ⟨io', List.mem_of_mem_eraseIdx listed, rest⟩))
      · rcases List.mem_append.mp listed with before | new
        · exact .inr (.inr (.inr (.inl ⟨item, before, job, rest⟩)))
        · cases List.mem_singleton.mp new
          rcases job with resolved | ⟨bytes, job⟩
          · exact absurd resolved raw
          · exact .inr (.inr (.inl ⟨io, List.mem_of_getElem? found, aborted bytes job, same ▸ rest⟩))
      · exact .inr (.inr (.inr (.inr listed)))
  | @work item rest job ops running evolves ready handled =>
      rcases concluded with listed | listed | others | ⟨item', listed, concluded, same⟩ | listed
      · exact .inl (.inl listed)
      · exact .inl (.inr (.inl listed))
      · exact .inl (.inr (.inr (.inl others)))
      · cases listed with
        | head =>
            rcases concluded with resolved | ⟨bytes, completed⟩
            · rcases ready resolved with known | aborted
              · have inside : item.id < ops.length :=
                  evolves.length ▸ sound.lt_created_of_carries (by simp [tokens, running])
                exact .inr (same ▸ known inside)
              · exact .inl (.inr (.inr (.inr (.inl ⟨item, running ▸ .head _, .inr aborted, same⟩))))
            · exact absurd completed (handled _ _)
        | tail _ later => exact .inl (.inr (.inr (.inr (.inl ⟨item', running ▸ .tail _ later, concluded, same⟩))))
      · exact .inl (.inr (.inr (.inr (.inr listed))))
  | postRest running =>
      left
      simp only [Concluded, running, List.mem_append, List.mem_cons] at concluded ⊢
      grind
  | resolveWork running =>
      left
      rw [resolve_eq] at concluded
      simp only [Concluded, running, List.mem_cons] at concluded ⊢
      grind
  | timeoutBack back =>
      simp only [Concluded, List.mem_append, List.mem_singleton] at concluded ⊢
      have known := known_timeout sound (listed_of_back back)
      grind
  | timeoutWaiting listed =>
      simp only [Concluded, List.mem_append, List.mem_singleton] at concluded ⊢
      have known := known_timeout sound listed
      grind
  | resolveTimedOut found =>
      left
      rw [resolve_eq] at concluded
      rcases concluded with listed | listed | others | others | listed
      · exact .inl listed
      · exact .inr (.inl listed)
      · exact .inr (.inr (.inl others))
      · exact .inr (.inr (.inr (.inl others)))
      · exact .inr (.inr (.inr (.inr (List.mem_of_mem_eraseIdx listed))))
  | acknowledgeBack found queue =>
      left
      simp only [Concluded, List.mem_append, List.mem_map] at concluded ⊢
      grind
  | invalidate evolves known =>
      rcases concluded with listed | listed | ⟨io, reached, -, same⟩ | others
      · exact .inl (.inl listed)
      · exact .inl (.inr (.inl listed))
      · obtain ⟨io, listed, rfl⟩ := List.mem_map.mp reached
        have back : f.side.backId = some id := (back_of_inFlight sound listed).trans (congrArg some same)
        obtain ⟨data, first, rfl⟩ := Option.map_eq_some_iff.mp back
        have inside := lt_of_listed sound (listed_of_back back)
        exact .inr (known data (List.mem_of_mem_head? first) (evolves.length ▸ inside))
      · exact .inl (.inr (.inr (.inr others)))

/-! ### What a side has done -/

theorem handed_move (handed : ∀ entry ∈ f.side.handed, entry.2 = some entry.1) (move : Move f g) :
    ∀ entry ∈ g.side.handed, entry.2 = some entry.1 := by
  cases move with
  | createFirst | timeoutBack => simpa [or_imp, forall_and] using handed
  | acknowledgeBack =>
      intro entry listed
      rcases List.mem_append.mp listed with earlier | new
      · exact handed entry earlier
      · obtain ⟨next, -, rfl⟩ := List.mem_map.mp new
        rfl
  | resolveTask | resolveWork | resolveTimedOut =>
      rw [resolve_eq]
      exact handed
  | _ => exact handed

/-- Invariant of one side. -/
structure Sound (f : WinPipeFlow) : Prop where
  tokens : f.tokens.Sound
  cancels : f.CancelsOwn
  known : ∀ id, Concluded f id → Known f.side.ops id
  handed : ∀ entry ∈ f.side.handed, entry.2 = some entry.1
  resolved : ∀ entry ∈ f.side.resolved, entry.2 ≠ .unknown
  cancelHits : ∀ entry ∈ f.side.cancelHits, entry.2 = entry.1

theorem resolved_move (sound : f.Sound) (move : Move f g) : ∀ entry ∈ g.side.resolved, entry.2 ≠ .unknown := by
  cases move with
  | resolveTask running => exact resolved_known (sound.known _ (.inl (running ▸ .head _))) sound.resolved
  | @resolveWork item rest running ready =>
      have concluded : Concluded f item.id :=
        .inr (.inr (.inr (.inl ⟨item, running ▸ .head _, .inl ready, rfl⟩)))
      exact resolved_known (sound.known _ concluded) sound.resolved
  | resolveTimedOut found =>
      have concluded : Concluded f _ := .inr (.inr (.inr (.inr (List.mem_of_getElem? found))))
      exact resolved_known (sound.known _ concluded) sound.resolved
  | _ => exact sound.resolved

theorem cancelHits_move (sound : f.Sound) (move : Move f g) : ∀ entry ∈ g.side.cancelHits, entry.2 = entry.1 := by
  cases move with
  | cancelIo running =>
      intro entry listed
      rcases List.mem_append.mp listed with earlier | new
      · exact sound.cancelHits entry earlier
      · obtain ⟨io, inFlight, rfl⟩ := List.mem_map.mp new
        exact cancel_own sound.tokens sound.cancels running inFlight
  | resolveTask | resolveWork | resolveTimedOut =>
      rw [resolve_eq]
      exact sound.cancelHits
  | _ => exact sound.cancelHits

theorem Move.sound (sound : f.Sound) (move : Move f g) : g.Sound where
  tokens := (move_tokens sound.tokens move).sound sound.tokens
  cancels := cancelsOwn_move sound.tokens sound.cancels move
  known id concluded := by
    rcases concluded_move sound.tokens sound.cancels move concluded with before | known
    · exact move.advances.known (sound.known id before)
    · exact known
  handed := handed_move sound.handed move
  resolved := resolved_move sound move
  cancelHits := cancelHits_move sound move

end WinPipeFlow

end CommonRpc
