/-
Module: CommonRpc.Proofs.WinPipeReadMoves
Purpose: The read side of an open `win_pipe_endpoint` as one reader of the pipe. At most one operation is worked
  on; its task, its I/O or its packet is the stage that it has reached. A read that completes inside `start` and
  one that completes through the worker loop are the same moves of the reader.
Trusted boundary: none
-/
import CommonRpc.Core.WinPipeReads
import CommonRpc.Proofs.WinPipeFlow

namespace CommonRpc

/-! ### The reader -/

/-- How far an operation has come. -/
inductive ReadStage where
  | start
  | issue
  | inFlight (aborted : Bool)
  | arrived (status : IoStatus) (bytes : Nat)
  | succeed
  | fail
  | resolve
deriving DecidableEq, Repr

structure ReadView where
  ops : List WinPipeOperation
  buffers : List (List ReadBuffer)
  working : Option (Nat × ReadStage)
  /-- An operation has failed, and the pipe is about to be closed. -/
  halted : Bool
  pipe : List Bytes
  sent : List Bytes
  received : List ReadPromise

namespace ReadView

def updateOp (v : ReadView) (id : Nat) (update : WinPipeOperation → WinPipeOperation) : ReadView :=
  { v with ops := v.ops.modify id update }

def reach (v : ReadView) (id : Nat) (stage : ReadStage) : ReadView := { v with working := some (id, stage) }

/-- What the worker loop does next with a packet that does not say `ERROR_MORE_DATA`. -/
def conclusion : IoStatus → ReadStage
  | .success => .succeed
  | .operationAborted => .resolve
  | .moreData | .other => .fail

/-- What the threads of the iocp owner and the I/O do for the operation that is worked on. -/
inductive Work (v : ReadView) : ReadView → Prop where
  | begins {id : Nat} {op : WinPipeOperation} (working : v.working = some (id, .start))
      (found : v.ops[id]? = some op) (isUnknown : op.result = .unknown) : Work v (v.reach id .issue)
  | skips {id : Nat} {op : WinPipeOperation} (working : v.working = some (id, .start))
      (found : v.ops[id]? = some op) (isKnown : op.result ≠ .unknown) : Work v (v.reach id .resolve)
  | issues {id : Nat} (working : v.working = some (id, .issue)) : Work v (v.reach id (.inFlight false))
  | cancels {id : Nat} {aborted : Bool} {op : WinPipeOperation} (working : v.working = some (id, .inFlight aborted))
      (found : v.ops[id]? = some op) (isKnown : op.result ≠ .unknown) (nothing : op.readBytes = 0) :
      Work v (v.reach id (.inFlight true))
  /-- A read takes what fits into the last buffer. -/
  | arrives {id : Nat} {aborted : Bool} {buffers : List ReadBuffer} {back : ReadBuffer} {read : PipeRead}
      (working : v.working = some (id, .inFlight aborted)) (found : v.buffers[id]? = some buffers)
      (last : buffers.getLast? = some back) (taken : readMessage v.pipe back.length = some read) :
      Work v { v with
        pipe := read.left
        buffers := v.buffers.modify id (fillLast read.bytes)
        working := some (id, .arrived (if read.moreData then .moreData else .success) read.bytes.length) }
  | aborts {id : Nat} (working : v.working = some (id, .inFlight true)) :
      Work v (v.reach id (.arrived .operationAborted 0))
  | concludes {id bytes : Nat} {status : IoStatus} (working : v.working = some (id, .arrived status bytes))
      (ended : status ≠ .moreData) : Work v ((v.updateOp id (.addReadBytes bytes)).reach id (conclusion status))
  /-- There is more of the message, and room for a chunk. -/
  | grows {id bytes : Nat} {op grown : WinPipeOperation} (working : v.working = some (id, .arrived .moreData bytes))
      (found : v.ops[id]? = some op) (added : (op.addReadBytes bytes).addBufferChunk = some grown) :
      Work v { v with
        ops := v.ops.set id grown
        buffers := v.buffers.modify id fun buffers => allocate buffers grown.buffers
        working := some (id, .issue) }
  | exceeds {id bytes : Nat} {op : WinPipeOperation} (working : v.working = some (id, .arrived .moreData bytes))
      (found : v.ops[id]? = some op) (full : (op.addReadBytes bytes).addBufferChunk = none) :
      Work v ((v.updateOp id (.addReadBytes bytes)).reach id .fail)
  | succeeds {id : Nat} (working : v.working = some (id, .succeed)) :
      Work v ((v.updateOp id .setSuccess).reach id .resolve)
  | fails {id : Nat} (working : v.working = some (id, .fail)) :
      Work v ((v.updateOp id .setFailedIfPossible).reach id .resolve)
  | resolves {id : Nat} {op : WinPipeOperation} {buffers : List ReadBuffer}
      (working : v.working = some (id, .resolve)) (found : v.ops[id]? = some op)
      (allocated : v.buffers[id]? = some buffers) :
      Work v { v with
        working := none
        halted := op.result = .failed
        received := v.received ++ [op.promised id buffers] }

/-- What the peer, the callers and the timers do. -/
inductive Call (v : ReadView) : ReadView → Prop where
  | sends (message : Bytes) :
      Call v { v with pipe := v.pipe ++ [message], sent := v.sent ++ [message] }
  | creates : Call v { v with ops := v.ops ++ [{}], buffers := v.buffers ++ [[newBuffer 8192]] }
  | starts {id : Nat} (free : v.working = none) (goesOn : v.halted = false) (created : id < v.ops.length)
      (waits : id ∉ v.received.map ReadPromise.id) : Call v (v.reach id .start)
  | timesOut (id : Nat) : Call v (v.updateOp id .setTimeoutIfPossible)
  /-- An operation that timed out while it was waiting is resolved by the timer. -/
  | resolvesAside {id : Nat} {op : WinPipeOperation} {buffers : List ReadBuffer} (found : v.ops[id]? = some op)
      (allocated : v.buffers[id]? = some buffers) (waits : id ∉ v.received.map ReadPromise.id)
      (idle : ∀ stage, v.working ≠ some (id, stage)) (isKnown : op.result ≠ .unknown) :
      Call v { v with received := v.received ++ [op.promised id buffers] }

/-- A few moves of the operation that is worked on. -/
abbrev Works : ReadView → ReadView → Prop := Relation.ReflTransGen Work

/-- A few moves of any kind. -/
abbrev Moves : ReadView → ReadView → Prop := Relation.ReflTransGen fun v w => Work v w ∨ Call v w

theorem Work.works {v w w' : ReadView} (work : Work v w) (same : w' = w) : Works v w' := same ▸ .single work

theorem Works.moves {v w : ReadView} (works : Works v w) : Moves v w :=
  works.lift id fun _ _ work => .inl work

theorem Call.moves {v w w' : ReadView} (call : Call v w) (same : w' = w) : Moves v w' := same ▸ .single (.inr call)

end ReadView

/-! ### Stages -/

def IocpTask.stage : IocpTask → Option (Nat × ReadStage)
  | .start id => some (id, .start)
  | .issue id => some (id, .issue)
  | .fail id => some (id, .fail)
  | .resolve id => some (id, .resolve)
  | .cancel _ => none

def PendingIo.stage (io : PendingIo) : Nat × ReadStage := (io.id, .inFlight io.aborted)

def WorkerJob.stage : WorkerJob → ReadStage
  | .completed status bytes => .arrived status bytes
  | .succeed => .succeed
  | .fail => .fail
  | .resolve => .resolve

def WorkerItem.stage (item : WorkerItem) : Nat × ReadStage := (item.id, item.job.stage)

theorem IocpTask.carrier_eq (task : IocpTask) : task.carrier = task.stage.map Prod.fst := by
  cases task with | _ => rfl

namespace WinPipeFlow

variable {f : WinPipeFlow}

def stages (f : WinPipeFlow) : List (Nat × ReadStage) :=
  f.side.tasks.filterMap IocpTask.stage ++ f.side.inFlight.map PendingIo.stage ++ f.work.map WorkerItem.stage

theorem map_stages (f : WinPipeFlow) : f.stages.map Prod.fst = f.tokens.carriers := by
  simp only [stages, tokens, List.map_append, List.map_map, List.map_filterMap]
  congr 2
  · exact List.filterMap_congr fun task _ => (task.carrier_eq).symm

/-- Only one operation is worked on. -/
theorem length_stages_le (sound : f.tokens.Sound) :
    (f.side.tasks.filterMap IocpTask.stage).length + f.side.inFlight.length + f.work.length ≤ 1 := by
  have short : f.stages.length ≤ 1 := by
    rw [← List.length_map Prod.fst, map_stages]
    exact sound.length_carriers_le
  simpa [stages, Nat.add_assoc] using short

theorem alone_of_task {task : IocpTask} {rest : List IocpTask} {stage : Nat × ReadStage} (sound : f.tokens.Sound)
    (running : f.side.tasks = task :: rest) (reached : task.stage = some stage) :
    rest.filterMap IocpTask.stage = [] ∧ f.side.inFlight = [] ∧ f.work = [] := by
  have short := length_stages_le sound
  rw [running, List.filterMap_cons_some reached, List.length_cons] at short
  exact ⟨List.eq_nil_of_length_eq_zero (by omega), List.eq_nil_of_length_eq_zero (by omega),
    List.eq_nil_of_length_eq_zero (by omega)⟩

theorem alone_of_io {index : Nat} {io : PendingIo} (sound : f.tokens.Sound)
    (found : f.side.inFlight[index]? = some io) :
    f.side.tasks.filterMap IocpTask.stage = [] ∧ f.side.inFlight = [io] ∧ index = 0 ∧ f.work = [] := by
  have short := length_stages_le sound
  have inside := Lib.Table.lt_of_entry found
  obtain ⟨only, inFlight⟩ := List.length_eq_one_iff.mp (show f.side.inFlight.length = 1 by omega)
  obtain rfl : index = 0 := by omega
  refine ⟨List.eq_nil_of_length_eq_zero (by omega), ?_, rfl, List.eq_nil_of_length_eq_zero (by omega)⟩
  rw [inFlight] at found ⊢
  cases found
  rfl

theorem alone_of_work {item : WorkerItem} {rest : List WorkerItem} (sound : f.tokens.Sound)
    (running : f.work = item :: rest) :
    f.side.tasks.filterMap IocpTask.stage = [] ∧ f.side.inFlight = [] ∧ rest = [] := by
  have short := length_stages_le sound
  rw [running, List.length_cons] at short
  exact ⟨List.eq_nil_of_length_eq_zero (by omega), List.eq_nil_of_length_eq_zero (by omega),
    List.eq_nil_of_length_eq_zero (by omega)⟩

theorem head_of_task {task : IocpTask} {rest : List IocpTask} {stage : Nat × ReadStage}
    (running : f.side.tasks = task :: rest) (reached : task.stage = some stage) :
    f.stages.head? = some stage := by
  simp [stages, running, List.filterMap_cons_some reached]

end WinPipeFlow

/-- The callback on the future of the back operation has not seen yet that it failed. -/
def WinPipeContinuation.halts (back : Option Nat) (continuation : WinPipeContinuation) : Bool :=
  !continuation.checked && continuation.result = .failed && back = some continuation.id

def WinPipeSide.halted (side : WinPipeSide) : Bool :=
  side.continuations.any fun continuation => continuation.halts side.backId

theorem WinPipeOperation.exchange_buffers (expected desired : WinPipeOperationRes) (op : WinPipeOperation) :
    (op.exchange expected desired).buffers = op.buffers := by
  unfold exchange
  split
  · rfl
  · rfl

theorem WinPipeOperation.setFailedIfPossible_buffers (op : WinPipeOperation) :
    op.setFailedIfPossible.buffers = op.buffers := by
  unfold setFailedIfPossible
  split
  · exact exchange_buffers ..
  · exact exchange_buffers ..

namespace WinPipeSide

variable {side : WinPipeSide} {id : Nat} {op : WinPipeOperation}

theorem halted_iff : side.halted = true ↔
    ∃ continuation ∈ side.continuations, continuation.checked = false ∧ continuation.result = .failed ∧
      side.backId = some continuation.id := by
  simp [halted, WinPipeContinuation.halts, and_assoc]

theorem resolve_of_entry (found : side.ops[id]? = some op) : side.resolve id = { side with
    resolved := side.resolved ++ [(id, op.result)]
    continuations := side.continuations ++ [{ id, result := op.result }] } := by
  simp [resolve, found]

theorem halted_congr {side' : WinPipeSide} (continuations : side'.continuations = side.continuations)
    (back : side'.backId = side.backId) : side'.halted = side.halted := by
  rw [halted, halted, continuations, back]

theorem startAsync_of_empty (empty : side.queue = []) (timerId : Option Nat) :
    ∃ timerIds handed, side.startAsync timerId = { side with
      ops := side.ops ++ [{}]
      timerIds
      queue := [{ id := side.ops.length, timerId }]
      tasks := side.tasks ++ [.start side.ops.length]
      handed } := by
  simp [startAsync, hand, backId, empty]

theorem startAsync_of_busy (busy : side.queue ≠ []) (timerId : Option Nat) :
    ∃ timerIds, side.startAsync timerId = { side with
      ops := side.ops ++ [{}]
      timerIds
      queue := side.queue ++ [{ id := side.ops.length, timerId }] } := by
  simp [startAsync, busy]

/-- `add_read_bytes` and `add_buffer_chunk` -/
theorem addBufferChunk_updateOp {update : WinPipeOperation → WinPipeOperation} (found : side.ops[id]? = some op) :
    (side.updateOp id update).addBufferChunk id =
      (update op).addBufferChunk.map fun grown => { side with ops := side.ops.set id grown } := by
  have set (grown : WinPipeOperation) : (side.ops.modify id update).set id grown = side.ops.set id grown := by
    apply List.ext_getElem?
    intro i
    grind
  simp [addBufferChunk, updateOp, found, set]

theorem halted_resolve (found : side.ops[id]? = some op) : (side.resolve id).halted =
    (side.halted || WinPipeContinuation.halts side.backId { id, result := op.result }) := by
  rw [resolve_of_entry found]
  change List.any (side.continuations ++ [_]) (WinPipeContinuation.halts side.backId) = _
  rw [List.any_append, List.any_cons, List.any_nil, Bool.or_false]
  rfl

end WinPipeSide

/-- While an operation is worked on, none has failed. -/
theorem WinPipeFlow.halted_eq_false {f : WinPipeFlow} (sound : f.tokens.Sound) (busy : f.tokens.carriers ≠ []) :
    f.side.halted = false := by
  rw [Bool.eq_false_iff]
  intro halted
  obtain ⟨continuation, listed, -, -, back⟩ := WinPipeSide.halted_iff.mp halted
  rw [← head_tokens] at back
  exact busy (sound.carriers_eq_nil back (sound.settled_of_pending (List.mem_map_of_mem listed)))

/-! ### Buffers -/

namespace ReadView

/-- The buffers of the operations have the sizes that the endpoint knows. -/
def Sized (buffers : List (List ReadBuffer)) (ops : List WinPipeOperation) : Prop :=
  buffers.map (fun buffers => buffers.map List.length) = ops.map WinPipeOperation.buffers

section Sized

variable {buffers : List (List ReadBuffer)} {ops : List WinPipeOperation} {id : Nat} {op op' : WinPipeOperation}

theorem allocate_of_sized {own : List ReadBuffer} {sizes : List Nat} (sized : own.map List.length = sizes) :
    allocate own sizes = own := by
  subst sized
  simp [allocate]

theorem Sized.length (sized : Sized buffers ops) : buffers.length = ops.length := by
  have lengths := congrArg List.length sized
  simpa using lengths

theorem Sized.of_entry (sized : Sized buffers ops) (found : ops[id]? = some op) :
    ∃ own, buffers[id]? = some own ∧ own.map List.length = op.buffers := by
  have entry := congrArg (·[id]?) sized
  simpa [found] using entry

theorem Sized.of_own {own : List ReadBuffer} (sized : Sized buffers ops) (entry : buffers[id]? = some own) :
    ∃ op, ops[id]? = some op ∧ own.map List.length = op.buffers := by
  have found := congrArg (·[id]?) sized.symm
  obtain ⟨op, found, sizes⟩ : ∃ op, ops[id]? = some op ∧ op.buffers = own.map List.length := by
    simpa [entry] using found
  exact ⟨op, found, sizes.symm⟩

theorem allocateAll_eq (sized : Sized buffers ops) : allocateAll buffers ops = buffers := by
  apply List.ext_getElem?
  intro id
  rw [allocateAll, List.getElem?_mapIdx]
  cases found : ops[id]? with
  | none =>
      rw [List.getElem?_eq_none_iff] at found
      exact (List.getElem?_eq_none (sized.length ▸ found)).symm
  | some op =>
      obtain ⟨own, entry, sizes⟩ := sized.of_entry found
      simp [entry, allocate_of_sized sizes]

/-- An update of an operation that does not push buffers. -/
theorem Sized.modify (sized : Sized buffers ops) {update : WinPipeOperation → WinPipeOperation}
    (same : ∀ op, (update op).buffers = op.buffers) : Sized buffers (ops.modify id update) := by
  unfold Sized
  rw [sized]
  apply List.ext_getElem?
  intro i
  simp only [List.getElem?_map, List.getElem?_modify]
  cases ops[i]? with
  | none => rfl
  | some op => grind

theorem allocateAll_append (sized : Sized buffers ops) {new : WinPipeOperation} :
    allocateAll buffers (ops ++ [new]) = buffers ++ [allocate [] new.buffers] := by
  have old := allocateAll_eq sized
  have beyond : buffers[ops.length]? = none := List.getElem?_eq_none (by rw [sized.length])
  rw [allocateAll] at old
  rw [allocateAll, List.mapIdx_concat, old, beyond]
  rfl

theorem allocateAll_set (sized : Sized buffers ops) (found : ops[id]? = some op) :
    allocateAll buffers (ops.set id op') = buffers.modify id fun own => allocate own op'.buffers := by
  apply List.ext_getElem?
  intro i
  rw [allocateAll, List.getElem?_mapIdx, List.getElem?_modify]
  by_cases here : id = i
  · subst here
    obtain ⟨own, entry, -⟩ := sized.of_entry found
    simp [Lib.Table.set_self found, entry]
  · have old := congrArg (·[i]?) (allocateAll_eq sized)
    simp only [allocateAll, List.getElem?_mapIdx] at old
    simp [List.getElem?_set_ne here, here, old]

theorem Sized.concat {own : List ReadBuffer} (sized : Sized buffers ops)
    (sizes : own.map List.length = op.buffers) :
    Sized (buffers ++ [own]) (ops ++ [op]) := by
  unfold Sized at sized ⊢
  rw [List.map_append, List.map_append, sized, List.map_singleton, List.map_singleton, sizes]

/-- An operation pushes a buffer. -/
theorem Sized.push {size : Nat} (sized : Sized buffers ops) (found : ops[id]? = some op)
    (pushed : op'.buffers = op.buffers ++ [size]) :
    Sized (buffers.modify id fun own => allocate own op'.buffers) (ops.set id op') := by
  obtain ⟨own, entry, sizes⟩ := sized.of_entry found
  have own' : (allocate own op'.buffers).map List.length = op'.buffers := by
    have length : own.length = op.buffers.length := by rw [← sizes, List.length_map]
    simp [pushed, allocate, length, sizes, newBuffer]
  unfold Sized at sized ⊢
  rw [List.map_set, ← sized]
  apply List.ext_getElem?
  intro i
  by_cases here : id = i
  · subst here
    have inside : id < (buffers.map fun own => own.map List.length).length := by
      rw [List.length_map]
      exact Lib.Table.lt_of_entry entry
    rw [List.getElem?_set_self inside, List.getElem?_map, List.getElem?_modify, entry]
    simp [own']
  · simp [here]

/-- A read fits into its buffer and fills it if there is more. -/
theorem length_of_readMessage {pipe : List Bytes} {size : Nat} {read : PipeRead}
    (taken : readMessage pipe size = some read) :
    read.bytes.length ≤ size ∧ (read.moreData = true → read.bytes.length = size) := by
  unfold readMessage at taken
  split at taken
  next => cases taken
  next message rest =>
    split at taken
    next more =>
      cases taken
      simp only [List.length_take]
      omega
    next fits =>
      cases taken
      exact ⟨Nat.le_of_not_lt fits, nofun⟩

theorem fillLast_eq {own : List ReadBuffer} {back : ReadBuffer} (last : own.getLast? = some back) (bytes : Bytes) :
    fillLast bytes own = own.dropLast ++ [back.fill bytes] := by
  simp [fillLast, last]

theorem length_fill {back : ReadBuffer} {bytes : Bytes} (fits : bytes.length ≤ back.length) :
    (back.fill bytes).length = back.length := by
  simp only [ReadBuffer.fill, List.length_append, List.length_map, List.length_drop]
  omega

theorem map_length_fillLast {own : List ReadBuffer} {back : ReadBuffer} {bytes : Bytes}
    (last : own.getLast? = some back) (fits : bytes.length ≤ back.length) :
    (fillLast bytes own).map List.length = own.map List.length := by
  have whole : own.dropLast ++ [back] = own := List.dropLast_append_getLast? back last
  rw [fillLast_eq last]
  conv_rhs => rw [← whole]
  simp [length_fill fits]

theorem Sized.fillLast {own : List ReadBuffer} {back : ReadBuffer} {bytes : Bytes} (sized : Sized buffers ops)
    (entry : buffers[id]? = some own) (last : own.getLast? = some back) (fits : bytes.length ≤ back.length) :
    Sized (buffers.modify id (CommonRpc.fillLast bytes)) ops := by
  unfold Sized at sized ⊢
  rw [← sized]
  apply List.ext_getElem?
  intro i
  by_cases here : id = i
  · subst here
    simp [entry, map_length_fillLast last fits]
  · simp [here]

end Sized

end ReadView

end CommonRpc
