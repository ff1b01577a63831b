/-
Module: CommonRpc.Proofs.WinPipeMoves
Purpose: What can happen to one side of a `win_pipe_endpoint`. A side with the items of the worker loop that are
  for it is a flow; every step of the endpoint is a few moves of the flow of each side (`step_moves`). The moves
  say what the proofs need to know of a step: where a task or a packet goes, and that results only move forward.
Trusted boundary: none
-/
import CommonRpc.Core.WinPipeEndpoint
import Mathlib.Logic.Relation

namespace CommonRpc

/-! ### Results -/

/-- How the result of an operation may change. -/
inductive WinPipeOperationRes.Moves : WinPipeOperationRes → WinPipeOperationRes → Prop where
  | stays (r : WinPipeOperationRes) : Moves r r
  | decided (r : WinPipeOperationRes) : Moves .unknown r
  | failed : Moves .timeout .failed
  | success (r : WinPipeOperationRes) : Moves r .success

theorem WinPipeOperationRes.Moves.known {r r' : WinPipeOperationRes} (moves : Moves r r') (known : r ≠ .unknown) :
    r' ≠ .unknown := by
  cases moves with
  | stays => exact known
  | decided => exact absurd rfl known
  | failed => exact nofun
  | success => exact nofun

theorem WinPipeOperationRes.Moves.trans {r r' r'' : WinPipeOperationRes} (first : Moves r r')
    (second : Moves r' r'') : Moves r r'' := by
  cases second with
  | stays => exact first
  | success => exact .success _
  | decided =>
      cases first with
      | stays => exact .decided _
      | decided => exact .decided _
  | failed =>
      cases first with
      | stays => exact .failed
      | decided => exact .decided _

namespace WinPipeOperation

open WinPipeOperationRes

theorem exchange_moves {expected desired : WinPipeOperationRes} (moves : Moves expected desired)
    (op : WinPipeOperation) : Moves op.result (op.exchange expected desired).result := by
  unfold exchange
  split
  next same => exact same ▸ moves
  next => exact .stays _

theorem setFailedIfPossible_moves (op : WinPipeOperation) : Moves op.result op.setFailedIfPossible.result := by
  unfold setFailedIfPossible
  split
  · exact exchange_moves (.decided _) op
  · exact exchange_moves .failed op

theorem exchange_known {desired : WinPipeOperationRes} (known : desired ≠ .unknown) (op : WinPipeOperation) :
    (op.exchange .unknown desired).result ≠ .unknown := by
  unfold exchange
  split
  · exact known
  · assumption

theorem setFailedIfPossible_known (op : WinPipeOperation) : op.setFailedIfPossible.result ≠ .unknown := by
  unfold setFailedIfPossible
  split
  next isUnknown => exact exchange_known (by decide) op
  next notUnknown =>
    unfold exchange
    split
    · exact nofun
    · exact notUnknown

theorem addBufferChunk_result {op op' : WinPipeOperation} (added : op.addBufferChunk = some op') :
    op'.result = op.result := by
  unfold addBufferChunk at added
  simp only [Option.ite_none_left_eq_some, Option.some.injEq] at added
  rw [← added.2]

end WinPipeOperation

namespace WinPipeSide

open WinPipeOperationRes

/-- The operations stay, and their results move forward. -/
structure Evolves (ops ops' : List WinPipeOperation) : Prop where
  length : ops'.length = ops.length
  results : ∀ (id : Nat) (op op' : WinPipeOperation), ops[id]? = some op → ops'[id]? = some op' →
    Moves op.result op'.result

/-- The operation has a result. -/
def Known (ops : List WinPipeOperation) (id : Nat) : Prop := ∃ op, ops[id]? = some op ∧ op.result ≠ .unknown

theorem Evolves.refl (ops : List WinPipeOperation) : Evolves ops ops := by
  refine ⟨rfl, ?_⟩
  intro id op op' before after
  rw [before] at after
  cases after
  exact .stays _

theorem Evolves.trans {ops ops' ops'' : List WinPipeOperation} (first : Evolves ops ops')
    (second : Evolves ops' ops'') : Evolves ops ops'' := by
  refine ⟨second.length.trans first.length, ?_⟩
  intro id op op'' before after
  have inside : id < ops'.length := second.length ▸ (List.getElem?_eq_some_iff.mp after).1
  have between : ops'[id]? = some ops'[id] := List.getElem?_eq_getElem inside
  exact (first.results id op _ before between).trans (second.results id _ op'' between after)

/-- Every operation stays, and its result moves forward; there may be new ones. -/
def Advances (ops ops' : List WinPipeOperation) : Prop :=
  ∀ (id : Nat) (op : WinPipeOperation), ops[id]? = some op →
    ∃ op', ops'[id]? = some op' ∧ Moves op.result op'.result

theorem Advances.refl (ops : List WinPipeOperation) : Advances ops ops :=
  fun _ op found => ⟨op, found, .stays _⟩

theorem Advances.trans {ops ops' ops'' : List WinPipeOperation} (first : Advances ops ops')
    (second : Advances ops' ops'') : Advances ops ops'' := by
  intro id op found
  obtain ⟨op', found', moves⟩ := first id op found
  obtain ⟨op'', found'', moves'⟩ := second id op' found'
  exact ⟨op'', found'', moves.trans moves'⟩

theorem Advances.known {ops ops' : List WinPipeOperation} (advances : Advances ops ops') {id : Nat}
    (known : Known ops id) : Known ops' id := by
  obtain ⟨op, found, decided⟩ := known
  obtain ⟨op', found', moves⟩ := advances id op found
  exact ⟨op', found', moves.known decided⟩

theorem advances_append (ops new : List WinPipeOperation) : Advances ops (ops ++ new) := by
  intro id op found
  have inside := (List.getElem?_eq_some_iff.mp found).1
  exact ⟨op, by rw [List.getElem?_append_left inside, found], .stays _⟩

theorem Evolves.advances {ops ops' : List WinPipeOperation} (evolves : Evolves ops ops') : Advances ops ops' := by
  intro id op found
  have inside : id < ops'.length := evolves.length ▸ (List.getElem?_eq_some_iff.mp found).1
  have found' : ops'[id]? = some ops'[id] := List.getElem?_eq_getElem inside
  exact ⟨_, found', evolves.results id op _ found found'⟩

theorem evolves_modify (ops : List WinPipeOperation) (id : Nat) {update : WinPipeOperation → WinPipeOperation}
    (moves : ∀ op, Moves op.result (update op).result) : Evolves ops (ops.modify id update) := by
  refine ⟨List.length_modify .., ?_⟩
  intro i op op' before after
  rw [List.getElem?_modify, before] at after
  cases after
  dsimp only
  split
  · exact moves op
  · exact .stays _

theorem known_modify {ops : List WinPipeOperation} {id : Nat} {update : WinPipeOperation → WinPipeOperation}
    (known : ∀ op, (update op).result ≠ .unknown) (inside : id < ops.length) :
    Known (ops.modify id update) id := by
  refine ⟨update ops[id], ?_, known _⟩
  rw [List.getElem?_modify, List.getElem?_eq_getElem inside]
  simp

/-- An operation is replaced without its result being changed. -/
theorem evolves_set {ops : List WinPipeOperation} {id : Nat} {op new : WinPipeOperation}
    (found : ops[id]? = some op) (same : new.result = op.result) : Evolves ops (ops.set id new) := by
  refine ⟨List.length_set .., ?_⟩
  intro i old op' before after
  by_cases here : i = id
  · subst here
    rw [List.getElem?_set_self (List.getElem?_eq_some_iff.mp found).1] at after
    rw [found] at before
    cases after
    cases before
    rw [same]
    exact .stays _
  · rw [List.getElem?_set_ne (Ne.symm here), before] at after
    cases after
    exact .stays _

/-- An invalidation changes results and nothing else on the list. -/
theorem invalidate_eq (side : WinPipeSide) (setResult : WinPipeOperation → WinPipeOperation) :
    side.invalidate setResult = { side with
      ops := side.queue.foldl (fun ops data => ops.modify data.id setResult) side.ops
      inFlight := side.inFlight.map fun io => { io with aborted := true } } := by
  have updated (queue : List WinPipeOpData) (side : WinPipeSide) :
      queue.foldl (fun side data => side.updateOp data.id setResult) side =
        { side with ops := queue.foldl (fun ops data => ops.modify data.id setResult) side.ops } := by
    induction queue generalizing side with
    | nil => rfl
    | cons data rest ih => exact ih _
  rw [invalidate, updated]

theorem evolves_foldl_modify {setResult : WinPipeOperation → WinPipeOperation}
    (moves : ∀ op, Moves op.result (setResult op).result) (queue : List WinPipeOpData)
    (ops : List WinPipeOperation) :
    Evolves ops (queue.foldl (fun ops data => ops.modify data.id setResult) ops) := by
  induction queue generalizing ops with
  | nil => exact .refl ops
  | cons data rest ih => exact (evolves_modify ops data.id moves).trans (ih _)

theorem known_foldl_modify {setResult : WinPipeOperation → WinPipeOperation}
    (moves : ∀ op, Moves op.result (setResult op).result) (known : ∀ op, (setResult op).result ≠ .unknown)
    {queue : List WinPipeOpData} {data : WinPipeOpData} (listed : data ∈ queue) {ops : List WinPipeOperation}
    (inside : data.id < ops.length) :
    Known (queue.foldl (fun ops data => ops.modify data.id setResult) ops) data.id := by
  induction queue generalizing ops with
  | nil => cases listed
  | cons first rest ih =>
      cases listed with
      | head => exact (evolves_foldl_modify moves rest _).advances.known (known_modify known inside)
      | tail _ later => exact ih later (by rwa [List.length_modify])

/-- `resolve` sets the promise and leaves the rest alone. -/
theorem resolve_eq (side : WinPipeSide) (id : Nat) : side.resolve id = { side with
    resolved := (side.resolve id).resolved
    continuations := (side.resolve id).continuations } := by
  unfold resolve
  split
  · rfl
  · rfl

/-- The promise gets the result that the operation has. -/
theorem resolved_known {side : WinPipeSide} {id : Nat} (known : Known side.ops id)
    (before : ∀ entry ∈ side.resolved, entry.2 ≠ .unknown) :
    ∀ entry ∈ (side.resolve id).resolved, entry.2 ≠ .unknown := by
  obtain ⟨op, found, decided⟩ := known
  intro entry listed
  rw [resolve, found] at listed
  rcases List.mem_append.mp listed with earlier | new
  · exact before entry earlier
  · cases List.mem_singleton.mp new
    exact decided

theorem addBufferChunk_evolves {side side' : WinPipeSide} {id : Nat}
    (added : side.addBufferChunk id = some side') :
    ∃ ops, side' = { side with ops } ∧ Evolves side.ops ops := by
  obtain ⟨op', chunk, rfl⟩ := Option.map_eq_some_iff.mp added
  obtain ⟨op, found, chunk⟩ := Option.bind_eq_some_iff.mp chunk
  exact ⟨_, rfl, evolves_set found (WinPipeOperation.addBufferChunk_result chunk)⟩

end WinPipeSide

/-! ### Moves of one side -/

/-- Whose operation a task works on; `CancelIo` does not work on one. -/
def IocpTask.carrier : IocpTask → Option Nat
  | .start id | .issue id | .fail id | .resolve id => some id
  | .cancel _ => none

/-- A side and the items of the worker loop that are for it. -/
structure WinPipeFlow where
  side : WinPipeSide
  work : List WorkerItem

namespace WinPipeFlow

open WinPipeSide WinPipeOperationRes

/-- What can happen to a side. -/
inductive Move (f : WinPipeFlow) : WinPipeFlow → Prop where
  | refuse (refused : Nat) : Move f { f with side := { f.side with refused } }
  /-- An operation that finds the list empty is handed to the iocp owner at once. -/
  | createFirst (timerId : Option Nat) (empty : f.side.queue = []) :
      Move f { f with side := { f.side with
        ops := f.side.ops ++ [{}]
        timerIds := f.side.timerIds ++ [timerId]
        queue := [{ id := f.side.ops.length, timerId }]
        tasks := f.side.tasks ++ [.start f.side.ops.length]
        handed := f.side.handed ++ [(f.side.ops.length, some f.side.ops.length)] } }
  | createLater (timerId : Option Nat) (busy : f.side.queue ≠ []) :
      Move f { f with side := { f.side with
        ops := f.side.ops ++ [{}]
        timerIds := f.side.timerIds ++ [timerId]
        queue := f.side.queue ++ [{ id := f.side.ops.length, timerId }] } }
  /-- The iocp thread goes on with the operation of its task. -/
  | advance {task task' : IocpTask} {rest : List IocpTask} {ops : List WinPipeOperation} {id : Nat}
      (running : f.side.tasks = task :: rest) (carrier : task.carrier = some id)
      (carrier' : task'.carrier = some id) (evolves : Evolves f.side.ops ops)
      (ready : task' = .resolve id → id < ops.length → Known ops id) :
      Move f { f with side := { f.side with ops, tasks := task' :: rest } }
  /-- I/O is issued. -/
  | issue {rest : List IocpTask} {id : Nat} (running : f.side.tasks = .issue id :: rest) :
      Move f { f with side := { f.side with tasks := rest, inFlight := f.side.inFlight ++ [{ id }] } }
  | resolveTask {rest : List IocpTask} {id : Nat} (running : f.side.tasks = .resolve id :: rest) :
      Move f { f with side := { f.side with tasks := rest }.resolve id }
  | skipCancel {rest : List IocpTask} {id : Nat} (running : f.side.tasks = .cancel id :: rest) :
      Move f { f with side := { f.side with tasks := rest } }
  | cancelIo {rest : List IocpTask} {id : Nat} (running : f.side.tasks = .cancel id :: rest) :
      Move f { f with side := { f.side with tasks := rest }.cancelIo id }
  /-- I/O completes. -/
  | complete {index : Nat} {io : PendingIo} {packet : WorkerItem} (found : f.side.inFlight[index]? = some io)
      (own : packet.id = io.id)
      (aborted : ∀ bytes, packet.job = .completed .operationAborted bytes → io.aborted = true)
      (raw : packet.job ≠ .resolve) :
      Move f ⟨{ f.side with inFlight := f.side.inFlight.eraseIdx index }, f.work ++ [packet]⟩
  /-- The worker loop goes on with the operation of its packet. -/
  | work {item : WorkerItem} {rest : List WorkerItem} {job : WorkerJob} {ops : List WinPipeOperation}
      (running : f.work = item :: rest) (evolves : Evolves f.side.ops ops)
      (ready : job = .resolve →
        (item.id < ops.length → Known ops item.id) ∨ ∃ bytes, item.job = .completed .operationAborted bytes)
      (handled : ∀ status bytes, job ≠ .completed status bytes) :
      Move f ⟨{ f.side with ops }, { item with job } :: rest⟩
  /-- The worker loop posts the rest of a read. -/
  | postRest {item : WorkerItem} {rest : List WorkerItem} {ops : List WinPipeOperation}
      (running : f.work = item :: rest) (evolves : Evolves f.side.ops ops) :
      Move f ⟨{ f.side with ops, tasks := f.side.tasks ++ [.issue item.id] }, rest⟩
  | resolveWork {item : WorkerItem} {rest : List WorkerItem} (running : f.work = item :: rest)
      (ready : item.job = .resolve) : Move f ⟨f.side.resolve item.id, rest⟩
  /-- The back operation times out. -/
  | timeoutBack {id : Nat} (back : f.side.backId = some id) :
      Move f { f with side := { f.side with
        ops := f.side.ops.modify id .setTimeoutIfPossible
        tasks := f.side.tasks ++ [.cancel id]
        handed := f.side.handed ++ [(id, some id)] } }
  /-- An operation times out that waits behind the back. -/
  | timeoutWaiting {id : Nat} (listed : id ∈ f.side.queue.map WinPipeOpData.id)
      (waits : f.side.backId ≠ some id) :
      Move f { f with side := { f.side with
        ops := f.side.ops.modify id .setTimeoutIfPossible
        queue := f.side.queue.eraseP fun data => data.id = id
        resolving := f.side.resolving ++ [id] } }
  | resolveTimedOut {index id : Nat} (found : f.side.resolving[index]? = some id) :
      Move f { f with side := { f.side with resolving := f.side.resolving.eraseIdx index }.resolve id }
  | check {index : Nat} {continuation : WinPipeContinuation}
      (found : f.side.continuations[index]? = some continuation) :
      Move f { f with side := { f.side with
        continuations := f.side.continuations.set index { continuation with checked := true } } }
  /-- The back operation leaves the list, and the next one is handed to the iocp owner. -/
  | acknowledgeBack {index : Nat} {continuation : WinPipeContinuation} {back : WinPipeOpData}
      {rest : List WinPipeOpData} (found : f.side.continuations[index]? = some continuation)
      (queue : f.side.queue = back :: rest) (own : back.id = continuation.id) :
      Move f { f with side := { f.side with
        queue := rest
        continuations := f.side.continuations.eraseIdx index
        tasks := f.side.tasks ++ rest.head?.toList.map fun next => .start next.id
        handed := f.side.handed ++ rest.head?.toList.map fun next => (next.id, some next.id) } }
  | acknowledgeOther {index : Nat} {continuation : WinPipeContinuation}
      (found : f.side.continuations[index]? = some continuation)
      (other : f.side.backId ≠ some continuation.id) :
      Move f { f with side := { f.side with continuations := f.side.continuations.eraseIdx index } }
  | invalidate {ops : List WinPipeOperation} (evolves : Evolves f.side.ops ops)
      (known : ∀ data ∈ f.side.queue, data.id < ops.length → Known ops data.id) :
      Move f { f with side := { f.side with
        ops
        inFlight := f.side.inFlight.map fun io => { io with aborted := true } } }

theorem Move.advances {f g : WinPipeFlow} (move : Move f g) : Advances f.side.ops g.side.ops := by
  cases move with
  | createFirst => exact advances_append _ _
  | createLater => exact advances_append _ _
  | advance _ _ _ evolves => exact evolves.advances
  | work _ evolves => exact evolves.advances
  | postRest _ evolves => exact evolves.advances
  | invalidate evolves => exact evolves.advances
  | timeoutBack => exact (evolves_modify _ _ (WinPipeOperation.exchange_moves (.decided _))).advances
  | timeoutWaiting => exact (evolves_modify _ _ (WinPipeOperation.exchange_moves (.decided _))).advances
  | resolveTask | resolveWork | resolveTimedOut =>
      rw [resolve_eq]
      exact .refl _
  | refuse | issue | skipCancel | cancelIo | complete | check | acknowledgeBack | acknowledgeOther =>
      exact .refl _

end WinPipeFlow

namespace WinPipeEndpoint

open WinPipeFlow WinPipeSide

variable {s s' : WinPipeEndpoint} {tag : PipeSide}

def flow (s : WinPipeEndpoint) (tag : PipeSide) : WinPipeFlow :=
  ⟨s.side tag, s.worker.filter fun item => item.tag = tag⟩

/-- A few moves of one side. -/
abbrev Moves : WinPipeFlow → WinPipeFlow → Prop := Relation.ReflTransGen Move

@[simp] theorem side_setSide (s : WinPipeEndpoint) (tag tag' : PipeSide) (side : WinPipeSide) :
    (s.setSide tag side).side tag' = if tag' = tag then side else s.side tag' := by
  cases tag with
  | write => cases tag' with | _ => rfl
  | read => cases tag' with | _ => rfl

@[simp] theorem worker_setSide (s : WinPipeEndpoint) (tag : PipeSide) (side : WinPipeSide) :
    (s.setSide tag side).worker = s.worker := by
  cases tag with | _ => rfl

theorem flow_setSide (s : WinPipeEndpoint) (tag tag' : PipeSide) (side : WinPipeSide) :
    (s.setSide tag side).flow tag' = if tag' = tag then { s.flow tag' with side } else s.flow tag' := by
  simp only [flow, side_setSide, worker_setSide]
  split
  · rfl
  · rfl

/-- A move of one side leaves the other alone. The timers do not matter. -/
theorem moves_setSide {side : WinPipeSide} (timer : MultipleTimer (PipeSide × Nat))
    (moves : Moves (s.flow tag) { s.flow tag with side }) (tag' : PipeSide) :
    Moves (s.flow tag') (({ s with timer }.setSide tag side).flow tag') := by
  rw [flow_setSide]
  split
  next here =>
    subst here
    exact moves
  next => exact .refl

/-- The worker loop gets or gives back items of one side. -/
theorem moves_setWorker {side : WinPipeSide} {worker work : List WorkerItem}
    (others : ∀ tag' ≠ tag,
      (worker.filter fun item => item.tag = tag') = s.worker.filter fun item => item.tag = tag')
    (own : (worker.filter fun item => item.tag = tag) = work) (moves : Moves (s.flow tag) ⟨side, work⟩)
    (tag' : PipeSide) : Moves (s.flow tag') (({ s with worker }.setSide tag side).flow tag') := by
  rw [flow_setSide]
  split
  next here =>
    subst here own
    exact moves
  next other =>
    have same : { s with worker }.flow tag' = s.flow tag' := congrArg (WinPipeFlow.mk _) (others tag' other)
    rw [same]

theorem runTask_move {f : WinPipeFlow} {side : WinPipeSide} {isOpen : Bool}
    (ran : f.side.runTask tag isOpen = some side) : Move f { f with side } := by
  unfold runTask at ran
  split at ran
  next => cases ran
  next => cases ran
  next id rest running =>
    split at ran
    next => cases ran
    next op found =>
      split at ran
      next isUnknown =>
        cases ran
        exact .advance running rfl rfl (.refl _) nofun
      next isKnown =>
        cases ran
        exact .advance running rfl rfl (.refl _) fun _ _ => ⟨op, found, isKnown⟩
  next id rest running =>
    cases ran
    exact .advance running rfl rfl (evolves_modify _ id WinPipeOperation.setFailedIfPossible_moves)
      fun _ inside => known_modify WinPipeOperation.setFailedIfPossible_known (List.length_modify .. ▸ inside)
  next id rest running =>
    cases ran
    exact .resolveTask running
  next id rest running =>
    cases ran
    unfold cancel
    split
    · split
      · exact .cancelIo running
      · exact .skipCancel running
    · split
      · exact .cancelIo running
      · exact .skipCancel running
    · exact .skipCancel running

theorem ioCall_move {f : WinPipeFlow} {side : WinPipeSide} {isOpen : Bool} {call : IoCall}
    (called : f.side.ioCall tag isOpen call = some side) : Move f { f with side } := by
  unfold ioCall at called
  split at called
  next id rest running =>
    cases call with
    | pending =>
        obtain ⟨-, done⟩ := Option.ite_none_right_eq_some.mp called
        cases done
        exact .issue running
    | moreData =>
        have counted : Evolves f.side.ops
            (f.side.ops.modify id fun op => op.addReadBytes (op.buffers.getLast?.getD 0)) :=
          evolves_modify _ id fun op => .stays _
        simp only at called
        split at called
        next =>
          split at called
          next side' added =>
            cases called
            obtain ⟨ops, rfl, evolves⟩ := addBufferChunk_evolves added
            have move : Move f { f with side := { f.side with ops, tasks := .issue id :: rest } } :=
              .advance running rfl rfl (counted.trans evolves) nofun
            rwa [← running] at move
          next full =>
            cases called
            exact .advance running rfl rfl counted nofun
        next => cases called
    | error =>
        cases called
        exact .advance running rfl rfl (.refl _) nofun
  next => cases called

/-- The worker loop does one thing with the item, and the iocp thread gets what it has posted. -/
theorem runWorker_move {item : WorkerItem} {rest : List WorkerItem} {f : WinPipeFlow}
    (running : f.work = item :: rest) : Move f ⟨(f.side.runWorker tag item.id item.job).1,
      ((f.side.runWorker tag item.id item.job).2.map fun job => { item with job }).toList ++ rest⟩ := by
  cases job : item.job with
  | completed status bytes =>
      cases tag with
      | write =>
          cases status with
          | success => exact .work running (.refl _) nofun nofun
          | moreData => exact .work running (.refl _) nofun nofun
          | operationAborted => exact .work running (.refl _) (fun _ => .inr ⟨bytes, job⟩) nofun
          | other => exact .work running (.refl _) nofun nofun
      | read =>
          have counted : Evolves f.side.ops (f.side.ops.modify item.id (.addReadBytes bytes)) :=
            evolves_modify _ _ fun op => .stays _
          cases status with
          | success => exact .work running counted nofun nofun
          | moreData =>
              cases added : (f.side.updateOp item.id (.addReadBytes bytes)).addBufferChunk item.id with
              | none =>
                  simp only [WinPipeSide.runWorker, readCompleted, added]
                  exact .work running counted nofun nofun
              | some side =>
                  obtain ⟨ops, rfl, evolves⟩ := addBufferChunk_evolves added
                  simp only [WinPipeSide.runWorker, readCompleted, added]
                  exact .postRest running (counted.trans evolves)
          | operationAborted => exact .work running counted (fun _ => .inr ⟨bytes, job⟩) nofun
          | other => exact .work running counted nofun nofun
  | succeed =>
      refine .work running (evolves_modify _ _ fun op => .success _) (fun _ => .inl fun inside => ?_) nofun
      exact known_modify (fun op => nofun) (List.length_modify .. ▸ inside)
  | fail =>
      refine .work running (evolves_modify _ _ WinPipeOperation.setFailedIfPossible_moves)
        (fun _ => .inl fun inside => ?_) nofun
      exact known_modify WinPipeOperation.setFailedIfPossible_known (List.length_modify .. ▸ inside)
  | resolve => exact .resolveWork running job

theorem startAsync_move (f : WinPipeFlow) (timerId : Option Nat) :
    Move f { f with side := f.side.startAsync timerId } := by
  by_cases empty : f.side.queue = []
  · have move := Move.createFirst timerId empty
    simpa [WinPipeSide.startAsync, hand, backId, empty] using move
  · have move := Move.createLater timerId empty
    simpa [WinPipeSide.startAsync, empty] using move

theorem cancelOpByTimeout_moves (f : WinPipeFlow) (id : Nat) :
    Moves f { f with side := f.side.cancelOpByTimeout id } := by
  unfold cancelOpByTimeout
  split
  next listed =>
    dsimp only
    split
    next back =>
      rw [hand, back]
      exact .single (.timeoutBack back)
    next waits => exact .single (.timeoutWaiting (List.contains_iff_mem.mp listed) waits)
  next => exact .refl

theorem completeOp_move {f : WinPipeFlow} {index : Nat} {continuation : WinPipeContinuation}
    (found : f.side.continuations[index]? = some continuation) :
    Move f { f with side :=
      ({ f.side with continuations := f.side.continuations.eraseIdx index }.completeOp continuation.id).1 } := by
  unfold WinPipeSide.completeOp
  split
  next empty =>
    replace empty : f.side.queue = [] := empty
    exact .acknowledgeOther found (by simp [backId, empty])
  next back rest queue =>
    replace queue : f.side.queue = back :: rest := queue
    split
    next own =>
      have move := Move.acknowledgeBack found queue own
      cases rest with
      | nil => simpa using move
      | cons next later => simpa [hand, backId] using move
    next other => exact .acknowledgeOther found (by simpa [backId, queue] using other)

theorem invalidate_move (f : WinPipeFlow) {setResult : WinPipeOperation → WinPipeOperation}
    (moves : ∀ op, WinPipeOperationRes.Moves op.result (setResult op).result)
    (known : ∀ op, (setResult op).result ≠ .unknown) : Move f { f with side := f.side.invalidate setResult } := by
  rw [invalidate_eq]
  have evolves := evolves_foldl_modify moves f.side.queue f.side.ops
  refine .invalidate evolves fun data listed inside => ?_
  exact known_foldl_modify moves known listed (evolves.length ▸ inside)

theorem moves_invalidateImpl (s : WinPipeEndpoint) (byCancel : Bool) (tag : PipeSide) :
    Moves (s.flow tag) ((s.invalidateImpl byCancel).flow tag) := by
  unfold invalidateImpl
  split
  · cases byCancel with
    | true =>
        have moves (op : WinPipeOperation) := WinPipeOperation.exchange_moves (.decided .canceled) op
        have known (op : WinPipeOperation) : (op.exchange .unknown .canceled).result ≠ .unknown :=
          WinPipeOperation.exchange_known (by decide) op
        cases tag with
        | write => exact .single (invalidate_move _ moves known)
        | read => exact .single (invalidate_move _ moves known)
    | false =>
        have moves := WinPipeOperation.setFailedIfPossible_moves
        have known := WinPipeOperation.setFailedIfPossible_known
        cases tag with
        | write => exact .single (invalidate_move _ moves known)
        | read => exact .single (invalidate_move _ moves known)
  · exact .refl

theorem continuations_invalidate (side : WinPipeSide) (setResult : WinPipeOperation → WinPipeOperation) :
    (side.invalidate setResult).continuations = side.continuations := by
  rw [invalidate_eq]

theorem continuations_invalidateImpl (s : WinPipeEndpoint) (byCancel : Bool) (tag : PipeSide) :
    ((s.invalidateImpl byCancel).side tag).continuations = (s.side tag).continuations := by
  unfold invalidateImpl
  split
  · cases tag with
    | write => exact continuations_invalidate _ _
    | read => exact continuations_invalidate _ _
  · rfl

theorem moves_startAsync (s : WinPipeEndpoint) (tag : PipeSide) (timed : Bool) (tag' : PipeSide) :
    Moves (s.flow tag') ((s.startAsync tag timed).flow tag') := by
  unfold startAsync
  split
  · exact moves_setSide _ (.single (startAsync_move _ _)) tag'
  · exact moves_setSide s.timer (.single (.refuse _)) tag'

theorem flow_completeOp (s : WinPipeEndpoint) (tag tag' : PipeSide) (id : Nat) :
    (s.completeOp tag id).flow tag' =
      if tag' = tag then { s.flow tag' with side := ((s.side tag).completeOp id).1 } else s.flow tag' :=
  flow_setSide { s with timer := _ } tag tag' _

theorem moves_runContinuation {tag : PipeSide} {index : Nat} (ran : s.runContinuation tag index = some s')
    (tag' : PipeSide) : Moves (s.flow tag') (s'.flow tag') := by
  unfold runContinuation at ran
  split at ran
  next => cases ran
  next continuation found =>
    split at ran
    · cases ran
      rw [flow_completeOp, flow_setSide, side_setSide, if_pos rfl]
      split
      next here =>
        subst here
        exact .single (completeOp_move found)
      next => exact .refl
    · cases ran
      split
      next =>
        refine (moves_invalidateImpl s false tag').trans (moves_setSide _ (.single (.check ?_)) tag')
        rw [flow, continuations_invalidateImpl]
        exact found
      next => exact moves_setSide s.timer (.single (.check found)) tag'

theorem moves_runWorker (ran : s.runWorker = some s') (tag : PipeSide) : Moves (s.flow tag) (s'.flow tag) := by
  unfold runWorker at ran
  split at ran
  next => cases ran
  next item rest running =>
    cases ran
    have own : (s.flow item.tag).work = item :: rest.filter fun other => other.tag = item.tag := by
      simp [flow, running]
    have kept (left : Option WorkerJob) :
        ((left.map fun job => { item with job }).toList ++ rest).filter (fun other => other.tag = item.tag) =
          (left.map fun job => { item with job }).toList ++ rest.filter fun other => other.tag = item.tag := by
      cases left with
      | none => rfl
      | some job => simp
    refine moves_setWorker (fun other different => ?_) (kept _) (.single (runWorker_move own)) tag
    simp [different.symm, running]

theorem step_moves {event : Event} (stepped : step s event = some s') (tag : PipeSide) :
    Moves (s.flow tag) (s'.flow tag) := by
  cases event with
  | writeAsync timed =>
      cases stepped
      exact moves_startAsync s .write timed tag
  | readAsync timed =>
      cases stepped
      exact moves_startAsync s .read timed tag
  | timerExpires timerId =>
      obtain ⟨timer, -, rfl⟩ := Option.map_eq_some_iff.mp stepped
      exact .refl
  | timerHandler timerId =>
      simp only [step] at stepped
      split at stepped
      · cases stepped
      · cases stepped
        exact .refl
      · next timer tag' id handled =>
          cases stepped
          exact moves_setSide timer (cancelOpByTimeout_moves _ id) tag
  | resolveTimedOut tag' index =>
      simp only [step] at stepped
      split at stepped
      · cases stepped
      · next id found =>
          cases stepped
          exact moves_setSide s.timer (.single (.resolveTimedOut found)) tag
  | runTask tag' =>
      obtain ⟨side, ran, rfl⟩ := Option.map_eq_some_iff.mp stepped
      exact moves_setSide s.timer (.single (runTask_move ran)) tag
  | ioCall tag' call =>
      obtain ⟨side, called, rfl⟩ := Option.map_eq_some_iff.mp stepped
      exact moves_setSide s.timer (.single (ioCall_move called)) tag
  | ioCompletes tag' index status bytes =>
      simp only [step] at stepped
      split at stepped
      · cases stepped
      · next io found =>
          obtain ⟨allowed, done⟩ := Option.ite_none_left_eq_some.mp stepped
          cases done
          have packets (packet : WorkerItem) (own : packet.tag = tag') :
              ((s.worker ++ [packet]).filter fun item => item.tag = tag') = (s.flow tag').work ++ [packet] := by
            simp [flow, own]
          refine moves_setWorker (fun other different => ?_) (packets _ rfl) (.single ?_) tag
          · simp [different.symm]
          · refine .complete found rfl (fun bytes isAborted => ?_) nofun
            cases isAborted
            simpa using allowed
  | runWorker =>
      exact moves_runWorker stepped tag
  | continuation tag' index =>
      exact moves_runContinuation stepped tag
  | invalidate =>
      cases stepped
      exact moves_invalidateImpl s true tag
  | setDisconnectCallback callback =>
      simp only [step] at stepped
      split at stepped
      · cases stepped
        exact .refl
      · cases stepped
        exact .refl

end WinPipeEndpoint

end CommonRpc
