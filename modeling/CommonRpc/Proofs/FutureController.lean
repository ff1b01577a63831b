/-
Module: CommonRpc.Proofs.FutureController
Purpose: Every registered pair of callbacks of a `future_controller` has exactly one callback invoked, with
  the stored outcome, in whatever order registrations, the settlement and the pool's tasks interleave. The
  invariant follows a pair through the places it can be in on one side: the queue, a task of the pool, the
  log of invoked callbacks. Up to order these places hold the registered pairs, each once.
Trusted boundary: none
-/
import CommonRpc.Core.FutureController
import Mathlib.Data.List.Nodup
import Mathlib.Data.List.Perm.Basic

namespace CommonRpc

namespace FutureController

open Lib

universe u v w

variable {κ : Type w} {ν : Type u} {χ : Type v}

/-! ### Where the callbacks of one side are -/

/-- The pairs whose callback of this side the task has still to call. -/
def Task.pairs (side : Side) : Task → List Nat
  | .process _ => []
  | .post s temp => if s = side then temp else []
  | .call s pair => if s = side then [pair] else []

def Call.pairs (side : Side) (call : Call ν χ) : List Nat :=
  if call.side = side then [call.pair] else []

def inPool (c : FutureController κ ν χ) (side : Side) : List Nat := c.pool.flatMap (Task.pairs side)

def called (c : FutureController κ ν χ) (side : Side) : List Nat := c.calls.flatMap (Call.pairs side)

/-- All pairs on this side: queued, in the pool or called. -/
def places (c : FutureController κ ν χ) (side : Side) : List Nat :=
  c.queue side ++ c.inPool side ++ c.called side

/-- The pairs that have been pushed on the queue of this side. -/
def pushed (c : FutureController κ ν χ) : Side → List Nat
  | .success => List.range c.registered.length
  | .fail => List.range (c.registering.getD c.registered.length)

/-- The callback was given the outcome that the controller holds. -/
def Given (c : FutureController κ ν χ) : Call ν χ → Prop
  | .success _ value => c.value.isSome ∧ value = c.value
  | .fail _ exception => c.exception.isSome ∧ exception = c.exception

theorem isSettled_iff {c : FutureController κ ν χ} :
    c.isSettled = true ↔ ∃ side, c.holds side = true := by
  rw [isSettled, Bool.or_eq_true]
  constructor
  · rintro (value | exception)
    · exact ⟨.success, value⟩
    · exact ⟨.fail, exception⟩
  · rintro ⟨_ | _, there⟩
    · exact .inl there
    · exact .inr there

/-! ### What the primitive updates change -/

section Updates

variable (c : FutureController κ ν χ) (task : Task) (side s : Side)

@[simp] theorem holds_take : (c.take task).holds s = c.holds s := by cases s <;> rfl

@[simp] theorem called_postTask : (c.postTask task).called s = c.called s := rfl
@[simp] theorem called_clear : (c.clear side).called s = c.called s := rfl
@[simp] theorem called_take : (c.take task).called s = c.called s := rfl

@[simp] theorem inPool_postTask : (c.postTask task).inPool s = c.inPool s ++ task.pairs s := by
  simp [inPool, postTask]
@[simp] theorem inPool_clear : (c.clear side).inPool s = c.inPool s := rfl

@[simp] theorem queue_postTask : (c.postTask task).queue s = c.queue s := rfl
@[simp] theorem queue_take : (c.take task).queue s = c.queue s := rfl
@[simp] theorem queue_clear_self : (c.clear side).queue side = [] := by simp [clear]
theorem queue_clear_of_ne (other : s ≠ side) : (c.clear side).queue s = c.queue s := by
  simp [clear, other]

end Updates

/-- A task that is taken from the pool takes its pairs along. -/
theorem inPool_perm_take {c : FutureController κ ν χ} {task : Task} (member : task ∈ c.pool) (side : Side) :
    (c.inPool side).Perm (task.pairs side ++ (c.take task).inPool side) := by
  have moved := (List.perm_cons_erase member).flatMap_right (Task.pairs side)
  rwa [List.flatMap_cons] at moved

/-! ### The invariant -/

/-- What holds of a controller at every moment. -/
structure Consistent (c : FutureController κ ν χ) : Prop where
  /-- Only one kind of outcome is ever stored. -/
  oneOutcome : ∀ side, c.holds side = true → c.holds side.other = false
  /-- Unless the other kind of outcome is stored, every pair is in exactly one place. -/
  once : ∀ side, c.holds side.other = false → (c.places side).Perm (c.pushed side)
  /-- Nothing leaves a queue for the pool before its kind of outcome is stored. -/
  quiet : ∀ side, c.holds side = false → c.inPool side = [] ∧ c.called side = []
  /-- After the settlement a drain task is posted, or will be, for a queue that is not empty. -/
  drained : ∀ side, c.isSettled = true →
    c.queue side = [] ∨ .process side ∈ c.pool ∨ (side = .fail ∧ c.settling = true)
  /-- While a registration or the settlement is under way its first drain task waits for the mutex. -/
  held : c.registering.isSome = true ∨ c.settling = true → .process .success ∈ c.pool
  underWay : ∀ pair, c.registering = some pair → pair + 1 = c.registered.length
  given : ∀ call ∈ c.calls, c.Given call
  settledOnce : c.settlements = if c.isSettled then 1 else 0

theorem consistent_start : Consistent ({} : FutureController κ ν χ) where
  oneOutcome side there := by cases side <;> simp [holds] at there
  once side _ := by cases side <;> simp [places, pushed, inPool, called]
  quiet side _ := by simp [inPool, called]
  drained side _ := by simp
  held underWay := by simp at underWay
  underWay pair registering := by simp at registering
  given call logged := by simp at logged
  settledOnce := by simp [isSettled, holds]

variable {c : FutureController κ ν χ}

/-! ### Registration -/

@[simp] theorem holds_setOnSuccess (callbacks : κ) (s : Side) :
    (c.setOnSuccess callbacks).holds s = c.holds s := by cases s <;> rfl

@[simp] theorem inPool_setOnSuccess (callbacks : κ) (s : Side) :
    (c.setOnSuccess callbacks).inPool s = c.inPool s := by
  simp [setOnSuccess, processOnSuccessAsync, push, postTask, Task.pairs, inPool]

@[simp] theorem holds_setOnFail (pair : Nat) (s : Side) : (c.setOnFail pair).holds s = c.holds s := by
  cases s <;> rfl

@[simp] theorem inPool_setOnFail (pair : Nat) (s : Side) : (c.setOnFail pair).inPool s = c.inPool s := by
  simp [setOnFail, processOnFailAsync, push, postTask, Task.pairs, inPool]

theorem mem_pool_setOnSuccess {callbacks : κ} {task : Task} :
    task ∈ (c.setOnSuccess callbacks).pool ↔ task ∈ c.pool ∨ task = .process .success := by
  simp [setOnSuccess, processOnSuccessAsync, postTask, push]

theorem mem_pool_setOnFail {pair : Nat} {task : Task} :
    task ∈ (c.setOnFail pair).pool ↔ task ∈ c.pool ∨ task = .process .fail := by
  simp [setOnFail, processOnFailAsync, postTask, push]

/-- A new pair at the end of the queue is a new pair at the end of all. -/
theorem perm_push {queued pooled done all : List Nat} (before : (queued ++ pooled ++ done).Perm all)
    (pair : Nat) : (queued ++ [pair] ++ pooled ++ done).Perm (all ++ [pair]) := by
  have moved : ([pair] ++ (pooled ++ done)).Perm ((pooled ++ done) ++ [pair]) := List.perm_append_comm
  have shifted := moved.append_left queued
  simp only [List.append_assoc] at shifted before ⊢
  exact shifted.trans (by simpa using before.append_right [pair])

theorem Consistent.setOnSuccess (consistent : c.Consistent) (free : c.registering = none) (callbacks : κ) :
    (c.setOnSuccess callbacks).Consistent where
  oneOutcome side there := by
    rw [holds_setOnSuccess] at there ⊢
    exact consistent.oneOutcome side there
  once side absent := by
    rw [holds_setOnSuccess] at absent
    have before := consistent.once side absent
    cases side with
    | success =>
        have pushed : (c.setOnSuccess callbacks).pushed .success = c.pushed .success ++ [c.registered.length] := by
          simp [FutureController.pushed, FutureController.setOnSuccess, push, processOnSuccessAsync,
            postTask, List.range_succ]
        rw [pushed, places, inPool_setOnSuccess]
        exact perm_push before c.registered.length
    | fail =>
        have pushed : (c.setOnSuccess callbacks).pushed .fail = c.pushed .fail := by
          simp [FutureController.pushed, FutureController.setOnSuccess, push, processOnSuccessAsync,
            postTask, free]
        rw [pushed, places, inPool_setOnSuccess]
        exact before
  quiet side absent := by
    rw [holds_setOnSuccess] at absent
    rw [inPool_setOnSuccess]
    exact consistent.quiet side absent
  drained side settled := by
    rw [mem_pool_setOnSuccess]
    cases side with
    | success => exact .inr (.inl (.inr rfl))
    | fail =>
        rcases consistent.drained .fail settled with empty | posted | settling
        · exact .inl empty
        · exact .inr (.inl (.inl posted))
        · exact .inr (.inr settling)
  held _ := mem_pool_setOnSuccess.mpr (.inr rfl)
  underWay pair registering := by
    have last : c.registered.length = pair := Option.some.inj registering
    rw [← last]
    simp [FutureController.setOnSuccess, push, processOnSuccessAsync, postTask]
  given := consistent.given
  settledOnce := consistent.settledOnce

theorem Consistent.setOnFail (consistent : c.Consistent) {pair : Nat} (underWay : c.registering = some pair) :
    (c.setOnFail pair).Consistent where
  oneOutcome side there := by
    rw [holds_setOnFail] at there ⊢
    exact consistent.oneOutcome side there
  once side absent := by
    rw [holds_setOnFail] at absent
    have before := consistent.once side absent
    cases side with
    | success =>
        rw [places, inPool_setOnFail]
        exact before
    | fail =>
        have last := consistent.underWay pair underWay
        have pushed : (c.setOnFail pair).pushed .fail = c.pushed .fail ++ [pair] := by
          simp [FutureController.pushed, FutureController.setOnFail, push, processOnFailAsync, postTask,
            underWay, ← last, List.range_succ]
        rw [pushed, places, inPool_setOnFail]
        exact perm_push before pair
  quiet side absent := by
    rw [holds_setOnFail] at absent
    rw [inPool_setOnFail]
    exact consistent.quiet side absent
  drained side settled := by
    rw [mem_pool_setOnFail]
    cases side with
    | success =>
        rcases consistent.drained .success settled with empty | posted | ⟨other, _⟩
        · exact .inl empty
        · exact .inr (.inl (.inl posted))
        · cases other
    | fail => exact .inr (.inl (.inr rfl))
  held _ := mem_pool_setOnFail.mpr (.inl (consistent.held (.inl (by rw [underWay]; rfl))))
  underWay other registering := by cases registering
  given := consistent.given
  settledOnce := consistent.settledOnce

/-! ### Settlement -/

/-- The side that a stored outcome lets run. -/
def sideOf : Outcome ν χ → Side
  | .value _ => .success
  | .exception _ => .fail

theorem holds_beginSettle (outcome : Outcome ν χ) (s : Side) :
    (c.beginSettle outcome).holds s = (c.holds s || decide (s = sideOf outcome)) := by
  cases outcome <;> cases s <;> simp [beginSettle, store, holds, sideOf, processOnSuccessAsync, postTask]

theorem isSettled_beginSettle (outcome : Outcome ν χ) : (c.beginSettle outcome).isSettled = true := by
  refine isSettled_iff.mpr ⟨sideOf outcome, ?_⟩
  simp [holds_beginSettle]

@[simp] theorem inPool_beginSettle (outcome : Outcome ν χ) (s : Side) :
    (c.beginSettle outcome).inPool s = c.inPool s := by
  cases outcome <;> simp [beginSettle, store, processOnSuccessAsync, postTask, Task.pairs, inPool]

theorem mem_pool_beginSettle {outcome : Outcome ν χ} {task : Task} :
    task ∈ (c.beginSettle outcome).pool ↔ task ∈ c.pool ∨ task = .process .success := by
  cases outcome <;> simp [beginSettle, store, processOnSuccessAsync, postTask]

/-- Storing the outcome moves no callback. -/
theorem beginSettle_same (outcome : Outcome ν χ) :
    (c.beginSettle outcome).queue = c.queue ∧ (c.beginSettle outcome).calls = c.calls ∧
      (c.beginSettle outcome).registered = c.registered ∧
      (c.beginSettle outcome).registering = c.registering ∧
      (c.beginSettle outcome).settling = true ∧
      (c.beginSettle outcome).settlements = c.settlements + 1 := by
  cases outcome <;> exact ⟨rfl, rfl, rfl, rfl, rfl, rfl⟩

theorem isSettled_eq_false {c : FutureController κ ν χ} (open_ : c.isSettled = false) (s : Side) :
    c.holds s = false := by
  rw [isSettled, Bool.or_eq_false_iff] at open_
  cases s
  · exact open_.1
  · exact open_.2

theorem Consistent.calls_of_open (consistent : c.Consistent) (unsettled : c.isSettled = false) :
    c.calls = [] := by
  cases log : c.calls with
  | nil => rfl
  | cons call rest =>
      have quiet := (consistent.quiet call.side (isSettled_eq_false unsettled call.side)).2
      simp [called, log, Call.pairs] at quiet

theorem Consistent.beginSettle (consistent : c.Consistent) (unsettled : c.isSettled = false)
    (outcome : Outcome ν χ) : (c.beginSettle outcome).Consistent := by
  have absent := isSettled_eq_false unsettled
  obtain ⟨queue, calls, registered, registering, settling, settlements⟩ := c.beginSettle_same outcome
  constructor
  · intro side there
    rw [holds_beginSettle, absent, Bool.false_or, decide_eq_true_eq] at there
    rw [holds_beginSettle, absent, Bool.false_or, ← there]
    cases side <;> rfl
  · intro side _
    have before := consistent.once side (absent side.other)
    have pushed : (c.beginSettle outcome).pushed side = c.pushed side := by
      cases side <;> simp [FutureController.pushed, registered, registering]
    rwa [pushed, places, inPool_beginSettle, queue, called, calls]
  · intro side _
    rw [inPool_beginSettle, called, calls]
    exact consistent.quiet side (absent side)
  · intro side _
    rw [mem_pool_beginSettle, settling]
    cases side with
    | success => exact .inr (.inl (.inr rfl))
    | fail => exact .inr (.inr ⟨rfl, rfl⟩)
  · intro _
    exact mem_pool_beginSettle.mpr (.inr rfl)
  · rw [registering, registered]
    exact consistent.underWay
  · intro call logged
    rw [calls, consistent.calls_of_open unsettled] at logged
    cases logged
  · rw [settlements, consistent.settledOnce, unsettled, isSettled_beginSettle]
    rfl

@[simp] theorem holds_endSettle (s : Side) : c.endSettle.holds s = c.holds s := by cases s <;> rfl

@[simp] theorem inPool_endSettle (s : Side) : c.endSettle.inPool s = c.inPool s := by
  simp [endSettle, processOnFailAsync, postTask, Task.pairs, inPool]

theorem mem_pool_endSettle {task : Task} :
    task ∈ c.endSettle.pool ↔ task ∈ c.pool ∨ task = .process .fail := by
  simp [endSettle, processOnFailAsync, postTask]

theorem Consistent.endSettle (consistent : c.Consistent) : c.endSettle.Consistent where
  oneOutcome side there := by
    rw [holds_endSettle] at there ⊢
    exact consistent.oneOutcome side there
  once side absent := by
    rw [holds_endSettle] at absent
    rw [places, inPool_endSettle]
    cases side <;> exact consistent.once _ absent
  quiet side absent := by
    rw [holds_endSettle] at absent
    rw [inPool_endSettle]
    exact consistent.quiet side absent
  drained side settled := by
    rw [mem_pool_endSettle]
    rcases consistent.drained side settled with empty | posted | ⟨rfl, _⟩
    · exact .inl empty
    · exact .inr (.inl (.inl posted))
    · exact .inr (.inl (.inr rfl))
  held underWay := by
    rcases underWay with registering | settling
    · exact mem_pool_endSettle.mpr (.inl (consistent.held (.inl registering)))
    · cases settling
  underWay := consistent.underWay
  given := consistent.given
  settledOnce := consistent.settledOnce

/-! ### Tasks of the pool -/

/-- What a task of the pool does to a controller: it goes from the pool, and then it drains its queue, drops
    it, finds nothing settled, posts the next callback, or calls one. -/
inductive Ran (c : FutureController κ ν χ) : Task → FutureController κ ν χ → Prop where
  | drain {side : Side} (there : c.holds side = true) :
      Ran c (.process side) (((c.take (.process side)).clear side).postTask (.post side (c.queue side)))
  | drop {side : Side} (absent : c.holds side = false) (other : c.holds side.other = true) :
      Ran c (.process side) ((c.take (.process side)).clear side)
  | early {side : Side} (unsettled : c.isSettled = false) : Ran c (.process side) (c.take (.process side))
  | posted {side : Side} : Ran c (.post side []) (c.take (.post side []))
  | postNext {side : Side} {pair : Nat} {temp : List Nat} :
      Ran c (.post side (pair :: temp))
        (((c.take (.post side (pair :: temp))).postTask (.call side pair)).postTask (.post side temp))
  | called {side : Side} {pair : Nat} : Ran c (.call side pair) ((c.take (.call side pair)).call side pair)

theorem exec_ran (c : FutureController κ ν χ) (task : Task) : Ran c task ((c.take task).exec task) := by
  cases task with
  | process side =>
      simp only [exec, process, holds_take]
      cases there : c.holds side with
      | true => exact .drain there
      | false =>
          cases other : c.holds side.other with
          | true => exact .drop there other
          | false =>
              refine .early ?_
              cases side <;> simp_all [isSettled, Side.other]
  | post side temp =>
      cases temp with
      | nil => exact .posted
      | cons pair temp => exact .postNext
  | call side pair => exact .called

theorem runTask_eq_some {c' : FutureController κ ν χ} {task : Task} (ran : c.runTask task = some c') :
    task ∈ c.pool ∧ c.blocked task = false ∧ Ran c task c' := by
  simp only [runTask] at ran
  split at ran
  · next allowed =>
      cases ran
      exact ⟨allowed.1, allowed.2, exec_ran c task⟩
  · cases ran

section Ran

variable {c' : FutureController κ ν χ} {task : Task}

@[simp] theorem called_call (side s : Side) (pair : Nat) :
    (c.call side pair).called s = c.called s ++ Task.pairs s (.call side pair) := by
  cases side <;> cases s <;>
    simp [call, callSuccess, callFail, called, Call.pairs, Call.side, Call.pair, Task.pairs]

@[simp] theorem inPool_call (side s : Side) (pair : Nat) : (c.call side pair).inPool s = c.inPool s := by
  cases side <;> rfl

@[simp] theorem queue_call (side s : Side) (pair : Nat) : (c.call side pair).queue s = c.queue s := by
  cases side <;> rfl

/-- Running a task leaves the outcome and the registrations alone. -/
theorem Ran.same (ran : Ran c task c') :
    c'.value = c.value ∧ c'.exception = c.exception ∧ c'.registered = c.registered ∧
      c'.registering = c.registering ∧ c'.settling = c.settling ∧ c'.settlements = c.settlements := by
  cases ran with
  | @called side _ => cases side <;> exact ⟨rfl, rfl, rfl, rfl, rfl, rfl⟩
  | _ => exact ⟨rfl, rfl, rfl, rfl, rfl, rfl⟩

/-- The pairs that a task calls. -/
def Task.calling : Task → List Nat
  | .call _ pair => [pair]
  | .process _ | .post _ _ => []

theorem Ran.pairs_eq (ran : Ran c task c') :
    c'.calls.map Call.pair = c.calls.map Call.pair ++ task.calling := by
  cases ran with
  | drain | drop | early | posted | postNext => exact (List.append_nil _).symm
  | @called side pair =>
      cases side with
      | success => exact List.map_append
      | fail => exact List.map_append

theorem Ran.holds_eq (ran : Ran c task c') (s : Side) : c'.holds s = c.holds s := by
  obtain ⟨value, exception, _⟩ := ran.same
  cases s <;> simp [holds, value, exception]

theorem Ran.isSettled_eq (ran : Ran c task c') : c'.isSettled = c.isSettled := by
  simp [isSettled, ran.holds_eq]

theorem Ran.pushed_eq (ran : Ran c task c') (s : Side) : c'.pushed s = c.pushed s := by
  obtain ⟨_, _, registered, registering, _⟩ := ran.same
  cases s <;> simp [pushed, registered, registering]

/-- Other tasks stay in the pool. -/
theorem Ran.mem_pool (ran : Ran c task c') {other : Task} (member : other ∈ c.pool) (ne : other ≠ task) :
    other ∈ c'.pool := by
  have stays : other ∈ c.pool.erase task := (List.mem_erase_of_ne ne).mpr member
  cases ran with
  | @called side _ => cases side <;> exact stays
  | drain | postNext => simp [postTask, clear, take, stays]
  | _ => exact stays

/-- A queue is either left alone or emptied by its drain task. -/
theorem Ran.queue_eq (ran : Ran c task c') (s : Side) :
    c'.queue s = c.queue s ∨ (task = .process s ∧ c'.queue s = []) := by
  cases ran with
  | @drain side _ | @drop side _ _ =>
      by_cases own : s = side
      · subst own
        exact .inr ⟨rfl, by simp [postTask, clear]⟩
      · exact .inl (by simp [postTask, clear, take, own])
  | @called side _ => cases side <;> exact .inl rfl
  | _ => exact .inl rfl

/-- A drain task that runs after the settlement leaves its queue empty. -/
theorem Ran.queue_empty {side : Side} (ran : Ran c (.process side) c') (settled : c.isSettled = true) :
    c'.queue side = [] := by
  cases ran with
  | drain => simp [postTask, clear]
  | drop => simp [clear]
  | early unsettled => rw [unsettled] at settled; cases settled

/-- Unless the callbacks of a side are dropped, a task only moves them on. -/
theorem Ran.places_perm (ran : Ran c task c') (member : task ∈ c.pool) {s : Side}
    (absent : c.holds s.other = false) : (c'.places s).Perm (c.places s) := by
  rw [List.perm_iff_count]
  intro pair
  have taken := (inPool_perm_take member s).count_eq pair
  cases ran with
  | @drain side there =>
      by_cases own : s = side
      · subst own
        simp only [Task.pairs, places, List.count_append, queue_postTask, queue_clear_self, inPool_postTask,
          inPool_clear, called_postTask, called_clear, called_take, if_pos, List.count_nil] at taken ⊢
        omega
      · simp only [Task.pairs, places, List.count_append, queue_postTask, queue_clear_of_ne _ _ _ own,
          queue_take, inPool_postTask, inPool_clear, called_postTask, called_clear, called_take,
          Ne.symm own, if_false, List.count_nil] at taken ⊢
        omega
  | @drop side missing other =>
      have own : s ≠ side := by
        rintro rfl
        rw [absent] at other
        cases other
      simp only [Task.pairs, places, List.count_append, queue_clear_of_ne _ _ _ own, queue_take,
        inPool_clear, called_clear, called_take, List.count_nil] at taken ⊢
      omega
  | early | posted =>
      simp only [Task.pairs, places, List.count_append, queue_take, called_take, ite_self,
        List.count_nil] at taken ⊢
      omega
  | @postNext side next temp =>
      by_cases own : side = s
      · simp only [Task.pairs, places, List.count_append, queue_postTask, queue_take, inPool_postTask,
          called_postTask, called_take, own, if_true, List.count_cons, List.count_nil] at taken ⊢
        omega
      · simp only [Task.pairs, places, List.count_append, queue_postTask, queue_take, inPool_postTask,
          called_postTask, called_take, own, if_false, List.count_nil] at taken ⊢
        omega
  | called =>
      simp only [places, List.count_append, queue_call, queue_take, inPool_call, called_call,
        called_take] at taken ⊢
      omega

/-- Only a callback whose kind of outcome is stored comes to the pool. -/
theorem Ran.quiet (ran : Ran c task c') (member : task ∈ c.pool) {s : Side} (absent : c.holds s = false)
    (before : c.inPool s = [] ∧ c.called s = []) : c'.inPool s = [] ∧ c'.called s = [] := by
  have taken := inPool_perm_take member s
  rw [before.1, List.nil_perm, List.append_eq_nil_iff] at taken
  obtain ⟨none, rest⟩ := taken
  cases ran with
  | @drain side there =>
      have own : side ≠ s := by
        rintro rfl
        rw [absent] at there
        cases there
      simp [Task.pairs, own, rest, before.2]
  | @postNext side next temp =>
      have own : side ≠ s := by
        rintro rfl
        simp [Task.pairs] at none
      simp [Task.pairs, own, rest, before.2]
  | called => simp [none, rest, before.2]
  | _ => simp [rest, before.2]

theorem Consistent.holds_of_call (consistent : c.Consistent) {side : Side} {pair : Nat}
    (member : .call side pair ∈ c.pool) : c.holds side = true := by
  cases there : c.holds side with
  | true => rfl
  | false =>
      have none : pair ∉ c.inPool side := by simp [(consistent.quiet side there).1]
      exact absurd (List.mem_flatMap.mpr ⟨_, member, by simp [Task.pairs]⟩) none

/-- The callback that a call task invokes gets the stored outcome. -/
theorem Consistent.ran_given (consistent : c.Consistent) (member : task ∈ c.pool) (ran : Ran c task c') :
    ∀ call ∈ c'.calls, c'.Given call := by
  intro call logged
  have keep : c.Given call → c'.Given call := by
    obtain ⟨value, exception, _⟩ := ran.same
    cases call <;> simp [Given, value, exception]
  cases ran with
  | @called side pair =>
      have there := consistent.holds_of_call member
      cases side with
      | success =>
          rcases List.mem_append.mp logged with old | new
          · exact keep (consistent.given call old)
          · rw [List.mem_singleton] at new
            rw [new]
            exact ⟨there, rfl⟩
      | fail =>
          rcases List.mem_append.mp logged with old | new
          · exact keep (consistent.given call old)
          · rw [List.mem_singleton] at new
            rw [new]
            exact ⟨there, rfl⟩
  | _ => exact keep (consistent.given call logged)

theorem Consistent.ran (consistent : c.Consistent) (member : task ∈ c.pool)
    (unblocked : c.blocked task = false) (ran : Ran c task c') : c'.Consistent := by
  obtain ⟨value, exception, registered, registering, settling, settlements⟩ := ran.same
  refine ⟨?_, ?_, ?_, ?_, ?_, ?_, consistent.ran_given member ran, ?_⟩
  · intro side there
    rw [ran.holds_eq] at there ⊢
    exact consistent.oneOutcome side there
  · intro side absent
    rw [ran.holds_eq] at absent
    rw [ran.pushed_eq]
    exact (ran.places_perm member absent).trans (consistent.once side absent)
  · intro side absent
    rw [ran.holds_eq] at absent
    exact ran.quiet member absent (consistent.quiet side absent)
  · intro side settled
    rw [ran.isSettled_eq] at settled
    rw [settling]
    by_cases own : task = .process side
    · subst own
      exact .inl (ran.queue_empty settled)
    · rcases consistent.drained side settled with empty | posted | inside
      · rcases ran.queue_eq side with same | ⟨_, cleared⟩
        · exact .inl (same.trans empty)
        · exact .inl cleared
      · exact .inr (.inl (ran.mem_pool posted (Ne.symm own)))
      · exact .inr (.inr inside)
  · intro underWay
    rw [registering, settling] at underWay
    apply ran.mem_pool (consistent.held underWay)
    -- A drain task cannot run while one of the mutexes it needs is held.
    rintro rfl
    simp only [blocked, Bool.or_eq_false_iff] at unblocked
    rcases underWay with started | started
    · rw [unblocked.1] at started; cases started
    · rw [unblocked.2] at started; cases started
  · rw [registering, registered]
    exact consistent.underWay
  · rw [settlements, ran.isSettled_eq]
    exact consistent.settledOnce

end Ran

/-! ### Runs -/

theorem step_consistent {c' : FutureController κ ν χ} {e : Event κ ν χ} (consistent : c.Consistent)
    (stepped : step c e = some c') : c'.Consistent := by
  cases e with
  | beginRegister callbacks =>
      simp only [step] at stepped
      split at stepped
      · next free =>
          cases stepped
          exact consistent.setOnSuccess (Option.isNone_iff_eq_none.mp free) callbacks
      · cases stepped
  | endRegister =>
      obtain ⟨pair, underWay, rfl⟩ := Option.map_eq_some_iff.mp stepped
      exact consistent.setOnFail underWay
  | beginSettle outcome =>
      simp only [step] at stepped
      split at stepped
      · cases stepped
      · next unsettled =>
          cases stepped
          exact consistent.beginSettle (Bool.eq_false_iff.mpr unsettled) outcome
  | endSettle =>
      simp only [step] at stepped
      split at stepped
      · cases stepped
        exact consistent.endSettle
      · cases stepped
  | run task =>
      obtain ⟨member, unblocked, ran⟩ := runTask_eq_some stepped
      exact consistent.ran member unblocked ran

theorem run_consistent {c' : FutureController κ ν χ} {es : List (Event κ ν χ)}
    (ran : machine.run {} es = some c') : c'.Consistent :=
  Machine.run_invariant (P := Consistent) step_consistent consistent_start ran

/-- The two halves of a registration are `set_on_success_and_fail`. -/
theorem run_register (free : c.registering = none) (callbacks : κ) :
    machine.run c [.beginRegister callbacks, .endRegister] = some (c.setOnSuccessAndFail callbacks) := by
  have begun : machine.step c (.beginRegister callbacks) = some (c.setOnSuccess callbacks) := by
    simp [machine, step, free]
  have ended : machine.step (c.setOnSuccess callbacks) .endRegister =
      some (c.setOnSuccessAndFail callbacks) := rfl
  exact Machine.run_cons_eq_some.mpr ⟨_, begun, Machine.run_cons_eq_some.mpr ⟨_, ended, rfl⟩⟩

/-- The two halves of a settlement are `set_value_state` or `set_exception`. -/
theorem run_settle (unsettled : c.isSettled = false) (outcome : Outcome ν χ) :
    machine.run c [.beginSettle outcome, .endSettle] = some (c.settle outcome) := by
  have begun : machine.step c (.beginSettle outcome) = some (c.beginSettle outcome) := by
    simp [machine, step, unsettled]
  have ended : machine.step (c.beginSettle outcome) .endSettle = some (c.settle outcome) := by
    cases outcome <;> rfl
  exact Machine.run_cons_eq_some.mpr ⟨_, begun, Machine.run_cons_eq_some.mpr ⟨_, ended, rfl⟩⟩

/-! ### Every pair is called once -/

theorem mem_called {call : Call ν χ} (logged : call ∈ c.calls) : call.pair ∈ c.called call.side :=
  List.mem_flatMap.mpr ⟨call, logged, by simp [Call.pairs]⟩

/-- The outcome's side is the only one with calls. -/
theorem Consistent.map_pair_calls (consistent : c.Consistent) {side : Side} (there : c.holds side = true) :
    c.calls.map Call.pair = c.called side := by
  have silent := (consistent.quiet side.other (consistent.oneOutcome side there)).2
  have own : ∀ call ∈ c.calls, call.side = side := by
    intro call logged
    have present := mem_called logged
    by_contra ne
    have other : call.side = side.other := by
      cases side <;> cases h : call.side <;> simp_all [Side.other]
    rw [other, silent] at present
    cases present
  rw [called, List.map_eq_flatMap]
  apply List.flatMap_congr
  intro call logged
  simp [Call.pairs, own call logged]

theorem Consistent.pair_lt (consistent : c.Consistent) {call : Call ν χ} (logged : call ∈ c.calls) :
    call.pair < c.registered.length := by
  have present := mem_called logged
  have there : c.holds call.side = true := by
    cases held : c.holds call.side with
    | true => rfl
    | false =>
        rw [(consistent.quiet call.side held).2] at present
        cases present
  have place : call.pair ∈ c.places call.side := List.mem_append_right _ present
  have known := (consistent.once call.side (consistent.oneOutcome _ there)).mem_iff.mp place
  cases side : call.side with
  | success => simpa [side, pushed] using known
  | fail =>
      simp only [side, pushed, List.mem_range] at known
      cases registering : c.registering with
      | none => simpa [registering] using known
      | some pair =>
          have last := consistent.underWay pair registering
          simp only [registering, Option.getD_some] at known
          omega

/-- With no task left in the pool no registration and no settlement is under way. -/
theorem Consistent.idle_released (consistent : c.Consistent) (idle : c.pool = []) :
    c.registering = none ∧ c.settling = false := by
  have gone : .process .success ∉ c.pool := by simp [idle]
  refine ⟨?_, Bool.eq_false_iff.mpr ?_⟩
  · by_contra registering
    exact gone (consistent.held (.inl (Option.isSome_iff_ne_none.mpr registering)))
  · intro settling
    exact gone (consistent.held (.inr settling))

theorem Consistent.idle_queue (consistent : c.Consistent) (settled : c.isSettled = true) (idle : c.pool = [])
    (side : Side) : c.queue side = [] := by
  rcases consistent.drained side settled with empty | posted | ⟨_, settling⟩
  · exact empty
  · rw [idle] at posted
    cases posted
  · rw [(consistent.idle_released idle).2] at settling
    cases settling

/-- A settled controller with no task left in the pool has called every pair. -/
theorem Consistent.idle_called (consistent : c.Consistent) (settled : c.isSettled = true) (idle : c.pool = []) :
    (c.calls.map Call.pair).Perm (List.range c.registered.length) := by
  obtain ⟨side, there⟩ := isSettled_iff.mp settled
  have placed := consistent.once side (consistent.oneOutcome side there)
  have all : c.pushed side = List.range c.registered.length := by
    cases side <;> simp [pushed, (consistent.idle_released idle).1]
  rw [all, places, consistent.idle_queue settled idle, inPool, idle] at placed
  rw [consistent.map_pair_calls there]
  exact placed

section Uncalled

/-- The pairs that were registered and not called, by number. -/
def uncalledPairs (c : FutureController κ ν χ) : List Nat :=
  (List.range c.registered.length).filter fun pair => pair ∉ c.calls.map Call.pair

/-- What was registered and not called. -/
def uncalled (c : FutureController κ ν χ) : List κ :=
  c.uncalledPairs.filterMap fun pair => c.registered[pair]?

variable {c' : FutureController κ ν χ}

theorem uncalled_congr (registered : c'.registered = c.registered)
    (calls : c'.calls.map Call.pair = c.calls.map Call.pair) : c'.uncalled = c.uncalled := by
  simp only [uncalled, uncalledPairs, registered, calls]

theorem Consistent.uncalled_setOnSuccess (consistent : c.Consistent) (callbacks : κ) :
    (c.setOnSuccess callbacks).uncalled = c.uncalled ++ [callbacks] := by
  have registered : (c.setOnSuccess callbacks).registered = c.registered ++ [callbacks] := rfl
  have calls : (c.setOnSuccess callbacks).calls = c.calls := rfl
  have fresh : c.registered.length ∉ c.calls.map Call.pair := by
    intro called
    obtain ⟨call, logged, same⟩ := List.mem_map.mp called
    exact absurd (consistent.pair_lt logged) (by omega)
  have pairs : (c.setOnSuccess callbacks).uncalledPairs = c.uncalledPairs ++ [c.registered.length] := by
    simp only [uncalledPairs, registered, calls, List.length_append, List.length_singleton, List.range_succ,
      List.filter_append, List.filter_singleton, fresh, not_false_eq_true, decide_true, cond_true]
  rw [uncalled, pairs, registered, List.filterMap_append]
  congr 1
  · apply List.filterMap_congr
    intro pair member
    exact List.getElem?_append_left (List.mem_range.mp (List.mem_of_mem_filter member))
  · simp

/-- A call task is for a pair that was registered and not called, and its outcome is there. -/
theorem Consistent.call_ready (consistent : c.Consistent) {side : Side} {pair : Nat}
    (member : .call side pair ∈ c.pool) :
    pair < c.registered.length ∧ pair ∉ c.calls.map Call.pair ∧ c.holds side = true := by
  have there := consistent.holds_of_call member
  have placed := consistent.once side (consistent.oneOutcome side there)
  have pooled : pair ∈ c.inPool side := List.mem_flatMap.mpr ⟨_, member, by simp [Task.pairs]⟩
  have listed : pair ∈ c.pushed side := by
    apply placed.subset
    exact List.mem_append_left _ (List.mem_append_right _ pooled)
  have distinct : (c.places side).Nodup := by
    apply placed.nodup_iff.mpr
    cases side with
    | success => exact List.nodup_range
    | fail => exact List.nodup_range
  refine ⟨?_, ?_, there⟩
  · cases side with
    | success => exact List.mem_range.mp listed
    | fail =>
        have bound := List.mem_range.mp listed
        cases registering : c.registering with
        | none => rwa [registering] at bound
        | some last =>
            rw [registering, Option.getD_some] at bound
            have underWay := consistent.underWay last registering
            omega
  · rw [consistent.map_pair_calls there]
    intro called
    exact List.disjoint_of_nodup_append distinct (List.mem_append_right _ pooled) called

/-- Calling a pair takes it off what was not called. -/
theorem uncalled_call {pair : Nat} {callbacks : κ}
    (found : c.registered[pair]? = some callbacks) (fresh : pair ∉ c.calls.map Call.pair)
    (registered : c'.registered = c.registered)
    (calls : c'.calls.map Call.pair = c.calls.map Call.pair ++ [pair]) :
    (callbacks :: c'.uncalled).Perm c.uncalled := by
  obtain ⟨inRange, -⟩ := List.getElem?_eq_some_iff.mp found
  have listed : pair ∈ c.uncalledPairs :=
    List.mem_filter.mpr ⟨List.mem_range.mpr inRange, decide_eq_true fresh⟩
  have pairs : c'.uncalledPairs = c.uncalledPairs.erase pair := by
    have distinct : c.uncalledPairs.Nodup := List.nodup_range.filter _
    rw [distinct.erase_eq_filter, uncalledPairs, uncalledPairs, registered, calls, List.filter_filter]
    apply List.filter_congr
    intro other _
    rw [Bool.eq_iff_iff]
    simp [and_comm]
  have taken := (List.perm_cons_erase listed).filterMap fun other => c.registered[other]?
  rw [List.filterMap_cons_some found] at taken
  rw [uncalled, pairs, registered]
  exact taken.symm

theorem Consistent.uncalled_idle (consistent : c.Consistent) (settled : c.isSettled = true)
    (idle : c.pool = []) : c.uncalled = [] := by
  have all := consistent.idle_called settled idle
  have none : c.uncalledPairs = [] := by
    rw [uncalledPairs, List.filter_eq_nil_iff]
    intro pair inRange
    simpa using all.mem_iff.mpr inRange
  rw [uncalled, none, List.filterMap_nil]

end Uncalled

end FutureController

end CommonRpc
