/-
Module: CommonRpc.Proofs.MultipleTimer
Purpose: What the operations of `multiple_timer` do to the armed timers, and the invariant of its map. Users of
  the timers state their own invariants with `Armed` and `Calls` and never look at the entries.
Trusted boundary: none
-/
import CommonRpc.Core.MultipleTimer
import Mathlib.Data.List.Nodup

namespace CommonRpc.MultipleTimer

universe u

variable {κ : Type u} {timer timer' : MultipleTimer κ} {i id : Nat} {callback : κ}

/-- Timer ids are given out once. -/
structure WellFormed (timer : MultipleTimer κ) : Prop where
  distinct : (timer.timers.map TimerEntry.id).Nodup
  fresh : ∀ entry ∈ timer.timers, entry.id < timer.nextId

/-- The timer `id` is there, and its callback captured `callback`. -/
def Calls (timer : MultipleTimer κ) (id : Nat) (callback : κ) : Prop :=
  ∃ entry ∈ timer.timers, entry.id = id ∧ entry.callback = callback

theorem wellFormed_empty : WellFormed ({} : MultipleTimer κ) :=
  ⟨List.nodup_nil, fun _ member => absurd member List.not_mem_nil⟩

theorem WellFormed.calls_lt (good : timer.WellFormed) (calls : timer.Calls id callback) :
    id < timer.nextId := by
  obtain ⟨entry, member, rfl, -⟩ := calls
  exact good.fresh entry member

theorem Armed.calls (armed : timer.Armed id) : ∃ callback, timer.Calls id callback := by
  obtain ⟨entry, member, same, -⟩ := armed
  exact ⟨entry.callback, entry, member, same, rfl⟩

section Start

theorem WellFormed.start (good : timer.WellFormed) (callback : κ) : (timer.start callback).WellFormed where
  distinct := by
    simp only [MultipleTimer.start, List.map_append, List.map_cons, List.map_nil]
    apply good.distinct.append (List.nodup_singleton _)
    intro id old new
    obtain ⟨entry, member, rfl⟩ := List.mem_map.mp old
    exact absurd (List.mem_singleton.mp new) (Nat.ne_of_lt (good.fresh entry member))
  fresh := by
    intro entry member
    rcases List.mem_append.mp member with old | new
    · exact Nat.lt_succ_of_lt (good.fresh entry old)
    · rw [List.mem_singleton.mp new]
      exact Nat.lt_succ_self _

@[simp] theorem armed_start : (timer.start callback).Armed i ↔ timer.Armed i ∨ i = timer.nextId := by
  simp only [Armed, start, List.mem_append, List.mem_singleton]
  constructor
  · rintro ⟨entry, old | rfl, same, running⟩
    · exact .inl ⟨entry, old, same, running⟩
    · exact .inr same.symm
  · rintro (⟨entry, member, same, running⟩ | rfl)
    · exact ⟨entry, .inl member, same, running⟩
    · exact ⟨_, .inr rfl, rfl, rfl⟩

@[simp] theorem calls_start {callback' : κ} :
    (timer.start callback').Calls i callback ↔
      timer.Calls i callback ∨ i = timer.nextId ∧ callback' = callback := by
  simp only [Calls, start, List.mem_append, List.mem_singleton]
  constructor
  · rintro ⟨entry, old | rfl, same, captured⟩
    · exact .inl ⟨entry, old, same, captured⟩
    · exact .inr ⟨same.symm, captured⟩
  · rintro (⟨entry, member, same, captured⟩ | ⟨rfl, rfl⟩)
    · exact ⟨entry, .inl member, same, captured⟩
    · exact ⟨_, .inr rfl, rfl, rfl⟩

end Start

/-- `timer'` has no new timers, and those it has are as they were but for their flags. -/
structure Shrinks (timer timer' : MultipleTimer κ) : Prop where
  nextId : timer'.nextId = timer.nextId
  ids : (timer'.timers.map TimerEntry.id).Sublist (timer.timers.map TimerEntry.id)
  calls : ∀ {id callback}, timer'.Calls id callback → timer.Calls id callback

theorem Shrinks.wellFormed (shrinks : timer.Shrinks timer') (good : timer.WellFormed) :
    timer'.WellFormed where
  distinct := good.distinct.sublist shrinks.ids
  fresh := by
    intro entry member
    rw [shrinks.nextId]
    exact good.calls_lt (shrinks.calls ⟨entry, member, rfl, rfl⟩)

theorem Shrinks.refl (timer : MultipleTimer κ) : timer.Shrinks timer :=
  ⟨rfl, List.Sublist.refl _, fun calls => calls⟩

theorem Shrinks.trans {timer'' : MultipleTimer κ} (first : timer.Shrinks timer')
    (second : timer'.Shrinks timer'') : timer.Shrinks timer'' :=
  ⟨second.nextId.trans first.nextId, second.ids.trans first.ids, fun calls => first.calls (second.calls calls)⟩

/-- Changing flags of entries changes neither the ids nor what the callbacks captured. -/
theorem shrinks_map (f : TimerEntry κ → TimerEntry κ)
    (keeps : ∀ entry, (f entry).id = entry.id ∧ (f entry).callback = entry.callback) :
    timer.Shrinks { timer with timers := timer.timers.map f } where
  nextId := rfl
  ids := by
    have same : TimerEntry.id ∘ f = TimerEntry.id := funext fun entry => (keeps entry).1
    rw [List.map_map, same]
  calls := by
    rintro id callback ⟨entry', changed, rfl, rfl⟩
    obtain ⟨entry, member, rfl⟩ := List.mem_map.mp changed
    exact ⟨entry, member, (keeps entry).1.symm, (keeps entry).2.symm⟩

section Cancel

theorem shrinks_cancel (timer : MultipleTimer κ) (id : Nat) : timer.Shrinks (timer.cancel id) := by
  apply shrinks_map
  intro entry
  split
  · exact ⟨rfl, rfl⟩
  · exact ⟨rfl, rfl⟩

@[simp] theorem armed_cancel : (timer.cancel id).Armed i ↔ timer.Armed i ∧ i ≠ id := by
  simp only [Armed, cancel, List.mem_map]
  constructor
  · rintro ⟨_, ⟨entry, member, rfl⟩, same, running⟩
    by_cases hit : entry.id = id
    · rw [if_pos hit] at running
      cases running
    · rw [if_neg hit] at same running
      exact ⟨⟨entry, member, same, running⟩, same ▸ hit⟩
  · rintro ⟨⟨entry, member, rfl, running⟩, other⟩
    exact ⟨entry, ⟨entry, member, if_neg other⟩, rfl, running⟩

theorem shrinks_cancelOptional (timer : MultipleTimer κ) (timerId : Option Nat) :
    timer.Shrinks (timer.cancelOptional timerId) := by
  cases timerId with
  | none => exact Shrinks.refl timer
  | some id => exact shrinks_cancel timer id

@[simp] theorem armed_cancelOptional {timerId : Option Nat} :
    (timer.cancelOptional timerId).Armed i ↔ timer.Armed i ∧ timerId ≠ some i := by
  cases timerId with
  | none => simp [cancelOptional]
  | some id => simp [cancelOptional, eq_comm]

/-- Cancelling the timers of a list of requests, one after the other. -/
theorem armed_cancel_foldl {α : Type*} (idOf : α → Nat) (requests : List α) :
    (requests.foldl (fun timer request => timer.cancel (idOf request)) timer).Armed i ↔
      timer.Armed i ∧ ∀ request ∈ requests, i ≠ idOf request := by
  induction requests generalizing timer with
  | nil => simp
  | cons request requests ih => rw [List.foldl_cons, ih, armed_cancel, List.forall_mem_cons, and_assoc]

theorem shrinks_cancel_foldl {α : Type*} (idOf : α → Nat) (requests : List α) :
    timer.Shrinks (requests.foldl (fun timer request => timer.cancel (idOf request)) timer) := by
  induction requests generalizing timer with
  | nil => exact Shrinks.refl timer
  | cons request requests ih => exact (shrinks_cancel timer _).trans ih

end Cancel

section Handler

/-- Only the timer that expires is changed. -/
theorem expire_eq_some (expired : timer.expire id = some timer') :
    timer' = { timer with timers := timer.timers.map fun other =>
      if other.id = id then { other with expired := true } else other } := by
  unfold expire at expired
  split at expired
  · cases expired
  · split at expired
    · cases expired
    · cases expired
      rfl

theorem shrinks_expire (expired : timer.expire id = some timer') : timer.Shrinks timer' := by
  rw [expire_eq_some expired]
  apply shrinks_map
  intro entry
  split
  · exact ⟨rfl, rfl⟩
  · exact ⟨rfl, rfl⟩

/-- A timer that expired is still armed, until its handler runs. -/
theorem armed_expire (expired : timer.expire id = some timer') : timer'.Armed i ↔ timer.Armed i := by
  rw [expire_eq_some expired]
  simp only [Armed, List.mem_map]
  constructor
  · rintro ⟨_, ⟨entry, member, rfl⟩, flags⟩
    refine ⟨entry, member, ?_⟩
    split at flags
    · exact flags
    · exact flags
  · rintro ⟨entry, member, same, running⟩
    refine ⟨_, ⟨entry, member, rfl⟩, ?_⟩
    split
    · exact ⟨same, running⟩
    · exact ⟨same, running⟩

/-- What a handler does: its timer is forgotten; a callback is called if the timer had expired, and none only
    if it was cancelled. -/
theorem handle_eq_some {called : Option κ} (handled : timer.handle id = some (timer', called)) :
    timer' = { timer with timers := timer.timers.filter fun other => other.id ≠ id } ∧
      ∃ entry ∈ timer.timers, entry.id = id ∧
        ((∃ callback, called = some callback ∧ entry.callback = callback) ∨
          called = none ∧ entry.cancelled = true) := by
  unfold handle at handled
  split at handled
  · cases handled
  · rename_i entry found
    have same : entry.id = id := by simpa using List.find?_some found
    have member := List.mem_of_find?_eq_some found
    simp only at handled
    split at handled
    · cases handled
      exact ⟨rfl, entry, member, same, .inl ⟨_, rfl, rfl⟩⟩
    · split at handled
      · rename_i cancelled
        cases handled
        exact ⟨rfl, entry, member, same, .inr ⟨rfl, cancelled⟩⟩
      · cases handled

theorem shrinks_handle {called : Option κ} (handled : timer.handle id = some (timer', called)) :
    timer.Shrinks timer' := by
  obtain ⟨rfl, -⟩ := handle_eq_some handled
  refine ⟨rfl, List.filter_sublist.map _, ?_⟩
  rintro i callback ⟨entry, member, same, captured⟩
  exact ⟨entry, (List.mem_filter.mp member).1, same, captured⟩

theorem armed_handle {called : Option κ} (handled : timer.handle id = some (timer', called)) :
    timer'.Armed i ↔ timer.Armed i ∧ i ≠ id := by
  obtain ⟨rfl, -⟩ := handle_eq_some handled
  simp only [Armed, List.mem_filter, decide_eq_true_eq]
  constructor
  · rintro ⟨entry, ⟨member, other⟩, rfl, running⟩
    exact ⟨⟨entry, member, rfl, running⟩, other⟩
  · rintro ⟨⟨entry, member, rfl, running⟩, other⟩
    exact ⟨entry, ⟨member, other⟩, rfl, running⟩

theorem calls_of_handle (handled : timer.handle id = some (timer', some callback)) :
    timer.Calls id callback := by
  obtain ⟨-, entry, member, same, ⟨_, called, captured⟩ | ⟨none, -⟩⟩ := handle_eq_some handled
  · exact ⟨entry, member, same, captured.trans (Option.some.inj called).symm⟩
  · cases none

/-- A handler that calls nothing belongs to a cancelled timer. -/
theorem WellFormed.not_armed_of_handle (good : timer.WellFormed)
    (handled : timer.handle id = some (timer', none)) : ¬ timer.Armed id := by
  rintro ⟨other, member', same', running⟩
  obtain ⟨-, entry, member, same, ⟨_, none, -⟩ | ⟨-, cancelled⟩⟩ := handle_eq_some handled
  · cases none
  · rw [List.inj_on_of_nodup_map good.distinct member' member (same'.trans same.symm), cancelled] at running
    cases running

end Handler

end CommonRpc.MultipleTimer
