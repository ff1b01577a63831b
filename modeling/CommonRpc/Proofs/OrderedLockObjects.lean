/-
Module: CommonRpc.Proofs.OrderedLockObjects
Purpose: Locks own their mutexes. In every sequence of operations the owners of the mutexes, each locked lock
  and the caller, have every locked mutex once between them. Each operation is shown to change what is owned and
  what is locked by the same amount.
Trusted boundary: none
-/
import CommonRpc.Proofs.LockObject
import Mathlib.Data.List.Count

namespace CommonRpc

open Lib Mutexes

universe u v w w'

variable {μ : Type u} [DecidableEq μ] {θ : Type v} {type : μ → θ}

/-! ### Sequences of operations -/

namespace OrderedLockObjects

variable {comparison : Comparison θ} {s s' : OrderedLockObjects type} {i : Nat} {object : LockObject type}

/-- The mutexes that a place in the list of locks owns. -/
def ownedAt (entry : Option (LockObject type)) : List μ := entry.elim [] LockObject.owned

/-- Whoever is to unlock a mutex: the caller, and the locks. -/
def owners (s : OrderedLockObjects type) : List μ := s.byHand ++ s.objects.flatMap ownedAt

/-- A lock is the owner of a mutex. -/
def Owns (s : OrderedLockObjects type) (i : Nat) (m : μ) : Prop :=
  ∃ object, s.object i = some object ∧ object.isLocked = true ∧ m ∈ object.pointees

/-- Every mutex that is locked has one owner, and no other mutex has one. -/
structure Sound (comparison : Comparison θ) (s : OrderedLockObjects type) : Prop where
  good : ∀ object, some object ∈ s.objects → object.Good comparison
  exclusive : ∀ m, s.owners.count m = s.mutexes.weight m
  defined : s.fault ≠ some .notHeld

omit [DecidableEq μ] in
theorem ownedAt_locked : ownedAt (some { object with isLocked := true }) = object.pointees := rfl

omit [DecidableEq μ] in
theorem ownedAt_unlocked (unlocked : object.isLocked = false) : ownedAt (some object) = [] :=
  LockObject.owned_of_unlocked unlocked

/-- How often the locks own a mutex. -/
def share (objects : List (Option (LockObject type))) (m : μ) : Nat :=
  (objects.map fun entry => (ownedAt entry).count m).sum

theorem share_push {objects : List (Option (LockObject type))} {new : Option (LockObject type)} {m : μ} :
    share (objects ++ [new]) m = share objects m + (ownedAt new).count m := by
  simp [share]

theorem share_set {objects : List (Option (LockObject type))} {old : Option (LockObject type)}
    (before : objects[i]? = some old) (new : Option (LockObject type)) (m : μ) :
    share (objects.set i new) m + (ownedAt old).count m = share objects m + (ownedAt new).count m :=
  Table.sum_map_set before

theorem count_owners (s : OrderedLockObjects type) (m : μ) :
    s.owners.count m = s.byHand.count m + share s.objects m := by
  rw [owners, List.count_append, List.count_flatMap]
  rfl

theorem object_eq_some : s.object i = some object ↔ s.objects[i]? = some (some object) := Option.join_eq_some_iff

theorem mem_of_object (found : s.object i = some object) : some object ∈ s.objects :=
  List.mem_of_getElem? (object_eq_some.mp found)

theorem set_object (found : s.object i = some object) : s.objects.set i (some object) = s.objects := by
  obtain ⟨inside, here⟩ := List.getElem?_eq_some_iff.mp (object_eq_some.mp found)
  rw [← here]
  exact List.set_getElem_self inside

/-- What a lock owns is locked. -/
theorem Sound.covered (sound : s.Sound comparison) (found : s.object i = some object) (m : μ) :
    object.owned.count m ≤ s.mutexes.weight m := by
  have isPart : (ownedAt (some object)).Sublist (s.objects.flatMap ownedAt) :=
    List.sublist_flatten_of_mem (List.mem_map_of_mem (mem_of_object found))
  rw [← sound.exclusive m, owners, List.count_append]
  exact Nat.le_trans (isPart.count_le m) (Nat.le_add_left _ _)

/-- Which calls have no defined meaning: those of `lock` and `push_back` on a lock without mutexes. -/
def Misuse (s : OrderedLockObjects type) (event : Event θ μ) : Prop :=
  ∃ i object, s.object i = some object ∧ object.Emptied ∧
    ((∃ throws, event = .lock i throws) ∨ ∃ addLockables throws, event = .pushBack i addLockables throws)

/-- What every operation keeps. -/
structure StepLaw (comparison : Comparison θ) (s : OrderedLockObjects type) (event : Event θ μ)
    (s' : OrderedLockObjects type) : Prop where
  sound : s'.Sound comparison
  /-- An operation that throws has changed nothing. -/
  unchanged : s'.threw = true →
    s'.objects = s.objects ∧ s'.byHand = s.byHand ∧ s'.mutexes.held = s.mutexes.held
  /-- A null pointer is dereferenced in a misuse only. -/
  misused : s'.fault = some .nullPointer → s.Misuse event

section Steps

variable (running : s.fault = none) {event : Event θ μ}
include running

/-- An operation that changes the locks and the mutexes by the same amount. -/
theorem StepLaw.returned {objects : List (Option (LockObject type))} {byHand : List μ} {mutexes : Mutexes μ}
    (good : ∀ object, some object ∈ objects → object.Good comparison)
    (counts : ∀ m, byHand.count m + share objects m = mutexes.weight m) :
    StepLaw comparison s event { s with objects, byHand, mutexes, threw := false } where
  sound := by
    refine ⟨good, fun m => ?_, ?_⟩
    · rw [count_owners]
      exact counts m
    · rw [running]
      exact nofun
  unchanged := nofun
  misused faulted := by
    rw [running] at faulted
    cases faulted

/-- The end of an operation on the locks. -/
theorem StepLaw.settle {α : Type w} {β : Type w'} {outcome : CallOutcome μ α β}
    {returned : α → List (Option (LockObject type))} {threw : β → List (Option (LockObject type))}
    {onReturn : α → Mutexes μ → Prop} {onThrow : β → Mutexes μ → Prop} {onFault : Fault → Prop}
    (sound : s.Sound comparison) (settled : s.settle outcome returned threw = some s')
    (ensures : outcome.Ensures onReturn onThrow onFault)
    (good : ∀ value mutexes, onReturn value mutexes →
      ∀ object, some object ∈ returned value → object.Good comparison)
    (counts : ∀ value mutexes, onReturn value mutexes →
      ∀ m, s.byHand.count m + share (returned value) m = mutexes.weight m)
    (thrown : ∀ value mutexes, onThrow value mutexes →
      threw value = s.objects ∧ mutexes.held = s.mutexes.held)
    (faulted : ∀ kind, onFault kind → kind = .nullPointer ∧ s.Misuse event) :
    StepLaw comparison s event s' := by
  cases outcome with
  | returned value mutexes =>
      cases settled
      exact .returned running (good value mutexes ensures) (counts value mutexes ensures)
  | threw value mutexes =>
      cases settled
      obtain ⟨same, held⟩ := thrown value mutexes ensures
      rw [same]
      refine ⟨⟨sound.good, fun m => ?_, sound.defined⟩, fun _ => ⟨rfl, rfl, held⟩, fun faulted => ?_⟩
      · have before := sound.exclusive m
        rw [weight, ← held] at before
        exact before
      · rw [running] at faulted
        cases faulted
  | blocked => cases settled
  | fault kind =>
      cases settled
      obtain ⟨rfl, misuse⟩ := faulted kind ensures
      refine ⟨⟨sound.good, sound.exclusive, fun notHeld => ?_⟩, fun threw => ?_, fun _ => misuse⟩
      · cases notHeld
      · cases threw

end Steps

section Lists

variable {objects : List (Option (LockObject type))} {new : Option (LockObject type)}
  (good : ∀ object, some object ∈ objects → object.Good comparison)
  (newGood : ∀ object, new = some object → object.Good comparison)
include good newGood

omit [DecidableEq μ] in
theorem good_set (object : LockObject type) (mem : some object ∈ objects.set i new) : object.Good comparison := by
  rcases List.mem_or_eq_of_mem_set mem with old | isNew
  · exact good object old
  · exact newGood object isNew.symm

omit [DecidableEq μ] in
theorem good_push (object : LockObject type) (mem : some object ∈ objects ++ [new]) :
    object.Good comparison := by
  rcases List.mem_append.mp mem with old | isNew
  · exact good object old
  · exact newGood object (List.mem_singleton.mp isNew).symm

end Lists

omit [DecidableEq μ] in
theorem goodOf (isGood : object.Good comparison) :
    ∀ object', some object = some object' → object'.Good comparison := by
  rintro object' ⟨⟩
  exact isGood

theorem good_added {locks : LockObject type × LockObject type}
    (good : ∀ object, some object ∈ s.objects → object.Good comparison) (newGood : locks.1.Good comparison)
    (oldGood : locks.2.Good comparison) :
    ∀ object, some object ∈ s.added i locks → object.Good comparison :=
  good_push (good_set good (goodOf oldGood)) (goodOf newGood)

theorem share_added (found : s.object i = some object) (locks : LockObject type × LockObject type) (m : μ) :
    share (s.added i locks) m + object.owned.count m =
      share s.objects m + locks.1.owned.count m + locks.2.owned.count m := by
  have change := share_set (object_eq_some.mp found) (some locks.2) m
  rw [added, share_push]
  simp only [ownedAt, Option.elim_some] at change ⊢
  omega

variable [DecidableEq θ]

/-- Every operation keeps the owners of the mutexes. -/
theorem step_law (sound : s.Sound comparison) {event : Event θ μ} (stepped : step comparison s event = some s') :
    StepLaw comparison s event s' := by
  have running : s.fault = none := by
    cases fault : s.fault with
    | none => rfl
    | some kind => simp [step, fault] at stepped
  have balance (m : μ) : s.byHand.count m + share s.objects m = s.mutexes.weight m :=
    (count_owners s m).symm.trans (sound.exclusive m)
  unfold step at stepped
  rw [if_neg (by simp [running])] at stepped
  cases event with
  | lockByHand m =>
      obtain ⟨free, done⟩ := Option.dite_none_right_eq_some.mp stepped
      cases done
      refine .returned running sound.good fun a => ?_
      have shifts := lock_shifts free a
      have before := balance a
      rw [List.count_singleton] at shifts
      rw [List.count_cons]
      rw [List.count_nil] at shifts
      omega
  | unlockByHand m =>
      obtain ⟨mem, done⟩ := Option.ite_none_right_eq_some.mp stepped
      have before := balance m
      have counted := List.count_pos_iff.mpr mem
      have bound := s.mutexes.weight_le_one m
      have held : s.mutexes.held m = true := weight_eq_one.mp (by omega)
      rw [dif_pos held] at done
      cases done
      refine .returned running sound.good fun a => ?_
      have shifts := unlock_shifts held a
      have before := balance a
      rw [List.count_singleton, List.count_nil] at shifts
      rw [List.count_erase]
      by_cases same : m = a
      · subst same
        simp only [BEq.rfl, if_true] at shifts ⊢
        omega
      · simp only [beq_eq_false_iff_ne.mpr same, Bool.false_eq_true, if_false] at shifts ⊢
        omega
  | constructEmpty types =>
      obtain ⟨valid, done⟩ := Option.ite_none_right_eq_some.mp stepped
      cases done
      refine .returned running (good_push sound.good (goodOf (LockObject.empty_good valid))) fun m => ?_
      rw [share_push]
      exact balance m
  | construct lockables throws =>
      obtain ⟨valid, settled⟩ := Option.ite_none_right_eq_some.mp stepped
      have locks := (LockObject.deferred type lockables).lock_ensures comparison throws s.mutexes
      rw [LockObject.construct] at settled
      refine .settle running sound settled (locks.mapThrown _) ?_ ?_ ?_ ?_
      · rintro object mutexes ⟨rfl, -⟩
        exact good_push sound.good (goodOf (LockObject.of_good valid true))
      · rintro object mutexes ⟨rfl, -, shifts⟩ m
        have before := balance m
        have change := shifts m
        rw [List.count_nil] at change
        rw [share_push, ownedAt_locked]
        omega
      · rintro - mutexes ⟨object, -, -, held⟩
        exact ⟨rfl, held⟩
      · rintro kind ⟨-, notFilled⟩
        exact absurd LockObject.of_filled notFilled
  | constructDeferred lockables =>
      obtain ⟨valid, done⟩ := Option.ite_none_right_eq_some.mp stepped
      cases done
      refine .returned running (good_push sound.good (goodOf (LockObject.of_good valid false))) fun m => ?_
      rw [share_push]
      exact balance m
  | constructAdopting lockables =>
      obtain ⟨⟨valid, byHand⟩, done⟩ := Option.ite_none_right_eq_some.mp stepped
      cases done
      refine .returned running (good_push sound.good (goodOf (LockObject.of_good valid true))) fun m => ?_
      have before := balance m
      have within := byHand.count_le m
      have adopted : (ownedAt (some (LockObject.adopting type lockables))).count m = lockables.count m :=
        congrArg (List.count m) LockObject.of_pointees
      rw [share_push, List.count_diff, adopted]
      omega
  | lock i throws =>
      cases found : s.object i with
      | none => simp [found] at stepped
      | some object =>
          simp only [found] at stepped
          obtain ⟨unlocked, settled⟩ := Option.ite_none_left_eq_some.mp stepped
          have unlocked := Bool.eq_false_iff.mpr unlocked
          have isGood := sound.good object (mem_of_object found)
          refine .settle running sound settled (object.lock_ensures comparison throws s.mutexes) ?_ ?_ ?_ ?_
          · rintro object' mutexes ⟨rfl, filled, -⟩
            exact good_set sound.good (goodOf ⟨isGood.valid, .inl filled, fun _ => filled⟩)
          · rintro object' mutexes ⟨rfl, -, shifts⟩ m
            have before := balance m
            have change := shifts m
            have moved := share_set (object_eq_some.mp found) (some { object with isLocked := true }) m
            rw [List.count_nil] at change
            rw [ownedAt_locked, ownedAt_unlocked unlocked, List.count_nil] at moved
            omega
          · rintro object' mutexes ⟨rfl, held⟩
            exact ⟨set_object found, held⟩
          · rintro kind ⟨rfl, notFilled⟩
            exact ⟨rfl, i, object, found, isGood.uniform.resolve_left notFilled, .inl ⟨throws, rfl⟩⟩
  | unlock i =>
      cases found : s.object i with
      | none => simp [found] at stepped
      | some object =>
          simp only [found] at stepped
          obtain ⟨locked, settled⟩ := Option.ite_none_right_eq_some.mp stepped
          have isGood := sound.good object (mem_of_object found)
          have covered := sound.covered found
          rw [LockObject.owned_of_locked locked] at covered
          refine .settle running sound settled (LockObject.unlock_ensures (isGood.filled locked) covered) ?_ ?_
            (fun value => value.elim) (fun _ never => never.elim)
          · rintro object' mutexes ⟨rfl, -⟩
            exact good_set sound.good (goodOf ⟨isGood.valid, isGood.uniform, fun locked => by cases locked⟩)
          · rintro object' mutexes ⟨rfl, shifts⟩ m
            have before := balance m
            have change := shifts m
            have moved := share_set (object_eq_some.mp found) (some { object with isLocked := false }) m
            rw [List.count_nil] at change
            rw [ownedAt, Option.elim_some, LockObject.owned_of_locked locked] at moved
            rw [ownedAt_unlocked rfl, List.count_nil] at moved
            omega
  | moveConstruct types source =>
      cases found : s.object source with
      | none => simp [found] at stepped
      | some other =>
          simp only [found] at stepped
          obtain ⟨⟨valid, same⟩, done⟩ := Option.ite_none_right_eq_some.mp stepped
          cases done
          have otherGood := sound.good other (mem_of_object found)
          have same : comparison.sorted (LockObject.empty type types).types = comparison.sorted other.types := by
            rw [LockObject.empty_types]
            exact same
          refine .returned running ?_ fun m => ?_
          · exact good_added sound.good (LockObject.take_good same (LockObject.empty_good valid) otherGood)
              otherGood.clear
          · have before := balance m
            have moved := share_added found (other.moveConstruct comparison types) m
            have passed : (other.moveConstruct comparison types).1.owned.count m = other.owned.count m :=
              (LockObject.take_owned same).count_eq m
            have left : (other.moveConstruct comparison types).2.owned = [] := LockObject.clear_owned
            rw [passed, left, List.count_nil] at moved
            omega
  | moveAssign target source =>
      cases foundTarget : s.object target with
      | none => simp [foundTarget] at stepped
      | some object =>
          cases foundSource : s.object source with
          | none => simp [foundTarget, foundSource] at stepped
          | some other =>
              simp only [foundTarget, foundSource] at stepped
              by_cases self : target = source
              · rw [if_pos self] at stepped
                cases stepped
                exact .returned running sound.good balance
              · rw [if_neg self] at stepped
                obtain ⟨same, settled⟩ := Option.ite_none_right_eq_some.mp stepped
                have isGood := sound.good object (mem_of_object foundTarget)
                have otherGood := sound.good other (mem_of_object foundSource)
                have moves :=
                  LockObject.moveAssign_ensures (β := Empty) same isGood otherGood (sound.covered foundTarget)
                refine .settle running sound settled moves ?_ ?_ (fun value => value.elim)
                  (fun _ never => never.elim)
                · rintro ⟨object', other'⟩ mutexes ⟨good', -, rfl, -⟩
                  exact good_set (good_set sound.good (goodOf good')) (goodOf otherGood.clear)
                · rintro ⟨object', other'⟩ mutexes ⟨-, passed, rfl, shifts⟩ m
                  have before := balance m
                  have change := shifts m
                  have given := share_set (object_eq_some.mp foundTarget) (some object') m
                  have stays : (s.objects.set target (some object'))[source]? = some (some other) := by
                    rw [List.getElem?_set_ne self]
                    exact object_eq_some.mp foundSource
                  have taken := share_set stays (some other.clear) m
                  rw [List.count_nil] at change
                  simp only [ownedAt, Option.elim_some, passed.count_eq m, LockObject.clear_owned,
                    List.count_nil] at given taken ⊢
                  omega
  | pushBack i addLockables throws =>
      cases found : s.object i with
      | none => simp [found] at stepped
      | some object =>
          simp only [found] at stepped
          obtain ⟨⟨-, -, valid⟩, settled⟩ := Option.ite_none_right_eq_some.mp stepped
          have isGood := sound.good object (mem_of_object found)
          have longer := LockObject.pushBackImpl_ensures valid throws s.mutexes
          refine .settle running sound settled longer ?_ ?_ ?_ ?_
          · rintro ⟨ans, object'⟩ mutexes ⟨ansGood, rfl, -⟩
            exact good_added sound.good ansGood isGood.clear
          · rintro ⟨ans, object'⟩ mutexes ⟨-, rfl, gained, shifts, counts⟩ m
            have before := balance m
            have change := shifts m
            have moved := share_added found (ans, object.clear) m
            have counts := counts m
            rw [List.count_nil] at change
            simp only [LockObject.clear_owned, List.count_nil] at moved counts ⊢
            omega
          · rintro object' mutexes ⟨rfl, held⟩
            exact ⟨set_object found, held⟩
          · rintro kind ⟨rfl, notFilled⟩
            exact ⟨rfl, i, object, found, isGood.uniform.resolve_left notFilled, .inr ⟨addLockables, throws, rfl⟩⟩
  | destroy i =>
      cases found : s.object i with
      | none => simp [found] at stepped
      | some object =>
          simp only [found] at stepped
          have isGood := sound.good object (mem_of_object found)
          refine .settle running sound stepped (LockObject.destroy_ensures isGood (sound.covered found)) ?_ ?_
            (fun value => value.elim) (fun _ never => never.elim)
          · intro _ mutexes _
            exact good_set sound.good fun _ isSome => by cases isSome
          · intro _ mutexes shifts m
            have before := balance m
            have change := shifts m
            have moved := share_set (object_eq_some.mp found) none m
            rw [List.count_nil] at change
            simp only [ownedAt, Option.elim_some, Option.elim_none, List.count_nil] at moved
            omega

theorem sound_of_run {events : List (Event θ μ)} (reached : (machine comparison).run {} events = some s) :
    s.Sound comparison := by
  refine Machine.run_invariant (P := Sound comparison) (fun {s s' event} sound stepped => ?_) ?_ reached
  · exact (step_law sound stepped).sound
  · exact ⟨nofun, fun _ => rfl, nofun⟩

/-! ### The owner of a mutex -/

omit [DecidableEq θ]

theorem owns_iff {m : μ} : s.Owns i m ↔ ∃ entry, s.objects[i]? = some entry ∧ m ∈ ownedAt entry := by
  constructor
  · rintro ⟨object, found, locked, mem⟩
    refine ⟨some object, object_eq_some.mp found, ?_⟩
    rw [ownedAt, Option.elim_some, LockObject.owned_of_locked locked]
    exact mem
  · rintro ⟨entry, found, mem⟩
    cases entry with
    | none => cases mem
    | some object =>
        rw [ownedAt, Option.elim_some, LockObject.owned] at mem
        split at mem
        · exact ⟨object, object_eq_some.mpr found, ‹_›, mem⟩
        · cases mem

theorem Sound.nodup (sound : s.Sound comparison) : s.owners.Nodup := by
  rw [List.nodup_iff_count_le_one]
  intro m
  rw [sound.exclusive m]
  exact s.mutexes.weight_le_one m

theorem Sound.mem_owners (sound : s.Sound comparison) {m : μ} : m ∈ s.owners ↔ s.mutexes.held m = true := by
  rw [← List.count_pos_iff, sound.exclusive m, ← weight_eq_one]
  have bound := s.mutexes.weight_le_one m
  omega

theorem Owns.mem {m : μ} (owns : s.Owns i m) : m ∈ s.objects.flatMap ownedAt := by
  obtain ⟨entry, found, mem⟩ := owns_iff.mp owns
  exact List.mem_flatMap.mpr ⟨entry, List.mem_of_getElem? found, mem⟩

/-- No two locks own the same mutex. -/
theorem Sound.owns_unique (sound : s.Sound comparison) {j : Nat} {m : μ} (first : s.Owns i m)
    (second : s.Owns j m) : i = j := by
  obtain ⟨entry, found, mem⟩ := owns_iff.mp first
  obtain ⟨entry', found', mem'⟩ := owns_iff.mp second
  have apart := (List.nodup_flatMap.mp (List.nodup_append.mp sound.nodup).2.1).2
  obtain ⟨inside, rfl⟩ := List.getElem?_eq_some_iff.mp found
  obtain ⟨inside', rfl⟩ := List.getElem?_eq_some_iff.mp found'
  rw [List.pairwise_iff_getElem] at apart
  rcases Nat.lt_trichotomy i j with before | same | after
  · exact absurd mem' (apart i j inside inside' before mem)
  · exact same
  · exact absurd mem (apart j i inside' inside after mem')

/-- A locked mutex is owned by the caller or by one lock. -/
theorem Sound.owner (sound : s.Sound comparison) {m : μ} (held : s.mutexes.held m = true) :
    (m ∈ s.byHand ∧ ∀ i, ¬ s.Owns i m) ∨ (m ∉ s.byHand ∧ ∃! i, s.Owns i m) := by
  have separate := (List.nodup_append.mp sound.nodup).2.2
  rcases List.mem_append.mp (sound.mem_owners.mpr held) with byHand | byLock
  · exact .inl ⟨byHand, fun i owns => separate m byHand m owns.mem rfl⟩
  · obtain ⟨entry, mem, owned⟩ := List.mem_flatMap.mp byLock
    obtain ⟨i, found⟩ := List.getElem?_of_mem mem
    have owns : s.Owns i m := owns_iff.mpr ⟨entry, found, owned⟩
    right
    refine ⟨fun byHand => separate m byHand m byLock rfl, i, owns, ?_⟩
    intro j other
    exact sound.owns_unique other owns

end OrderedLockObjects

namespace OrderedLockObjects

variable {ω : Type w} [LinearOrder ω] [DecidableEq θ]

/-- What holds of the mutexes after every sequence of operations. -/
structure OwnedOnce (s : OrderedLockObjects type) : Prop where
  /-- A mutex that is locked is owned by one lock, unless the caller has locked it by hand. -/
  owner : ∀ m, s.mutexes.held m = true →
    (m ∈ s.byHand ∧ ∀ i, ¬ s.Owns i m) ∨ (m ∉ s.byHand ∧ ∃! i, s.Owns i m)
  held : ∀ i m, s.Owns i m → s.mutexes.held m = true
  /-- No mutex was unlocked that was not locked. -/
  defined : s.fault ≠ some .notHeld
  /-- Every mutex was locked and unlocked in turn. -/
  alternate : ∀ (m : μ) (calls : List (MutexCall μ)), calls.IsPrefix s.mutexes.calls →
    calls.count (.unlocked m) ≤ calls.count (.locked m) ∧ calls.count (.locked m) ≤ calls.count (.unlocked m) + 1
  /-- Once the locks are destroyed every mutex was unlocked as often as it was locked. -/
  balanced : s.byHand = [] → (∀ i, s.object i = none) →
    ∀ m, s.mutexes.calls.count (.locked m) = s.mutexes.calls.count (.unlocked m)

omit [DecidableEq θ] in
theorem Sound.ownedOnce {comparison : Comparison θ} {s : OrderedLockObjects type} (sound : s.Sound comparison) :
    s.OwnedOnce where
  owner _ := sound.owner
  held i m owns := sound.mem_owners.mp (List.mem_append_right _ owns.mem)
  defined := sound.defined
  alternate m _ := s.mutexes.calls_alternate m
  balanced noneByHand noLocks m := by
    rw [s.mutexes.calls_balance m, ← sound.exclusive m, owners, noneByHand, List.nil_append]
    have nobody : m ∉ s.objects.flatMap ownedAt := by
      intro mem
      obtain ⟨entry, isEntry, owned⟩ := List.mem_flatMap.mp mem
      obtain ⟨i, found⟩ := List.getElem?_of_mem isEntry
      obtain ⟨object, isObject, -⟩ := owns_iff.mpr ⟨entry, found, owned⟩
      rw [noLocks i] at isObject
      cases isObject
    rw [List.count_eq_zero_of_not_mem nobody, Nat.add_zero]

/-- `lock` acquires mutexes with different orders in strictly ascending order, or gives back what it has acquired
    when one of them throws; and in every sequence of operations on locks every mutex that was acquired is owned
    by one of them and is unlocked once, an operation that throws has changed nothing, and a null pointer is
    dereferenced only by `lock` or `push_back` on a lock without mutexes. -/
theorem mutex_owned_once (order : θ → ω) (type : μ → θ) :
    (∀ lockables : List μ, lockables ≠ [] → (lockables.map fun m => order (type m)).Nodup →
      ∀ (throws : μ → Bool) (s : Mutexes μ),
        LockResult order (.deferred type lockables) throws s
          ((LockObject.deferred type lockables).lock (.ofOrder order) throws s)) ∧
    ∀ (events : List (Event θ μ)) (s : OrderedLockObjects type),
      (machine (.ofOrder order)).run {} events = some s →
        s.OwnedOnce ∧
        (∀ i object, s.object i = some object → ¬ object.Emptied → ∀ throws : μ → Bool,
          LockResult order object throws s.mutexes (object.lock (.ofOrder order) throws s.mutexes)) ∧
        ∀ (event : Event θ μ) (s' : OrderedLockObjects type), (machine (.ofOrder order)).step s event = some s' →
          (s'.threw = true →
            s'.objects = s.objects ∧ s'.byHand = s.byHand ∧ s'.mutexes.held = s.mutexes.held) ∧
          (s'.fault = some .nullPointer → s.Misuse event) := by
  refine ⟨fun lockables _ distinct throws s => ?_, fun events s reached => ?_⟩
  · refine LockObject.lock_result ?_ LockObject.of_filled throws s
    rw [LockObject.of_types, List.map_map]
    exact distinct
  · have sound := sound_of_run reached
    refine ⟨sound.ownedOnce, ?_, ?_⟩
    · intro i object found notEmptied throws
      have good := sound.good object (mem_of_object found)
      exact LockObject.lock_result (Comparison.valid_iff.mp good.valid).2 (good.uniform.resolve_right notEmptied)
        throws s.mutexes
    · intro event s' stepped
      have law := step_law sound stepped
      exact ⟨law.unchanged, law.misused⟩

/-- A lock over the mutexes 2 and 0 is moved to one with the parameters in the other order and extended by the
    mutex 3, which throws at first. -/
theorem mutex_owned_once_extended :
    ∃ s : OrderedLockObjects (id : Nat → Nat),
      (machine (.ofOrder id)).run {}
        [.construct [2, 0] fun _ => false, .constructEmpty [0, 2], .moveAssign 1 0, .pushBack 1 [3] fun _ => true,
          .pushBack 1 [3] fun _ => false] = some s ∧
      s.mutexes.calls = [.locked 0, .locked 2, .threw 3, .locked 3] ∧ s.OwnedOnce :=
  Machine.exists_run ⟨_, rfl, rfl⟩ fun ran _ => ((mutex_owned_once id id).2 _ _ ran).1

end OrderedLockObjects

end CommonRpc
