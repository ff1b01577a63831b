/-
Module: CommonRpc.Proofs.OrderedLock
Purpose: Locking in a fixed order is free of deadlock. The bubble sort puts the arguments of a lock in ascending
  order whatever order they come in; the check for repeated orders and the check of `push_back` are exact. Hence
  a thread that asks for a mutex holds only mutexes of lower orders, also when it extends a lock that it holds,
  and CommonRpc.Lib.WaitGraph applies.
Trusted boundary: none
-/
import CommonRpc.Core.OrderedLock
import CommonRpc.Lib.WaitGraph
import Mathlib.Data.List.Nodup
import Mathlib.Data.Nat.Basic
import Mathlib.Order.Lattice

namespace CommonRpc

universe u v

/-! ### The sort -/

namespace SortTuple

variable {α : Type u}

theorem bubbleRiseFrom_perm (compare : α → α → Bool) (arg : α) (args : List α) :
    (bubbleRiseFrom compare arg args).Perm (arg :: args) := by
  induction args generalizing arg with
  | nil => exact .refl _
  | cons next args ih =>
      simp only [bubbleRiseFrom]
      split
      · exact (ih next).cons arg
      · exact ((ih arg).cons next).trans (.swap arg next args)

section Ascending

variable {compare : α → α → Bool} {P : α → Prop} {R : α → α → Prop}
  (trans : ∀ {a b c}, P a → P b → P c → R a b → R b c → R a c)
  (kept : ∀ {a b}, P a → P b → compare a b = true → R a b)
  (swapped : ∀ {a b}, P a → P b → compare a b = false → R b a)
include trans kept swapped

/-- What rises to the end is a greatest element, if the comparison decides an order between the elements. -/
theorem bubbleRiseFrom_greatest (arg : α) (args : List α) (all : ∀ x ∈ arg :: args, P x) :
    ∃ rest last, bubbleRiseFrom compare arg args = rest ++ [last] ∧ ∀ x ∈ rest, R x last := by
  induction args generalizing arg with
  | nil => exact ⟨[], arg, rfl, nofun⟩
  | cons next args ih =>
      -- the head that stays behind is not above the one that goes on
      have extend {low high : α} (isLow : P low) (isHigh : P high) (others : ∀ x ∈ args, P x)
          (notAbove : R low high) :
          ∃ rest last, low :: bubbleRiseFrom compare high args = rest ++ [last] ∧ ∀ x ∈ rest, R x last := by
        have allHigh : ∀ x ∈ high :: args, P x := by
          intro x member
          rcases List.mem_cons.mp member with rfl | later
          · exact isHigh
          · exact others x later
        obtain ⟨rest, last, shape, greatest⟩ := ih high allHigh
        have permuted := bubbleRiseFrom_perm compare high args
        have risen : high ∈ rest ++ [last] := shape ▸ permuted.mem_iff.mpr (.head _)
        have isLast : P last := allHigh last (permuted.mem_iff.mp (shape ▸ by simp))
        have bound : R low last := by
          rcases List.mem_append.mp risen with inside | atEnd
          · exact trans isLow isHigh isLast notAbove (greatest high inside)
          · exact List.mem_singleton.mp atEnd ▸ notAbove
        refine ⟨low :: rest, last, by rw [shape]; rfl, fun x mem => ?_⟩
        rcases List.mem_cons.mp mem with rfl | inside
        · exact bound
        · exact greatest x inside
      have isArg : P arg := all arg (by simp)
      have isNext : P next := all next (by simp)
      have others : ∀ x ∈ args, P x := fun x member => all x (by simp [member])
      simp only [bubbleRiseFrom]
      split
      next below => exact extend isArg isNext others (kept isArg isNext below)
      next above => exact extend isNext isArg others (swapped isArg isNext (Bool.eq_false_iff.mpr above))

/-- The sort rearranges the tuple and puts it in ascending order. -/
theorem sortTupleBase_ascending {size : Nat} {tuple : List α} (sized : tuple.length = size)
    (all : ∀ x ∈ tuple, P x) :
    (sortTupleBase compare size tuple).Perm tuple ∧ (sortTupleBase compare size tuple).Pairwise R := by
  induction size generalizing tuple with
  | zero =>
      rw [List.length_eq_zero_iff.mp sized]
      exact ⟨.nil, .nil⟩
  | succ size ih =>
      cases tuple with
      | nil => cases sized
      | cons arg args =>
          obtain ⟨rest, last, shape, greatest⟩ := bubbleRiseFrom_greatest trans kept swapped arg args all
          have permuted : (rest ++ [last]).Perm (arg :: args) := shape ▸ bubbleRiseFrom_perm _ arg args
          have shorter : rest.length = size := by
            have := permuted.length_eq
            simp only [List.length_append, List.length_singleton] at this
            omega
          have fewer : ∀ x ∈ rest, P x := fun x member => all x (permuted.mem_iff.mp (by simp [member]))
          obtain ⟨perm, ascending⟩ := ih shorter fewer
          simp only [sortTupleBase, doBubbleRise, shape, List.dropLast_concat, List.getLast?_concat,
            Option.toList_some]
          refine ⟨(perm.append_right [last]).trans permuted, ?_⟩
          refine List.pairwise_append.mpr ⟨ascending, List.pairwise_singleton _ _, ?_⟩
          intro a mem b isLast
          rw [List.mem_singleton.mp isLast]
          exact greatest a (perm.mem_iff.mp mem)

end Ascending

/-- The sort rearranges the tuple, whatever the comparison is. -/
theorem sortTuple_perm (compare : α → α → Bool) (tuple : List α) : (sortTuple compare tuple).Perm tuple :=
  (sortTupleBase_ascending (P := fun _ => True) (R := fun _ _ => True) (fun _ _ _ _ _ => trivial)
    (fun _ _ _ => trivial) (fun _ _ _ => trivial) rfl (fun _ _ => trivial)).1

theorem sortTupleBase_spec {ω : Type v} [LinearOrder ω] (key : α → ω) {size : Nat} {tuple : List α}
    (sized : tuple.length = size) :
    (sortTupleBase (fun a b => key a < key b) size tuple).Perm tuple ∧
    (sortTupleBase (fun a b => key a < key b) size tuple).Pairwise fun a b => key a ≤ key b := by
  refine sortTupleBase_ascending (P := fun _ => True) (R := fun a b => key a ≤ key b)
    (fun _ _ _ => le_trans) ?_ ?_ sized (fun _ _ => trivial)
  · intro a b _ _ below
    exact le_of_lt (of_decide_eq_true below)
  · intro a b _ _ above
    exact le_of_not_gt (of_decide_eq_false above)

end SortTuple

/-- In an ascending list equal keys are neighbours. -/
theorem pairwise_lt_of_neighbours {α : Type u} {ω : Type v} [LinearOrder ω] (key : α → ω) {l : List α}
    (ascending : l.Pairwise fun a b => key a ≤ key b)
    (distinct : (l.zip l.tail).any (fun pair => key pair.1 = key pair.2) = false) :
    l.Pairwise fun a b => key a < key b := by
  induction l with
  | nil => exact .nil
  | cons a l ih =>
      cases l with
      | nil => exact List.pairwise_singleton _ _
      | cons b l =>
          obtain ⟨above, ascending⟩ := List.pairwise_cons.mp ascending
          simp only [List.tail_cons, List.zip_cons_cons, List.any_cons, Bool.or_eq_false_iff,
            decide_eq_false_iff_not] at distinct
          have strict := ih ascending distinct.2
          have first : key a < key b := lt_of_le_of_ne (above b (.head _)) distinct.1
          refine List.pairwise_cons.mpr ⟨fun c mem => ?_, strict⟩
          rcases List.mem_cons.mp mem with rfl | later
          · exact first
          · exact lt_trans first ((List.pairwise_cons.mp strict).1 c later)

namespace Comparison

/-! ### The checks at compile time -/

variable {μ : Type u} {ω : Type v} [LinearOrder ω] (order : μ → ω)

theorem sorted_perm (comparison : Comparison μ) (lockables : List μ) :
    (comparison.sorted lockables).Perm lockables :=
  SortTuple.sortTuple_perm comparison.less lockables

theorem sorted_pairwise (lockables : List μ) :
    (sorted (.ofOrder order) lockables).Pairwise fun a b => order a ≤ order b :=
  (SortTuple.sortTupleBase_spec order rfl).2

theorem neighbours_of_pairwise {l : List μ} (distinct : l.Pairwise fun a b => order a ≠ order b) :
    (l.zip l.tail).any (fun pair => order pair.1 = order pair.2) = false := by
  induction l with
  | nil => rfl
  | cons a l ih =>
      cases l with
      | nil => rfl
      | cons b l =>
          obtain ⟨others, distinct⟩ := List.pairwise_cons.mp distinct
          simp only [List.tail_cons, List.zip_cons_cons, List.any_cons, Bool.or_eq_false_iff,
            decide_eq_false_iff_not]
          exact ⟨others b (.head _), ih distinct⟩

variable {order}

/-- The mutexes of a lock that compiles are locked in strictly ascending order. -/
theorem sorted_ascending {lockables : List μ}
    (distinct : isThereRepeatingOrderNumber (.ofOrder order) lockables = false) :
    (sorted (.ofOrder order) lockables).Pairwise fun a b => order a < order b :=
  pairwise_lt_of_neighbours order (sorted_pairwise order lockables) distinct

/-- The check for repeated orders is exact. -/
theorem repeating_eq_false_iff {lockables : List μ} :
    isThereRepeatingOrderNumber (.ofOrder order) lockables = false ↔ (lockables.map order).Nodup := by
  have permuted := ((sorted_perm (.ofOrder order) lockables).map order).nodup_iff
  constructor
  · intro distinct
    refine permuted.mp (List.pairwise_map.mpr ?_)
    exact (sorted_ascending distinct).imp ne_of_lt
  · intro nodup
    exact neighbours_of_pairwise order (List.pairwise_map.mp (permuted.mpr nodup))

/-- The check of `push_back` is exact. -/
theorem compareOrderedLockableTuples_iff {tuple1 tuple2 : List μ} (nonempty1 : tuple1 ≠ [])
    (nonempty2 : tuple2 ≠ []) :
    compareOrderedLockableTuples (.ofOrder order) tuple1 tuple2 = true ↔
      ∀ a ∈ tuple1, ∀ b ∈ tuple2, order a < order b := by
  have perm1 := sorted_perm (.ofOrder order) tuple1
  have perm2 := sorted_perm (.ofOrder order) tuple2
  have ascending1 := sorted_pairwise order tuple1
  have ascending2 := sorted_pairwise order tuple2
  obtain ⟨init, last, shape1⟩ : ∃ init last, sorted (.ofOrder order) tuple1 = init ++ [last] :=
    List.eq_nil_or_concat' _ |>.resolve_left fun empty => nonempty1 (empty ▸ perm1).nil_eq.symm
  obtain ⟨first, rest, shape2⟩ : ∃ first rest, sorted (.ofOrder order) tuple2 = first :: rest :=
    List.exists_cons_of_ne_nil fun empty => nonempty2 (empty ▸ perm2).nil_eq.symm
  rw [shape1] at perm1 ascending1
  rw [shape2] at perm2 ascending2
  have greatest {a : μ} (mem : a ∈ tuple1) : order a ≤ order last := by
    rcases List.mem_append.mp (perm1.mem_iff.mpr mem) with inside | isLast
    · exact (List.pairwise_append.mp ascending1).2.2 a inside last (.head _)
    · exact le_of_eq (congrArg order (List.mem_singleton.mp isLast))
  have least {b : μ} (mem : b ∈ tuple2) : order first ≤ order b := by
    rcases List.mem_cons.mp (perm2.mem_iff.mpr mem) with rfl | later
    · exact le_refl _
    · exact (List.pairwise_cons.mp ascending2).1 b later
  simp only [compareOrderedLockableTuples, shape1, shape2, List.getLast?_concat, List.head?_cons]
  rw [ofOrder, decide_eq_true_iff]
  constructor
  · intro below a memA b memB
    exact lt_of_le_of_lt (greatest memA) (lt_of_lt_of_le below (least memB))
  · intro all
    exact all last (perm1.mem_iff.mp (by simp)) first (perm2.mem_iff.mp (.head _))

/-- What the compiler checks of the arguments of a lock. -/
theorem valid_iff {lockables : List μ} :
    isOrderedLockableTypesValid (.ofOrder order) lockables = true ↔
      lockables ≠ [] ∧ (lockables.map order).Nodup := by
  simp [isOrderedLockableTypesValid, repeating_eq_false_iff]

theorem valid_append {own addLockables : List μ} (valid : isOrderedLockableTypesValid (.ofOrder order) own = true)
    (addValid : isOrderedLockableTypesValid (.ofOrder order) addLockables = true)
    (below : ∀ a ∈ own, ∀ b ∈ addLockables, order a < order b) :
    isOrderedLockableTypesValid (.ofOrder order) (own ++ addLockables) = true := by
  rw [valid_iff] at valid addValid ⊢
  refine ⟨by simp [valid.1], ?_⟩
  rw [List.map_append, List.nodup_append]
  refine ⟨valid.2, addValid.2, ?_⟩
  intro i memI j memJ
  obtain ⟨a, memA, rfl⟩ := List.mem_map.mp memI
  obtain ⟨b, memB, rfl⟩ := List.mem_map.mp memJ
  exact ne_of_lt (below a memA b memB)

end Comparison

namespace OrderedLocks

open Lib Comparison

variable {τ : Type v} {μ : Type u}

/-! ### What a thread holds -/

namespace Thread

/-- The mutexes of the lock of a thread, if it is locked. -/
def own (thread : Thread μ) : List μ :=
  match thread.lock with
  | some lock => if lock.isLocked then lock.lockables else []
  | none => []

/-- The mutexes that a thread has taken and not given back. -/
def held (thread : Thread μ) : List μ :=
  match thread.activity with
  | .idle => thread.own
  | .locking _ locked _ | .unwinding _ locked => thread.own ++ locked
  | .unlocking _ locked => locked

/-- What `do_safe_lock` works on. -/
def Locks (order : μ → Nat) (thread : Thread μ) : Purpose μ → List μ → Prop
  | .construct, lockables | .lock, lockables => thread.lock = some { lockables, isLocked := false }
  | .extend addLockables, lockables => lockables = addLockables ∧
      ∃ own, thread.lock = some { lockables := own, isLocked := true } ∧
        ∀ a ∈ own, ∀ b ∈ addLockables, order a < order b

/-- A call of `do_safe_lock` or of `unlock` that is under way. -/
def Working (order : μ → Nat) (thread : Thread μ) : Prop :=
  match thread.activity with
  | .idle => True
  | .locking purpose locked rest => ∃ lockables, thread.Locks order purpose lockables ∧
      isOrderedLockableTypesValid (.ofOrder order) lockables = true ∧
      sorted (.ofOrder order) lockables = locked ++ rest
  | .unwinding purpose _ => ∃ lockables, thread.Locks order purpose lockables
  | .unlocking _ _ => ∃ lock, thread.lock = some lock

/-- How the lock of a thread and what it is doing hang together. -/
structure Sound (order : μ → Nat) (thread : Thread μ) : Prop where
  valid : ∀ lock, thread.lock = some lock → isOrderedLockableTypesValid (.ofOrder order) lock.lockables = true
  working : thread.Working order

variable {order : μ → Nat} {thread : Thread μ}

theorem held_idle (idle : thread.activity = .idle) : thread.held = thread.own := by
  unfold held
  rw [idle]

theorem own_unlocked {lockables : List μ} (unlocked : thread.lock = some { lockables, isLocked := false }) :
    thread.own = [] := by
  simp [own, unlocked]

theorem own_locked {lockables : List μ} (locked : thread.lock = some { lockables, isLocked := true }) :
    thread.own = lockables := by
  simp [own, locked]

/-- An idle thread with a lock that compiles. -/
theorem sound_idle {lock : OrderedLock μ}
    (valid : isOrderedLockableTypesValid (.ofOrder order) lock.lockables = true) :
    Sound order { lock := some lock } :=
  ⟨fun _ isLock => Option.some.inj isLock ▸ valid, trivial⟩

theorem sound_none : Sound order ({} : Thread μ) := ⟨nofun, trivial⟩

/-- The mutex that a thread asks for is above all that it holds. -/
theorem Sound.ascending (sound : thread.Sound order) {h m : μ} (holds : h ∈ thread.held)
    (asks : thread.wanted = some m) : order h < order m := by
  have working := sound.working
  unfold wanted at asks
  unfold held at holds
  unfold Working at working
  split at asks
  · rename_i purpose locked rest activity
    simp only [activity] at holds working
    obtain ⟨lockables, locks, valid, shape⟩ := working
    have strict := sorted_ascending (repeating_eq_false_iff.mpr (valid_iff.mp valid).2)
    rw [shape, List.pairwise_append] at strict
    have next : m ∈ rest := List.mem_of_mem_head? asks
    have isOwn : m ∈ lockables :=
      (sorted_perm (.ofOrder order) lockables).mem_iff.mp (shape ▸ List.mem_append_right _ next)
    rcases List.mem_append.mp holds with before | inLocked
    · cases purpose with
      | construct | lock => simp [own_unlocked locks] at before
      | extend addLockables =>
          obtain ⟨rfl, own, isLock, below⟩ := locks
          rw [own_locked isLock] at before
          exact below h before m isOwn
    · exact strict.2.2 h inLocked m next
  all_goals cases asks

/-- At the call of `do_safe_lock` the thread holds what its lock has. -/
theorem beginLocking_sound {lock : OrderedLock μ} {lockables : List μ} (purpose : Purpose μ)
    (valid : isOrderedLockableTypesValid (.ofOrder order) lock.lockables = true)
    (locks : Locks order { lock := some lock, activity := beginLocking order purpose lockables }
      purpose lockables)
    (allowed : isOrderedLockableTypesValid (.ofOrder order) lockables = true) :
    Sound order { lock := some lock, activity := beginLocking order purpose lockables } ∧
      held { lock := some lock, activity := beginLocking order purpose lockables } =
        if lock.isLocked then lock.lockables else [] :=
  ⟨⟨(sound_idle valid).valid, lockables, locks, allowed, rfl⟩, List.append_nil _⟩

/-- At the call of `unlock` too. -/
theorem beginUnlocking_sound {lock : OrderedLock μ} (destructor : Bool)
    (valid : isOrderedLockableTypesValid (.ofOrder order) lock.lockables = true) :
    Sound order { lock := some lock, activity := .unlocking destructor (sorted (.ofOrder order) lock.lockables) } ∧
      (held { lock := some lock, activity := .unlocking destructor (sorted (.ofOrder order) lock.lockables) }).Perm
        lock.lockables :=
  ⟨⟨(sound_idle valid).valid, lock, rfl⟩, sorted_perm (.ofOrder order) lock.lockables⟩

/-- When `do_safe_lock` has succeeded, the thread holds what it held and the new mutexes. -/
theorem locked_sound {purpose : Purpose μ} {lockables : List μ} (sound : thread.Sound order)
    (locks : thread.Locks order purpose lockables)
    (valid : isOrderedLockableTypesValid (.ofOrder order) lockables = true) :
    (thread.locked purpose).Sound order ∧ (thread.locked purpose).held = thread.own ++ lockables := by
  cases purpose with
  | construct | lock =>
      have isLock : thread.lock = some { lockables, isLocked := false } := locks
      simp only [locked, isLock, Option.map_some, own_unlocked isLock, List.nil_append]
      exact ⟨sound_idle valid, rfl⟩
  | extend addLockables =>
      obtain ⟨rfl, own, isLock, below⟩ := locks
      simp only [locked, isLock, Option.map_some, own_locked isLock]
      exact ⟨sound_idle (valid_append (sound.valid _ isLock) valid below), rfl⟩

/-- When `do_safe_lock` has failed, the thread holds what it held before the call. -/
theorem failed_sound {purpose : Purpose μ} {lockables : List μ} (sound : thread.Sound order)
    (locks : thread.Locks order purpose lockables) :
    (thread.failed purpose).Sound order ∧ (thread.failed purpose).held = thread.own := by
  cases purpose with
  | construct => exact ⟨sound_none, (own_unlocked locks).symm⟩
  | lock => exact ⟨⟨sound.valid, trivial⟩, rfl⟩
  | extend addLockables => exact ⟨⟨sound.valid, trivial⟩, rfl⟩

theorem unlocked_sound {lock : OrderedLock μ} (sound : thread.Sound order) (isLock : thread.lock = some lock)
    (destructor : Bool) :
    (thread.unlocked destructor).Sound order ∧ (thread.unlocked destructor).held = [] := by
  cases destructor with
  | true => exact ⟨sound_none, rfl⟩
  | false =>
      simp only [unlocked, isLock, Option.map_some]
      exact ⟨sound_idle (sound.valid lock isLock), rfl⟩

end Thread

/-! ### All threads -/

section System

variable {order : μ → Nat}

/-- The mutexes know who holds them. -/
structure Consistent (order : μ → Nat) (s : OrderedLocks τ μ) : Prop where
  sound : ∀ t, (s.threads t).Sound order
  nodup : ∀ t, (s.threads t).held.Nodup
  owned : ∀ m t, s.owner m = some t ↔ m ∈ (s.threads t).held

theorem consistent_init : Consistent order ({} : OrderedLocks τ μ) where
  sound _ := ⟨nofun, trivial⟩
  nodup _ := List.nodup_nil
  owned m t := by simp [Thread.held, Thread.own]

variable [DecidableEq τ] {s s' : OrderedLocks τ μ} {t : τ} {thread : Thread μ} {m : μ}

/-- A thread goes on; the mutexes it has taken, given back or kept are accounted for. -/
theorem Consistent.update (consistent : Consistent order s)
    (threads : s'.threads = Function.update s.threads t thread)
    (sound : thread.Sound order) (nodup : thread.held.Nodup)
    (own : ∀ x, s'.owner x = some t ↔ x ∈ thread.held)
    (others : ∀ x u, u ≠ t → (s'.owner x = some u ↔ s.owner x = some u)) : Consistent order s' := by
  have cases (u : τ) : u = t ∧ s'.threads u = thread ∨ u ≠ t ∧ s'.threads u = s.threads u := by
    rw [threads]
    by_cases same : u = t
    · subst same
      exact .inl ⟨rfl, Function.update_self ..⟩
    · exact .inr ⟨same, Function.update_of_ne same ..⟩
  constructor
  · intro u
    rcases cases u with ⟨_, now⟩ | ⟨_, now⟩ <;> rw [now]
    · exact sound
    · exact consistent.sound u
  · intro u
    rcases cases u with ⟨_, now⟩ | ⟨_, now⟩ <;> rw [now]
    · exact nodup
    · exact consistent.nodup u
  · intro x u
    rcases cases u with ⟨rfl, now⟩ | ⟨other, now⟩ <;> rw [now]
    · exact own x
    · exact (others x u other).trans (consistent.owned x u)

/-- The thread neither takes a mutex nor gives one back. -/
theorem Consistent.setThread (consistent : Consistent order s) (sound : thread.Sound order)
    (same : thread.held.Perm (s.threads t).held) : Consistent order (s.setThread t thread) := by
  have threads : (s.setThread t thread).threads = Function.update s.threads t thread := rfl
  refine consistent.update threads sound (same.nodup_iff.mpr (consistent.nodup t)) ?_ (fun _ _ _ => Iff.rfl)
  intro x
  exact (consistent.owned x t).trans same.mem_iff.symm

theorem onIdle_eq_some {next : Option (OrderedLock μ) → Option (Thread μ)} (stepped : s.onIdle t next = some s') :
    ∃ thread, (s.threads t).activity = .idle ∧ next (s.threads t).lock = some thread ∧
      s' = s.setThread t thread := by
  unfold onIdle at stepped
  split at stepped
  · rename_i idle
    obtain ⟨thread, isNext, rfl⟩ := Option.map_eq_some_iff.mp stepped
    exact ⟨thread, idle, isNext, rfl⟩
  all_goals cases stepped

/-- A function of the lock of an idle thread. -/
theorem consistent_onIdle (consistent : Consistent order s)
    {next : Option (OrderedLock μ) → Option (Thread μ)} (stepped : s.onIdle t next = some s')
    (sound : ∀ thread, (∀ lock, (s.threads t).lock = some lock →
        isOrderedLockableTypesValid (.ofOrder order) lock.lockables = true) →
      next (s.threads t).lock = some thread → thread.Sound order ∧ thread.held.Perm (s.threads t).own) :
    Consistent order s' := by
  obtain ⟨thread, idle, isNext, rfl⟩ := onIdle_eq_some stepped
  obtain ⟨isSound, same⟩ := sound thread (consistent.sound t).valid isNext
  refine consistent.setThread isSound ?_
  rwa [Thread.held_idle idle]

/-- A function that needs a lock. -/
theorem consistent_onLock (consistent : Consistent order s)
    {next : Option (OrderedLock μ) → Option (Thread μ)} (stepped : s.onIdle t next = some s')
    (needsLock : next none = none)
    (sound : ∀ lock thread, isOrderedLockableTypesValid (.ofOrder order) lock.lockables = true →
      next (some lock) = some thread →
      thread.Sound order ∧ thread.held.Perm (if lock.isLocked then lock.lockables else [])) :
    Consistent order s' := by
  refine consistent_onIdle consistent stepped fun thread valid isNext => ?_
  cases isLock : (s.threads t).lock with
  | none =>
      rw [isLock, needsLock] at isNext
      cases isNext
  | some lock =>
      rw [isLock] at isNext
      have own : (s.threads t).own = if lock.isLocked then lock.lockables else [] := by
        rw [Thread.own, isLock]
      rw [own]
      exact sound lock thread (valid lock isLock) isNext

variable [DecidableEq μ]

/-- The thread takes a mutex that nobody has. -/
theorem Consistent.take (consistent : Consistent order s) (free : s.owner m = none) (sound : thread.Sound order)
    (held : thread.held.Perm ((s.threads t).held ++ [m])) :
    Consistent order ((s.setOwner m (some t)).setThread t thread) := by
  have new : m ∉ (s.threads t).held := fun mem => by simp [(consistent.owned m t).mpr mem] at free
  refine consistent.update rfl sound (held.nodup_iff.mpr ?_) ?_ ?_
  · exact List.nodup_append.mpr ⟨consistent.nodup t, List.nodup_singleton m, by grind⟩
  · intro x
    rw [held.mem_iff, List.mem_append, List.mem_singleton, ← consistent.owned]
    by_cases same : x = m
    · subst same
      simp [OrderedLocks.setThread, setOwner]
    · simp [OrderedLocks.setThread, setOwner, same]
  · intro x u other
    by_cases same : x = m
    · subst same
      simp [OrderedLocks.setThread, setOwner, free, Ne.symm other]
    · simp [OrderedLocks.setThread, setOwner, Function.update_of_ne same]

/-- The thread gives a mutex back. -/
theorem Consistent.give (consistent : Consistent order s) (sound : thread.Sound order)
    (held : (s.threads t).held.Perm (thread.held ++ [m])) :
    Consistent order ((s.setOwner m none).setThread t thread) := by
  have nodup := held.nodup_iff.mp (consistent.nodup t)
  have mine : s.owner m = some t := (consistent.owned m t).mpr (held.mem_iff.mpr (by simp))
  refine consistent.update rfl sound (List.nodup_append.mp nodup).1 ?_ ?_
  · intro x
    by_cases same : x = m
    · subst same
      have gone : x ∉ thread.held := fun mem => (List.nodup_append.mp nodup).2.2 x mem x (.head _) rfl
      simp [OrderedLocks.setThread, setOwner, gone]
    · have before := consistent.owned x t
      rw [held.mem_iff, List.mem_append, List.mem_singleton] at before
      simpa [OrderedLocks.setThread, setOwner, Function.update_of_ne same, same] using before
  · intro x u other
    by_cases same : x = m
    · subst same
      simp [OrderedLocks.setThread, setOwner, mine, Ne.symm other]
    · simp [OrderedLocks.setThread, setOwner, Function.update_of_ne same]

/-! ### The steps -/

theorem consistent_acquire (consistent : Consistent order s) (stepped : s.acquire t = some s') :
    Consistent order s' := by
  have sound := consistent.sound t
  have working := sound.working
  unfold acquire at stepped
  split at stepped
  · rename_i purpose locked m rest activity
    split at stepped
    · cases stepped
    rename_i taken
    cases stepped
    have free : s.owner m = none := by simpa using taken
    have held : (s.threads t).held = (s.threads t).own ++ locked := by
      unfold Thread.held
      rw [activity]
    unfold Thread.Working at working
    rw [activity] at working
    obtain ⟨lockables, locks, valid, shape⟩ := working
    cases rest with
    | nil =>
        have all : lockables.Perm (locked ++ [m]) := shape ▸ (sorted_perm (.ofOrder order) lockables).symm
        obtain ⟨soundNow, heldNow⟩ := Thread.locked_sound sound locks valid
        have heldAll : ((s.threads t).locked purpose).held.Perm ((s.threads t).held ++ [m]) := by
          rw [heldNow, held, List.append_assoc]
          exact all.append_left _
        exact consistent.take free soundNow heldAll
    | cons next rest =>
        refine consistent.take free ⟨sound.valid, ?_⟩ ?_
        · refine ⟨lockables, ?_, valid, by rw [shape]; simp⟩
          cases purpose <;> exact locks
        · rw [held, List.append_assoc]
          exact .refl _
  · cases stepped

theorem consistent_release (consistent : Consistent order s) (stepped : s.release t = some s') :
    Consistent order s' := by
  have sound := consistent.sound t
  have working := sound.working
  unfold release at stepped
  unfold Thread.Working at working
  split at stepped
  · rename_i purpose locked activity
    have held : (s.threads t).held = (s.threads t).own ++ locked := by
      unfold Thread.held
      rw [activity]
    rw [activity] at working
    obtain ⟨lockables, locks⟩ := working
    split at stepped
    · rename_i m isLast
      cases stepped
      have before : (s.threads t).held = (s.threads t).own ++ locked.dropLast ++ [m] := by
        rw [held, List.append_assoc, List.dropLast_append_getLast? m isLast]
      refine consistent.give ⟨sound.valid, lockables, ?_⟩ (.of_eq before)
      cases purpose <;> exact locks
    · rename_i none
      cases stepped
      obtain ⟨soundNow, heldNow⟩ := Thread.failed_sound sound locks
      refine consistent.setThread soundNow ?_
      rw [heldNow, held, List.getLast?_eq_none_iff.mp none, List.append_nil]
  · rename_i destructor locked activity
    have held : (s.threads t).held = locked := by
      unfold Thread.held
      rw [activity]
    rw [activity] at working
    obtain ⟨lock, isLock⟩ := working
    split at stepped
    · rename_i m isLast
      cases stepped
      have before : (s.threads t).held = locked.dropLast ++ [m] := by
        rw [held, List.dropLast_append_getLast? m isLast]
      exact consistent.give ⟨sound.valid, lock, isLock⟩ (.of_eq before)
    · rename_i none
      cases stepped
      obtain ⟨soundNow, heldNow⟩ := Thread.unlocked_sound sound isLock destructor
      refine consistent.setThread soundNow ?_
      rw [heldNow, held, List.getLast?_eq_none_iff.mp none]
  · cases stepped
  · cases stepped

theorem consistent_step {e : Event τ μ} (consistent : Consistent order s) (stepped : s.step order e = some s') :
    Consistent order s' := by
  cases e with
  | construct t lockables =>
      simp only [step] at stepped
      refine consistent_onIdle consistent stepped fun thread _ isNext => ?_
      split at isNext
      · rename_i allowed
        cases isNext
        rw [Bool.and_eq_true, Option.isNone_iff_eq_none] at allowed
        obtain ⟨sound, held⟩ := Thread.beginLocking_sound .construct allowed.2 rfl allowed.2
        exact ⟨sound, .of_eq (held.trans (by simp [Thread.own, allowed.1]))⟩
      · cases isNext
  | constructDeferred t lockables =>
      simp only [step] at stepped
      refine consistent_onIdle consistent stepped fun thread _ isNext => ?_
      split at isNext
      · rename_i allowed
        cases isNext
        rw [Bool.and_eq_true, Option.isNone_iff_eq_none] at allowed
        exact ⟨Thread.sound_idle allowed.2, by simp [Thread.own, Thread.held, allowed.1]⟩
      · cases isNext
  | lock t =>
      simp only [step] at stepped
      refine consistent_onLock consistent stepped rfl fun ⟨lockables, isLocked⟩ thread valid isNext => ?_
      cases isLocked with
      | true => cases isNext
      | false =>
          cases isNext
          obtain ⟨sound, held⟩ := Thread.beginLocking_sound .lock valid rfl valid
          exact ⟨sound, .of_eq held⟩
  | acquire t => exact consistent_acquire consistent stepped
  | throws t =>
      simp only [step] at stepped
      split at stepped
      · rename_i purpose locked _ _ activity
        cases stepped
        have sound := consistent.sound t
        have working := sound.working
        unfold Thread.Working at working
        rw [activity] at working
        obtain ⟨lockables, locks, _⟩ := working
        refine consistent.setThread ⟨sound.valid, lockables, ?_⟩ ?_
        · cases purpose <;> exact locks
        · unfold Thread.held
          rw [activity]
          exact .refl _
      · cases stepped
  | release t => exact consistent_release consistent stepped
  | unlock t =>
      simp only [step] at stepped
      refine consistent_onLock consistent stepped rfl fun ⟨lockables, isLocked⟩ thread valid isNext => ?_
      cases isLocked with
      | true =>
          cases isNext
          exact Thread.beginUnlocking_sound false valid
      | false => cases isNext
  | destroy t =>
      simp only [step] at stepped
      refine consistent_onLock consistent stepped rfl fun ⟨lockables, isLocked⟩ thread valid isNext => ?_
      cases isLocked with
      | true =>
          cases isNext
          exact Thread.beginUnlocking_sound true valid
      | false =>
          cases isNext
          exact ⟨Thread.sound_none, .refl _⟩
  | pushBack t addLockables =>
      simp only [step] at stepped
      refine consistent_onLock consistent stepped rfl fun ⟨lockables, isLocked⟩ thread valid isNext => ?_
      simp only at isNext
      split at isNext
      · rename_i allowed
        cases isNext
        rw [Bool.and_eq_true] at allowed
        have below :=
          (compareOrderedLockableTuples_iff (valid_iff.mp valid).1 (valid_iff.mp allowed.1).1).mp allowed.2
        cases isLocked with
        | true =>
            obtain ⟨sound, held⟩ := Thread.beginLocking_sound (.extend addLockables) valid
              ⟨rfl, lockables, rfl, below⟩ allowed.1
            exact ⟨sound, .of_eq held⟩
        | false => exact ⟨Thread.sound_idle (valid_append valid allowed.1 below), .refl _⟩
      · cases isNext

theorem consistent_of_run {es : List (Event τ μ)} (ran : (machine order).run {} es = some s) :
    Consistent order s :=
  Machine.run_invariant (P := Consistent order) consistent_step consistent_init ran

end System

/-! ### No deadlock -/

/-- Who holds a mutex, and who asks for one. -/
def waitGraph (s : OrderedLocks τ μ) : WaitGraph τ μ where
  holds t m := s.owner m = some t
  waits t m := (s.threads t).wanted = some m

theorem Consistent.ascending {order : μ → Nat} {s : OrderedLocks τ μ} (consistent : Consistent order s) :
    s.waitGraph.Ascending order :=
  fun t _ _ holds waits => (consistent.sound t).ascending ((consistent.owned _ t).mp holds) waits

/-- Whatever the threads do, and in whatever order they take the mutexes they ask for: no chain of threads, each
    waiting for a mutex that the next one holds, comes back to where it started. -/
theorem no_wait_cycle [DecidableEq τ] [DecidableEq μ] {order : μ → Nat} {s : OrderedLocks τ μ}
    {es : List (Event τ μ)} (ran : (machine order).run {} es = some s) (t : τ) :
    ¬ Relation.TransGen s.waitGraph.WaitsFor t t := by
  have ascending : s.waitGraph.Ascending order := (consistent_of_run ran).ascending
  refine WaitGraph.acyclic_of_ascending ascending ?_ t
  intro u wanted wanted' first second
  exact Option.some.inj (first.symm.trans second)

/-- Three threads in a row: the first waits for the second, which has its arguments in descending order, and the
    second for the third, which has extended its lock. The mutexes 21 and 22 share an order. -/
theorem no_wait_cycle_example :
    ∃ s : OrderedLocks Nat Nat,
      (machine (· / 10)).run {} [.constructDeferred 2 [22], .lock 2, .acquire 2, .construct 1 [31, 21, 11],
        .acquire 1, .acquire 1, .pushBack 2 [31], .construct 0 [11], .acquire 2] = some s ∧
      (s.waitGraph.WaitsFor 0 1 ∧ s.waitGraph.WaitsFor 1 2) ∧ ¬ Relation.TransGen s.waitGraph.WaitsFor 0 0 :=
  Machine.exists_run ⟨_, rfl, ⟨11, rfl, rfl⟩, ⟨31, rfl, rfl⟩⟩ fun ran _ => no_wait_cycle ran 0

end OrderedLocks

end CommonRpc
