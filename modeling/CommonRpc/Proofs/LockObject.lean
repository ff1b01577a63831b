/-
Module: CommonRpc.Proofs.LockObject
Purpose: What the functions of an `ordered_lock` do to the lock and to the mutexes. A lock is read through its
  sorted references as its pointers in ascending order, and the assignment of the references moves exactly these
  pointers, whatever the order of the parameters. The outcome of a call is described by what it ensures when it
  returns, when it throws and when it is a fault, and by which mutexes are locked and unlocked on the way.
Trusted boundary: none
-/
import CommonRpc.Core.OrderedLockObjects
import CommonRpc.Proofs.OrderComparator
import CommonRpc.Lib.Table

namespace CommonRpc

open Lib

universe u v w w'

/-! ### The sorted references -/

namespace SortTuple

variable {α : Type u} {β : Type v} (f : α → β) (compare : β → β → Bool)

theorem bubbleRiseFrom_map (arg : α) (args : List α) :
    (bubbleRiseFrom (fun a b => compare (f a) (f b)) arg args).map f =
      bubbleRiseFrom compare (f arg) (args.map f) := by
  induction args generalizing arg with
  | nil => rfl
  | cons next args ih =>
      simp only [bubbleRiseFrom, List.map_cons]
      split
      · rw [List.map_cons, ih next]
      · rw [List.map_cons, ih arg]

/-- Sorting by a key sorts the keys. -/
theorem sortTuple_map (tuple : List α) :
    (sortTuple (fun a b => compare (f a) (f b)) tuple).map f = sortTuple compare (tuple.map f) := by
  have base (size : Nat) (tuple : List α) :
      (sortTupleBase (fun a b => compare (f a) (f b)) size tuple).map f =
        sortTupleBase compare size (tuple.map f) := by
    induction size generalizing tuple with
    | zero => rfl
    | succ size ih =>
        have bubbled : (doBubbleRise (fun a b => compare (f a) (f b)) tuple).map f =
            doBubbleRise compare (tuple.map f) := by
          cases tuple with
          | nil => rfl
          | cons arg args => exact bubbleRiseFrom_map f compare arg args
        simp only [sortTupleBase]
        rw [List.map_append, ih, List.map_dropLast, bubbled, ← bubbled, List.getLast?_map]
        cases (doBubbleRise (fun a b => compare (f a) (f b)) tuple).getLast? with
        | none => rfl
        | some last => rfl
  rw [sortTuple, sortTuple, base, List.length_map]

end SortTuple

namespace Comparison

variable {θ : Type v} {α : Type u} (comparison : Comparison θ)

/-- Reading a tuple through the sorted indices of its keys sorts it by the keys. -/
theorem map_orderedRefs (key : α → θ) (tuple : List α) :
    (comparison.orderedRefs (tuple.map key)).map (tuple[·]?) =
      (SortTuple.sortTuple (fun a b => comparison.less (key a) (key b)) tuple).map some := by
  have indexed := SortTuple.sortTuple_map (Prod.map key id) (fun a b => comparison.less a.1 b.1) tuple.zipIdx
  have plain := SortTuple.sortTuple_map Prod.fst (fun a b => comparison.less (key a) (key b)) tuple.zipIdx
  rw [← List.zipIdx_map] at indexed
  rw [List.zipIdx_map_fst] at plain
  rw [orderedRefs, ← indexed, ← plain, List.map_map, List.map_map, List.map_map]
  apply List.map_congr_left
  rintro ⟨a, i⟩ mem
  exact List.mem_zipIdx_iff_getElem?.mp ((SortTuple.sortTuple_perm _ _).mem_iff.mp mem)

theorem orderedRefs_perm (types : List θ) : (comparison.orderedRefs types).Perm (List.range types.length) := by
  have perm := (SortTuple.sortTuple_perm (fun a b => comparison.less a.1 b.1) types.zipIdx).map Prod.snd
  rw [List.zipIdx_map_snd, ← List.range_eq_range'] at perm
  exact perm

/-- Tuples that read the same through the indices are the same. -/
theorem eq_of_map_orderedRefs (types : List θ) {tuple tuple' : List α} (sized : tuple.length = types.length)
    (sized' : tuple'.length = types.length)
    (same : (comparison.orderedRefs types).map (tuple[·]?) = (comparison.orderedRefs types).map (tuple'[·]?)) :
    tuple = tuple' := by
  apply List.ext_getElem?
  intro i
  by_cases inside : i < types.length
  · have mem : i ∈ comparison.orderedRefs types :=
      (comparison.orderedRefs_perm types).mem_iff.mpr (List.mem_range.mpr inside)
    exact List.map_inj_left.mp same i mem
  · rw [List.getElem?_eq_none (by omega), List.getElem?_eq_none (by omega)]

end Comparison

variable {μ : Type u} {θ : Type v} {type : μ → θ}

namespace LockObject

variable {comparison : Comparison θ} {object other : LockObject type}

/-- The references of a lock refer to its pointers in ascending order. -/
theorem ordered_eq (comparison : Comparison θ) (object : LockObject type) :
    object.ordered comparison =
      SortTuple.sortTuple (fun a b => comparison.less a.lockable b.lockable) object.init := by
  have read := comparison.map_orderedRefs Slot.lockable object.init
  have picked := congrArg (List.filterMap id) read
  rw [List.filterMap_map, List.filterMap_map] at picked
  rw [ordered, types]
  exact picked.trans (List.filterMap_some)

theorem ordered_perm (comparison : Comparison θ) (object : LockObject type) :
    (object.ordered comparison).Perm object.init := by
  rw [ordered_eq]
  exact SortTuple.sortTuple_perm _ _

theorem map_lockable_ordered (comparison : Comparison θ) (object : LockObject type) :
    (object.ordered comparison).map Slot.lockable = comparison.sorted object.types := by
  rw [ordered_eq]
  exact SortTuple.sortTuple_map Slot.lockable comparison.less object.init

/-- After the assignment each reference refers to the value that was assigned to it. -/
theorem map_assignRefs {init values : List (Slot type)} {refs : List Nat}
    (places : refs.Perm (List.range init.length)) (sized : values.length = init.length) :
    refs.map ((assignRefs init refs values)[·]?) = values.map some := by
  have lengths : refs.length = values.length := by
    rw [places.length_eq, List.length_range, sized]
  have fsts : (refs.zip values).map Prod.fst = refs := List.map_fst_zip lengths.le
  have snds : (refs.zip values).map Prod.snd = values := List.map_snd_zip lengths.ge
  have distinct : ((refs.zip values).map Prod.fst).Nodup := by
    rw [fsts]
    exact places.nodup_iff.mpr List.nodup_range
  have inside : ∀ write ∈ refs.zip values, write.1 < init.length := by
    intro write mem
    have isRef : write.1 ∈ refs := fsts ▸ List.mem_map_of_mem mem
    exact List.mem_range.mp (places.mem_iff.mp isRef)
  have written : ∀ write ∈ refs.zip values, (assignRefs init refs values)[write.1]? = some write.2 :=
    fun write mem => Table.foldl_set_of_mem distinct inside mem
  calc refs.map ((assignRefs init refs values)[·]?)
      = (refs.zip values).map (fun write => (assignRefs init refs values)[write.1]?) := by
        rw [← fsts, List.map_map, fsts]
        rfl
    _ = (refs.zip values).map (fun write => some write.2) := List.map_congr_left written
    _ = values.map some := by
        rw [← snds, List.map_map, snds]
        rfl

/-- The assignment between locks with the same sorted parameters leaves the parameters as they are and moves the
    pointers in ascending order. -/
theorem take_ordered (same : comparison.sorted object.types = comparison.sorted other.types) :
    (object.take comparison other).types = object.types ∧
      (object.take comparison other).ordered comparison = other.ordered comparison := by
  have sized : (other.ordered comparison).length = object.init.length := by
    have lengths := congrArg List.length same
    rw [← map_lockable_ordered, ← map_lockable_ordered, List.length_map, List.length_map,
      (ordered_perm comparison object).length_eq] at lengths
    exact lengths.symm
  have places : (comparison.orderedRefs object.types).Perm (List.range object.init.length) := by
    have perm := comparison.orderedRefs_perm object.types
    rwa [types, List.length_map] at perm
  have read := map_assignRefs places sized
  have kept : (object.take comparison other).types = object.types := by
    apply comparison.eq_of_map_orderedRefs object.types
    · simp [types, take, assignRefs, Table.length_foldl_set]
    · rfl
    · have lookup := comparison.map_orderedRefs id object.types
      rw [List.map_id] at lookup
      rw [lookup]
      have lockables := congrArg (List.map (Option.map Slot.lockable)) read
      rw [List.map_map, List.map_map] at lockables
      calc (comparison.orderedRefs object.types).map ((object.take comparison other).types[·]?)
          = (comparison.orderedRefs object.types).map
              (Option.map Slot.lockable ∘ ((object.take comparison other).init[·]?)) :=
            List.map_congr_left fun i _ => List.getElem?_map
        _ = (other.ordered comparison).map (Option.map Slot.lockable ∘ some) := lockables
        _ = ((other.ordered comparison).map Slot.lockable).map some := by
            rw [List.map_map]
            rfl
        _ = (comparison.sorted object.types).map some := by rw [map_lockable_ordered, same]
  refine ⟨kept, ?_⟩
  have picked := congrArg (List.filterMap id) read
  rw [List.filterMap_map, List.filterMap_map] at picked
  rw [ordered, kept]
  exact picked.trans (List.filterMap_some)

end LockObject

/-! ### Mutexes -/

variable [DecidableEq μ]

namespace Mutexes

section Updates

variable {s : Mutexes μ} {m : μ}

@[simp] theorem lock_held {free : s.held m = false} : (s.lock m free).held = Function.update s.held m true := rfl

@[simp] theorem lock_calls {free : s.held m = false} : (s.lock m free).calls = s.calls ++ [.locked m] := rfl

@[simp] theorem threw_held : (s.threw m).held = s.held := rfl

@[simp] theorem threw_calls : (s.threw m).calls = s.calls ++ [.threw m] := rfl

@[simp] theorem unlock_held {held : s.held m = true} :
    (s.unlock m held).held = Function.update s.held m false := rfl

@[simp] theorem unlock_calls {held : s.held m = true} :
    (s.unlock m held).calls = s.calls ++ [.unlocked m] := rfl

end Updates

/-- One for a mutex that is locked. -/
def weight (s : Mutexes μ) (m : μ) : Nat := (s.held m).toNat

theorem weight_le_one (s : Mutexes μ) (m : μ) : s.weight m ≤ 1 := Bool.toNat_le _

theorem weight_eq_one {s : Mutexes μ} {m : μ} : s.weight m = 1 ↔ s.held m = true := Bool.toNat_eq_one

/-- What was locked and what was unlocked between two states. -/
def Shifts (s : Mutexes μ) (gained lost : List μ) (s' : Mutexes μ) : Prop :=
  ∀ m, s'.weight m + lost.count m = s.weight m + gained.count m

theorem shifts_of_held {s s' : Mutexes μ} (same : s'.held = s.held) : s.Shifts [] [] s' := by
  intro m
  rw [weight, weight, same]

theorem lock_shifts {s : Mutexes μ} {m : μ} (free : s.held m = false) : s.Shifts [m] [] (s.lock m free) := by
  intro a
  rw [weight, weight, lock_held]
  by_cases same : a = m
  · subst same
    simp [free]
  · simp [same, Ne.symm same]

theorem unlock_shifts {s : Mutexes μ} {m : μ} (held : s.held m = true) : s.Shifts [] [m] (s.unlock m held) := by
  intro a
  rw [weight, weight, unlock_held]
  by_cases same : a = m
  · subst same
    simp [held]
  · simp [same, Ne.symm same]

/-- These mutexes, which were free, were locked in this order. -/
structure Acquired (s : Mutexes μ) (ms : List μ) (s' : Mutexes μ) : Prop where
  nodup : ms.Nodup
  free : ∀ m ∈ ms, s.held m = false
  held : ∀ m, s'.held m = (s.held m || decide (m ∈ ms))
  calls : s'.calls = s.calls ++ ms.map .locked

namespace Acquired

variable {s s' : Mutexes μ} {ms : List μ} {m : μ}

theorem nil (s : Mutexes μ) : s.Acquired [] s where
  nodup := .nil
  free := nofun
  held := by simp
  calls := by simp

theorem concat (acquired : s.Acquired ms s') (free : s'.held m = false) :
    s.Acquired (ms ++ [m]) (s'.lock m free) := by
  have before := acquired.held m
  rw [free] at before
  obtain ⟨wasFree, notMem⟩ := Bool.or_eq_false_iff.mp before.symm
  have notMem : m ∉ ms := of_decide_eq_false notMem
  refine ⟨?_, ?_, ?_, ?_⟩
  · exact List.nodup_append.mpr ⟨acquired.nodup, List.nodup_singleton m,
      fun a memA b memB => by rintro rfl; exact notMem (List.mem_singleton.mp memB ▸ memA)⟩
  · intro a mem
    rcases List.mem_append.mp mem with earlier | last
    · exact acquired.free a earlier
    · rw [List.mem_singleton.mp last]
      exact wasFree
  · intro a
    by_cases same : a = m
    · subst same
      simp
    · simp [acquired.held a, same]
  · simp [acquired.calls]

theorem shifts (acquired : s.Acquired ms s') : s.Shifts ms [] s' := by
  intro m
  rw [weight, weight, acquired.held m, List.count_nil, Nat.add_zero]
  by_cases mem : m ∈ ms
  · rw [acquired.free m mem, List.count_eq_one_of_mem acquired.nodup mem]
    simp [mem]
  · rw [List.count_eq_zero_of_not_mem mem]
    simp [mem]

end Acquired

end Mutexes

/-- Mutexes that are locked are unlocked one by one. -/
theorem unlockEach_returns {β : Type w} {ms : List μ} {s : Mutexes μ} (nodup : ms.Nodup)
    (held : ∀ m ∈ ms, s.held m = true) :
    ∃ s', unlockEach (β := β) (ms.map some) s = .returned () s' ∧
      (∀ m, s'.held m = (s.held m && decide (m ∉ ms))) ∧ s'.calls = s.calls ++ ms.map .unlocked := by
  induction ms generalizing s with
  | nil => exact ⟨s, rfl, by simp, by simp⟩
  | cons m ms ih =>
      obtain ⟨notMem, nodup⟩ := List.nodup_cons.mp nodup
      have isHeld := held m (.head _)
      have others : ∀ a ∈ ms, (s.unlock m isHeld).held a = true := by
        intro a mem
        have ne : a ≠ m := fun same => notMem (same ▸ mem)
        rw [Mutexes.unlock_held, Function.update_of_ne ne]
        exact held a (.tail _ mem)
      obtain ⟨s', returns, heldAfter, calls⟩ := ih nodup others
      refine ⟨s', ?_, ?_, ?_⟩
      · rw [List.map_cons, unlockEach, dif_pos isHeld]
        exact returns
      · intro a
        rw [heldAfter a]
        by_cases same : a = m
        · subst same
          simp
        · simp [same]
      · rw [calls]
        simp

/-- The ways in which `do_safe_lock` ends. -/
inductive Locking (throws : μ → Bool) (s : Mutexes μ) (pointers : List (Option μ)) :
    CallOutcome μ Unit Unit → Prop where
  | acquired {ms : List μ} {s' : Mutexes μ} (shape : pointers = ms.map some)
      (quiet : ∀ a ∈ ms, throws a = false) (acquired : s.Acquired ms s') :
      Locking throws s pointers (.returned () s')
  | released {ms : List μ} {m : μ} {rest : List (Option μ)} {s' : Mutexes μ}
      (shape : pointers = ms.map some ++ some m :: rest) (quiet : ∀ a ∈ ms, throws a = false)
      (thrown : throws m = true) (held : s'.held = s.held)
      (calls : s'.calls = s.calls ++ ms.map .locked ++ .threw m :: ms.reverse.map .unlocked) :
      Locking throws s pointers (.threw () s')
  | waits {ms : List μ} {m : μ} {rest : List (Option μ)} (shape : pointers = ms.map some ++ some m :: rest)
      (quiet : ∀ a ∈ ms, throws a = false) (silent : throws m = false) (taken : s.held m = true ∨ m ∈ ms) :
      Locking throws s pointers .blocked
  | null {ms : List μ} {rest : List (Option μ)} (shape : pointers = ms.map some ++ none :: rest) :
      Locking throws s pointers (.fault .nullPointer)

/-- `do_safe_lock` from the point where it has got some of the mutexes. -/
theorem lockEach_locking {throws : μ → Bool} {s s' : Mutexes μ} {locked : List μ} (rest : List (Option μ))
    (acquired : s.Acquired locked s') (quiet : ∀ a ∈ locked, throws a = false) :
    Locking throws s (locked.map some ++ rest) (lockEach throws rest locked s') := by
  induction rest generalizing locked s' with
  | nil => exact .acquired (List.append_nil _) quiet acquired
  | cons pointer rest ih =>
      cases pointer with
      | none => exact .null rfl
      | some m =>
          rw [lockEach]
          by_cases thrown : throws m = true
          · -- what was locked is held, and is given back from the end
            have held : ∀ a ∈ locked.reverse, (s'.threw m).held a = true := by
              intro a mem
              rw [Mutexes.threw_held, acquired.held a, decide_eq_true (List.mem_reverse.mp mem), Bool.or_true]
            obtain ⟨final, returns, heldAfter, calls⟩ :=
              unlockEach_returns (β := Unit) (List.nodup_reverse.mpr acquired.nodup) held
            rw [if_pos thrown, returns]
            refine .released rfl quiet thrown ?_ ?_
            · funext a
              rw [heldAfter a, Mutexes.threw_held, acquired.held a]
              by_cases mem : a ∈ locked
              · simp [mem, acquired.free a mem]
              · simp [mem]
            · rw [calls]
              simp [acquired.calls]
          · have silent : throws m = false := Bool.eq_false_iff.mpr thrown
            rw [if_neg thrown]
            by_cases free : s'.held m = false
            · rw [dif_pos free]
              have quiet' : ∀ a ∈ locked ++ [m], throws a = false := by
                intro a mem
                rcases List.mem_append.mp mem with earlier | last
                · exact quiet a earlier
                · rw [List.mem_singleton.mp last]
                  exact silent
              have later := ih (acquired.concat free) quiet'
              rwa [List.map_append, List.append_assoc] at later
            · rw [dif_neg free]
              refine .waits rfl quiet silent ?_
              have taken := acquired.held m
              rw [Bool.eq_true_of_not_eq_false free] at taken
              simpa using taken.symm

/-! ### What a call ensures -/

namespace CallOutcome

variable {α : Type v} {β : Type w} {γ : Type w'}

/-- If the call returns, throws or is a fault, its result is such. -/
def Ensures (onReturn : α → Mutexes μ → Prop) (onThrow : β → Mutexes μ → Prop) (onFault : Fault → Prop) :
    CallOutcome μ α β → Prop
  | .returned value s => onReturn value s
  | .threw value s => onThrow value s
  | .blocked => True
  | .fault kind => onFault kind

variable {onReturn : α → Mutexes μ → Prop} {onThrow : β → Mutexes μ → Prop} {onFault : Fault → Prop}
  {outcome : CallOutcome μ α β}

theorem Ensures.andThen {next : α → Mutexes μ → CallOutcome μ γ β} {onNext : γ → Mutexes μ → Prop}
    (ensures : outcome.Ensures onReturn onThrow onFault)
    (later : ∀ value s, onReturn value s → (next value s).Ensures onNext onThrow onFault) :
    (outcome.andThen next).Ensures onNext onThrow onFault := by
  cases outcome with
  | returned value s => exact later value s ensures
  | threw value s => exact ensures
  | blocked => trivial
  | fault kind => exact ensures

/-- What is thrown is changed on the way. -/
theorem Ensures.mapThrown (ensures : outcome.Ensures onReturn onThrow onFault) (change : β → γ) :
    (outcome.mapThrown change).Ensures onReturn (fun value s => ∃ old, change old = value ∧ onThrow old s)
      onFault := by
  cases outcome with
  | returned value s => exact ensures
  | threw value s => exact ⟨value, rfl, ensures⟩
  | blocked => trivial
  | fault kind => exact ensures

end CallOutcome

open Mutexes

/-- Mutexes that are locked are unlocked without a fault. -/
theorem unlockEach_ensures {β : Type w} {ms : List μ} {s : Mutexes μ} (covered : ∀ m, ms.count m ≤ s.weight m) :
    (unlockEach (β := β) (ms.map some) s).Ensures (fun _ s' => s.Shifts [] ms s') (fun _ _ => False)
      fun _ => False := by
  have nodup : ms.Nodup :=
    List.nodup_iff_count_le_one.mpr fun m => Nat.le_trans (covered m) (s.weight_le_one m)
  have held : ∀ m ∈ ms, s.held m = true := by
    intro m mem
    have counted := covered m
    have bound := s.weight_le_one m
    rw [List.count_eq_one_of_mem nodup mem] at counted
    exact weight_eq_one.mp (by omega)
  obtain ⟨s', returns, heldAfter, -⟩ := unlockEach_returns (β := β) nodup held
  rw [returns]
  intro m
  rw [weight, weight, heldAfter m, List.count_nil, Nat.add_zero]
  by_cases mem : m ∈ ms
  · rw [List.count_eq_one_of_mem nodup mem, held m mem]
    simp [mem]
  · rw [List.count_eq_zero_of_not_mem mem]
    simp [mem]

/-! ### What the functions of a lock do -/

namespace LockObject

variable {comparison : Comparison θ} {object other : LockObject type} {s : Mutexes μ} {throws : μ → Bool}

/-- The mutexes that a lock points to. -/
def pointees (object : LockObject type) : List μ := object.init.filterMap Slot.pointer

/-- The mutexes that it points to, in the order in which it locks them. -/
def ascending (comparison : Comparison θ) (object : LockObject type) : List μ :=
  (object.ordered comparison).filterMap Slot.pointer

/-- The mutexes that it will unlock. -/
def owned (object : LockObject type) : List μ := if object.isLocked then object.pointees else []

def Filled (object : LockObject type) : Prop := ∀ slot ∈ object.init, slot.pointer ≠ none

def Emptied (object : LockObject type) : Prop := ∀ slot ∈ object.init, slot.pointer = none

/-- A lock as the operations leave it. -/
structure Good (comparison : Comparison θ) (object : LockObject type) : Prop where
  valid : comparison.isOrderedLockableTypesValid object.types = true
  uniform : object.Filled ∨ object.Emptied
  filled : object.isLocked = true → object.Filled

omit [DecidableEq μ] in
theorem ascending_perm (comparison : Comparison θ) (object : LockObject type) :
    (object.ascending comparison).Perm object.pointees :=
  (object.ordered_perm comparison).filterMap _

omit [DecidableEq μ] in
theorem map_pointer_of_filled {slots : List (Slot type)} (filled : ∀ slot ∈ slots, slot.pointer ≠ none) :
    slots.map Slot.pointer = (slots.filterMap Slot.pointer).map some := by
  induction slots with
  | nil => rfl
  | cons slot slots ih =>
      obtain ⟨m, points⟩ := Option.ne_none_iff_exists'.mp (filled slot (.head _))
      rw [List.map_cons, List.filterMap_cons_some points, List.map_cons, points,
        ih fun slot mem => filled slot (.tail _ mem)]

omit [DecidableEq μ] in
theorem filled_of_map_pointer {slots : List (Slot type)} {ms : List μ}
    (shape : slots.map Slot.pointer = ms.map some) :
    (∀ slot ∈ slots, slot.pointer ≠ none) ∧ ms = slots.filterMap Slot.pointer := by
  constructor
  · intro slot mem isNull
    have isPointer : none ∈ ms.map some := shape ▸ isNull ▸ List.mem_map_of_mem mem
    obtain ⟨m, -, same⟩ := List.mem_map.mp isPointer
    cases same
  · have picked := congrArg (List.filterMap id) shape
    rw [List.filterMap_map, List.filterMap_map] at picked
    exact (List.filterMap_some).symm.trans picked.symm

omit [DecidableEq μ] in
theorem filled_iff_ordered (comparison : Comparison θ) (object : LockObject type) :
    object.Filled ↔ ∀ slot ∈ object.ordered comparison, slot.pointer ≠ none := by
  simp only [Filled, (object.ordered_perm comparison).mem_iff]

omit [DecidableEq μ] in
theorem emptied_iff_ordered (comparison : Comparison θ) (object : LockObject type) :
    object.Emptied ↔ ∀ slot ∈ object.ordered comparison, slot.pointer = none := by
  simp only [Emptied, (object.ordered_perm comparison).mem_iff]

omit [DecidableEq μ] in
theorem owned_of_locked (locked : object.isLocked = true) : object.owned = object.pointees := by
  rw [owned, if_pos locked]

omit [DecidableEq μ] in
theorem owned_of_unlocked (unlocked : object.isLocked = false) : object.owned = [] := by
  rw [owned, unlocked]
  rfl

theorem doSafeLock_locking (comparison : Comparison θ) (object : LockObject type) (throws : μ → Bool)
    (s : Mutexes μ) :
    Locking throws s ((object.ordered comparison).map Slot.pointer) (object.doSafeLock comparison throws s) :=
  lockEach_locking _ (Acquired.nil s) (fun _ mem => absurd mem List.not_mem_nil)

theorem lock_ensures (comparison : Comparison θ) (object : LockObject type) (throws : μ → Bool) (s : Mutexes μ) :
    (object.lock comparison throws s).Ensures
      (fun object' s' =>
        object' = { object with isLocked := true } ∧ object.Filled ∧ s.Shifts object.pointees [] s')
      (fun object' s' => object' = object ∧ s'.held = s.held)
      (fun kind => kind = .nullPointer ∧ ¬ object.Filled) := by
  rw [lock]
  have locking := object.doSafeLock_locking comparison throws s
  generalize object.doSafeLock comparison throws s = outcome at locking ⊢
  cases locking with
  | acquired shape _ acquired =>
      obtain ⟨filled, rfl⟩ := filled_of_map_pointer shape
      refine ⟨rfl, (object.filled_iff_ordered comparison).mpr filled, fun m => ?_⟩
      rw [acquired.shifts m]
      congr 1
      exact (object.ascending_perm comparison).count_eq m
  | released _ _ _ held _ => exact ⟨rfl, held⟩
  | waits _ _ _ _ => trivial
  | null shape =>
      refine ⟨rfl, fun filled => ?_⟩
      have isPointer : none ∈ (object.ordered comparison).map Slot.pointer := by
        rw [shape]
        simp
      obtain ⟨slot, mem, isNull⟩ := List.mem_map.mp isPointer
      exact (object.filled_iff_ordered comparison).mp filled slot mem isNull

variable {β : Type w}

theorem unlock_ensures (filled : object.Filled) (covered : ∀ m, object.pointees.count m ≤ s.weight m) :
    (object.unlock (β := β) comparison s).Ensures
      (fun object' s' => object' = { object with isLocked := false } ∧ s.Shifts [] object.pointees s')
      (fun _ _ => False) fun _ => False := by
  have pointers := map_pointer_of_filled ((object.filled_iff_ordered comparison).mp filled)
  have counts (m : μ) : (object.ascending comparison).reverse.count m = object.pointees.count m :=
    ((List.reverse_perm _).trans (object.ascending_perm comparison)).count_eq m
  have covered' : ∀ m, (object.ascending comparison).reverse.count m ≤ s.weight m := by
    intro m
    rw [counts m]
    exact covered m
  rw [unlock, List.map_reverse, pointers, ← List.map_reverse]
  refine (unlockEach_ensures covered').andThen fun _ s' shifts => ⟨rfl, fun m => ?_⟩
  rw [← counts m]
  exact shifts m

theorem destroy_of_unlocked (unlocked : object.isLocked = false) :
    object.destroy (β := β) comparison s = .returned () s := by
  rw [destroy, unlocked]
  rfl

theorem destroy_ensures (good : object.Good comparison) (covered : ∀ m, object.owned.count m ≤ s.weight m) :
    (object.destroy (β := β) comparison s).Ensures (fun _ s' => s.Shifts [] object.owned s')
      (fun _ _ => False) fun _ => False := by
  cases locked : object.isLocked with
  | false =>
      rw [destroy_of_unlocked locked, owned_of_unlocked locked]
      exact shifts_of_held rfl
  | true =>
      rw [owned_of_locked locked] at covered ⊢
      rw [destroy, locked]
      refine (unlock_ensures (good.filled locked) covered).andThen ?_
      intro object' s' after
      exact after.2

/-! A lock that is left behind -/

section Clear

omit [DecidableEq μ]

theorem clear_owned : object.clear.owned = [] := rfl

theorem clear_types : object.clear.types = object.types := by
  simp [clear, types, Slot.null]

theorem emptied_of_nulls {types : List θ} : ∀ slot ∈ types.map (Slot.null type), slot.pointer = none := by
  intro slot mem
  obtain ⟨lockable, -, rfl⟩ := List.mem_map.mp mem
  rfl

theorem empty_types {types : List θ} : (empty type types).types = types := by
  rw [empty, LockObject.types, List.map_map]
  exact List.map_id types

theorem empty_good {types : List θ} (valid : comparison.isOrderedLockableTypesValid types = true) :
    (empty type types).Good comparison where
  valid := by
    rw [empty_types]
    exact valid
  uniform := .inr emptied_of_nulls
  filled := nofun

theorem Good.clear (good : object.Good comparison) : object.clear.Good comparison := by
  refine ⟨?_, .inr ?_, nofun⟩
  · rw [clear_types]
    exact good.valid
  · intro slot mem
    obtain ⟨old, -, rfl⟩ := List.mem_map.mp mem
    rfl

/-- A lock over mutexes that were given. -/
theorem of_filled {lockables : List μ} {isLocked : Bool} :
    (LockObject.mk (lockables.map (Slot.of type)) isLocked).Filled := by
  intro slot mem
  obtain ⟨m, -, rfl⟩ := List.mem_map.mp mem
  exact Option.some_ne_none m

theorem of_good {lockables : List μ} (valid : comparison.isOrderedLockableTypesValid (lockables.map type) = true)
    (isLocked : Bool) : (LockObject.mk (lockables.map (Slot.of type)) isLocked).Good comparison := by
  refine ⟨?_, .inl of_filled, fun _ => of_filled⟩
  rw [types, List.map_map]
  exact valid

theorem of_types {lockables : List μ} {isLocked : Bool} :
    (LockObject.mk (lockables.map (Slot.of type)) isLocked).types = lockables.map type := by
  rw [types, List.map_map]
  rfl

theorem of_pointees {lockables : List μ} {isLocked : Bool} :
    (LockObject.mk (lockables.map (Slot.of type)) isLocked).pointees = lockables := by
  rw [pointees, List.filterMap_map]
  exact List.filterMap_some

end Clear

/-! Moving -/

section Moving

omit [DecidableEq μ]

variable (same : comparison.sorted object.types = comparison.sorted other.types)
include same

theorem take_pointees : ((object.take comparison other).pointees).Perm other.pointees := by
  have moved := ((object.take comparison other).ascending_perm comparison).symm
  rw [ascending, (take_ordered same).2] at moved
  exact moved.trans (other.ascending_perm comparison)

theorem take_good (good : object.Good comparison) (otherGood : other.Good comparison) :
    (object.take comparison other).Good comparison := by
  obtain ⟨types, moved⟩ := take_ordered same
  have filled : other.Filled → (object.take comparison other).Filled := by
    rw [filled_iff_ordered comparison, filled_iff_ordered comparison, moved]
    exact id
  have emptied : other.Emptied → (object.take comparison other).Emptied := by
    rw [emptied_iff_ordered comparison, emptied_iff_ordered comparison, moved]
    exact id
  refine ⟨types ▸ good.valid, otherGood.uniform.imp filled emptied, ?_⟩
  intro locked
  exact filled (otherGood.filled locked)

theorem take_owned : ((object.take comparison other).owned).Perm other.owned := by
  have locked : (object.take comparison other).isLocked = other.isLocked := rfl
  rw [owned, owned, locked]
  cases other.isLocked with
  | false => exact .nil
  | true => exact take_pointees same

end Moving

theorem moveAssign_of_unlocked (unlocked : object.isLocked = false) :
    object.moveAssign (β := β) comparison other s = .returned (object.take comparison other, other.clear) s := by
  rw [moveAssign, unlocked]
  rfl

/-- The target gives up what it owned. -/
theorem moveAssign_ensures (same : comparison.sorted object.types = comparison.sorted other.types)
    (good : object.Good comparison) (otherGood : other.Good comparison)
    (covered : ∀ m, object.owned.count m ≤ s.weight m) :
    (object.moveAssign (β := β) comparison other s).Ensures
      (fun locks s' => locks.1.Good comparison ∧ locks.1.owned.Perm other.owned ∧ locks.2 = other.clear ∧
        s.Shifts [] object.owned s')
      (fun _ _ => False) fun _ => False := by
  cases locked : object.isLocked with
  | false =>
      rw [moveAssign_of_unlocked locked, owned_of_unlocked locked]
      exact ⟨take_good same good otherGood, take_owned same, rfl, shifts_of_held rfl⟩
  | true =>
      rw [owned_of_locked locked] at covered ⊢
      rw [moveAssign, locked]
      refine (unlock_ensures (good.filled locked) covered).andThen ?_
      rintro object' s' ⟨rfl, shifts⟩
      -- the flag does not take part in the assignment of the references
      have same : comparison.sorted (types { object with isLocked := false }) = comparison.sorted other.types :=
        same
      exact ⟨take_good same ⟨good.valid, good.uniform, nofun⟩ otherGood, take_owned same, rfl, shifts⟩

/-! Extending -/

omit [DecidableEq μ] in
theorem dereferenced_eq_some {slots : List (Slot type)} {ms : List μ}
    (points : slots.mapM Slot.pointer = some ms) : slots.map Slot.pointer = ms.map some := by
  induction slots generalizing ms with
  | nil =>
      cases points
      rfl
  | cons slot slots ih =>
      rw [List.mapM_cons] at points
      obtain ⟨m, first, rest⟩ := Option.bind_eq_some_iff.mp points
      obtain ⟨others, later, last⟩ := Option.bind_eq_some_iff.mp rest
      cases last
      rw [List.map_cons, List.map_cons, first, ih later]

omit [DecidableEq μ] in
theorem dereferenced_eq_none {slots : List (Slot type)} (isNull : slots.mapM Slot.pointer = none) :
    ∃ slot ∈ slots, slot.pointer = none := by
  induction slots with
  | nil => cases isNull
  | cons slot slots ih =>
      cases points : slot.pointer with
      | none => exact ⟨slot, .head _, points⟩
      | some m =>
          cases later : slots.mapM Slot.pointer with
          | none =>
              obtain ⟨found, mem, isNull⟩ := ih later
              exact ⟨found, .tail _ mem, isNull⟩
          | some others => simp [List.mapM_cons, points, later] at isNull

omit [DecidableEq μ] in
/-- The pointers are of the types of the parameters. -/
theorem types_of_map_pointer {slots : List (Slot type)} {ms : List μ}
    (shape : slots.map Slot.pointer = ms.map some) : slots.map Slot.lockable = ms.map type := by
  induction slots generalizing ms with
  | nil =>
      cases ms with
      | nil => rfl
      | cons m ms => cases shape
  | cons slot slots ih =>
      cases ms with
      | nil => cases shape
      | cons m ms =>
          obtain ⟨first, later⟩ := List.cons.inj shape
          rw [List.map_cons, List.map_cons, ih later, slot.typed m first]

section Longer

omit [DecidableEq μ]

variable {lockables : List μ} (points : object.dereferenced = some lockables) {addLockables : List μ}
include points

/-- The parameters of the longer lock are the types of its arguments, in the same order. -/
theorem longer_types (comparison : Comparison θ) (addLockables : List μ) (isLocked : Bool) :
    comparison.sorted (empty type (object.types ++ addLockables.map type)).types =
      comparison.sorted (LockObject.mk ((lockables ++ addLockables).map (Slot.of type)) isLocked).types := by
  rw [of_types, List.map_append, ← types_of_map_pointer (dereferenced_eq_some points), empty_types, types]

theorem longer_good
    (valid : comparison.isOrderedLockableTypesValid (object.types ++ addLockables.map type) = true)
    (isLocked : Bool) :
    (LockObject.mk ((lockables ++ addLockables).map (Slot.of type)) isLocked).Good comparison := by
  refine of_good ?_ isLocked
  rw [List.map_append, ← types_of_map_pointer (dereferenced_eq_some points)]
  exact valid

end Longer

/-- The longer lock owns what the lock owned and what was locked in addition; if that throws, nothing has
    changed. -/
theorem pushBackImpl_ensures {addLockables : List μ}
    (valid : comparison.isOrderedLockableTypesValid (object.types ++ addLockables.map type) = true)
    (throws : μ → Bool) (s : Mutexes μ) :
    (object.pushBackImpl comparison addLockables throws s).Ensures
      (fun locks s' => locks.1.Good comparison ∧ locks.2 = object.clear ∧
        ∃ gained, s.Shifts gained [] s' ∧
          ∀ m, locks.1.owned.count m = object.owned.count m + gained.count m)
      (fun object' s' => object' = object ∧ s'.held = s.held)
      (fun kind => kind = .nullPointer ∧ ¬ object.Filled) := by
  have null (null : object.dereferenced = none) : ¬ object.Filled := by
    obtain ⟨slot, mem, isNull⟩ := dereferenced_eq_none null
    exact fun filled => filled slot mem isNull
  have ansGood : (empty type (object.types ++ addLockables.map type)).Good comparison := empty_good valid
  cases locked : object.isLocked with
  | true =>
      rw [pushBackImpl, locked, construct]
      have adds := (deferred type addLockables).lock_ensures comparison throws s
      generalize (deferred type addLockables).lock comparison throws s = outcome at adds ⊢
      cases outcome with
      | threw value s' => exact ⟨rfl, adds.2⟩
      | blocked => trivial
      | fault kind => exact absurd of_filled adds.2
      | returned addOrderedLock s' =>
          obtain ⟨-, -, shifts⟩ := adds
          rw [deferred, of_pointees] at shifts
          cases points : object.dereferenced with
          | none => exact ⟨rfl, null points⟩
          | some lockables =>
              have same := longer_types points comparison addLockables true
              have isGood := longer_good points valid true
              refine And.intro (take_good same ansGood isGood) ⟨rfl, addLockables, shifts, fun m => ?_⟩
              refine ((take_owned same).count_eq m).trans ?_
              rw [owned_of_locked rfl, owned_of_locked locked, of_pointees, List.count_append,
                (filled_of_map_pointer (dereferenced_eq_some points)).2]
              rfl
  | false =>
      rw [pushBackImpl, locked]
      cases points : object.dereferenced with
      | none => exact ⟨rfl, null points⟩
      | some lockables =>
          have same := longer_types points comparison addLockables false
          have isGood := longer_good points valid false
          refine And.intro (take_good same ansGood isGood) ⟨rfl, [], shifts_of_held rfl, fun m => ?_⟩
          refine ((take_owned same).count_eq m).trans ?_
          rw [owned_of_unlocked rfl, owned_of_unlocked locked]
          rfl

end LockObject

/-! ### Every lock is unlocked once -/

namespace MutexCall

variable {m : μ} {calls : List (MutexCall μ)}

/-- A mutex that was locked twice in a row, or unlocked while it was not locked, is not forgiven. -/
theorem foldl_effect_none : calls.foldl (effect m) none = none := by
  induction calls with
  | nil => rfl
  | cons call calls ih =>
      rw [List.foldl_cons]
      cases call with
      | locked m' =>
          by_cases same : m' = m
          · simp [effect, same, ih]
          · simp [effect, same, ih]
      | threw m' => exact ih
      | unlocked m' =>
          by_cases same : m' = m
          · simp [effect, same, ih]
          · simp [effect, same, ih]

/-- Locks and unlocks take turns. -/
theorem count_foldl {before after : Bool} (replayed : calls.foldl (effect m) (some before) = some after) :
    before.toNat + calls.count (.locked m) = calls.count (.unlocked m) + after.toNat := by
  induction calls generalizing before with
  | nil =>
      cases replayed
      simp
  | cons call calls ih =>
      rw [List.foldl_cons] at replayed
      rw [List.count_cons, List.count_cons]
      cases call with
      | threw m' =>
          have later := ih replayed
          simpa using later
      | locked m' =>
          by_cases same : m' = m
          · subst same
            cases before with
            | true => simp [effect, foldl_effect_none] at replayed
            | false =>
                have after : calls.foldl (effect m') (some true) = some after := by
                  simpa [effect] using replayed
                have later := ih after
                simp at later ⊢
                omega
          · have later := ih (by simpa [effect, same] using replayed)
            simpa [same] using later
      | unlocked m' =>
          by_cases same : m' = m
          · subst same
            cases before with
            | false => simp [effect, foldl_effect_none] at replayed
            | true =>
                have after : calls.foldl (effect m') (some false) = some after := by
                  simpa [effect] using replayed
                have later := ih after
                simp at later ⊢
                omega
          · have later := ih (by simpa [effect, same] using replayed)
            simpa [same] using later

end MutexCall

namespace Mutexes

theorem calls_balance (s : Mutexes μ) (m : μ) :
    s.calls.count (.locked m) = s.calls.count (.unlocked m) + s.weight m := by
  have counts := MutexCall.count_foldl (s.alternate m)
  rw [Bool.toNat_false, Nat.zero_add] at counts
  exact counts

/-- At every moment a mutex was unlocked as often as it was locked, or once less. -/
theorem calls_alternate (s : Mutexes μ) (m : μ) {calls : List (MutexCall μ)} (early : calls.IsPrefix s.calls) :
    calls.count (.unlocked m) ≤ calls.count (.locked m) ∧
      calls.count (.locked m) ≤ calls.count (.unlocked m) + 1 := by
  obtain ⟨later, split⟩ := early
  have replayed := s.alternate m
  rw [← split, MutexCall.replay, List.foldl_append] at replayed
  cases state : calls.foldl (MutexCall.effect m) (some false) with
  | none =>
      rw [state, MutexCall.foldl_effect_none] at replayed
      cases replayed
  | some isLocked =>
      have counts := MutexCall.count_foldl state
      have bound := Bool.toNat_le isLocked
      rw [Bool.toNat_false] at counts
      omega

end Mutexes

/-! ### The order in which a lock locks -/

section Numbers

variable {ω : Type w} [LinearOrder ω]

/-- How `lock` ends. -/
inductive LockResult (order : θ → ω) (object : LockObject type) (throws : μ → Bool) (s : Mutexes μ) :
    CallOutcome μ (LockObject type) (LockObject type) → Prop where
  /-- It has locked all its mutexes in ascending order. -/
  | locked {ms : List μ} {s' : Mutexes μ} (all : ms.Perm object.pointees)
      (increasing : ms.Pairwise fun a b => order (type a) < order (type b)) (acquired : s.Acquired ms s') :
      LockResult order object throws s (.returned { object with isLocked := true } s')
  /-- One of them threw. Those before it were locked, and have been unlocked in the reverse order. -/
  | threw {ms rest : List μ} {m : μ} {s' : Mutexes μ} (all : (ms ++ m :: rest).Perm object.pointees)
      (increasing : (ms ++ m :: rest).Pairwise fun a b => order (type a) < order (type b))
      (thrown : throws m = true) (held : s'.held = s.held)
      (calls : s'.calls = s.calls ++ ms.map .locked ++ .threw m :: ms.reverse.map .unlocked) :
      LockResult order object throws s (.threw object s')
  /-- It waits for one of them that is locked. -/
  | waits {ms rest : List μ} {m : μ} (all : (ms ++ m :: rest).Perm object.pointees)
      (increasing : (ms ++ m :: rest).Pairwise fun a b => order (type a) < order (type b))
      (silent : throws m = false) (taken : s.held m = true) : LockResult order object throws s .blocked

namespace LockObject

variable {object : LockObject type} {order : θ → ω}

omit [DecidableEq μ] in
theorem ascending_increasing (distinct : (object.types.map order).Nodup) :
    (object.ascending (.ofOrder order)).Pairwise fun a b => order (type a) < order (type b) := by
  have perm := object.ordered_perm (.ofOrder order)
  have sorted : (object.ordered (.ofOrder order)).Pairwise fun a b => order a.lockable ≤ order b.lockable := by
    rw [ordered_eq]
    exact (SortTuple.sortTupleBase_spec (fun slot : Slot type => order slot.lockable) rfl).2
  have apart : (object.ordered (.ofOrder order)).Pairwise fun a b => order a.lockable ≠ order b.lockable := by
    have nodup := ((perm.map Slot.lockable).map order).nodup_iff.mpr distinct
    rw [List.map_map] at nodup
    exact List.pairwise_map.mp nodup
  refine List.Pairwise.filterMap _ ?_ (sorted.and apart)
  intro a b below m points m' points'
  rw [a.typed m points, b.typed m' points']
  exact lt_of_le_of_ne below.1 below.2

omit [DecidableEq μ] in
theorem exists_of_map_some {all ms : List μ} {m : μ} {rest : List (Option μ)}
    (shape : all.map some = ms.map some ++ some m :: rest) : ∃ later, all = ms ++ m :: later := by
  obtain ⟨first, second, rfl, isFirst, isSecond⟩ := List.map_eq_append_iff.mp shape
  obtain ⟨m', later, rfl, same, -⟩ := List.map_eq_cons_iff.mp isSecond
  cases same
  rw [(List.map_injective_iff.mpr (Option.some_injective μ)) isFirst]
  exact ⟨later, rfl⟩

/-- A lock over mutexes with different orders locks all of them in ascending order, or gives them back. -/
theorem lock_result (distinct : (object.types.map order).Nodup) (filled : object.Filled) (throws : μ → Bool)
    (s : Mutexes μ) : LockResult order object throws s (object.lock (.ofOrder order) throws s) := by
  have increasing := ascending_increasing distinct
  have all := object.ascending_perm (.ofOrder order)
  have pointers : (object.ordered (.ofOrder order)).map Slot.pointer =
      (object.ascending (.ofOrder order)).map some :=
    map_pointer_of_filled ((object.filled_iff_ordered (.ofOrder order)).mp filled)
  have locking := object.doSafeLock_locking (.ofOrder order) throws s
  rw [lock]
  generalize object.doSafeLock (.ofOrder order) throws s = outcome at locking ⊢
  rw [pointers] at locking
  cases locking with
  | acquired shape _ acquired =>
      cases (List.map_injective_iff.mpr (Option.some_injective μ)) shape
      exact .locked all increasing acquired
  | released shape _ thrown held calls =>
      obtain ⟨later, split⟩ := exists_of_map_some shape
      rw [split] at all increasing
      exact .threw all increasing thrown held calls
  | waits shape _ silent taken =>
      obtain ⟨later, split⟩ := exists_of_map_some shape
      rw [split] at all increasing
      refine .waits all increasing silent (taken.resolve_right fun earlier => ?_)
      exact lt_irrefl _ ((List.pairwise_append.mp increasing).2.2 _ earlier _ (.head _))
  | null shape =>
      have isPointer : none ∈ (object.ascending (.ofOrder order)).map some := by
        rw [shape]
        simp
      obtain ⟨m, -, same⟩ := List.mem_map.mp isPointer
      cases same

omit [DecidableEq μ] in
/-- The threads of CommonRpc.Core.OrderedLock lock the mutexes in the order of these references. -/
theorem ascending_deferred (order : θ → Nat) (lockables : List μ) :
    (deferred type lockables).ascending (.ofOrder order) =
      Comparison.sorted (.ofOrder fun m => order (type m)) lockables := by
  have sorted := SortTuple.sortTuple_map (Slot.of type)
    (fun a b => (Comparison.ofOrder order).less a.lockable b.lockable) lockables
  rw [ascending, ordered_eq, deferred, ← sorted, List.filterMap_map]
  exact List.filterMap_some

omit [DecidableEq μ] in
/-- Orders of several integral types that are comparable are locked in ascending order as well. -/
theorem ascending_of_comparable {D : Lib.Integral.DataModel} {constants : θ → Lib.Integral.Constant D}
    (comparable : OrderComparator.Comparable constants object.types) :
    (object.ascending (.ofConstants constants)).Pairwise fun a b =>
      OrderComparator.compare constants (type a) (type b) = true := by
  have nodup : object.types.Nodup := by
    apply comparable.distinct.imp
    rintro a b apart rfl
    exact apart.1 rfl
  have sorted := OrderComparator.sorted_ascending comparable.strictTotal nodup (List.Subset.refl _)
  have lockables : (object.ordered (.ofConstants constants)).map Slot.lockable =
      Comparison.sorted (.ofConstants constants) object.types :=
    object.map_lockable_ordered (.ofConstants constants)
  rw [← lockables, List.pairwise_map] at sorted
  refine List.Pairwise.filterMap _ ?_ sorted
  intro a b below m points m' points'
  rw [a.typed m points, b.typed m' points']
  exact below

end LockObject

end Numbers

end CommonRpc
