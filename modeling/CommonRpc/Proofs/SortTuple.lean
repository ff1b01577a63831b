/-
Module: CommonRpc.Proofs.SortTuple
Purpose: The sort of tuples. With a strict weak order `sort_tuple_t` puts the types in ascending order, and the two
  checks on the orders of lockables that are built on it are exact. With any comparator at all, the sort of
  references and the sort of indices take the same decisions: both read the tuple through one list of positions,
  the one that the bubble sort makes of the positions themselves.
Trusted boundary: none
-/
import CommonRpc.Core.TupleUtils
import CommonRpc.Proofs.LockObject

namespace CommonRpc

open Lib Lib.Integral

universe u v

/-! ### Strict weak orders -/

/-- A relation that is a strict weak order on the entries of a list: incomparable entries are alike. -/
structure StrictWeakOn {θ : Type u} (r : θ → θ → Prop) (l : List θ) : Prop where
  irrefl : ∀ a ∈ l, ¬ r a a
  trans : ∀ a ∈ l, ∀ b ∈ l, ∀ c ∈ l, r a b → r b c → r a c
  incomparable : ∀ a ∈ l, ∀ b ∈ l, ∀ c ∈ l, ¬ r a b → ¬ r b a → ¬ r b c → ¬ r c b → ¬ r a c ∧ ¬ r c a

namespace StrictWeakOn

variable {θ : Type u} {r : θ → θ → Prop} {l : List θ} {a b c : θ}

theorem asymm (weak : StrictWeakOn r l) (memA : a ∈ l) (memB : b ∈ l) (below : r a b) : ¬ r b a := by
  intro above
  exact weak.irrefl a memA (weak.trans a memA b memB a memA below above)

/-- What is not above an entry is not above what the entry is not above. -/
theorem not_above_trans (weak : StrictWeakOn r l) (memA : a ∈ l) (memB : b ∈ l) (memC : c ∈ l)
    (first : ¬ r b a) (second : ¬ r c b) : ¬ r c a := by
  intro below
  have notBelowB : ¬ r a b := fun before => second (weak.trans c memC a memA b memB below before)
  have notBelowC : ¬ r b c := fun before => first (weak.trans b memB c memC a memA before below)
  exact (weak.incomparable a memA b memB c memC notBelowB first notBelowC second).2 below

end StrictWeakOn

namespace TupleUtils

variable {θ : Type u}

/-- The sort rearranges the types so that no later one compares less than an earlier one. -/
theorem sortTupleT_ascending {compare : θ → θ → Bool} {types : List (QualifiedType θ)}
    (weak : StrictWeakOn (fun a b => compare a b = true) (types.map QualifiedType.removeTypeQualifiers)) :
    (sortTupleT compare types).Perm types ∧ (sortTupleT compare types).Pairwise fun earlier later =>
      ¬ compare later.removeTypeQualifiers earlier.removeTypeQualifiers = true := by
  refine SortTuple.sortTupleBase_ascending
    (P := fun t : QualifiedType θ => t.removeTypeQualifiers ∈ types.map QualifiedType.removeTypeQualifiers)
    (R := fun a b : QualifiedType θ => ¬ compare b.removeTypeQualifiers a.removeTypeQualifiers = true)
    ?_ ?_ ?_ rfl ?_
  · intro a b c memA memB memC first second
    exact weak.not_above_trans memA memB memC first second
  · intro a b memA memB below
    exact weak.asymm memA memB below
  · intro a b _ _ notBelow
    exact Bool.eq_false_iff.mp notBelow
  · intro t member
    exact List.mem_map_of_mem member

/-! ### The checks on the orders of lockables -/

section Checks

variable {μ : Type u} {D : DataModel} {order : μ → Constant D}

theorem isThereRepeating_iff (nonneg : ∀ m, 0 ≤ (order m).value) (lockables : List μ) :
    (Comparison.ofConstants order).isThereRepeatingOrderNumber lockables = true ↔
      ¬ (lockables.map fun m => (order m).value).Nodup := by
  have distinct : (lockables.map fun m => (order m).value.toNat).Nodup ↔
      (lockables.map fun m => (order m).value).Nodup := by
    simp only [List.Nodup, List.pairwise_map]
    apply List.Pairwise.iff
    intro a b
    have aNonneg := nonneg a
    have bNonneg := nonneg b
    omega
  rw [OrderComparator.ofConstants_of_nonneg nonneg, ← distinct, ← Comparison.repeating_eq_false_iff,
    Bool.not_eq_false]

theorem compareTuples_iff (nonneg : ∀ m, 0 ≤ (order m).value) {tuple1 tuple2 : List μ} (nonempty1 : tuple1 ≠ [])
    (nonempty2 : tuple2 ≠ []) :
    (Comparison.ofConstants order).compareOrderedLockableTuples tuple1 tuple2 = true ↔
      ∀ a ∈ tuple1, ∀ b ∈ tuple2, (order a).value < (order b).value := by
  rw [OrderComparator.ofConstants_of_nonneg nonneg, Comparison.compareOrderedLockableTuples_iff nonempty1 nonempty2]
  refine forall₂_congr fun a _ => forall₂_congr fun b _ => ?_
  have aNonneg := nonneg a
  omega

end Checks

/-- With a strict weak order the sort gives a permutation of the types in which no later one compares less than an
    earlier one. For lockables whose orders are of one unsigned type, such as `size_t`, the check for repeated
    orders holds exactly if two of them have the same order, and the check of two tuples holds exactly if every
    order in the one is smaller than every order in the other; with an empty tuple it does not compile. -/
theorem sort_and_checks_exact :
    (∀ (θ : Type u) (compare : θ → θ → Bool) (types : List (QualifiedType θ)),
      StrictWeakOn (fun a b => compare a b = true) (types.map QualifiedType.removeTypeQualifiers) →
      (sortTupleT compare types).Perm types ∧ (sortTupleT compare types).Pairwise fun earlier later =>
        ¬ compare later.removeTypeQualifiers earlier.removeTypeQualifiers = true) ∧
    ∀ (D : DataModel) (sizeT : IntegralType), D.isSigned sizeT = false →
      ∀ (μ : Type v) (order : μ → Constant D), (∀ m, (order m).type = sizeT) →
        (∀ lockables : List μ, (Comparison.ofConstants order).isThereRepeatingOrderNumber lockables = true ↔
          ¬ (lockables.map fun m => (order m).value).Nodup) ∧
        ∀ tuple1 tuple2 : List μ, tuple1 ≠ [] → tuple2 ≠ [] →
          ((Comparison.ofConstants order).compareOrderedLockableTuples tuple1 tuple2 = true ↔
            ∀ a ∈ tuple1, ∀ b ∈ tuple2, (order a).value < (order b).value) := by
  refine ⟨fun θ compare types weak => sortTupleT_ascending weak, ?_⟩
  intro D sizeT unsigned μ order typed
  have nonneg (m : μ) : 0 ≤ (order m).value := by
    have inRange := (order m).inRange
    rw [typed m, unsigned] at inRange
    exact inRange.1
  exact ⟨isThereRepeating_iff nonneg, fun tuple1 tuple2 => compareTuples_iff nonneg⟩

/-- The orders 2, 1 and 2 of type `unsigned long long`. -/
def sizeOrders : Fin 3 → Constant OrderComparator.windows
  | 0 => ⟨.promoted ⟨false, .longLong⟩, 2, by decide⟩
  | 1 => ⟨.promoted ⟨false, .longLong⟩, 1, by decide⟩
  | 2 => ⟨.promoted ⟨false, .longLong⟩, 2, by decide⟩

theorem sort_and_checks_exact_example :
    (sortTupleT (fun a b => decide (a < b)) ([2, 1, 2].map fun n => { type := n, isConst := true })).Pairwise
      (fun earlier later => ¬ decide (later.type < earlier.type) = true) ∧
    (Comparison.ofConstants sizeOrders).isThereRepeatingOrderNumber [0, 1, 2] = true ∧
    (Comparison.ofConstants sizeOrders).compareOrderedLockableTuples [1] [0, 2] = true := by
  have sort := sort_and_checks_exact.{0, 0}.1 Nat (fun a b => decide (a < b))
    ([2, 1, 2].map fun n => { type := n, isConst := true }) ⟨by decide, by decide, by decide⟩
  have checks := sort_and_checks_exact.{0, 0}.2 OrderComparator.windows (.promoted ⟨false, .longLong⟩) rfl (Fin 3)
    sizeOrders (by decide)
  exact ⟨sort.2, (checks.1 [0, 1, 2]).mpr (by decide),
    (checks.2 [1] [0, 2] (by decide) (by decide)).mpr (by decide)⟩

/-! ### The two sorts of values -/

section Helpers

variable {α : Type v} (compare : α → α → Bool)

theorem doBubbleRise_eq (arg : α) (args : List α) :
    doBubbleRise compare (args.length + 1) (arg :: args) = some (SortTuple.bubbleRiseFrom compare arg args) := by
  induction args generalizing arg with
  | nil => rfl
  | cons next args ih =>
      cases decided : compare arg next with
      | false =>
          simp [doBubbleRise, compareFirstTwo, decided, swapFirstTwoTupleElements, extractFirstTupleElement,
            mergeTuples, SortTuple.bubbleRiseFrom, ih]
      | true =>
          simp [doBubbleRise, compareFirstTwo, decided, extractFirstTupleElement, mergeTuples,
            SortTuple.bubbleRiseFrom, ih]

/-- The recursion on references takes the decisions of the recursion on types. -/
theorem sortRefTuple_eq {size : Nat} {tuple : List α} (sized : tuple.length = size + 1) :
    sortRefTuple compare (size + 1) tuple = some (SortTuple.sortTuple compare tuple) := by
  rw [SortTuple.sortTuple, sized]
  induction size generalizing tuple with
  | zero =>
      obtain ⟨arg, rfl⟩ := List.length_eq_one_iff.mp sized
      rfl
  | succ size ih =>
      cases tuple with
      | nil => cases sized
      | cons arg args =>
          have length : args.length = size + 1 := Nat.succ.inj sized
          have bubbled := doBubbleRise_eq compare arg args
          rw [length] at bubbled
          have risen := (SortTuple.bubbleRiseFrom_perm compare arg args).length_eq
          have shorter : (SortTuple.bubbleRiseFrom compare arg args).dropLast.length = size + 1 := by
            rw [List.length_dropLast, risen, List.length_cons, length]
            rfl
          obtain ⟨last, isLast⟩ : ∃ last, (SortTuple.bubbleRiseFrom compare arg args).getLast? = some last := by
            apply Option.isSome_iff_exists.mp
            rw [List.getLast?_isSome]
            exact List.ne_nil_of_length_pos (by rw [risen]; exact Nat.succ_pos _)
          simp [sortRefTuple, bubbled, extractLastTupleElement, isLast, ih shorter, mergeTuples,
            SortTuple.sortTupleBase, SortTuple.doBubbleRise]

end Helpers

variable {value : QualifiedType θ → Type v} (compare : θ → θ → Bool) (tuple : List (Element value))

/-- The positions of the elements, sorted by the types of the elements. -/
def positions : List (Fin tuple.length) :=
  SortTuple.sortTuple
    (fun i j => compare (tuple.get i).1.removeTypeQualifiers (tuple.get j).1.removeTypeQualifiers)
    (List.finRange tuple.length)

theorem positions_perm : (positions compare tuple).Perm (List.finRange tuple.length) :=
  SortTuple.sortTuple_perm _ _

/-- The sorted references refer to the sorted positions. -/
theorem sortTuple_makeRefTuple :
    SortTuple.sortTuple (TupleElementRef.compare compare) (makeRefTuple tuple) =
      (positions compare tuple).map fun i => ⟨i⟩ :=
  (SortTuple.sortTuple_map (fun i => (⟨i⟩ : TupleElementRef tuple)) (TupleElementRef.compare compare) _).symm

/-- The sorted indices are the sorted positions. -/
theorem sortTuple_makeIndexedTuple :
    SortTuple.sortTuple (IndexedTupleType.compare compare) (makeIndexedTuple tuple) =
      (positions compare tuple).map fun i => ⟨(tuple.get i).1, i⟩ :=
  (SortTuple.sortTuple_map (fun i => (⟨(tuple.get i).1, i⟩ : IndexedTupleType θ tuple.length))
    (IndexedTupleType.compare compare) _).symm

theorem map_positions_type :
    ((positions compare tuple).map tuple.get).map Sigma.fst = sortTupleT compare (tuple.map Sigma.fst) := by
  have keyed := SortTuple.sortTuple_map (fun i => (tuple.get i).1)
    (fun a b => compare a.removeTypeQualifiers b.removeTypeQualifiers) (List.finRange tuple.length)
  have types : (List.finRange tuple.length).map (fun i => (tuple.get i).1) = tuple.map Sigma.fst := by
    have elements := congrArg (List.map Sigma.fst) (List.map_get_finRange tuple)
    rw [List.map_map] at elements
    exact elements
  rw [types] at keyed
  rw [List.map_map]
  exact keyed

/-- For every comparator, the two sorts of a tuple of at least two elements return the same elements in the same
    positions: both read the tuple through one rearrangement of its positions, so that every element appears once.
    The types of the result are those of `sort_tuple_t`. -/
theorem sorts_agree (atLeastTwo : 2 ≤ tuple.length) :
    ∃ order : List (Fin tuple.length), order.Perm (List.finRange tuple.length) ∧
      doSortTuple compare tuple = some (order.map tuple.get) ∧
      doSortTuple2 compare tuple = order.map tuple.get ∧
      (order.map tuple.get).map Sigma.fst = sortTupleT compare (tuple.map Sigma.fst) := by
  refine ⟨positions compare tuple, positions_perm compare tuple, ?_, ?_, map_positions_type compare tuple⟩
  · obtain ⟨size, sized⟩ : ∃ size, tuple.length = size + 1 := ⟨tuple.length - 1, by omega⟩
    have refs : (makeRefTuple tuple).length = size + 1 := by
      rw [makeRefTuple, List.length_map, List.length_finRange, sized]
    have sorted := sortRefTuple_eq (TupleElementRef.compare compare) refs
    rw [← sized, sortTuple_makeRefTuple] at sorted
    have large : ¬ (tuple.length = 0 ∨ tuple.length = 1) := by omega
    rw [doSortTuple, sorted, Option.map_some, if_neg large, restoreTuple, List.map_map]
    rfl
  · rw [doSortTuple2, sortTuple_makeIndexedTuple]
    simp only [List.map_map]
    rfl

/-- Three elements, two of them of the same type. -/
def repeatedTypes : List (Element fun _ : QualifiedType Nat => Nat) :=
  [⟨{ type := 1 }, 10⟩, ⟨{ type := 1 }, 20⟩, ⟨{ type := 2 }, 30⟩]

/-- The comparator is no order: it always answers no. -/
theorem sorts_agree_repeatedTypes :
    doSortTuple (fun _ _ => false) repeatedTypes = some (doSortTuple2 (fun _ _ => false) repeatedTypes) := by
  obtain ⟨order, -, first, second, -⟩ := sorts_agree (fun _ _ => false) repeatedTypes (by decide)
  rw [first, second]

end TupleUtils

end CommonRpc
