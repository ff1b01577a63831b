/-
Module: CommonRpc.Proofs.OrderComparator
Purpose: When `order_comparator` is a strict total order on a list of lockable types. A negative order and an
  unsigned one may compare against their values; that does no harm as long as no other order lies between them
  that compares with both of them by value, for then the three form a cycle. The check at compile time only looks
  at neighbours in the sorted list and lets such lists pass.
Trusted boundary: none
-/
import CommonRpc.Core.OrderComparator
import CommonRpc.Proofs.OrderedLock
import Mathlib.Data.List.Nodup
import Mathlib.Data.List.Pairwise

namespace CommonRpc

open Lib Lib.Integral

universe u

variable {μ : Type u}

/-! ### Strict total orders on a list -/

/-- A relation that is irreflexive and transitive on the entries of a list and compares any two of them. -/
structure StrictTotalOn (r : μ → μ → Prop) (l : List μ) : Prop where
  irrefl : ∀ a ∈ l, ¬ r a a
  trans : ∀ a ∈ l, ∀ b ∈ l, ∀ c ∈ l, r a b → r b c → r a c
  total : l.Pairwise fun a b => r a b ∨ r b a

namespace StrictTotalOn

variable {r : μ → μ → Prop} {l : List μ}

theorem total_of_ne (strict : StrictTotalOn r l) {a b : μ} (memA : a ∈ l) (memB : b ∈ l) (ne : a ≠ b) :
    r a b ∨ r b a := by
  have : Std.Symm fun a b => r a b ∨ r b a := ⟨fun _ _ => Or.symm⟩
  exact strict.total.forall memA memB ne

theorem asymm (strict : StrictTotalOn r l) {a b : μ} (memA : a ∈ l) (memB : b ∈ l) (below : r a b) : ¬ r b a := by
  intro above
  exact strict.irrefl a memA (strict.trans a memA b memB a memA below above)

end StrictTotalOn

/-- Two entries of a list stand in one order or the other. -/
theorem sublist_pair_or {l : List μ} {a b : μ} (memA : a ∈ l) (memB : b ∈ l) (ne : a ≠ b) :
    [a, b].Sublist l ∨ [b, a].Sublist l := by
  induction l with
  | nil => cases memA
  | cons head tail ih =>
      rcases List.mem_cons.mp memA with rfl | tailA
      · rcases List.mem_cons.mp memB with rfl | tailB
        · exact absurd rfl ne
        · exact .inl (.cons_cons a (List.singleton_sublist.mpr tailB))
      · rcases List.mem_cons.mp memB with rfl | tailB
        · exact .inr (.cons_cons b (List.singleton_sublist.mpr tailA))
        · rcases ih tailA tailB with before | after
          · exact .inl (.cons head before)
          · exact .inr (.cons head after)

/-- In a list in ascending order the smaller of two entries comes first. -/
theorem sublist_pair_iff {r : μ → μ → Prop} {l sorted : List μ} (strict : StrictTotalOn r l) (within : sorted ⊆ l)
    (ascending : sorted.Pairwise r) {a b : μ} (memA : a ∈ sorted) (memB : b ∈ sorted) :
    [a, b].Sublist sorted ↔ r a b := by
  constructor
  · exact List.pairwise_iff_forall_sublist.mp ascending
  · intro below
    have ne : a ≠ b := by
      rintro rfl
      exact strict.irrefl a (within memA) below
    rcases sublist_pair_or memA memB ne with before | after
    · exact before
    · have above := List.pairwise_iff_forall_sublist.mp ascending after
      exact absurd above (strict.asymm (within memA) (within memB) below)

namespace OrderComparator

open Comparison

variable {D : DataModel} {order : μ → Constant D} {l : List μ}

/-- The mutexes of a lock over some of the types are locked in ascending order. -/
theorem sorted_ascending (strict : StrictTotalOn (fun a b => compare order a b = true) l) {lockables : List μ}
    (distinct : lockables.Nodup) (within : lockables ⊆ l) :
    (sorted (.ofConstants order) lockables).Pairwise fun a b => compare order a b = true := by
  have ascending :
      (sorted (.ofConstants order) lockables).Pairwise fun a b => a = b ∨ compare order a b = true := by
    refine (SortTuple.sortTupleBase_ascending (P := fun a => a ∈ l)
      (R := fun a b => a = b ∨ compare order a b = true) ?_ ?_ ?_ rfl within).2
    · intro a b c memA memB memC first second
      rcases first with rfl | first
      · exact second
      · rcases second with rfl | second
        · exact .inr first
        · exact .inr (strict.trans a memA b memB c memC first second)
    · intro a b _ _ below
      exact .inr below
    · intro a b memA memB notBelow
      by_cases same : b = a
      · exact .inl same
      · right
        rcases strict.total_of_ne memA memB (Ne.symm same) with below | above
        · cases notBelow.symm.trans below
        · exact above
  have apart := (sorted_perm (.ofConstants order) lockables).nodup_iff.mpr distinct
  exact (ascending.and apart).imp fun both => both.1.resolve_left both.2

/-- Two locks over some of the types lock the types they share in the same order. -/
theorem sorted_agree (strict : StrictTotalOn (fun a b => compare order a b = true) l) {xs ys : List μ}
    (distinctX : xs.Nodup) (distinctY : ys.Nodup) (withinX : xs ⊆ l) (withinY : ys ⊆ l) {a b : μ}
    (aX : a ∈ xs) (bX : b ∈ xs) (aY : a ∈ ys) (bY : b ∈ ys) :
    [a, b].Sublist (sorted (.ofConstants order) xs) ↔ [a, b].Sublist (sorted (.ofConstants order) ys) := by
  have permX := sorted_perm (.ofConstants order) xs
  have permY := sorted_perm (.ofConstants order) ys
  rw [sublist_pair_iff strict (fun c mem => withinX (permX.mem_iff.mp mem))
      (sorted_ascending strict distinctX withinX) (permX.mem_iff.mpr aX) (permX.mem_iff.mpr bX),
    sublist_pair_iff strict (fun c mem => withinY (permY.mem_iff.mp mem))
      (sorted_ascending strict distinctY withinY) (permY.mem_iff.mpr aY) (permY.mem_iff.mpr bY)]

/-! ### When the comparison is a strict total order -/

/-- What the orders have to satisfy. No two of them have the same value, or become the same when one of them wraps;
    and where a negative order `n` is put behind an unsigned one `x`, every order `s` between them in value is
    put behind `x` as well, or before `n` as well. -/
structure Comparable (order : μ → Constant D) (l : List μ) : Prop where
  distinct : l.Pairwise fun a b =>
    (order a).value ≠ (order b).value ∧ ¬ Meets (order a) (order b) ∧ ¬ Meets (order b) (order a)
  gapless : ∀ n ∈ l, ∀ x ∈ l, ∀ s ∈ l, Misordered (order n) (order x) →
    (order n).value < (order s).value → (order s).value < (order x).value →
    Misordered (order n) (order s) ∨ Misordered (order s) (order x)

namespace Comparable

theorem distinct_of_ne (comparable : Comparable order l) {a b : μ} (memA : a ∈ l) (memB : b ∈ l) (ne : a ≠ b) :
    (order a).value ≠ (order b).value ∧ ¬ Meets (order a) (order b) ∧ ¬ Meets (order b) (order a) := by
  have : Std.Symm fun a b =>
      (order a).value ≠ (order b).value ∧ ¬ Meets (order a) (order b) ∧ ¬ Meets (order b) (order a) :=
    ⟨fun _ _ apart => ⟨apart.1.symm, apart.2.2, apart.2.1⟩⟩
  exact comparable.distinct.forall memA memB ne

/-- Among comparable orders the comparison is numeric or turned round. -/
theorem compare_iff (comparable : Comparable order l) {a b : μ} (memA : a ∈ l) (memB : b ∈ l) :
    compare order a b = true ↔
      (order a).value < (order b).value ∧ ¬ Misordered (order a) (order b) ∨ Misordered (order b) (order a) := by
  rw [compare, less_iff]
  by_cases same : a = b
  · subst same
    simp [Misordered]
  · have apart := comparable.distinct_of_ne memA memB same
    simp [apart.2.1]

end Comparable

/-- A comparison never holds both ways round of one constant. -/
theorem compare_irrefl (order : μ → Constant D) (a : μ) : ¬ compare order a a = true := by
  simp [compare, Integral.less]

/-- Comparable orders are strictly and totally ordered. -/
theorem Comparable.strictTotal (comparable : Comparable order l) :
    StrictTotalOn (fun a b => compare order a b = true) l where
  irrefl a _ := compare_irrefl order a
  trans a memA b memB c memC first second := by
    rw [comparable.compare_iff memA memB] at first
    rw [comparable.compare_iff memB memC] at second
    rw [comparable.compare_iff memA memC]
    rcases first with ⟨belowAB, rightAB⟩ | turnedAB
    · rcases second with ⟨belowBC, rightBC⟩ | turnedBC
      · -- both by value: a turned pair `a`, `c` would have `b` between
        refine .inl ⟨Int.lt_trans belowAB belowBC, fun turned => ?_⟩
        rcases comparable.gapless a memA c memC b memB turned belowAB belowBC with turnedAB | turnedBC
        · exact rightAB turnedAB
        · exact rightBC turnedBC
      · -- `c` is negative and put behind `b`
        rcases Int.lt_trichotomy (order a).value (order c).value with lower | equal | higher
        · exact .inl ⟨lower, fun turned => absurd turned.2.1 (Int.not_le.mpr turnedBC.1)⟩
        · by_cases same : a = c
          · subst same
            exact absurd turnedBC rightAB
          · exact absurd equal (comparable.distinct_of_ne memA memC same).1
        · rcases comparable.gapless c memC b memB a memA turnedBC higher belowAB with turnedCA | turnedAB
          · exact .inr turnedCA
          · exact absurd turnedAB rightAB
    · rcases second with ⟨belowBC, rightBC⟩ | turnedBC
      · -- `b` is negative and put behind `a`
        rcases Int.lt_trichotomy (order a).value (order c).value with lower | equal | higher
        · exact .inl ⟨lower, fun turned => absurd turnedAB.2.1 (Int.not_le.mpr turned.1)⟩
        · by_cases same : a = c
          · subst same
            exact absurd turnedAB rightBC
          · exact absurd equal (comparable.distinct_of_ne memA memC same).1
        · rcases comparable.gapless b memB a memA c memC turnedAB belowBC higher with turnedBC | turnedCA
          · exact absurd turnedBC rightBC
          · exact .inr turnedCA
      · exact absurd turnedBC.2.1 (Int.not_le.mpr turnedAB.1)
  total := by
    apply comparable.distinct.imp
    intro a b apart
    rw [compare, compare, less_or_less_iff, equal_iff, not_or, not_or]
    exact apart

/-- And only those are. -/
theorem Comparable.of_strictTotal (strict : StrictTotalOn (fun a b => compare order a b = true) l) :
    Comparable order l where
  distinct := by
    apply strict.total.imp
    intro a b compared
    rw [compare, compare, less_or_less_iff, equal_iff, not_or, not_or] at compared
    exact compared
  gapless n memN x memX s memS turned above below := by
    by_contra neither
    obtain ⟨rightNS, rightSX⟩ := not_or.mp neither
    -- then `n`, `s` and `x` form a cycle
    have neNS : n ≠ s := by
      rintro rfl
      exact Int.lt_irrefl _ above
    have neSX : s ≠ x := by
      rintro rfl
      exact Int.lt_irrefl _ below
    have first : compare order n s = true := by
      refine (strict.total_of_ne memN memS neNS).resolve_right fun turnedBack => ?_
      rcases (less_iff (order s) (order n)).mp turnedBack with ⟨lower, -⟩ | turnedNS
      · exact absurd above (Int.lt_asymm lower)
      · exact rightNS turnedNS
    have second : compare order s x = true := by
      refine (strict.total_of_ne memS memX neSX).resolve_right fun turnedBack => ?_
      rcases (less_iff (order x) (order s)).mp turnedBack with ⟨lower, -⟩ | turnedSX
      · exact absurd below (Int.lt_asymm lower)
      · exact rightSX turnedSX
    have third : compare order x n = true := (less_iff (order x) (order n)).mpr (.inr turned)
    have cycle := strict.trans n memN s memS x memX first second
    exact strict.asymm memN memX cycle third

/-- Orders that are not negative compare by their values, which is how the threads of CommonRpc.Core.OrderedLock
    have them. -/
theorem ofConstants_of_nonneg (nonneg : ∀ m, 0 ≤ (order m).value) :
    Comparison.ofConstants order = .ofOrder fun m => (order m).value.toNat := by
  rw [Comparison.ofConstants, Comparison.ofOrder, Comparison.mk.injEq]
  constructor
  · funext a b
    have aNonneg := nonneg a
    have bNonneg := nonneg b
    rw [Bool.eq_iff_iff, compare, less_iff, decide_eq_true_iff]
    simp only [Misordered, Meets]
    omega
  · funext a b
    have aNonneg := nonneg a
    have bNonneg := nonneg b
    rw [Bool.eq_iff_iff, equal_iff, decide_eq_true_iff]
    simp only [Meets]
    omega

/-- For every list of lockable types that the check lets pass, the comparison is a strict total order on the list,
    and any two locks over some of its types lock the types they share in the same order, exactly if the orders
    are comparable. -/
theorem strictTotal_iff (order : μ → Constant D) (l : List μ)
    (_accepted : isOrderedLockableTypesValid (.ofConstants order) l = true) :
    (StrictTotalOn (fun a b => compare order a b = true) l ∧
      ∀ xs ys : List μ, xs.Nodup → ys.Nodup → xs ⊆ l → ys ⊆ l →
        ∀ a b, a ∈ xs → b ∈ xs → a ∈ ys → b ∈ ys →
          ([a, b].Sublist (sorted (.ofConstants order) xs) ↔ [a, b].Sublist (sorted (.ofConstants order) ys))) ↔
      Comparable order l := by
  constructor
  · rintro ⟨strict, -⟩
    exact .of_strictTotal strict
  · intro comparable
    have strict := comparable.strictTotal
    refine ⟨strict, ?_⟩
    intro xs ys distinctX distinctY withinX withinY a b aX bX aY bY
    exact sorted_agree strict distinctX distinctY withinX withinY aX bX aY bY

/-- Three lockable types with the orders -1 and 0 of type `int` and 1 of type `unsigned`. -/
def mixedOrders : Fin 3 → Constant windows
  | 0 => ⟨.promoted ⟨true, .int⟩, -1, by decide⟩
  | 1 => ⟨.promoted ⟨true, .int⟩, 0, by decide⟩
  | 2 => ⟨.promoted ⟨false, .int⟩, 1, by decide⟩

/-- The orders -1 of type `int` and 1 of type `unsigned` alone are comparable. -/
theorem strictTotal_two :
    StrictTotalOn (fun a b => compare mixedOrders a b = true) [0, 2] :=
  ((strictTotal_iff mixedOrders [0, 2] (by decide)).mpr ⟨by decide, by decide⟩).1

/-- They pass the check, and the comparison goes round in a circle. -/
theorem mixedOrders_accepted :
    ¬ ∀ l : List (Fin 3), isOrderedLockableTypesValid (.ofConstants mixedOrders) l = true →
      StrictTotalOn (fun a b => compare mixedOrders a b = true) l := by
  intro strict
  have cycle := (strict [0, 1, 2] (by decide)).trans 0 (by simp) 1 (by simp) 2 (by simp) (by decide) (by decide)
  exact (strict [0, 1, 2] (by decide)).asymm (by simp) (by simp) cycle (by decide)

end OrderComparator

end CommonRpc
