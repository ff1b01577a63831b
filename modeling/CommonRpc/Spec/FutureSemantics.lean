/-
Module: CommonRpc.Spec.FutureSemantics
Purpose: The sequential meaning of a graph of futures, without controllers, threads or registrations: the outcome
  of a future in terms of the outcomes of the futures it depends on, and the only solution of these equations.
Trusted boundary: none
-/
import CommonRpc.Core.FutureGraph

namespace CommonRpc

universe u

namespace Combinator

variable {ι ν χ : Type u}

/-- The combinator calls its callback on an outcome of its source. -/
def invokes : Combinator ι ν χ → Outcome ν χ → Bool
  | .thenValue _, .value _ | .thenFuture _, .value _ => true
  | .thenValue _, .exception _ | .thenFuture _, .exception _ => false
  | .catchedValue _, .value _ | .catchedVoid _, .value _ | .catchedFuture _, .value _ => false
  | .catchedValue _, .exception _ | .catchedVoid _, .exception _ | .catchedFuture _, .exception _ => true
  | .finallyVoid _, _ | .finallyFuture _, _ => true

end Combinator

namespace FutureGraph

variable {ι ν χ : Type u} (g : FutureGraph ι ν χ)

/-- The outcome of what a callback returned. -/
def adopted (sem : ι → Outcome ν χ) : Returned ι χ → Outcome ν χ
  | .future j => sem j
  | .invalid => .exception g.invalidFuture
  | .throws e => .exception e

/-- The outcome of a combinator on an outcome of its source. -/
def combine (sem : ι → Outcome ν χ) : Combinator ι ν χ → Outcome ν χ → Outcome ν χ
  -- an exception passes `then`, a value goes through the callback
  | .thenValue _, .exception e => .exception e
  | .thenValue task, .value v => task v
  | .thenFuture _, .exception e => .exception e
  | .thenFuture task, .value v => g.adopted sem (task v)
  -- a value passes `catched`, an exception goes through the handler
  | .catchedValue _, .value v => .value v
  | .catchedValue task, .exception e => task e
  | .catchedVoid _, .value _ => .value g.unit
  | .catchedVoid task, .exception e =>
      match task e with
      | none => .value g.unit
      | some e' => .exception e'
  | .catchedFuture _, .value v => .value v
  | .catchedFuture task, .exception e => g.adopted sem (task e)
  -- `finally` keeps the outcome, unless the action fails
  | .finallyVoid none, outcome => outcome
  | .finallyVoid (some e), _ => .exception e
  | .finallyFuture task, outcome =>
      match g.adopted sem task with
      | .value _ => outcome
      | .exception e => .exception e

/-- The outcome of a future, given the outcomes of the others. -/
def expected (sem : ι → Outcome ν χ) (i : ι) : Outcome ν χ :=
  match g.node i with
  | .source outcome => outcome
  | .derived src combinator => g.combine sem combinator (sem src)

/-- The outcomes of the futures of a rank below `n`. -/
def semBelow : Nat → ι → Outcome ν χ
  | 0, _ => .exception g.invalidFuture
  | n + 1, i => g.expected (semBelow n) i

/-- The sequential outcome of a future. -/
def sem (i : ι) : Outcome ν χ := g.semBelow (g.rank i + 1) i

variable {g}

theorem adopted_congr {sem sem' : ι → Outcome ν χ} {returned : Returned ι χ}
    (agree : ∀ j, returned = .future j → sem j = sem' j) : g.adopted sem returned = g.adopted sem' returned := by
  cases returned with
  | future j => exact agree j rfl
  | invalid => rfl
  | throws e => rfl

theorem adopted_value {sem : ι → Outcome ν χ} {returned : Returned ι χ} {v : ν}
    (value : g.adopted sem returned = .value v) : ∃ j, returned = .future j ∧ sem j = .value v := by
  cases returned with
  | future j => exact ⟨j, rfl, value⟩
  | invalid => cases value
  | throws e => cases value

/-- A combinator looks only at the futures its callback may return. -/
theorem combine_congr {sem sem' : ι → Outcome ν χ} {combinator : Combinator ι ν χ}
    (agree : ∀ j, combinator.MayReturn j → sem j = sem' j) (outcome : Outcome ν χ) :
    g.combine sem combinator outcome = g.combine sem' combinator outcome := by
  cases combinator with
  | thenFuture task =>
      cases outcome with
      | value v => exact adopted_congr fun j same => agree j ⟨v, same⟩
      | exception e => rfl
  | catchedFuture task =>
      cases outcome with
      | value v => rfl
      | exception e => exact adopted_congr fun j same => agree j ⟨e, same⟩
  | finallyFuture task =>
      have same : g.adopted sem task = g.adopted sem' task := adopted_congr fun j same => agree j same
      simp only [combine, same]
  | thenValue task => cases outcome <;> rfl
  | catchedValue task => cases outcome <;> rfl
  | catchedVoid task => cases outcome <;> rfl
  | finallyVoid task => cases task <;> rfl

/-- The outcome of a future depends on futures of lower rank only. -/
theorem expected_congr {sem sem' : ι → Outcome ν χ} {i : ι}
    (agree : ∀ j, g.rank j < g.rank i → sem j = sem' j) : g.expected sem i = g.expected sem' i := by
  unfold expected
  split
  · rfl
  · rename_i src combinator shape
    rw [agree src (g.src_lt shape)]
    exact combine_congr (fun j returned => agree j (g.returned_lt shape returned)) _

theorem semBelow_eq {n m : Nat} {i : ι} (enough : g.rank i < n) (enough' : g.rank i < m) :
    g.semBelow n i = g.semBelow m i := by
  induction n generalizing m i with
  | zero => exact absurd enough (Nat.not_lt_zero _)
  | succ n ih =>
      cases m with
      | zero => exact absurd enough' (Nat.not_lt_zero _)
      | succ m =>
          apply expected_congr
          intro j lower
          exact ih (by omega) (by omega)

/-- The sequential outcomes solve the equations. -/
theorem sem_eq (i : ι) : g.sem i = g.expected g.sem i := by
  change g.expected (g.semBelow (g.rank i)) i = g.expected g.sem i
  apply expected_congr
  intro j lower
  exact semBelow_eq lower (Nat.lt_succ_self _)

/-- They are the only solution. -/
theorem sem_unique {sem : ι → Outcome ν χ} (solves : ∀ i, sem i = g.expected sem i) (i : ι) :
    sem i = g.sem i := by
  induction rank : g.rank i using Nat.strongRecOn generalizing i with
  | ind n ih =>
      rw [solves i, sem_eq i]
      apply expected_congr
      intro j lower
      exact ih (g.rank j) (rank ▸ lower) j rfl

theorem sem_source {i : ι} {outcome : Outcome ν χ} (shape : g.node i = .source outcome) :
    g.sem i = outcome := by
  rw [sem_eq, expected, shape]

theorem sem_derived {i src : ι} {combinator : Combinator ι ν χ} (shape : g.node i = .derived src combinator) :
    g.sem i = g.combine g.sem combinator (g.sem src) := by
  rw [sem_eq, expected, shape]

/-- A void future has the value that stands for nothing. -/
theorem sem_void {i : ι} (void : g.isVoid i = true) {v : ν} (value : g.sem i = .value v) : v = g.unit := by
  induction rank : g.rank i using Nat.strongRecOn generalizing i v with
  | ind n ih =>
      cases shape : g.node i with
      | source outcome =>
          rw [sem_source shape] at value
          exact g.typed_source (value ▸ shape) void
      | derived src combinator =>
          have typed := g.typed shape
          have lower : g.rank src < n := rank ▸ g.src_lt shape
          rw [sem_derived shape] at value
          cases combinator with
          | thenValue task =>
              cases source : g.sem src with
              | value w =>
                  rw [source] at value
                  exact typed void w v value
              | exception e =>
                  rw [source] at value
                  cases value
          | thenFuture task =>
              cases source : g.sem src with
              | value w =>
                  rw [source] at value
                  obtain ⟨j, returned, value⟩ := adopted_value value
                  exact ih _ (rank ▸ g.returned_lt shape ⟨w, returned⟩) ((typed w j returned).trans void) value rfl
              | exception e =>
                  rw [source] at value
                  cases value
          | catchedValue task =>
              rw [typed.1] at void
              cases void
          | catchedVoid task =>
              cases source : g.sem src with
              | value w =>
                  rw [source] at value
                  exact (Outcome.value.inj value).symm
              | exception e =>
                  rw [source] at value
                  simp only [combine] at value
                  split at value
                  · exact (Outcome.value.inj value).symm
                  · cases value
          | catchedFuture task =>
              cases source : g.sem src with
              | value w =>
                  rw [source] at value
                  obtain rfl := Outcome.value.inj value
                  exact ih _ lower (typed.1.symm.trans void) source rfl
              | exception e =>
                  rw [source] at value
                  obtain ⟨j, returned, value⟩ := adopted_value value
                  exact ih _ (rank ▸ g.returned_lt shape ⟨e, returned⟩) ((typed.2 e j returned).trans void) value
                    rfl
          | finallyVoid task =>
              cases task with
              | none => exact ih _ lower (typed.symm.trans void) value rfl
              | some e => cases value
          | finallyFuture task =>
              simp only [combine] at value
              split at value
              · exact ih _ lower (typed.1.symm.trans void) value rfl
              · cases value

end FutureGraph

end CommonRpc
