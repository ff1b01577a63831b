/-
Module: CommonRpc.Lib.Transition
Purpose: Runs of a machine whose steps are chosen by its environment. A machine is a partial step
  function: `step s e` is the state after event `e`, and `none` says that `e` cannot happen in `s`.
  An interleaving of a concurrent component is then a list of events, and "for every interleaving" is
  a quantifier over such lists. The rules below carry what one step keeps to what a whole run keeps, and
  what one step lowers to the end of all runs.
Trusted boundary: none
-/
import Mathlib.Data.List.Induction

namespace CommonRpc.Lib

universe u v

/-- A machine driven by its environment: `none` says that the event cannot happen in that state. -/
structure Machine (σ : Type u) (ε : Type v) where
  step : σ → ε → Option σ

namespace Machine

variable {σ : Type u} {ε : Type v}

/-- Execute a list of events; the run exists only if every event can happen in turn. -/
def run (M : Machine σ ε) : σ → List ε → Option σ
  | s, [] => some s
  | s, e :: es => (M.step s e).bind fun t => M.run t es

@[simp] theorem run_nil (M : Machine σ ε) (s : σ) : M.run s [] = some s := rfl

theorem run_cons (M : Machine σ ε) (s : σ) (e : ε) (es : List ε) :
    M.run s (e :: es) = (M.step s e).bind fun t => M.run t es := rfl

/-- A nonempty run is a step followed by the rest of the run. -/
theorem run_cons_eq_some {M : Machine σ ε} {s s' : σ} {e : ε} {es : List ε} :
    M.run s (e :: es) = some s' ↔ ∃ t, M.step s e = some t ∧ M.run t es = some s' := by
  rw [run_cons, Option.bind_eq_some_iff]

/-- What a run leads to, from what can be read off its last state and what follows from that. -/
theorem exists_run {M : Machine σ ε} {s : σ} {es : List ε} {P Q : σ → Prop}
    (reached : ∃ t, M.run s es = some t ∧ P t) (holds : ∀ {t}, M.run s es = some t → P t → Q t) :
    ∃ t, M.run s es = some t ∧ P t ∧ Q t := by
  obtain ⟨t, ran, read⟩ := reached
  exact ⟨t, ran, read, holds ran read⟩

/-- A property that no step destroys holds after every run from a state that has it. -/
theorem run_invariant {M : Machine σ ε} {P : σ → Prop}
    (preserved : ∀ {s e t}, P s → M.step s e = some t → P t)
    {s s' : σ} {es : List ε} (start : P s) (ran : M.run s es = some s') : P s' := by
  induction es generalizing s with
  | nil =>
      rw [run_nil, Option.some.injEq] at ran
      exact ran ▸ start
  | cons e es ih =>
      obtain ⟨t, stepped, rest⟩ := run_cons_eq_some.mp ran
      exact ih (preserved start stepped) rest

theorem run_append_eq_some {M : Machine σ ε} {s s' : σ} {es es' : List ε} :
    M.run s (es ++ es') = some s' ↔ ∃ t, M.run s es = some t ∧ M.run t es' = some s' := by
  induction es generalizing s with
  | nil => simp
  | cons e es ih =>
      simp only [List.cons_append, run_cons_eq_some, ih]
      constructor
      · rintro ⟨a, stepped, t, first, rest⟩
        exact ⟨t, ⟨a, stepped, first⟩, rest⟩
      · rintro ⟨t, ⟨a, stepped, first⟩, rest⟩
        exact ⟨a, stepped, t, first, rest⟩

/-- What holds of the empty run and of a run with one more step holds of every run. -/
theorem run_induction {M : Machine σ ε} {s : σ} {P : List ε → σ → Prop} (start : P [] s)
    (extend : ∀ {es a e b}, M.run s es = some a → P es a → M.step a e = some b → P (es ++ [e]) b)
    {es : List ε} {s' : σ} (ran : M.run s es = some s') : P es s' := by
  induction es using List.reverseRecOn generalizing s' with
  | nil =>
      rw [run_nil, Option.some.injEq] at ran
      exact ran ▸ start
  | append_singleton es e ih =>
      obtain ⟨a, first, last⟩ := run_append_eq_some.mp ran
      obtain ⟨b, stepped, done⟩ := run_cons_eq_some.mp last
      rw [run_nil, Option.some.injEq] at done
      exact done ▸ extend first (ih first) stepped

/-- The step of a run that follows one of its beginnings. -/
theorem next_of_run {M : Machine σ ε} {s s₁ s' : σ} {es es₁ : List ε} {e : ε} (ran : M.run s es = some s')
    (beginning : es₁ ++ [e] <+: es) (ran₁ : M.run s es₁ = some s₁) :
    ∃ t, M.step s₁ e = some t ∧ M.run s (es₁ ++ [e]) = some t := by
  obtain ⟨later, rfl⟩ := beginning
  obtain ⟨t, first, _⟩ := run_append_eq_some.mp ran
  obtain ⟨a, reached, last⟩ := run_append_eq_some.mp first
  obtain rfl : s₁ = a := Option.some.inj (ran₁.symm.trans reached)
  obtain ⟨b, stepped, done⟩ := run_cons_eq_some.mp last
  rw [run_nil, Option.some.injEq] at done
  exact ⟨t, done ▸ stepped, first⟩

/-- The state after a run is related to the state after each of its beginnings, if the steps from states
    with the invariant `P` are. -/
theorem run_since {M : Machine σ ε} {s : σ} {P : σ → Prop} {R : σ → σ → Prop} (refl : ∀ a, R a a)
    (trans : ∀ {a b c}, R a b → R b c → R a c) (holds : ∀ {es a}, M.run s es = some a → P a)
    (across : ∀ {a e b}, P a → M.step a e = some b → R a b) {es es₁ : List ε} {s₁ s' : σ}
    (ran : M.run s es = some s') (beginning : es₁ <+: es) (ran₁ : M.run s es₁ = some s₁) : R s₁ s' := by
  obtain ⟨later, rfl⟩ := beginning
  obtain ⟨t, first, rest⟩ := run_append_eq_some.mp ran
  obtain rfl : s₁ = t := Option.some.inj (ran₁.symm.trans first)
  refine run_induction (P := fun _ a => R s₁ a) (refl s₁) ?_ rest
  intro es a e b reached related stepped
  exact trans related (across (holds (run_append_eq_some.mpr ⟨s₁, first, reached⟩)) stepped)

/-- The machine that only takes the steps its guard allows. -/
def restrict (M : Machine σ ε) (guard : σ → ε → Bool) : Machine σ ε where
  step s e := if guard s e then M.step s e else none

theorem restrict_step {M : Machine σ ε} {guard : σ → ε → Bool} {s t : σ} {e : ε} :
    (M.restrict guard).step s e = some t ↔ guard s e = true ∧ M.step s e = some t := by
  simp only [restrict]
  split <;> simp_all

/-- A run of the restricted machine is a run of the machine itself. -/
theorem run_restrict {M : Machine σ ε} {guard : σ → ε → Bool} {s s' : σ} {es : List ε}
    (ran : (M.restrict guard).run s es = some s') : M.run s es = some s' := by
  induction es generalizing s with
  | nil => exact ran
  | cons e es ih =>
      obtain ⟨t, stepped, rest⟩ := run_cons_eq_some.mp ran
      exact run_cons_eq_some.mpr ⟨t, (restrict_step.mp stepped).2, ih rest⟩

/-- Every step of a run of the restricted machine passes the guard. -/
theorem guard_of_run_restrict {M : Machine σ ε} {guard : σ → ε → Bool} {s t s' : σ} {es₁ es₂ : List ε} {e : ε}
    (ran : (M.restrict guard).run s (es₁ ++ e :: es₂) = some s') (first : M.run s es₁ = some t) :
    guard t e = true := by
  obtain ⟨a, reached, rest⟩ := run_append_eq_some.mp ran
  obtain rfl : a = t := Option.some.inj ((run_restrict reached).symm.trans first)
  obtain ⟨b, stepped, _⟩ := run_cons_eq_some.mp rest
  exact (restrict_step.mp stepped).1

section Measure

variable {M : Machine σ ε} {P : σ → Prop} {size : σ → Nat}

/-- A measure that no step raises and the counted steps lower bounds the number of those in a run. -/
theorem run_countP_le {counted : ε → Bool} (preserved : ∀ {s e t}, P s → M.step s e = some t → P t)
    (lowered : ∀ {s e t}, P s → M.step s e = some t → size t + (counted e).toNat ≤ size s)
    {s s' : σ} {es : List ε} (start : P s) (ran : M.run s es = some s') : es.countP counted ≤ size s := by
  induction es generalizing s with
  | nil => exact Nat.zero_le _
  | cons e es ih =>
      obtain ⟨t, stepped, rest⟩ := run_cons_eq_some.mp ran
      have later := ih (preserved start stepped) rest
      have lower := lowered start stepped
      have here : (if counted e then 1 else 0) = (counted e).toNat := by cases counted e <;> rfl
      rw [List.countP_cons, here]
      omega

/-- A measure that every step lowers bounds the length of a run. -/
theorem run_length_le (preserved : ∀ {s e t}, P s → M.step s e = some t → P t)
    (lowered : ∀ {s e t}, P s → M.step s e = some t → size t < size s)
    {s s' : σ} {es : List ε} (start : P s) (ran : M.run s es = some s') : es.length ≤ size s := by
  rw [← List.countP_true]
  exact run_countP_le preserved lowered start ran

variable (size) in
/-- If every state that is not final has a step that lowers the measure, then every state has a run to a final
    one. -/
theorem exists_run_final {final : σ → Prop} (preserved : ∀ {s e t}, P s → M.step s e = some t → P t)
    (progress : ∀ {s}, P s → ¬ final s → ∃ e t, M.step s e = some t ∧ size t < size s) {s : σ} (start : P s) :
    ∃ es s', M.run s es = some s' ∧ final s' := by
  induction bound : size s using Nat.strongRecOn generalizing s with
  | ind n ih =>
      by_cases done : final s
      · exact ⟨[], s, rfl, done⟩
      · obtain ⟨e, t, stepped, lower⟩ := progress start done
        obtain ⟨es, s', ran, done'⟩ := ih (size t) (bound ▸ lower) (preserved start stepped) rfl
        exact ⟨e :: es, s', run_cons_eq_some.mpr ⟨t, stepped, ran⟩, done'⟩

end Measure

end Machine

end CommonRpc.Lib
