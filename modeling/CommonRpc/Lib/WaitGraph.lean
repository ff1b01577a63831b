/-
Module: CommonRpc.Lib.WaitGraph
Purpose: Deadlock freedom by a rank on resources. Threads hold resources and each waits for at most one; if a
  thread waits only for resources above all that it holds, then the rank of what is waited for goes up along
  every chain of waiting threads, and no chain comes back to where it started.
Trusted boundary: none
-/
import Mathlib.Logic.Relation
import Mathlib.Order.Basic

namespace CommonRpc.Lib

universe u v w

/-- Who holds what, and who waits for what. -/
structure WaitGraph (τ : Type u) (ρ : Type v) where
  holds : τ → ρ → Prop
  waits : τ → ρ → Prop

namespace WaitGraph

variable {τ : Type u} {ρ : Type v} {α : Type w} (G : WaitGraph τ ρ)

/-- The one thread waits for something that the other one holds. -/
def WaitsFor (a b : τ) : Prop := ∃ r, G.waits a r ∧ G.holds b r

/-- A thread waits only for what is above all that it holds. -/
def Ascending [LT α] (rank : ρ → α) : Prop :=
  ∀ t held wanted, G.holds t held → G.waits t wanted → rank held < rank wanted

variable {G} {rank : ρ → α}

/-- Along a chain of waiting threads the rank of what is waited for goes up. -/
theorem rank_lt_of_transGen [Preorder α] (ascending : G.Ascending rank) {a b : τ}
    (chain : Relation.TransGen G.WaitsFor a b) {wanted : ρ} (waits : G.waits b wanted) :
    ∃ first, G.waits a first ∧ rank first < rank wanted := by
  induction chain generalizing wanted with
  | single edge =>
      obtain ⟨first, waitsFirst, held⟩ := edge
      exact ⟨first, waitsFirst, ascending _ first wanted held waits⟩
  | tail _ edge ih =>
      obtain ⟨between, waitsBetween, held⟩ := edge
      obtain ⟨first, waitsFirst, below⟩ := ih waitsBetween
      exact ⟨first, waitsFirst, below.trans (ascending _ between wanted held waits)⟩

/-- Whoever is at the start of a chain waits. -/
theorem waits_of_transGen {a b : τ} (chain : Relation.TransGen G.WaitsFor a b) : ∃ wanted, G.waits a wanted := by
  obtain ⟨_, ⟨wanted, waits, _⟩, _⟩ := Relation.TransGen.head'_iff.mp chain
  exact ⟨wanted, waits⟩

/-- No chain of waiting threads comes back to where it started. -/
theorem acyclic_of_ascending [Preorder α] (ascending : G.Ascending rank)
    (single : ∀ t r r', G.waits t r → G.waits t r' → r = r') (t : τ) :
    ¬ Relation.TransGen G.WaitsFor t t := by
  intro cycle
  obtain ⟨wanted, waits⟩ := waits_of_transGen cycle
  obtain ⟨first, waitsFirst, below⟩ := rank_lt_of_transGen ascending cycle waits
  obtain rfl := single t first wanted waitsFirst waits
  exact lt_irrefl _ below

end WaitGraph

end CommonRpc.Lib
