/-
Module: CommonRpc.Proofs.Promise
Purpose: The right to complete a controller. It is one unit that is in the flag of a promise object, or with a call
  that took it, or was used for the settlement: `Accounted.right` counts it, and every step moves it or leaves
  it. Around it stand the accounts of who asked for it: the first call that asked for the right of a controller
  gets it, all others are refused, and what the controller holds is what that call brought, or
  `broken_promise` if nobody asked.
Trusted boundary: none
-/
import CommonRpc.Core.Promise
import CommonRpc.Lib.Table
import CommonRpc.Proofs.FutureController

namespace CommonRpc

universe u v w

namespace FutureController

variable {κ : Type w} {ν : Type u} {χ : Type v} {c c' : FutureController κ ν χ}

/-- The controller holds this outcome and no other. -/
def Stores (c : FutureController κ ν χ) : Outcome ν χ → Prop
  | .value value => c.value = some value ∧ c.exception = none
  | .exception exception => c.value = none ∧ c.exception = some exception

theorem stores_beginSettle (unsettled : c.isSettled = false) (outcome : Outcome ν χ) :
    (c.beginSettle outcome).Stores outcome := by
  have empty : c.value = none ∧ c.exception = none := by simpa [isSettled, holds] using unsettled
  cases outcome with
  | value value => exact ⟨rfl, empty.2⟩
  | exception exception => exact ⟨empty.1, rfl⟩

/-- A step other than the first half of a settlement leaves the outcome alone. -/
theorem step_same {e : Event κ ν χ} (stepped : c.step e = some c')
    (outside : ∀ outcome, e ≠ .beginSettle outcome) :
    c'.value = c.value ∧ c'.exception = c.exception ∧ c'.settlements = c.settlements := by
  cases e with
  | beginRegister callbacks =>
      simp only [step] at stepped
      split at stepped
      · cases stepped
        exact ⟨rfl, rfl, rfl⟩
      · cases stepped
  | endRegister =>
      obtain ⟨pair, _, rfl⟩ := Option.map_eq_some_iff.mp stepped
      exact ⟨rfl, rfl, rfl⟩
  | beginSettle outcome => exact absurd rfl (outside outcome)
  | endSettle =>
      simp only [step] at stepped
      split at stepped
      · cases stepped
        exact ⟨rfl, rfl, rfl⟩
      · cases stepped
  | run task =>
      obtain ⟨value, exception, _, _, _, settlements⟩ := (runTask_eq_some stepped).2.2.same
      exact ⟨value, exception, settlements⟩

end FutureController

namespace Promise

/-- The object refers to this controller. -/
def refersTo (controller : Nat) (p : Promise) : Bool := p.controller = some controller

/-- The object has the right to complete this controller. -/
def holdsRight (controller : Nat) (p : Promise) : Bool := p.refersTo controller && p.completionPending

@[simp] theorem refersTo_iff {p : Promise} {k : Nat} : p.refersTo k = true ↔ p.controller = some k := by
  simp [refersTo]

@[simp] theorem holdsRight_iff {p : Promise} {k : Nat} :
    p.holdsRight k = true ↔ p.controller = some k ∧ p.completionPending = true := by
  simp [holdsRight]

end Promise

namespace Promises

open Lib

variable {κ : Type w} {ν : Type u} {χ : Type v}

namespace Call

/-- The call has taken the right to complete this controller and not used it yet. -/
def holdsRight (controller : Nat) (call : Call ν χ) : Bool :=
  match call.stage with
  | .claimed claimed => claimed = controller
  | .entered | .settling _ | .returned _ => false

/-- The call got the right to complete this controller. -/
def Won (call : Call ν χ) (controller : Nat) : Prop :=
  call.completion.outcome.isSome = true ∧
    (call.stage = .claimed controller ∨ call.stage = .settling controller ∨
      call.stage = .returned call.completion.result)

/-- The call has got the right, whatever it is doing with it. -/
def succeeds (call : Call ν χ) : Bool :=
  match call.stage with
  | .claimed _ | .settling _ | .returned .completed | .returned (.rethrown _) => true
  | .entered | .returned .invalidPromise | .returned .nullException
  | .returned .promiseAlreadySatisfied => false

/-- The call was refused. -/
def Lost (call : Call ν χ) : Prop := call.stage = .returned .promiseAlreadySatisfied

@[simp] theorem holdsRight_iff {call : Call ν χ} {controller : Nat} :
    call.holdsRight controller = true ↔ call.stage = .claimed controller := by
  unfold holdsRight
  split <;> simp_all

/-- How a call may go on. -/
structure Follows (before after : Call ν χ) : Prop where
  completion : after.completion = before.completion
  won : ∀ controller, before.Won controller → after.Won controller
  lost : before.Lost → after.Lost

theorem Follows.refl (call : Call ν χ) : Follows call call := ⟨rfl, fun _ => id, id⟩

/-- A call that has not asked for the right has neither won nor lost. -/
theorem Follows.of_entered {call : Call ν χ} (entered : call.stage = .entered) (stage : CallStage χ) :
    Follows call { call with stage := stage } where
  completion := rfl
  won := by
    rintro controller ⟨_, claimed | settling | returned⟩
    · cases entered.symm.trans claimed
    · cases entered.symm.trans settling
    · cases entered.symm.trans returned
  lost lost := by cases entered.symm.trans lost

end Call

/-- The promise objects that refer to a controller. -/
def references (s : Promises κ ν χ) (controller : Nat) : Nat :=
  s.objects.countP (Promise.refersTo controller)

/-- The rights to complete a controller. -/
def rights (s : Promises κ ν χ) (controller : Nat) : Nat :=
  s.objects.countP (Promise.holdsRight controller) + s.calls.countP (Call.holdsRight controller)

/-- The calls that asked for the right to complete a controller, in this order. -/
def claimsOn (s : Promises κ ν χ) (controller : Nat) : List Nat :=
  (s.claims.filter fun claim => claim.1 = controller).map Prod.snd

/-- The first of the calls that asked for the right got it, and the others were refused. -/
structure Judged (calls : List (Call ν χ)) (controller : Nat) (claimants : List Nat) : Prop where
  winner : ∀ j, claimants.head? = some j → ∃ call, calls[j]? = some call ∧ call.Won controller
  losers : ∀ j ∈ claimants.tail, ∃ call, calls[j]? = some call ∧ call.Lost

/-- A controller holds what the first call brought, or that there was none. -/
def Explained (calls : List (Call ν χ)) (claimants : List Nat)
    (c : FutureController κ ν (PromiseError χ)) : Prop :=
  ∃ outcome, c.Stores outcome ∧
    match claimants.head? with
    | none => outcome = .exception .brokenPromise
    | some j => ∃ call, calls[j]? = some call ∧ call.completion.outcome = some outcome

/-- The accounts of all promises. -/
structure Accounted (s : Promises κ ν χ) : Prop where
  /-- A controller was settled, or there is one right to complete it, but not both. -/
  right : ∀ (k : Nat) (c : FutureController κ ν (PromiseError χ)), s.controllers[k]? = some c →
    s.rights k + c.settlements = 1
  single : ∀ k, s.references k ≤ 1
  fresh : ∀ k, s.controllers.length ≤ k → s.references k = 0 ∧ s.claimsOn k = []
  /-- The object of a call that took the right still refers to the controller. -/
  bound : ∀ (j : Nat) (call : Call ν χ) (k : Nat), s.calls[j]? = some call → call.stage = .claimed k →
    ∃ p, s.objects[call.object]? = some p ∧ p.controller = some k
  reachable : ∀ c ∈ s.controllers, ∃ es, FutureController.machine.run {} es = some c
  unclaimed : ∀ p ∈ s.objects, ∀ k, p.controller = some k → (p.completionPending = true ↔ s.claimsOn k = [])
  judged : ∀ k, Judged s.calls k (s.claimsOn k)
  claimed : ∀ (j : Nat) (call : Call ν χ) (k : Nat), s.calls[j]? = some call → call.stage = .claimed k →
    (s.claimsOn k).head? = some j
  succeeded : ∀ (j : Nat) (call : Call ν χ), s.calls[j]? = some call → call.succeeds = true →
    ∃ k, (s.claimsOn k).head? = some j
  explained : ∀ (k : Nat) (c : FutureController κ ν (PromiseError χ)), s.controllers[k]? = some c →
    c.settlements = 1 → Explained s.calls (s.claimsOn k) c

theorem accounted_init : Accounted ({} : Promises κ ν χ) := by
  constructor <;> simp [references, claimsOn]
  intro k
  constructor <;> simp

/-! ### How the calls go on -/

/-- Every call is still there and has gone on. -/
def Continues (calls calls' : List (Call ν χ)) : Prop :=
  ∀ (j : Nat) (call : Call ν χ), calls[j]? = some call → ∃ call', calls'[j]? = some call' ∧ call.Follows call'

namespace Continues

variable {calls calls' : List (Call ν χ)} {j : Nat} {call call' : Call ν χ}

theorem push (call : Call ν χ) : Continues calls (calls ++ [call]) :=
  fun _ call entry => ⟨call, Table.push_old entry, .refl call⟩

theorem set (entry : calls[j]? = some call) (follows : call.Follows call') :
    Continues calls (calls.set j call') := by
  intro i other before
  by_cases same : i = j
  · subst same
    obtain rfl : call = other := Option.some.inj (entry.symm.trans before)
    exact ⟨call', Table.set_self entry, follows⟩
  · exact ⟨other, by rw [List.getElem?_set_ne (Ne.symm same)]; exact before, .refl other⟩

theorem judged {k : Nat} {claimants : List Nat} (continues : Continues calls calls')
    (judged : Judged calls k claimants) : Judged calls' k claimants where
  winner j first := by
    obtain ⟨call, entry, won⟩ := judged.winner j first
    obtain ⟨call', entry', follows⟩ := continues j call entry
    exact ⟨call', entry', follows.won k won⟩
  losers j later := by
    obtain ⟨call, entry, lost⟩ := judged.losers j later
    obtain ⟨call', entry', follows⟩ := continues j call entry
    exact ⟨call', entry', follows.lost lost⟩

theorem explained {claimants : List Nat} {c : FutureController κ ν (PromiseError χ)}
    (continues : Continues calls calls') (explained : Explained calls claimants c) :
    Explained calls' claimants c := by
  obtain ⟨outcome, stores, origin⟩ := explained
  refine ⟨outcome, stores, ?_⟩
  cases first : claimants.head? with
  | none =>
      rw [first] at origin
      exact origin
  | some j =>
      rw [first] at origin
      obtain ⟨call, entry, brought⟩ := origin
      obtain ⟨call', entry', follows⟩ := continues j call entry
      exact ⟨call', entry', follows.completion ▸ brought⟩

end Continues

/-! ### The right -/

section Steps

variable {s t : Promises κ ν χ}

/-- Without a reference there is no right. -/
theorem Accounted.rights_eq_zero (accounted : Accounted s) {k : Nat} (unreferenced : s.references k = 0) :
    s.rights k = 0 := by
  rw [references, List.countP_eq_zero] at unreferenced
  rw [rights, Nat.add_eq_zero_iff, List.countP_eq_zero, List.countP_eq_zero]
  constructor
  · exact fun p mem holds => unreferenced p mem (Promise.refersTo_iff.mpr (Promise.holdsRight_iff.mp holds).1)
  · intro call mem holds
    obtain ⟨j, entry⟩ := List.getElem?_of_mem mem
    obtain ⟨p, object, refers⟩ := accounted.bound j call k entry (Call.holdsRight_iff.mp holds)
    exact unreferenced p (List.mem_of_getElem? object) (Promise.refersTo_iff.mpr refers)

theorem Accounted.settlements_le_one (accounted : Accounted s) {c : FutureController κ ν (PromiseError χ)}
    (mem : c ∈ s.controllers) : c.settlements ≤ 1 := by
  obtain ⟨k, entry⟩ := List.getElem?_of_mem mem
  have := accounted.right k c entry
  omega

theorem Accounted.isSettled_iff (accounted : Accounted s) {c : FutureController κ ν (PromiseError χ)}
    (mem : c ∈ s.controllers) : c.isSettled = true ↔ c.settlements = 1 := by
  obtain ⟨es, ran⟩ := accounted.reachable c mem
  rw [(FutureController.run_consistent ran).settledOnce]
  cases c.isSettled <;> simp

/-- Who has the right may settle the controller, which was not settled before. -/
theorem Accounted.beginSettle_entry (accounted : Accounted s) {k i : Nat} (held : 0 < s.rights k)
    {outcome : Outcome ν (PromiseError χ)} {c : FutureController κ ν (PromiseError χ)}
    (after : (s.beginSettle k outcome).controllers[i]? = some c) :
    i ≠ k ∧ s.controllers[i]? = some c ∨
    i = k ∧ s.rights k = 1 ∧ c.settlements = 1 ∧ c.Stores outcome ∧
      ∃ es, FutureController.machine.run {} es = some c := by
  obtain ⟨c₀, before, rfl⟩ := Table.modify_cases after
  by_cases same : k = i
  · subst same
    have mem := List.mem_of_getElem? before
    have balance := accounted.right k c₀ before
    have unsettled : c₀.isSettled = false := by
      rw [← Bool.not_eq_true, accounted.isSettled_iff mem]
      omega
    obtain ⟨es, ran⟩ := accounted.reachable c₀ mem
    have stepped : FutureController.machine.step c₀ (.beginSettle outcome) = some (c₀.beginSettle outcome) := by
      simp [FutureController.machine, FutureController.step, unsettled]
    have settlements := (c₀.beginSettle_same outcome).2.2.2.2.2
    simp only [if_true]
    refine .inr ⟨trivial, by omega, by omega, FutureController.stores_beginSettle unsettled outcome, ?_⟩
    exact ⟨es ++ [.beginSettle outcome],
      Machine.run_append_eq_some.mpr ⟨c₀, ran, Machine.run_cons_eq_some.mpr ⟨_, stepped, rfl⟩⟩⟩
  · simp only [same, if_false]
    exact .inl ⟨Ne.symm same, before⟩

/-- An object with the right to complete a controller. -/
theorem rights_pos {p : Promise} {k : Nat} (mem : p ∈ s.objects) (holds : p.holdsRight k = true) :
    0 < s.rights k :=
  Nat.add_pos_left (List.countP_pos_iff.mpr ⟨p, mem, holds⟩) _

theorem rights_pos_of_claimed {j k : Nat} {call : Call ν χ}
    (entry : s.calls[j]? = some call) (claimed : call.stage = .claimed k) : 0 < s.rights k := by
  refine Nat.add_pos_right _ (List.countP_pos_iff.mpr ⟨call, List.mem_of_getElem? entry, ?_⟩)
  exact Call.holdsRight_iff.mpr claimed

theorem Accounted.abandon_entry (accounted : Accounted s) {p : Promise} {i : Nat}
    (known : p ∈ s.objects ∨ p.completionPending = false) {c : FutureController κ ν (PromiseError χ)}
    (after : (s.abandon p).controllers[i]? = some c) :
    p.holdsRight i = false ∧ s.controllers[i]? = some c ∨
    p.holdsRight i = true ∧ p ∈ s.objects ∧ s.rights i = 1 ∧ c.settlements = 1 ∧
      c.Stores (.exception .brokenPromise) ∧ ∃ es, FutureController.machine.run {} es = some c := by
  unfold abandon at after
  split at after
  · rename_i k pending refers
    have mem : p ∈ s.objects := known.resolve_right (by simp [pending])
    have held : 0 < s.rights k := rights_pos mem (Promise.holdsRight_iff.mpr ⟨refers, pending⟩)
    rcases accounted.beginSettle_entry held after with ⟨other, before⟩ | ⟨rfl, settled⟩
    · exact .inl ⟨by simp [Promise.holdsRight, Promise.refersTo, refers, Ne.symm other], before⟩
    · exact .inr ⟨Promise.holdsRight_iff.mpr ⟨refers, pending⟩, mem, settled⟩
  · rename_i refers
    exact .inl ⟨by simp [Promise.holdsRight, Promise.refersTo, refers], after⟩
  · rename_i pending
    exact .inl ⟨by simp [Promise.holdsRight, pending], after⟩

theorem claimsOn_congr (sameClaims : t.claims = s.claims) (k : Nat) : t.claimsOn k = s.claimsOn k := by
  rw [claimsOn, claimsOn, sameClaims]

@[simp] theorem objects_abandon (p : Promise) : (s.abandon p).objects = s.objects := by
  unfold abandon
  split <;> rfl

theorem calls_abandon (p : Promise) : (s.abandon p).calls = s.calls := by
  unfold abandon
  split <;> rfl

theorem claims_abandon (p : Promise) : (s.abandon p).claims = s.claims := by
  unfold abandon
  split <;> rfl

@[simp] theorem length_controllers_abandon (p : Promise) :
    (s.abandon p).controllers.length = s.controllers.length := by
  unfold abandon
  split <;> simp [beginSettle]

section SameCalls

variable (accounted : Accounted s) (sameCalls : t.calls = s.calls) (claimants : ∀ k, t.claimsOn k = s.claimsOn k)
include accounted sameCalls claimants

theorem Accounted.judged_congr (k : Nat) : Judged t.calls k (t.claimsOn k) := by
  rw [sameCalls, claimants]
  exact accounted.judged k

theorem Accounted.claimed_congr (j : Nat) (call : Call ν χ) (k : Nat) (entry : t.calls[j]? = some call)
    (claimed : call.stage = .claimed k) : (t.claimsOn k).head? = some j := by
  rw [claimants]
  exact accounted.claimed j call k (sameCalls ▸ entry) claimed

theorem Accounted.succeeded_congr (j : Nat) (call : Call ν χ) (entry : t.calls[j]? = some call)
    (succeeds : call.succeeds = true) : ∃ k, (t.claimsOn k).head? = some j := by
  simp only [claimants]
  exact accounted.succeeded j call (sameCalls ▸ entry) succeeds

end SameCalls

/-- The objects change: an object may go, after `abandon`, and the others keep their controllers and flags, but
    perhaps not their places. -/
theorem Accounted.moveObjects (accounted : Accounted s) {p : Promise}
    (known : p ∈ s.objects ∨ p.completionPending = false) (sameCalls : t.calls = s.calls)
    (sameClaims : t.claims = s.claims) (abandoned : t.controllers = (s.abandon p).controllers)
    (balance : ∀ test : Promise → Bool,
      (∀ q, test q = test { controller := q.controller, completionPending := q.completionPending }) →
      test {} = false → t.objects.countP test + (if test p then 1 else 0) = s.objects.countP test)
    (origin : ∀ q ∈ t.objects, q.controller = none ∨
      ∃ q₀ ∈ s.objects, q.controller = q₀.controller ∧ q.completionPending = q₀.completionPending)
    (bound : ∀ (j : Nat) (call : Call ν χ) (k : Nat), s.calls[j]? = some call → call.stage = .claimed k →
      ∃ q, t.objects[call.object]? = some q ∧ q.controller = some k) : Accounted t := by
  have claimants := claimsOn_congr sameClaims
  have entry {k : Nat} {c : FutureController κ ν (PromiseError χ)} (after : t.controllers[k]? = some c) :=
    accounted.abandon_entry known (abandoned ▸ after)
  have references (k : Nat) : t.references k ≤ s.references k :=
    Nat.le_trans (Nat.le_add_right _ _) (Nat.le_of_eq (balance (Promise.refersTo k) (fun _ => rfl) rfl))
  have rights (k : Nat) : t.rights k + (if p.holdsRight k then 1 else 0) = s.rights k := by
    have moved := balance (Promise.holdsRight k) (fun _ => rfl) rfl
    rw [Promises.rights, Promises.rights, sameCalls]
    omega
  constructor
  case right =>
    intro k c after
    have balance := rights k
    rcases entry after with ⟨unheld, before⟩ | ⟨held, _, one, settled, _⟩
    · have unsettled := accounted.right k c before
      simp only [unheld, Bool.false_eq_true, if_false] at balance
      omega
    · simp only [held, one, if_true] at balance
      omega
  case single => exact fun k => Nat.le_trans (references k) (accounted.single k)
  case fresh =>
    intro k beyond
    rw [abandoned, length_controllers_abandon] at beyond
    have before := accounted.fresh k beyond
    exact ⟨Nat.le_zero.mp (before.1 ▸ references k), (claimants k).trans before.2⟩
  case bound =>
    intro j call k entry claimed
    exact bound j call k (sameCalls ▸ entry) claimed
  case reachable =>
    intro c mem
    obtain ⟨k, after⟩ := List.getElem?_of_mem mem
    rcases entry after with ⟨_, before⟩ | ⟨_, _, _, _, _, reached⟩
    · exact accounted.reachable c (List.mem_of_getElem? before)
    · exact reached
  case unclaimed =>
    intro q mem k refers
    rw [claimants]
    rcases origin q mem with empty | ⟨q₀, mem₀, sameController, sameFlag⟩
    · cases refers.symm.trans empty
    · rw [sameFlag]
      exact accounted.unclaimed q₀ mem₀ k (sameController ▸ refers)
  case judged => exact accounted.judged_congr sameCalls claimants
  case claimed => exact accounted.claimed_congr sameCalls claimants
  case succeeded => exact accounted.succeeded_congr sameCalls claimants
  case explained =>
    intro k c after settled
    rw [sameCalls, claimants]
    rcases entry after with ⟨_, before⟩ | ⟨held, mem, _, _, stores, _⟩
    · exact accounted.explained k c before settled
    · obtain ⟨refers, pending⟩ := Promise.holdsRight_iff.mp held
      have nobody : s.claimsOn k = [] := (accounted.unclaimed p mem k refers).mp pending
      refine ⟨_, stores, ?_⟩
      rw [nobody]
      rfl

/-- The calls go on, but none of them takes or uses the right. -/
theorem Accounted.continueCalls (accounted : Accounted s) (sameObjects : t.objects = s.objects)
    (sameControllers : t.controllers = s.controllers) (sameClaims : t.claims = s.claims)
    (continues : Continues s.calls t.calls)
    (sameRights : ∀ k, t.calls.countP (Call.holdsRight k) = s.calls.countP (Call.holdsRight k))
    (claimed : ∀ (j : Nat) (call : Call ν χ) (k : Nat), t.calls[j]? = some call → call.stage = .claimed k →
      s.calls[j]? = some call)
    (succeeded : ∀ (j : Nat) (call : Call ν χ), t.calls[j]? = some call → call.succeeds = true →
      ∃ call₀, s.calls[j]? = some call₀ ∧ call₀.succeeds = true) : Accounted t := by
  have claimants := claimsOn_congr sameClaims
  constructor
  case right =>
    intro k c entry
    rw [rights, sameObjects, sameRights k]
    exact accounted.right k c (sameControllers ▸ entry)
  case single =>
    intro k
    rw [references, sameObjects]
    exact accounted.single k
  case fresh =>
    intro k beyond
    rw [references, sameObjects, claimants]
    exact accounted.fresh k (sameControllers ▸ beyond)
  case bound =>
    intro j call k entry isClaimed
    rw [sameObjects]
    exact accounted.bound j call k (claimed j call k entry isClaimed) isClaimed
  case reachable => exact fun c mem => accounted.reachable c (sameControllers ▸ mem)
  case unclaimed =>
    intro p mem k refers
    rw [claimants]
    exact accounted.unclaimed p (sameObjects ▸ mem) k refers
  case judged =>
    intro k
    rw [claimants]
    exact continues.judged (accounted.judged k)
  case claimed =>
    intro j call k entry isClaimed
    rw [claimants]
    exact accounted.claimed j call k (claimed j call k entry isClaimed) isClaimed
  case succeeded =>
    intro j call entry succeeds
    obtain ⟨call₀, before, succeeds₀⟩ := succeeded j call entry succeeds
    simp only [claimants]
    exact accounted.succeeded j call₀ before succeeds₀
  case explained =>
    intro k c entry settled
    rw [claimants]
    exact continues.explained (accounted.explained k c (sameControllers ▸ entry) settled)

/-- A call goes on that has not the right before and after. -/
theorem Accounted.setStage (accounted : Accounted s) {j : Nat} {call : Call ν χ} {stage : CallStage χ}
    (entry : s.calls[j]? = some call) (follows : call.Follows { call with stage := stage })
    (before : ∀ k, call.stage ≠ .claimed k) (after : ∀ k, stage ≠ .claimed k)
    (succeeds : { call with stage := stage }.succeeds = true → call.succeeds = true) :
    Accounted (s.setStage j call stage) := by
  have without {k : Nat} {call : Call ν χ} (unclaimed : call.stage ≠ .claimed k) : call.holdsRight k = false :=
    Bool.eq_false_iff.mpr fun holds => unclaimed (Call.holdsRight_iff.mp holds)
  refine accounted.continueCalls (t := s.setStage j call stage) rfl rfl rfl (.set entry follows) ?_ ?_ ?_
  · intro k
    have balance : (s.setStage j call stage).calls.countP (Call.holdsRight k) + _ = _ + _ :=
      Table.countP_set entry
    rw [without (before k), without (after k)] at balance
    simpa using balance
  · intro i other k atI isClaimed
    rcases Table.set_cases entry atI with ⟨_, rfl⟩ | ⟨_, unchanged⟩
    · exact absurd isClaimed (after k)
    · exact unchanged
  · intro i other atI isSuccess
    rcases Table.set_cases entry atI with ⟨rfl, rfl⟩ | ⟨_, unchanged⟩
    · exact ⟨call, entry, succeeds isSuccess⟩
    · exact ⟨other, unchanged, isSuccess⟩

theorem claimsOn_push {k j : Nat} (asked : t.claims = s.claims ++ [(k, j)]) (i : Nat) :
    t.claimsOn i = if i = k then s.claimsOn k ++ [j] else s.claimsOn i := by
  by_cases same : i = k
  · subst same
    simp [claimsOn, asked]
  · simp [claimsOn, asked, same, Ne.symm same]

/-- A controller that an object refers to exists. -/
theorem Accounted.controller_exists (accounted : Accounted s) {p : Promise} {k : Nat} (mem : p ∈ s.objects)
    (refers : p.controller = some k) : ∃ c, s.controllers[k]? = some c := by
  by_contra missing
  have beyond : s.controllers.length ≤ k := by
    rw [← List.getElem?_eq_none_iff]
    exact Option.eq_none_iff_forall_ne_some.mpr fun c entry => missing ⟨c, entry⟩
  have unreferenced := (accounted.fresh k beyond).1
  rw [references, List.countP_eq_zero] at unreferenced
  exact unreferenced p mem (Promise.refersTo_iff.mpr refers)

/-- An object is replaced by one with the same controller. -/
theorem countP_refersTo_set {i : Nat} {p p' : Promise} (object : s.objects[i]? = some p)
    (same : p'.controller = p.controller) (k : Nat) :
    (s.objects.set i p').countP (Promise.refersTo k) = s.objects.countP (Promise.refersTo k) := by
  have balance : (s.objects.set i p').countP (Promise.refersTo k) + _ = _ + _ := Table.countP_set object
  simpa [same] using balance

/-- An object is replaced by one with the same controller: it is still found where it was. -/
theorem refers_set {i place k : Nat} {p p' q : Promise} (object : s.objects[i]? = some p)
    (same : p'.controller = p.controller) (found : s.objects[place]? = some q) (refers : q.controller = some k) :
    ∃ q', (s.objects.set i p')[place]? = some q' ∧ q'.controller = some k := by
  by_cases here : place = i
  · subst here
    obtain rfl : p = q := Option.some.inj (object.symm.trans found)
    exact ⟨p', Table.set_self object, same.trans refers⟩
  · exact ⟨q, by rw [List.getElem?_set_ne (Ne.symm here)]; exact found, refers⟩

/-- A right that is in a flag is nowhere else. -/
theorem Accounted.right_in_flag (accounted : Accounted s) {i k : Nat} {p : Promise}
    {c : FutureController κ ν (PromiseError χ)} (object : s.objects[i]? = some p)
    (refers : p.controller = some k) (pending : p.completionPending = true)
    (controller : s.controllers[k]? = some c) :
    (s.objects.set i { p with completionPending := false }).countP (Promise.holdsRight k) = 0 ∧
      s.calls.countP (Call.holdsRight k) = 0 ∧ c.settlements = 0 := by
  have balance := accounted.right k c controller
  have taken :
      (s.objects.set i { p with completionPending := false }).countP (Promise.holdsRight k) + _ = _ + _ :=
    Table.countP_set object
  have held : (s.objects.set i { p with completionPending := false }).countP (Promise.holdsRight k) + 1 =
      s.objects.countP (Promise.holdsRight k) := by
    simpa [refers, pending] using taken
  rw [rights] at balance
  omega

/-- The flag was set: the call gets the right, as the first one that asks. -/
theorem Accounted.win (accounted : Accounted s) {j k : Nat} {call : Call ν χ} {p : Promise}
    (entry : s.calls[j]? = some call) (entered : call.stage = .entered)
    (hasOutcome : call.completion.outcome.isSome = true) (object : s.objects[call.object]? = some p)
    (refers : p.controller = some k) (pending : p.completionPending = true)
    (taken : t.objects = s.objects.set call.object { p with completionPending := false })
    (sameControllers : t.controllers = s.controllers)
    (claims : t.calls = s.calls.set j { call with stage := .claimed k })
    (asked : t.claims = s.claims ++ [(k, j)]) : Accounted t := by
  have mem := List.mem_of_getElem? object
  have claimants := claimsOn_push asked
  have nobody : s.claimsOn k = [] := (accounted.unclaimed p mem k refers).mp pending
  have continues : Continues s.calls t.calls := claims ▸ .set entry (.of_entered entered _)
  obtain ⟨c, controller⟩ := accounted.controller_exists mem refers
  have objectsBalance (i : Nat) : t.objects.countP (Promise.holdsRight i) + (if k = i then 1 else 0) =
      s.objects.countP (Promise.holdsRight i) := by
    have moved : t.objects.countP (Promise.holdsRight i) + _ = _ + _ := taken ▸ Table.countP_set object
    simpa [refers, pending] using moved
  have callsBalance (i : Nat) : t.calls.countP (Call.holdsRight i) =
      s.calls.countP (Call.holdsRight i) + (if k = i then 1 else 0) := by
    have moved : t.calls.countP (Call.holdsRight i) + _ = _ + _ := claims ▸ Table.countP_set entry
    simpa [entered] using moved
  obtain ⟨noFlag, noCall, unsettled⟩ := accounted.right_in_flag object refers pending controller
  have sameReferences (i : Nat) : t.references i = s.references i := by
    have same : { p with completionPending := false }.controller = p.controller := rfl
    rw [references, taken]
    exact countP_refersTo_set object same i
  have first {i : Nat} (other : i ≠ k) : t.claimsOn i = s.claimsOn i := by rw [claimants, if_neg other]
  have firstOwn : t.claimsOn k = [j] := by rw [claimants, if_pos rfl, nobody, List.nil_append]
  constructor
  case right =>
    intro i d found
    have before := accounted.right i d (sameControllers ▸ found)
    rw [rights, ← objectsBalance i] at before
    rw [rights, callsBalance i]
    omega
  case single =>
    intro i
    rw [sameReferences]
    exact accounted.single i
  case fresh =>
    intro i beyond
    have before := accounted.fresh i (sameControllers ▸ beyond)
    have other : i ≠ k := by
      rintro rfl
      rw [sameControllers] at beyond
      exact absurd (List.getElem?_eq_none_iff.mpr beyond) (by simp [controller])
    rw [sameReferences, first other]
    exact before
  case bound =>
    intro i other k' found isClaimed
    rw [claims] at found
    rw [taken]
    rcases Table.set_cases entry found with ⟨rfl, rfl⟩ | ⟨_, before⟩
    · cases isClaimed
      exact ⟨_, Table.set_self object, refers⟩
    · obtain ⟨q, atObject, refers'⟩ := accounted.bound i other k' before isClaimed
      have same : { p with completionPending := false }.controller = p.controller := rfl
      exact refers_set object same atObject refers'
  case reachable => exact fun d mem => accounted.reachable d (sameControllers ▸ mem)
  case unclaimed =>
    intro q found i refers'
    obtain ⟨place, atPlace⟩ := List.getElem?_of_mem found
    by_cases own : i = k
    · subst own
      rw [firstOwn]
      have unheld := List.countP_eq_zero.mp noFlag q (taken ▸ found)
      simpa [refers'] using unheld
    · rw [first own]
      rcases Table.set_cases object (taken ▸ atPlace) with ⟨_, rfl⟩ | ⟨_, before⟩
      · exact absurd (Option.some.inj (refers'.symm.trans refers)) own
      · exact accounted.unclaimed q (List.mem_of_getElem? before) i refers'
  case judged =>
    intro i
    by_cases own : i = k
    · subst own
      rw [firstOwn]
      refine ⟨?_, by simp⟩
      intro i isFirst
      cases isFirst
      exact ⟨{ call with stage := .claimed i }, claims ▸ Table.set_self entry, hasOutcome, .inl rfl⟩
    · rw [first own]
      exact continues.judged (accounted.judged i)
  case claimed =>
    intro i other k' found isClaimed
    rcases Table.set_cases entry (claims ▸ found) with ⟨rfl, rfl⟩ | ⟨_, before⟩
    · cases isClaimed
      rw [firstOwn]
      rfl
    · have foreign : k' ≠ k := by
        rintro rfl
        exact List.countP_eq_zero.mp noCall other (List.mem_of_getElem? before)
          (Call.holdsRight_iff.mpr isClaimed)
      rw [first foreign]
      exact accounted.claimed i other k' before isClaimed
  case succeeded =>
    intro i other found succeeds
    rcases Table.set_cases entry (claims ▸ found) with ⟨rfl, rfl⟩ | ⟨_, before⟩
    · exact ⟨k, by rw [firstOwn]; rfl⟩
    · obtain ⟨k', isFirst⟩ := accounted.succeeded i other before succeeds
      have foreign : k' ≠ k := by
        rintro rfl
        simp [nobody] at isFirst
      exact ⟨k', (first foreign).symm ▸ isFirst⟩
  case explained =>
    intro i d found settled
    rw [sameControllers] at found
    have foreign : i ≠ k := by
      rintro rfl
      obtain rfl : c = d := Option.some.inj (controller.symm.trans found)
      cases settled.symm.trans unsettled
    rw [first foreign]
    exact continues.explained (accounted.explained i d found settled)

/-- Somebody has asked before: a call that is refused changes nothing but the list of those who asked. -/
theorem Accounted.refuse (accounted : Accounted s) {j k : Nat} {call : Call ν χ} (somebody : s.claimsOn k ≠ [])
    (entry : s.calls[j]? = some call) (lost : call.Lost) :
    Accounted { s with claims := s.claims ++ [(k, j)] } := by
  have claimants := claimsOn_push (t := { s with claims := s.claims ++ [(k, j)] }) (s := s) rfl
  have sameHead (i : Nat) :
      ({ s with claims := s.claims ++ [(k, j)] }.claimsOn i).head? = (s.claimsOn i).head? := by
    rw [claimants]
    split
    · subst_vars
      exact List.head?_append_of_ne_nil _ somebody
    · rfl
  have sameEmpty (i : Nat) : { s with claims := s.claims ++ [(k, j)] }.claimsOn i = [] ↔ s.claimsOn i = [] := by
    rw [← List.head?_eq_none_iff, sameHead, List.head?_eq_none_iff]
  constructor
  case right => exact accounted.right
  case single => exact accounted.single
  case fresh =>
    intro i beyond
    have before := accounted.fresh i beyond
    exact ⟨before.1, (sameEmpty i).mpr before.2⟩
  case bound => exact accounted.bound
  case reachable => exact accounted.reachable
  case unclaimed => exact fun p mem i refers => (accounted.unclaimed p mem i refers).trans (sameEmpty i).symm
  case judged =>
    intro i
    refine ⟨fun first isFirst => (accounted.judged i).winner first (sameHead i ▸ isFirst), ?_⟩
    intro later isLater
    rw [claimants] at isLater
    split at isLater
    · subst_vars
      rw [List.tail_append_of_ne_nil somebody, List.mem_append, List.mem_singleton] at isLater
      rcases isLater with before | rfl
      · exact (accounted.judged _).losers later before
      · exact ⟨call, entry, lost⟩
    · exact (accounted.judged i).losers later isLater
  case claimed =>
    intro i other k' found isClaimed
    rw [sameHead]
    exact accounted.claimed i other k' found isClaimed
  case succeeded =>
    intro i other found succeeds
    simp only [sameHead]
    exact accounted.succeeded i other found succeeds
  case explained =>
    intro i c found settled
    obtain ⟨outcome, stores, origin⟩ := accounted.explained i c found settled
    refine ⟨outcome, stores, ?_⟩
    rw [sameHead]
    exact origin

theorem Accounted.lose (accounted : Accounted s) {j k : Nat} {call : Call ν χ} {p : Promise}
    (entry : s.calls[j]? = some call) (entered : call.stage = .entered) (mem : p ∈ s.objects)
    (refers : p.controller = some k) (taken : p.completionPending = false) :
    Accounted ({ s with claims := s.claims ++ [(k, j)] }.setStage j call
      (.returned .promiseAlreadySatisfied)) := by
  have refused : Accounted (s.setStage j call (.returned .promiseAlreadySatisfied)) :=
    accounted.setStage entry (.of_entered entered _) (by simp [entered]) (by simp) nofun
  refine refused.refuse (k := k) ?_ (Table.set_self entry) rfl
  intro nobody
  cases taken.symm.trans ((accounted.unclaimed p mem k refers).mpr nobody)

/-- The right is used: the first half of the settlement. -/
theorem Accounted.beginSettle (accounted : Accounted s) {j k : Nat} {call : Call ν χ}
    {outcome : Outcome ν (PromiseError χ)} (entry : s.calls[j]? = some call) (claimed : call.stage = .claimed k)
    (brings : call.completion.outcome = some outcome) (sameObjects : t.objects = s.objects)
    (sameClaims : t.claims = s.claims) (settles : t.controllers = (s.beginSettle k outcome).controllers)
    (goesOn : t.calls = s.calls.set j { call with stage := .settling k }) : Accounted t := by
  have claimants := claimsOn_congr sameClaims
  have held : 0 < s.rights k := rights_pos_of_claimed entry claimed
  have follows : call.Follows { call with stage := .settling k } := by
    refine ⟨rfl, ?_, fun lost => by cases claimed.symm.trans lost⟩
    rintro controller ⟨hasOutcome, isClaimed | isSettling | returned⟩
    · cases claimed.symm.trans isClaimed
      exact ⟨hasOutcome, .inr (.inl rfl)⟩
    · cases claimed.symm.trans isSettling
    · cases claimed.symm.trans returned
  have continues : Continues s.calls t.calls := goesOn ▸ .set entry follows
  have callsBalance (i : Nat) : t.calls.countP (Call.holdsRight i) + (if k = i then 1 else 0) =
      s.calls.countP (Call.holdsRight i) := by
    have moved : t.calls.countP (Call.holdsRight i) + _ = _ + _ := goesOn ▸ Table.countP_set entry
    simpa [claimed] using moved
  have settled {i : Nat} {c : FutureController κ ν (PromiseError χ)} (found : t.controllers[i]? = some c) :=
    accounted.beginSettle_entry held (settles ▸ found)
  have old {i k' : Nat} {other : Call ν χ} (found : t.calls[i]? = some other)
      (isClaimed : other.stage = .claimed k') : s.calls[i]? = some other := by
    rcases Table.set_cases entry (goesOn ▸ found) with ⟨_, rfl⟩ | ⟨_, before⟩
    · cases isClaimed
    · exact before
  constructor
  case right =>
    intro i c found
    have balance := callsBalance i
    rw [rights, sameObjects]
    rcases settled found with ⟨other, before⟩ | ⟨rfl, one, settled, _⟩
    · have before := accounted.right i c before
      rw [if_neg (Ne.symm other), Nat.add_zero] at balance
      rw [balance]
      exact before
    · rw [if_pos rfl] at balance
      rw [rights] at one
      omega
  case single =>
    intro i
    rw [references, sameObjects]
    exact accounted.single i
  case fresh =>
    intro i beyond
    rw [settles, Promises.beginSettle, List.length_modify] at beyond
    rw [references, sameObjects, claimants]
    exact accounted.fresh i beyond
  case bound =>
    intro i other k' found isClaimed
    rw [sameObjects]
    exact accounted.bound i other k' (old found isClaimed) isClaimed
  case reachable =>
    intro c mem
    obtain ⟨i, found⟩ := List.getElem?_of_mem mem
    rcases settled found with ⟨_, before⟩ | ⟨_, _, _, _, reached⟩
    · exact accounted.reachable c (List.mem_of_getElem? before)
    · exact reached
  case unclaimed =>
    intro p mem i refers
    rw [claimants]
    exact accounted.unclaimed p (sameObjects ▸ mem) i refers
  case judged =>
    intro i
    rw [claimants]
    exact continues.judged (accounted.judged i)
  case claimed =>
    intro i other k' found isClaimed
    rw [claimants]
    exact accounted.claimed i other k' (old found isClaimed) isClaimed
  case succeeded =>
    intro i other found succeeds
    simp only [claimants]
    rcases Table.set_cases entry (goesOn ▸ found) with ⟨rfl, _⟩ | ⟨_, before⟩
    · exact ⟨k, accounted.claimed i call k entry claimed⟩
    · exact accounted.succeeded i other before succeeds
  case explained =>
    intro i c found isSettled
    rw [claimants]
    rcases settled found with ⟨_, before⟩ | ⟨rfl, _, _, stores, _⟩
    · exact continues.explained (accounted.explained i c before isSettled)
    · refine ⟨outcome, stores, ?_⟩
      rw [accounted.claimed j call i entry claimed]
      exact ⟨{ call with stage := .settling i }, goesOn ▸ Table.set_self entry, brings⟩

/-- A controller goes on by itself. -/
theorem Accounted.setController (accounted : Accounted s) {k : Nat} {c c' : FutureController κ ν (PromiseError χ)}
    {e : FutureController.Event κ ν (PromiseError χ)} (entry : s.controllers[k]? = some c)
    (stepped : c.step e = some c') (outside : isOutside e = true) : Accounted (s.setController k c') := by
  have same := FutureController.step_same stepped (fun outcome settles => by subst settles; cases outside)
  have origin {i : Nat} {d : FutureController κ ν (PromiseError χ)}
      (found : (s.setController k c').controllers[i]? = some d) :
      ∃ d₀, s.controllers[i]? = some d₀ ∧ d.value = d₀.value ∧ d.exception = d₀.exception ∧
        d.settlements = d₀.settlements := by
    rcases Table.set_cases entry found with ⟨rfl, rfl⟩ | ⟨_, before⟩
    · exact ⟨c, entry, same⟩
    · exact ⟨d, before, rfl, rfl, rfl⟩
  refine { accounted with right := ?_, fresh := ?_, reachable := ?_, explained := ?_ }
  · intro i d found
    obtain ⟨d₀, before, _, _, settlements⟩ := origin found
    rw [settlements]
    exact accounted.right i d₀ before
  · intro i beyond
    exact accounted.fresh i (Nat.le_trans (Nat.le_of_eq (List.length_set ..).symm) beyond)
  · apply Table.forall_set accounted.reachable
    obtain ⟨es, ran⟩ := accounted.reachable c (List.mem_of_getElem? entry)
    exact ⟨es ++ [e], Machine.run_append_eq_some.mpr ⟨c, ran, Machine.run_cons_eq_some.mpr ⟨_, stepped, rfl⟩⟩⟩
  · intro i d found settled
    obtain ⟨d₀, before, value, exception, settlements⟩ := origin found
    obtain ⟨outcome, stores, brought⟩ := accounted.explained i d₀ before (settlements ▸ settled)
    refine ⟨outcome, ?_, brought⟩
    cases outcome with
    | value _ => exact ⟨value.trans stores.1, exception.trans stores.2⟩
    | exception _ => exact ⟨value.trans stores.1, exception.trans stores.2⟩

/-- A new controller starts with its right in the flag of its promise. -/
theorem Accounted.create (accounted : Accounted s)
    (objects : t.objects = s.objects ++ [.create s.controllers.length])
    (controllers : t.controllers = s.controllers ++ [({} : FutureController κ ν (PromiseError χ))])
    (sameCalls : t.calls = s.calls) (sameClaims : t.claims = s.claims) : Accounted t := by
  have claimants := claimsOn_congr sameClaims
  have unused := accounted.fresh s.controllers.length (Nat.le_refl _)
  have references (k : Nat) :
      t.references k = s.references k + (if s.controllers.length = k then 1 else 0) := by
    simp [Promises.references, objects, List.countP_append, List.countP_cons, Promise.create]
  have rights (k : Nat) : t.rights k = s.rights k + (if s.controllers.length = k then 1 else 0) := by
    simp only [Promises.rights, objects, sameCalls, List.countP_append, List.countP_cons, List.countP_nil,
      Promise.holdsRight_iff, Promise.create, Option.some.injEq, and_true]
    omega
  constructor
  case right =>
    intro k c found
    rw [rights]
    rcases Table.push_cases (controllers ▸ found) with before | ⟨rfl, rfl⟩
    · rw [if_neg (Nat.ne_of_gt (Table.lt_of_entry before))]
      exact accounted.right k c before
    · rw [accounted.rights_eq_zero unused.1, if_pos rfl]
      rfl
  case single =>
    intro k
    rw [references]
    split
    · subst_vars
      exact Nat.le_of_eq (by rw [unused.1])
    · exact accounted.single k
  case fresh =>
    intro k beyond
    rw [controllers, List.length_append, List.length_singleton] at beyond
    rw [references, if_neg (Nat.ne_of_lt beyond), claimants]
    exact accounted.fresh k (Nat.le_of_lt beyond)
  case bound =>
    intro j call k entry claimed
    obtain ⟨p, object, refers⟩ := accounted.bound j call k (sameCalls ▸ entry) claimed
    exact ⟨p, objects ▸ Table.push_old object, refers⟩
  case reachable =>
    intro c mem
    rw [controllers, List.mem_append, List.mem_singleton] at mem
    rcases mem with before | rfl
    · exact accounted.reachable c before
    · exact ⟨[], rfl⟩
  case unclaimed =>
    intro p mem k refers
    rw [claimants]
    rw [objects, List.mem_append, List.mem_singleton] at mem
    rcases mem with before | rfl
    · exact accounted.unclaimed p before k refers
    · cases refers
      exact ⟨fun _ => unused.2, fun _ => rfl⟩
  case judged => exact accounted.judged_congr sameCalls claimants
  case claimed => exact accounted.claimed_congr sameCalls claimants
  case succeeded => exact accounted.succeeded_congr sameCalls claimants
  case explained =>
    intro k c found settled
    rw [sameCalls, claimants]
    rcases Table.push_cases (controllers ▸ found) with before | ⟨_, rfl⟩
    · exact accounted.explained k c before settled
    · cases settled

end Steps

end Promises

end CommonRpc
