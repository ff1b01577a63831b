/-
Module: CommonRpc.Proofs.PromiseRuns
Purpose: Whole runs of promise objects. Objects are created, moved, replaced and destroyed, and calls race for
  the right to complete; the accounts of CommonRpc.Proofs.Promise hold throughout, so that a controller is
  settled once, by the first call that asked or as a broken promise, and is a controller as
  CommonRpc.Core.FutureController has it, where only unsettled controllers are settled.
Trusted boundary: none
-/
import CommonRpc.Proofs.Promise

namespace CommonRpc

universe u v w

namespace Promises

open Lib

variable {κ : Type w} {ν : Type u} {χ : Type v}

section Objects

variable {s t : Promises κ ν χ}

/-! ### Objects on the move -/

/-- A call that took the right is still under way. -/
theorem object_ne_of_isFree {i j k : Nat} {call : Call ν χ} (free : s.isFree i = true)
    (entry : s.calls[j]? = some call) (claimed : call.stage = .claimed k) : call.object ≠ i := by
  intro same
  have idle := List.all_eq_true.mp free call (List.mem_of_getElem? entry)
  simp [Call.isActive, claimed, same] at idle

theorem accounted_createEmpty (accounted : Accounted s) : Accounted { s with objects := s.objects ++ [{}] } := by
  -- nothing goes: the empty promise stands for the one that is abandoned
  refine accounted.moveObjects (p := {}) (.inr rfl) rfl rfl rfl ?_ ?_ ?_
  · intro test _ empty
    simp [List.countP_append, empty]
  · intro q mem
    rcases List.mem_append.mp mem with before | new
    · exact .inr ⟨q, before, rfl, rfl⟩
    · exact .inl (List.mem_singleton.mp new ▸ rfl)
  · intro j call k entry claimed
    obtain ⟨q, atObject, refers⟩ := accounted.bound j call k entry claimed
    exact ⟨q, Table.push_old atObject, refers⟩

theorem accounted_getFuture {i : Nat} {p : Promise} (accounted : Accounted s) (object : s.objects[i]? = some p)
    (futures : List Nat) :
    Accounted { s.setObject i { p with future := none } with futures := futures } := by
  refine accounted.moveObjects (p := {}) (.inr rfl) rfl rfl rfl ?_ ?_ ?_
  · intro test respects empty
    have replaced : (s.objects.set i { p with future := none }).countP test + _ = _ + _ := Table.countP_set object
    rw [respects { p with future := none }, respects p] at replaced
    rw [empty]
    exact Nat.add_right_cancel replaced
  · intro q mem
    rcases List.mem_or_eq_of_mem_set mem with before | rfl
    · exact .inr ⟨q, before, rfl, rfl⟩
    · exact .inr ⟨p, List.mem_of_getElem? object, rfl, rfl⟩
  · intro j call k entry claimed
    obtain ⟨q, atObject, refers⟩ := accounted.bound j call k entry claimed
    have same : { p with future := none }.controller = p.controller := rfl
    exact refers_set object same atObject refers

theorem accounted_moveConstruct {source : Nat} {p : Promise} (accounted : Accounted s)
    (object : s.objects[source]? = some p) (free : s.isFree source = true) :
    Accounted { s with objects := s.objects.set source {} ++ [p] } := by
  refine accounted.moveObjects (p := {}) (.inr rfl) rfl rfl rfl ?_ ?_ ?_
  · intro test _ empty
    have replaced : (s.objects.set source {}).countP test + _ = _ + _ := Table.countP_set object
    simpa [List.countP_append, List.countP_cons, empty] using replaced
  · intro q mem
    rcases List.mem_append.mp mem with inside | new
    · rcases List.mem_or_eq_of_mem_set inside with before | rfl
      · exact .inr ⟨q, before, rfl, rfl⟩
      · exact .inl rfl
    · exact .inr ⟨p, List.mem_of_getElem? object, List.mem_singleton.mp new ▸ ⟨rfl, rfl⟩⟩
  · intro j call k entry claimed
    obtain ⟨q, atObject, refers⟩ := accounted.bound j call k entry claimed
    refine ⟨q, Table.push_old ?_, refers⟩
    rw [List.getElem?_set_ne (Ne.symm (object_ne_of_isFree free entry claimed))]
    exact atObject

theorem accounted_destroy {i : Nat} {p : Promise} (accounted : Accounted s) (object : s.objects[i]? = some p)
    (free : s.isFree i = true) : Accounted ((s.abandon p).setObject i { destroyed := true }) := by
  have gone :
      ((s.abandon p).setObject i { destroyed := true }).objects = s.objects.set i { destroyed := true } := by
    rw [setObject, objects_abandon]
  refine accounted.moveObjects (p := p) (.inl (List.mem_of_getElem? object)) (calls_abandon p) (claims_abandon p)
    rfl ?_ ?_ ?_
  · intro test respects empty
    have replaced : (s.objects.set i { destroyed := true }).countP test + _ = _ + _ := Table.countP_set object
    rw [respects { destroyed := true }, empty] at replaced
    rw [gone]
    exact replaced
  · intro q mem
    rw [gone] at mem
    rcases List.mem_or_eq_of_mem_set mem with before | rfl
    · exact .inr ⟨q, before, rfl, rfl⟩
    · exact .inl rfl
  · intro j call k entry claimed
    obtain ⟨q, atObject, refers⟩ := accounted.bound j call k entry claimed
    rw [gone, List.getElem?_set_ne (Ne.symm (object_ne_of_isFree free entry claimed))]
    exact ⟨q, atObject, refers⟩

theorem accounted_moveAssign {target source : Nat} {p q : Promise} (accounted : Accounted s)
    (atTarget : s.objects[target]? = some p) (atSource : s.objects[source]? = some q)
    (targetFree : s.isFree target = true) (sourceFree : s.isFree source = true) :
    Accounted (s.moveAssign target source p q) := by
  unfold moveAssign
  split
  · exact accounted
  rename_i different
  have moved : (((s.abandon p).setObject target q).setObject source {}).objects =
      (s.objects.set target q).set source {} := by
    simp only [setObject, objects_abandon]
  have sourceStays : (s.objects.set target q)[source]? = some q := by
    rw [List.getElem?_set_ne different]
    exact atSource
  refine accounted.moveObjects (p := p) (.inl (List.mem_of_getElem? atTarget)) (calls_abandon p) (claims_abandon p)
    rfl ?_ ?_ ?_
  · intro test _ empty
    have arrived : (s.objects.set target q).countP test + _ = _ + _ := Table.countP_set atTarget
    have left : ((s.objects.set target q).set source {}).countP test + _ = _ + _ := Table.countP_set sourceStays
    rw [empty, if_neg Bool.false_ne_true] at left
    rw [moved]
    omega
  · intro r mem
    rw [moved] at mem
    rcases List.mem_or_eq_of_mem_set mem with inside | rfl
    · rcases List.mem_or_eq_of_mem_set inside with before | rfl
      · exact .inr ⟨r, before, rfl, rfl⟩
      · exact .inr ⟨r, List.mem_of_getElem? atSource, rfl, rfl⟩
    · exact .inl rfl
  · intro j call k entry claimed
    obtain ⟨r, atObject, refers⟩ := accounted.bound j call k entry claimed
    rw [moved, List.getElem?_set_ne (Ne.symm (object_ne_of_isFree sourceFree entry claimed)),
      List.getElem?_set_ne (Ne.symm (object_ne_of_isFree targetFree entry claimed))]
    exact ⟨r, atObject, refers⟩

end Objects

/-! ### What was settled stays -/

/-- A controller that was settled keeps its outcome. -/
def StaysSettled (a b : Promises κ ν χ) : Prop :=
  ∀ (k : Nat) (c : FutureController κ ν (PromiseError χ)), a.controllers[k]? = some c → c.settlements = 1 →
    ∃ c', b.controllers[k]? = some c' ∧ c'.value = c.value ∧ c'.exception = c.exception ∧ c'.settlements = 1

namespace StaysSettled

variable {a b d : Promises κ ν χ}

theorem of_same (same : b.controllers = a.controllers) : StaysSettled a b :=
  fun _ c entry settled => ⟨c, same ▸ entry, rfl, rfl, settled⟩

theorem trans (first : StaysSettled a b) (second : StaysSettled b d) : StaysSettled a d := by
  intro k c entry settled
  obtain ⟨c₁, entry₁, value₁, exception₁, settled₁⟩ := first k c entry settled
  obtain ⟨c₂, entry₂, value₂, exception₂, settled₂⟩ := second k c₁ entry₁ settled₁
  exact ⟨c₂, entry₂, value₂.trans value₁, exception₂.trans exception₁, settled₂⟩

theorem push {c : FutureController κ ν (PromiseError χ)} (new : b.controllers = a.controllers ++ [c]) :
    StaysSettled a b :=
  fun _ c entry settled => ⟨c, new ▸ Table.push_old entry, rfl, rfl, settled⟩

/-- Who settles a controller has the right to, and there is none for a settled one. -/
theorem beginSettle (accounted : Accounted a) {k : Nat} {outcome : Outcome ν (PromiseError χ)}
    (held : 0 < a.rights k) (settles : b.controllers = (a.beginSettle k outcome).controllers) :
    StaysSettled a b := by
  intro i c entry settled
  have other : k ≠ i := by
    rintro rfl
    have := accounted.right k c entry
    omega
  refine ⟨c, ?_, rfl, rfl, settled⟩
  rw [settles, Promises.beginSettle, List.getElem?_modify, entry]
  simp [other]

theorem abandon (accounted : Accounted a) {p : Promise} (mem : p ∈ a.objects)
    (abandons : b.controllers = (a.abandon p).controllers) : StaysSettled a b := by
  unfold Promises.abandon at abandons
  split at abandons
  · rename_i k pending refers
    exact beginSettle accounted (rights_pos mem (Promise.holdsRight_iff.mpr ⟨refers, pending⟩)) abandons
  · exact of_same abandons
  · exact of_same abandons

theorem setController {k : Nat} {c c' : FutureController κ ν (PromiseError χ)}
    {e : FutureController.Event κ ν (PromiseError χ)} (entry : a.controllers[k]? = some c)
    (stepped : c.step e = some c') (outside : isOutside e = true) : StaysSettled a (a.setController k c') := by
  have same := FutureController.step_same stepped (fun outcome settles => by subst settles; cases outside)
  intro i d found settled
  by_cases own : i = k
  · subst own
    obtain rfl : c = d := Option.some.inj (entry.symm.trans found)
    exact ⟨c', Table.set_self entry, same.1, same.2.1, same.2.2.trans settled⟩
  · exact ⟨d, (List.getElem?_set_ne (Ne.symm own)).trans found, rfl, rfl, settled⟩

end StaysSettled

/-! ### Steps and runs -/

section Runs

variable {s t : Promises κ ν χ}

/-- Every call either is turned away without a change, or wins, or loses. -/
theorem Accounted.claim (accounted : Accounted s) {j : Nat} {call : Call ν χ} {p : Promise}
    (entry : s.calls[j]? = some call) (entered : call.stage = .entered)
    (object : s.objects[call.object]? = some p) : Accounted (s.claim j call p) := by
  have turnedAway {result : CompletionResult χ}
      (fails : { call with stage := .returned result }.succeeds = false) :
      Accounted (s.setStage j call (.returned result)) :=
    accounted.setStage entry (.of_entered entered _) (by simp [entered]) (by simp) (by simp [fails])
  have claims (hasOutcome : call.completion.outcome.isSome = true) : Accounted (s.claimCompletion j call p) := by
    unfold claimCompletion
    split
    · exact turnedAway rfl
    · rename_i k refers
      dsimp only
      split
      · rename_i pending
        exact accounted.win entry entered hasOutcome object refers pending rfl rfl rfl rfl
      · rename_i taken
        exact accounted.lose entry entered (List.mem_of_getElem? object) refers (Bool.eq_false_iff.mpr taken)
  unfold Promises.claim
  split
  · exact turnedAway rfl
  · rename_i exception completion
    exact claims (by simp [completion, Completion.outcome])
  · rename_i value completion
    exact claims (by cases value <;> simp [completion, Completion.outcome])

theorem controllers_claim {j : Nat} {call : Call ν χ} {p : Promise} :
    (s.claim j call p).controllers = s.controllers := by
  unfold claim claimCompletion
  repeat' split
  all_goals rfl

theorem step_sound {e : Event κ ν χ} (accounted : Accounted s) (stepped : s.step e = some t) :
    Accounted t ∧ StaysSettled s t := by
  cases e with
  | create =>
      cases stepped
      exact ⟨accounted.create rfl rfl rfl rfl, .push rfl⟩
  | createEmpty =>
      cases stepped
      exact ⟨accounted_createEmpty accounted, .of_same rfl⟩
  | moveConstruct source =>
      simp only [step] at stepped
      split at stepped
      · cases stepped
      · rename_i p object
        split at stepped
        · rename_i allowed
          cases stepped
          simp only [mayOwn, Bool.and_eq_true] at allowed
          exact ⟨accounted_moveConstruct accounted object allowed.2, .of_same rfl⟩
        · cases stepped
  | moveAssign target source =>
      simp only [step] at stepped
      split at stepped
      · rename_i p q atTarget atSource
        split at stepped
        · rename_i allowed
          cases stepped
          simp only [mayOwn, Bool.and_eq_true] at allowed
          refine ⟨accounted_moveAssign accounted atTarget atSource allowed.1.2 allowed.2.2, ?_⟩
          unfold moveAssign
          split
          · exact .of_same rfl
          · exact .abandon accounted (List.mem_of_getElem? atTarget) rfl
        · cases stepped
      · cases stepped
  | destroy object =>
      simp only [step] at stepped
      split at stepped
      · cases stepped
      · rename_i p found
        split at stepped
        · rename_i allowed
          cases stepped
          simp only [mayOwn, Bool.and_eq_true] at allowed
          exact ⟨accounted_destroy accounted found allowed.2,
            .abandon accounted (List.mem_of_getElem? found) rfl⟩
        · cases stepped
  | getFuture object =>
      simp only [step, Promise.getFuture] at stepped
      split at stepped
      · cases stepped
      · rename_i p found
        split at stepped
        · cases stepped
        · split at stepped
          · cases stepped
            exact ⟨accounted, .of_same rfl⟩
          · rename_i controller p' given
            cases stepped
            split at given
            · cases given
            · cases given
              exact ⟨accounted_getFuture accounted found _, .of_same rfl⟩
  | start object completion =>
      simp only [step] at stepped
      split at stepped
      · cases stepped
        refine ⟨accounted.continueCalls rfl rfl rfl (.push _) ?_ ?_ ?_, .of_same rfl⟩
        · intro k
          simp [List.countP_append]
        · intro j call k entry claimed
          rcases Table.push_cases entry with before | ⟨_, rfl⟩
          · exact before
          · cases claimed
        · intro j call entry succeeds
          rcases Table.push_cases entry with before | ⟨_, rfl⟩
          · exact ⟨call, before, succeeds⟩
          · cases succeeds
      · cases stepped
  | claim index =>
      simp only [step] at stepped
      split at stepped
      · cases stepped
      · rename_i call entry
        split at stepped
        · rename_i p entered object
          cases stepped
          exact ⟨accounted.claim entry entered object, .of_same controllers_claim⟩
        · cases stepped
  | beginSettle index =>
      simp only [step] at stepped
      split at stepped
      · cases stepped
      · rename_i call entry
        split at stepped
        · rename_i k outcome claimed brings
          cases stepped
          refine ⟨accounted.beginSettle entry claimed brings rfl rfl rfl rfl, ?_⟩
          exact .beginSettle accounted (rights_pos_of_claimed entry claimed) rfl
        · cases stepped
  | finish index =>
      simp only [step] at stepped
      split at stepped
      · cases stepped
      · rename_i call entry
        split at stepped
        · rename_i k settling
          split at stepped
          · cases stepped
            refine ⟨accounted.setStage entry ?_ (by simp [settling]) (by simp) ?_, .of_same rfl⟩
            · refine ⟨rfl, ?_, fun lost => by cases settling.symm.trans lost⟩
              rintro controller ⟨hasOutcome, _⟩
              exact ⟨hasOutcome, .inr (.inr rfl)⟩
            · simp [Call.succeeds, settling]
          · cases stepped
        · cases stepped
  | controller index event =>
      simp only [step] at stepped
      split at stepped
      · cases stepped
      · rename_i c entry
        split at stepped
        · rename_i outside
          obtain ⟨c', next, rfl⟩ := Option.map_eq_some_iff.mp stepped
          exact ⟨accounted.setController entry next outside, .setController entry next outside⟩
        · cases stepped

theorem accounted_of_run {es : List (Event κ ν χ)} (ran : machine.run {} es = some s) : Accounted s :=
  Machine.run_invariant (P := Accounted) (fun accounted stepped => (step_sound accounted stepped).1)
    accounted_init ran

theorem staysSettled_of_run {s₁ : Promises κ ν χ} {es es₁ : List (Event κ ν χ)}
    (ran : machine.run {} es = some s) (beginning : es₁ <+: es) (ran₁ : machine.run {} es₁ = some s₁) :
    StaysSettled s₁ s :=
  Machine.run_since (P := Accounted) (R := StaysSettled) (fun _ => .of_same rfl) .trans accounted_of_run
    (fun accounted stepped => (step_sound accounted stepped).2) ran beginning ran₁

/-- What CommonRpc.Core.FutureController takes for granted of a controller, its promise sees to. -/
theorem controller_reachable {es : List (Event κ ν χ)} (ran : machine.run {} es = some s)
    {c : FutureController κ ν (PromiseError χ)} (mem : c ∈ s.controllers) :
    ∃ steps, FutureController.machine.run {} steps = some c :=
  (accounted_of_run ran).reachable c mem

/-- A null exception is turned away before the flag is looked at. -/
theorem claim_null {j : Nat} {call : Call ν χ} (entry : s.calls[j]? = some call)
    (null : call.completion = .setException none) (stepped : s.step (.claim j) = some t) :
    t = s.setStage j call (.returned .nullException) := by
  simp only [step, entry] at stepped
  split at stepped
  · cases stepped
    simp only [claim, null]
  · cases stepped

/-- Without a promise object the controller has been settled. -/
theorem Accounted.settled_of_unreferenced (accounted : Accounted s) {k : Nat}
    {c : FutureController κ ν (PromiseError χ)} (entry : s.controllers[k]? = some c)
    (unreferenced : ∀ p ∈ s.objects, p.controller ≠ some k) : c.settlements = 1 := by
  have noReference : s.references k = 0 :=
    List.countP_eq_zero.mpr fun p mem refers => unreferenced p mem (Promise.refersTo_iff.mp refers)
  have balance := accounted.right k c entry
  rw [accounted.rights_eq_zero noReference] at balance
  omega

/-- At every moment: no controller was settled twice; of the calls that asked for the right to complete a
    controller the first one got it and the others were refused, and nobody else got it; what a controller
    holds does not change, and is what that call brought, or `broken_promise` if there was none; a null exception
    changes neither an object nor a controller; and a controller that no object refers to has been settled. -/
theorem completion_right_conserved {es : List (Event κ ν χ)} (ran : machine.run {} es = some s) :
    (∀ c ∈ s.controllers, c.settlements ≤ 1) ∧
    (∀ k, Judged s.calls k (s.claimsOn k)) ∧
    (∀ (j : Nat) (call : Call ν χ), s.calls[j]? = some call → call.succeeds = true →
      ∃ k, (s.claimsOn k).head? = some j) ∧
    (∀ es₁ s₁, es₁ <+: es → machine.run {} es₁ = some s₁ →
      ∀ (k : Nat) (c₁ : FutureController κ ν (PromiseError χ)), s₁.controllers[k]? = some c₁ →
        c₁.isSettled = true →
        ∃ c, s.controllers[k]? = some c ∧ c.value = c₁.value ∧ c.exception = c₁.exception) ∧
    (∀ (k : Nat) (c : FutureController κ ν (PromiseError χ)), s.controllers[k]? = some c →
      c.isSettled = true → Explained s.calls (s.claimsOn k) c) ∧
    (∀ (j : Nat) (call : Call ν χ) (t : Promises κ ν χ), s.calls[j]? = some call →
      call.completion = .setException none → s.step (.claim j) = some t →
      t.objects = s.objects ∧ t.controllers = s.controllers ∧
        t.calls = s.calls.set j { call with stage := .returned .nullException }) ∧
    (∀ (k : Nat) (c : FutureController κ ν (PromiseError χ)), s.controllers[k]? = some c →
      (∀ p ∈ s.objects, p.controller ≠ some k) →
      c.isSettled = true ∧ (s.claimsOn k = [] → c.Stores (.exception .brokenPromise))) := by
  have accounted := accounted_of_run ran
  have explained {k : Nat} {c : FutureController κ ν (PromiseError χ)} (entry : s.controllers[k]? = some c)
      (settled : c.isSettled = true) : Explained s.calls (s.claimsOn k) c :=
    accounted.explained k c entry ((accounted.isSettled_iff (List.mem_of_getElem? entry)).mp settled)
  refine ⟨fun c => accounted.settlements_le_one, accounted.judged, accounted.succeeded, ?_,
    fun k c => explained, ?_, ?_⟩
  · intro es₁ s₁ beginning ran₁ k c₁ entry settled
    have once := ((accounted_of_run ran₁).isSettled_iff (List.mem_of_getElem? entry)).mp settled
    obtain ⟨c, found, value, exception, _⟩ := staysSettled_of_run ran beginning ran₁ k c₁ entry once
    exact ⟨c, found, value, exception⟩
  · intro j call t entry null stepped
    obtain rfl := claim_null entry null stepped
    exact ⟨rfl, rfl, rfl⟩
  · intro k c entry unreferenced
    have settled : c.isSettled = true :=
      (accounted.isSettled_iff (List.mem_of_getElem? entry)).mpr
        (accounted.settled_of_unreferenced entry unreferenced)
    refine ⟨settled, fun nobody => ?_⟩
    obtain ⟨outcome, stores, origin⟩ := explained entry settled
    rw [nobody] at origin
    exact origin ▸ stores

/-- A null exception, two calls that race, and a second controller whose promise is moved twice and dropped. -/
theorem completion_right_conserved_example :
    ∃ s : Promises Unit Nat String,
      machine.run {} [.create, .start 0 (.setException none), .claim 0, .start 0 (.setValue (.ok 1)),
        .start 0 (.setException (some "failure")), .claim 2, .claim 1, .beginSettle 2, .controller 0 .endSettle,
        .finish 2, .create, .moveConstruct 1, .moveAssign 0 2, .destroy 0] = some s ∧
      (s.claimsOn 0 = [2, 1] ∧ s.claimsOn 1 = [] ∧ (∀ p ∈ s.objects, p.controller ≠ some 1) ∧
        ∃ c, s.controllers[1]? = some c) ∧
      (∃ call, s.calls[2]? = some call ∧ call.Won 0) ∧ (∃ call, s.calls[1]? = some call ∧ call.Lost) ∧
      ∃ c, s.controllers[1]? = some c ∧ c.Stores (.exception .brokenPromise) := by
  refine Machine.exists_run ⟨_, rfl, rfl, rfl, by decide, _, rfl⟩
    fun ran ⟨claimants, nobody, unreferenced, c, entry⟩ => ?_
  obtain ⟨_, judged, _, _, _, _, dropped⟩ := completion_right_conserved ran
  refine ⟨(judged 0).winner 2 ?_, (judged 0).losers 1 ?_, c, entry, (dropped 1 c entry unreferenced).2 nobody⟩
  · rw [claimants]
    rfl
  · rw [claimants]
    exact .head _

end Runs

end Promises

end CommonRpc
