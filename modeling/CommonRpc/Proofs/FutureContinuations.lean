/-
Module: CommonRpc.Proofs.FutureContinuations
Purpose: The code of the combinators computes the sequential meaning. A continuation that waits on the right
  controller and is called with that controller's sequential outcome ends in a right operation: it settles its
  target with the target's sequential outcome, or waits on with a right continuation for the same target.
Trusted boundary: none
-/
import CommonRpc.Spec.FutureSemantics

namespace CommonRpc.FutureGraph

universe u

variable {ι ν χ : Type u} {g : FutureGraph ι ν χ}

/-- What the inner controller of a `then` holds after its callback. -/
def stored : Returned ι χ → Outcome (Option ι) χ
  | .future j => .value (some j)
  | .invalid => .value none
  | .throws e => .exception e

/-- The sequential outcome of an inner controller. -/
def innerResult (g : FutureGraph ι ν χ) (i : ι) : Outcome (Option ι) χ :=
  match g.node i with
  | .derived src (.thenFuture task) =>
      match g.sem src with
      | .value v => stored (task v)
      | .exception e => .exception e
  | _ => .exception g.invalidFuture

/-- The sequential outcome of a controller. -/
def result (g : FutureGraph ι ν χ) : (c : Ctrl ι) → Outcome (Val ν c) χ
  | .outer i => g.sem i
  | .inner i => g.innerResult i

/-- The continuation waits where the sequential meaning says. -/
def Right (g : FutureGraph ι ν χ) : (c : Ctrl ι) → Cont ν χ c → Prop
  | .outer j, .apply i combinator => g.node i = .derived j combinator
  | .outer j, .adopt i => g.rank j < g.rank i ∧ g.sem i = g.sem j
  | .outer j, .restore i kept => g.rank j < g.rank i ∧
      g.sem i = match g.sem j with
        | .value _ => kept
        | .exception e => .exception e
  | .inner i, _ => ∃ src task, g.node i = .derived src (.thenFuture task)

def RightOp (g : FutureGraph ι ν χ) : Op ι ν χ → Prop
  | .settle c outcome => outcome = g.result c
  | .register c cont => g.Right c cont
  | .endSettle _ | .endRegister _ => True

/-- The controller that a continuation is to settle in the end. -/
def target : (c : Ctrl ι) → Cont ν χ c → Ctrl ι
  | .outer _, .apply i combinator => if combinator.isFlattened then .inner i else .outer i
  | .outer _, .adopt i => .outer i
  | .outer _, .restore i _ => .outer i
  | .inner i, _ => .outer i

theorem target_apply_index (j i : ι) (combinator : Combinator ι ν χ) :
    (target (.outer j) (.apply i combinator : OuterCont ι ν χ)).index = i := by
  cases flattened : combinator.isFlattened <;> simp [target, flattened, Ctrl.index]

def Op.target : Op ι ν χ → Option (Ctrl ι)
  | .settle c _ => some c
  | .register c cont => some (FutureGraph.target c cont)
  | .endSettle _ | .endRegister _ => none

section Values

/-- The code for void futures passes on the same value as the code for the others. -/
theorem pass_eq {i : ι} {v : ν} (value : g.sem i = .value v) : g.pass i v = v := by
  unfold pass
  split
  · rename_i void
    exact (sem_void void value).symm
  · rfl

theorem keep_eq (i : ι) : g.keep i (g.sem i) = g.sem i := by
  cases value : g.sem i with
  | value v => simp only [keep, pass_eq value]
  | exception e => rfl

end Values

theorem innerResult_value {i src : ι} {task : ν → Returned ι χ} {v : ν}
    (shape : g.node i = .derived src (.thenFuture task)) (source : g.sem src = .value v) :
    g.innerResult i = stored (task v) := by
  simp only [innerResult, shape, source]

theorem innerResult_exception {i src : ι} {task : ν → Returned ι χ} {e : χ}
    (shape : g.node i = .derived src (.thenFuture task)) (source : g.sem src = .exception e) :
    g.innerResult i = .exception e := by
  simp only [innerResult, shape, source]

section Shape

/-- The callback of the combinator of `i` may return `j`. -/
def Returns (g : FutureGraph ι ν χ) (i j : ι) : Prop :=
  ∃ src combinator, g.node i = .derived src combinator ∧ combinator.MayReturn j

/-- What a continuation can end in: to settle a controller, or to follow a future that a callback returned. -/
inductive Op.Continues (returns : ι → Prop) : Op ι ν χ → Prop where
  | settle (c : Ctrl ι) (outcome : Outcome (Val ν c) χ) : Continues returns (.settle c outcome)
  | adopt {j : ι} (returned : returns j) (i : ι) : Continues returns (.register (.outer j) (.adopt i))
  | restore {j : ι} (returned : returns j) (i : ι) (kept : Outcome ν χ) :
      Continues returns (.register (.outer j) (.restore i kept))

theorem Op.Continues.mono {returns returns' : ι → Prop} {op : Op ι ν χ} (continues : op.Continues returns)
    (more : ∀ j, returns j → returns' j) : op.Continues returns' := by
  cases continues with
  | settle c outcome => exact .settle c outcome
  | adopt returned i => exact .adopt (more _ returned) i
  | restore returned i kept => exact .restore (more _ returned) i kept

theorem follow_continues {returns : ι → Prop} (i : ι) {cont : OuterCont ι ν χ} {returned : Returned ι χ}
    (follows : ∀ j, returned = .future j → Op.Continues returns (.register (.outer j) cont)) :
    (g.follow i cont returned).Continues returns := by
  cases returned with
  | future j => exact follows j rfl
  | invalid => exact .settle _ _
  | throws e => exact .settle _ _

theorem onSuccessForCatched_continues {returns : ι → Prop} (src i : ι) (retVoid : Bool) (v : ν) :
    (g.onSuccessForCatched src i retVoid v).Continues returns := by
  unfold onSuccessForCatched
  repeat' split
  all_goals exact .settle _ _

theorem execApply_continues (src i : ι) (combinator : Combinator ι ν χ) (o : Outcome ν χ) :
    (g.execApply src i combinator o).1.Continues combinator.MayReturn := by
  cases combinator with
  | thenValue task =>
      cases o with
      | value v =>
          simp only [execApply]
          cases task (g.pass src v) <;> exact .settle _ _
      | exception e => exact .settle _ _
  | thenFuture task =>
      cases o with
      | value v =>
          simp only [execApply]
          cases task (g.pass src v) <;> exact .settle _ _
      | exception e => exact .settle _ _
  | catchedValue task =>
      cases o with
      | value v => exact onSuccessForCatched_continues src i false v
      | exception e =>
          simp only [execApply]
          split <;> exact .settle _ _
  | catchedVoid task =>
      cases o with
      | value v => exact onSuccessForCatched_continues src i true v
      | exception e =>
          simp only [execApply]
          split <;> exact .settle _ _
  | catchedFuture task =>
      cases o with
      | value v => exact onSuccessForCatched_continues src i false v
      | exception e => exact follow_continues i fun j returned => .adopt ⟨e, returned⟩ i
  | finallyVoid task =>
      simp only [execApply]
      split <;> exact .settle _ _
  | finallyFuture task =>
      apply follow_continues
      intro j returned
      have may : (Combinator.finallyFuture task : Combinator ι ν χ).MayReturn j := returned
      exact .restore may i _

theorem stored_eq_some {returned : Returned ι χ} {j : ι} (same : stored returned = .value (some j)) :
    returned = .future j := by
  cases returned with
  | future k => rw [Option.some.inj (Outcome.value.inj same)]
  | invalid => cases same
  | throws e => cases same

/-- A continuation that waits where it should follows only futures that the callback may return. -/
theorem exec_continues {c : Ctrl ι} {cont : Cont ν χ c} (right : g.Right c cont) :
    (g.exec c cont (g.result c)).1.Continues (g.Returns (target c cont).index) := by
  cases c with
  | outer j =>
      cases cont with
      | apply i combinator =>
          have continues := execApply_continues (g := g) j i combinator (g.sem j)
          apply continues.mono
          intro k returned
          rw [target_apply_index]
          exact ⟨j, combinator, right, returned⟩
      | adopt i => exact .settle _ _
      | restore i kept =>
          simp only [result]
          cases g.sem j <;> exact .settle _ _
  | inner i =>
      obtain ⟨src, task, shape⟩ := right
      cases ended : g.innerResult i with
      | value returned =>
          simp only [result, ended]
          cases returned with
          | none => exact .settle _ _
          | some j =>
              cases source : g.sem src with
              | value v =>
                  rw [innerResult_value shape source] at ended
                  exact .adopt ⟨src, .thenFuture task, shape, v, stored_eq_some ended⟩ i
              | exception e =>
                  rw [innerResult_exception shape source] at ended
                  cases ended
      | exception e =>
          simp only [result, ended]
          exact .settle _ _

end Shape

section Follow

/-- An operation is right and works for the future `i`. -/
def Serves (g : FutureGraph ι ν χ) (c : Ctrl ι) (op : Op ι ν χ) : Prop := g.RightOp op ∧ op.target = some c

theorem serves_settle {c : Ctrl ι} {outcome : Outcome (Val ν c) χ} (same : outcome = g.result c) :
    g.Serves c (.settle c outcome) := ⟨same, rfl⟩

theorem serves_adopt {i : ι} {returned : Returned ι χ} (lower : ∀ j, returned = .future j → g.rank j < g.rank i)
    (meaning : g.sem i = g.adopted g.sem returned) : g.Serves (.outer i) (g.follow i (.adopt i) returned) := by
  cases returned with
  | future j => exact ⟨⟨lower j rfl, meaning⟩, rfl⟩
  | invalid => exact serves_settle meaning.symm
  | throws e => exact serves_settle meaning.symm

theorem serves_restore {i : ι} {kept : Outcome ν χ} {returned : Returned ι χ}
    (lower : ∀ j, returned = .future j → g.rank j < g.rank i)
    (meaning : g.sem i = match g.adopted g.sem returned with
      | .value _ => kept
      | .exception e => .exception e) :
    g.Serves (.outer i) (g.follow i (.restore i kept) returned) := by
  cases returned with
  | future j => exact ⟨⟨lower j rfl, meaning⟩, rfl⟩
  | invalid => exact serves_settle meaning.symm
  | throws e => exact serves_settle meaning.symm

end Follow

/-- The pair of a combinator, called with the outcome of its source. -/
theorem execApply_serves {src i : ι} {combinator : Combinator ι ν χ}
    (shape : g.node i = .derived src combinator) :
    g.Serves (target (.outer src) (.apply i combinator)) (g.execApply src i combinator (g.sem src)).1 := by
  have meaning := sem_derived shape
  cases combinator with
  | thenValue task =>
      cases source : g.sem src with
      | value v =>
          rw [source] at meaning
          simp only [execApply, pass_eq source]
          cases ended : task v with
          | value r =>
              have value : g.sem i = .value r := meaning.trans ended
              simp only [execThenOnSuccess, pass_eq value]
              exact serves_settle value.symm
          | exception e => exact serves_settle (meaning.trans ended).symm
      | exception e =>
          rw [source] at meaning
          exact serves_settle meaning.symm
  | thenFuture task =>
      cases source : g.sem src with
      | value v =>
          simp only [execApply, pass_eq source]
          have held := innerResult_value shape source
          cases ended : task v with
          | future j => exact serves_settle (held.trans (congrArg stored ended)).symm
          | invalid => exact serves_settle (held.trans (congrArg stored ended)).symm
          | throws e => exact serves_settle (held.trans (congrArg stored ended)).symm
      | exception e => exact serves_settle (innerResult_exception shape source).symm
  | catchedValue task =>
      have notVoid := (g.typed shape).2
      cases source : g.sem src with
      | value v =>
          rw [source] at meaning
          simp only [execApply, onSuccessForCatched, notVoid]
          exact serves_settle meaning.symm
      | exception e =>
          rw [source] at meaning
          simp only [execApply]
          cases ended : task e with
          | value r => exact serves_settle (meaning.trans ended).symm
          | exception e' => exact serves_settle (meaning.trans ended).symm
  | catchedVoid task =>
      cases source : g.sem src with
      | value v =>
          rw [source] at meaning
          simp only [execApply, onSuccessForCatched, if_true, ite_self]
          exact serves_settle meaning.symm
      | exception e =>
          rw [source] at meaning
          simp only [execApply]
          simp only [combine] at meaning
          cases ended : task e with
          | none =>
              rw [ended] at meaning
              exact serves_settle meaning.symm
          | some e' =>
              rw [ended] at meaning
              exact serves_settle meaning.symm
  | catchedFuture task =>
      cases source : g.sem src with
      | value v =>
          rw [source] at meaning
          simp only [execApply, onSuccessForCatched]
          split
          · rename_i void
            rw [sem_void void source] at meaning
            exact serves_settle meaning.symm
          · exact serves_settle meaning.symm
      | exception e =>
          rw [source] at meaning
          exact serves_adopt (fun j same => g.returned_lt shape ⟨e, same⟩) meaning
  | finallyVoid task =>
      simp only [execApply]
      cases task with
      | none => exact serves_settle ((keep_eq src).trans meaning.symm)
      | some e => exact serves_settle meaning.symm
  | finallyFuture task =>
      simp only [execApply, keep_eq]
      exact serves_restore (fun j same => g.returned_lt shape same) meaning

/-- The code calls the callback when the sequential meaning does. -/
theorem execApply_called (src i : ι) (combinator : Combinator ι ν χ) (o : Outcome ν χ) :
    (g.execApply src i combinator o).2 = combinator.invokes o := by
  cases combinator with
  | catchedValue task =>
      cases o with
      | value v => rfl
      | exception e =>
          simp only [execApply]
          split <;> rfl
  | catchedVoid task =>
      cases o with
      | value v => rfl
      | exception e =>
          simp only [execApply]
          split <;> rfl
  | finallyVoid task => cases task <;> cases o <;> rfl
  | finallyFuture task => cases o <;> rfl
  | thenValue task => cases o <;> rfl
  | thenFuture task => cases o <;> rfl
  | catchedFuture task => cases o <;> rfl

/-- A continuation that waits where it should and is called with the sequential outcome serves its target. -/
theorem exec_serves {c : Ctrl ι} {cont : Cont ν χ c} (right : g.Right c cont) :
    g.Serves (target c cont) (g.exec c cont (g.result c)).1 := by
  cases c with
  | outer j =>
      cases cont with
      | apply i combinator => exact execApply_serves right
      | adopt i => exact serves_settle ((keep_eq j).trans right.2.symm)
      | restore i kept =>
          obtain ⟨-, meaning⟩ := right
          simp only [result]
          cases value : g.sem j with
          | value v =>
              rw [value] at meaning
              exact serves_settle meaning.symm
          | exception e =>
              rw [value] at meaning
              exact serves_settle meaning.symm
  | inner i =>
      obtain ⟨src, task, shape⟩ := right
      have meaning := sem_derived shape
      cases source : g.sem src with
      | value v =>
          rw [source] at meaning
          simp only [result, innerResult_value shape source]
          cases ended : task v with
          | future j =>
              exact ⟨⟨g.returned_lt shape ⟨v, ended⟩, meaning.trans (by simp only [combine, ended]; rfl)⟩, rfl⟩
          | invalid => exact serves_settle (meaning.trans (by simp only [combine, ended]; rfl)).symm
          | throws e => exact serves_settle (meaning.trans (by simp only [combine, ended]; rfl)).symm
      | exception e =>
          rw [source] at meaning
          simp only [result, innerResult_exception shape source]
          exact serves_settle meaning.symm

/-- Such a continuation calls its callback when the sequential meaning does. -/
theorem exec_answers {c : Ctrl ι} {cont : Cont ν χ c} (right : g.Right c cont) {x : ι × Bool}
    (answer : x ∈ (g.exec c cont (g.result c)).2) {src : ι} {combinator : Combinator ι ν χ}
    (shape : g.node x.1 = .derived src combinator) : x.2 = combinator.invokes (g.sem src) := by
  cases c with
  | outer j =>
      cases cont with
      | apply i combinator' =>
          obtain rfl := List.mem_singleton.mp answer
          have same : Node.derived j combinator' = Node.derived src combinator := right.symm.trans shape
          cases same
          exact execApply_called src i combinator (g.sem src)
      | adopt i => cases answer
      | restore i kept =>
          have none : (g.exec (.outer j) (.restore i kept) (g.result (.outer j))).2 = [] := by
            cases g.result (.outer j) <;> rfl
          exact absurd (none ▸ answer) List.not_mem_nil
  | inner i =>
      have none : (g.exec (.inner i) cont (g.result (.inner i))).2 = [] := by
        cases g.result (.inner i) with
        | value returned => cases returned <;> rfl
        | exception e => rfl
      exact absurd (none ▸ answer) List.not_mem_nil

end CommonRpc.FutureGraph
