/-
Module: CommonRpc.Proofs.FutureGraph
Purpose: Graphs of futures settle as their sequential meaning says, in whatever order continuations are attached,
  sources are settled and the pool runs its tasks. The work of a state is what its threads have to do and what
  waits on its controllers; for every controller there is one piece of work that is to settle it until it is
  settled, and every piece of work is right. When nothing is left to run, what waits would wait on a controller
  of lower rank that is not settled, so nothing waits.
Trusted boundary: none
-/
import CommonRpc.Lib.Table
import CommonRpc.Proofs.FutureContinuations
import CommonRpc.Proofs.FutureController

namespace CommonRpc.FutureGraph

universe u

variable {ι ν χ : Type u} {g : FutureGraph ι ν χ} {s s' : State ι ν χ} {c : Ctrl ι}

section Work

/-- The continuations that wait on a controller. -/
def waiting (s : State ι ν χ) (c : Ctrl ι) : List (Op ι ν χ) :=
  (s.controllers c).uncalled.map fun cont => .register c cont

/-- The controllers of the futures that were created. -/
def ctrls (s : State ι ν χ) : List (Ctrl ι) := s.created.flatMap fun i => [.outer i, .inner i]

/-- What the threads have to do and what waits on the controllers. -/
def work (s : State ι ν χ) : List (Op ι ν χ) := s.ops ++ (ctrls s).flatMap (waiting s)

theorem mem_ctrls : c ∈ ctrls s ↔ c.index ∈ s.created := by
  cases c <;> simp [ctrls, Ctrl.index]

theorem ctrls_nodup (distinct : s.created.Nodup) : (ctrls s).Nodup := by
  apply List.nodup_flatMap.mpr
  refine ⟨fun i _ => by simp, distinct.imp ?_⟩
  intro i j differ
  simp [Function.onFun, Ne.symm differ]

variable [DecidableEq ι]

/-- An operation that is to settle the controller `t` in the end. -/
def Op.aims (t : Ctrl ι) (op : Op ι ν χ) : Bool := op.target = some t

/-- An operation that has yet to run the continuation of the combinator of `i`. -/
def Op.applies (i : ι) : Op ι ν χ → Bool
  | .register (.outer _) (.apply i' _) => i' = i
  | _ => false

/-- What waits elsewhere does not depend on a controller. -/
theorem waiting_split (distinct : s.created.Nodup) (inside : c.index ∈ s.created) :
    ∃ rest, ((ctrls s).flatMap (waiting s)).Perm (waiting s c ++ rest) ∧
      ∀ controller next,
        ((ctrls (s.update c controller next)).flatMap (waiting (s.update c controller next))).Perm
          (controller.uncalled.map (fun cont => .register c cont) ++ rest) := by
  have member : c ∈ ctrls s := mem_ctrls.mpr inside
  have split : (ctrls s).Perm (c :: (ctrls s).erase c) := List.perm_cons_erase member
  refine ⟨((ctrls s).erase c).flatMap (waiting s), ?_, ?_⟩
  · exact split.flatMap_right _
  · intro controller next
    have others : ((ctrls s).erase c).flatMap (waiting (s.update c controller next)) =
        ((ctrls s).erase c).flatMap (waiting s) := by
      apply List.flatMap_congr
      intro other left
      have differ : other ≠ c := fun same =>
        (ctrls_nodup distinct).not_mem_erase (same ▸ left)
      simp only [waiting, State.update, Function.update_of_ne differ]
    have here : waiting (s.update c controller next) c =
        controller.uncalled.map fun cont => .register c cont := by
      simp only [waiting, State.update, Function.update_self]
    have moved := split.flatMap_right (waiting (s.update c controller next))
    rw [List.flatMap_cons, others, here] at moved
    exact moved

end Work

section Invariant

variable [DecidableEq ι]

/-- How often a controller is to be settled: a source when it was given its outcome. -/
def due (g : FutureGraph ι ν χ) (s : State ι ν χ) : Ctrl ι → Nat
  | .outer i =>
      if i ∈ s.created then
        match g.node i with
        | .source _ => if i ∈ s.given then 1 else 0
        | .derived _ _ => 1
      else 0
  | .inner i =>
      if i ∈ s.created then
        match g.node i with
        | .source _ => 0
        | .derived _ combinator => if combinator.isFlattened then 1 else 0
      else 0

/-- How often the continuation of a combinator is to run. -/
def dueTask (g : FutureGraph ι ν χ) (s : State ι ν χ) (i : ι) : Nat :=
  if i ∈ s.created then
    match g.node i with
    | .source _ => 0
    | .derived _ _ => 1
  else 0

theorem due_le_one (t : Ctrl ι) : g.due s t ≤ 1 := by
  unfold due
  repeat' split
  all_goals simp

/-- The invariant, for the work `W` that is left. -/
structure Holds (g : FutureGraph ι ν χ) (s : State ι ν χ) (W : List (Op ι ν χ)) : Prop where
  controllers : ∀ c, (s.controllers c).Consistent
  distinct : s.created.Nodup
  fresh : ∀ c : Ctrl ι, c.index ∉ s.created → s.controllers c = {}
  given : ∀ i ∈ s.given, i ∈ s.created
  outcome : ∀ c side o, outcomeAt (s.controllers c) side = some o → o = g.result c
  right : ∀ op ∈ W, g.RightOp op
  located : ∀ op ∈ W, op.ctrl.index ∈ s.created
  tokens : ∀ t, W.countP (Op.aims t) + (s.controllers t).settlements = g.due s t
  tasks : ∀ i, W.countP (Op.applies i) + s.applied.countP (fun x => x.1 = i) = g.dueTask s i
  answered : ∀ x ∈ s.applied, ∀ {src combinator}, g.node x.1 = .derived src combinator →
    x.2 = combinator.invokes (g.sem src)

variable {W W' : List (Op ι ν χ)}

theorem Holds.perm (holds : g.Holds s W) (same : W.Perm W') : g.Holds s W' :=
  { holds with
    right := fun op member => holds.right op (same.mem_iff.mpr member)
    located := fun op member => holds.located op (same.mem_iff.mpr member)
    tokens := fun t => same.countP_eq (Op.aims t) ▸ holds.tokens t
    tasks := fun i => same.countP_eq (Op.applies i) ▸ holds.tasks i }

/-- The second half of an operation settles nothing and runs no continuation. -/
def Op.IsEnd : Op ι ν χ → Prop
  | .endSettle _ | .endRegister _ => True
  | .settle _ _ | .register _ _ => False

theorem Op.IsEnd.counts {op : Op ι ν χ} (isEnd : op.IsEnd) (t : Ctrl ι) (i : ι) :
    op.aims t = false ∧ op.applies i = false ∧ g.RightOp op := by
  cases op with
  | settle c outcome => cases isEnd
  | endSettle c => exact ⟨rfl, rfl, trivial⟩
  | register c cont => cases isEnd
  | endRegister c => exact ⟨rfl, rfl, trivial⟩

theorem Holds.drop_end {op : Op ι ν χ} (holds : g.Holds s (op :: W)) (isEnd : op.IsEnd) : g.Holds s W :=
  { holds with
    right := fun other member => holds.right other (List.mem_cons_of_mem _ member)
    located := fun other member => holds.located other (List.mem_cons_of_mem _ member)
    tokens := by
      intro t
      have tokens := holds.tokens t
      rwa [List.countP_cons_of_neg (by rw [(isEnd.counts (g := g) t t.index).1]; simp)] at tokens
    tasks := by
      intro i
      have tasks := holds.tasks i
      rwa [List.countP_cons_of_neg (by rw [(isEnd.counts (g := g) (.outer i) i).2.1]; simp)] at tasks }

theorem Holds.add_end (op : Op ι ν χ) (holds : g.Holds s W) (isEnd : op.IsEnd)
    (inside : op.ctrl.index ∈ s.created) : g.Holds s (op :: W) :=
  { holds with
    right := by
      intro other member
      rcases List.mem_cons.mp member with rfl | old
      · exact (isEnd.counts other.ctrl other.ctrl.index).2.2
      · exact holds.right other old
    located := by
      intro other member
      rcases List.mem_cons.mp member with rfl | old
      · exact inside
      · exact holds.located other old
    tokens := by
      intro t
      rw [List.countP_cons_of_neg (by rw [(isEnd.counts (g := g) t t.index).1]; simp)]
      exact holds.tokens t
    tasks := by
      intro i
      rw [List.countP_cons_of_neg (by rw [(isEnd.counts (g := g) (.outer i) i).2.1]; simp)]
      exact holds.tasks i }

/-- The threads' list of operations is not looked at. -/
theorem Holds.retask (holds : g.Holds s W) (ops : List (Op ι ν χ)) : g.Holds { s with ops := ops } W :=
  { holds with }

section Controller

variable {controller : FutureController (Cont ν χ c) (Val ν c) χ}

/-- A fact about every controller, from the one that changed and the others. -/
theorem update_cases {P : (c : Ctrl ι) → FutureController (Cont ν χ c) (Val ν c) χ → Prop}
    {next : List (Op ι ν χ)} (here : P c controller) (others : ∀ t, t ≠ c → P t (s.controllers t)) (t : Ctrl ι) :
    P t ((s.update c controller next).controllers t) := by
  by_cases same : t = c
  · subst same
    simpa only [State.update, Function.update_self] using here
  · simpa only [State.update, Function.update_of_ne same] using others t same

/-- A controller changes, but neither its outcome nor the number of its settlements. -/
theorem Holds.reset (holds : g.Holds s W) (controller : FutureController (Cont ν χ c) (Val ν c) χ)
    (inside : c.index ∈ s.created) (consistent : controller.Consistent)
    (settlements : controller.settlements = (s.controllers c).settlements)
    (outcome : ∀ side, outcomeAt controller side = outcomeAt (s.controllers c) side)
    (next : List (Op ι ν χ)) : g.Holds (s.update c controller next) W :=
  { holds with
    controllers := update_cases (P := fun _ c => c.Consistent) consistent fun t _ => holds.controllers t
    fresh := by
      apply update_cases (P := fun t c => t.index ∉ s.created → c = {})
      · exact fun outside => absurd inside outside
      · exact fun t _ => holds.fresh t
    outcome := by
      apply update_cases (P := fun t c => ∀ side o, outcomeAt c side = some o → o = g.result t)
      · intro side o stored
        exact holds.outcome c side o (outcome side ▸ stored)
      · exact fun t _ => holds.outcome t
    tokens := by
      apply update_cases (P := fun t c => W.countP (Op.aims t) + c.settlements = g.due s t)
      · exact settlements ▸ holds.tokens c
      · exact fun t _ => holds.tokens t }

theorem Holds.unsettled {o : Outcome (Val ν c) χ} (holds : g.Holds s (.settle c o :: W)) :
    (s.controllers c).settlements = 0 ∧ (s.controllers c).isSettled = false := by
  have tokens := holds.tokens c
  have bound : g.due s c ≤ 1 := due_le_one c
  rw [List.countP_cons_of_pos (by simp [Op.aims, Op.target])] at tokens
  have none : (s.controllers c).settlements = 0 := by omega
  have once := (holds.controllers c).settledOnce
  rw [none] at once
  refine ⟨none, ?_⟩
  by_contra settled
  rw [Bool.not_eq_false] at settled
  rw [settled] at once
  cases once

theorem outcomeAt_congr {κ α : Type u} {x y : FutureController κ α χ} (value : x.value = y.value)
    (exception : x.exception = y.exception) (side : FutureController.Side) :
    outcomeAt x side = outcomeAt y side := by
  cases side with
  | success => simp only [outcomeAt, value]
  | fail => simp only [outcomeAt, exception]

theorem outcomeAt_beginSettle {κ α : Type u} {controller : FutureController κ α χ} {o o' : Outcome α χ}
    (unsettled : controller.isSettled = false) {side : FutureController.Side}
    (there : outcomeAt (controller.beginSettle o) side = some o') : o' = o := by
  have empty : controller.value = none ∧ controller.exception = none := by
    simpa [FutureController.isSettled, FutureController.holds] using unsettled
  cases o with
  | value v =>
      cases side with
      | success => exact (Option.some.inj there).symm
      | fail =>
          have absent : (controller.beginSettle (.value v)).exception = none := empty.2
          rw [outcomeAt, absent] at there
          cases there
  | exception e =>
      cases side with
      | success =>
          have absent : (controller.beginSettle (.exception e)).value = none := empty.1
          rw [outcomeAt, absent] at there
          cases there
      | fail => exact (Option.some.inj there).symm

/-- A controller is settled, by the work that was to settle it. -/
theorem Holds.settle {o : Outcome (Val ν c) χ} (holds : g.Holds s (.settle c o :: W))
    (next : List (Op ι ν χ)) : g.Holds (s.update c ((s.controllers c).beginSettle o) next) W := by
  obtain ⟨none, unsettled⟩ := holds.unsettled
  have inside : c.index ∈ s.created := holds.located _ List.mem_cons_self
  have right : o = g.result c := holds.right _ List.mem_cons_self
  exact { holds with
    controllers := by
      apply update_cases (P := fun _ c => c.Consistent)
      · exact (holds.controllers c).beginSettle unsettled o
      · exact fun t _ => holds.controllers t
    fresh := by
      apply update_cases (P := fun t c => t.index ∉ s.created → c = {})
      · exact fun outside => absurd inside outside
      · exact fun t _ => holds.fresh t
    outcome := by
      apply update_cases (P := fun t c => ∀ side o, outcomeAt c side = some o → o = g.result t)
      · intro side o' there
        rw [outcomeAt_beginSettle unsettled there, right]
      · exact fun t _ => holds.outcome t
    right := fun op member => holds.right op (List.mem_cons_of_mem _ member)
    located := fun op member => holds.located op (List.mem_cons_of_mem _ member)
    tokens := by
      apply update_cases (P := fun t c => W.countP (Op.aims t) + c.settlements = g.due s t)
      · have tokens := holds.tokens c
        rw [List.countP_cons_of_pos (by simp [Op.aims, Op.target])] at tokens
        rw [(FutureController.beginSettle_same o).2.2.2.2.2]
        omega
      · intro t differ
        have tokens := holds.tokens t
        rwa [List.countP_cons_of_neg (by simp [Op.aims, Op.target, Ne.symm differ])] at tokens
    tasks := by
      intro i
      have tasks := holds.tasks i
      rwa [List.countP_cons_of_neg (by simp [Op.applies])] at tasks }

end Controller

section Calls

/-- A continuation never ends in the continuation of a combinator. -/
theorem Op.Continues.applies_eq {returns : ι → Prop} {op : Op ι ν χ} (continues : op.Continues returns) (i : ι) :
    op.applies i = false := by
  cases continues with
  | settle c o => rfl
  | adopt returned i' => rfl
  | restore returned i' kept => rfl

theorem register_applies (c : Ctrl ι) (cont : Cont ν χ c) (o : Outcome (Val ν c) χ) (i : ι) :
    [Op.register c cont].countP (Op.applies i) = (g.exec c cont o).2.countP fun x => x.1 = i := by
  cases c with
  | outer j =>
      cases cont with
      | apply i' combinator => simp [Op.applies, exec]
      | adopt i' => rfl
      | restore i' kept => cases o <;> rfl
  | inner j =>
      cases o with
      | value returned => cases returned <;> rfl
      | exception e => rfl

/-- A continuation runs: its work is replaced by what it ends in. -/
theorem Holds.call {cont : Cont ν χ c} (holds : g.Holds s (.register c cont :: W))
    (inside : (g.exec c cont (g.result c)).1.ctrl.index ∈ s.created) :
    g.Holds { s with applied := s.applied ++ (g.exec c cont (g.result c)).2 }
      ((g.exec c cont (g.result c)).1 :: W) := by
  have right : g.Right c cont := holds.right _ List.mem_cons_self
  obtain ⟨rightOp, aim⟩ := exec_serves right
  exact { holds with
    right := by
      intro op member
      rcases List.mem_cons.mp member with rfl | old
      · exact rightOp
      · exact holds.right op (List.mem_cons_of_mem _ old)
    located := by
      intro op member
      rcases List.mem_cons.mp member with rfl | old
      · exact inside
      · exact holds.located op (List.mem_cons_of_mem _ old)
    tokens := by
      intro t
      have tokens := holds.tokens t
      rw [List.countP_cons] at tokens ⊢
      simp only [Op.aims, aim] at tokens ⊢
      exact tokens
    tasks := by
      intro i
      have tasks := holds.tasks i
      have same := register_applies (g := g) c cont (g.result c) i
      rw [← List.singleton_append, List.countP_append, same] at tasks
      rw [List.countP_cons_of_neg (by simp [(exec_continues right).applies_eq]), List.countP_append]
      change _ = g.dueTask s i
      omega
    answered := by
      intro x member src combinator shape
      rcases List.mem_append.mp member with old | new
      · exact holds.answered x old shape
      · exact exec_answers right new shape }

end Calls

end Invariant

section Steps

variable [DecidableEq ι]

/-- The invariant of a state. -/
def Consistent (g : FutureGraph ι ν χ) (s : State ι ν χ) : Prop := g.Holds s (work s)

/-- A controller changes, and what waits on it grows by `more`. -/
theorem work_update (distinct : s.created.Nodup) (inside : c.index ∈ s.created)
    {controller : FutureController (Cont ν χ c) (Val ν c) χ} {more : List (Cont ν χ c)}
    (grown : controller.uncalled = (s.controllers c).uncalled ++ more) (next : List (Op ι ν χ)) :
    (next ++ (more.map (Op.register c) ++ work s)).Perm (work (s.update c controller next)) := by
  obtain ⟨rest, before, after⟩ := waiting_split distinct inside
  have moved : (next ++ (more.map (Op.register c) ++ (s.ops ++ (waiting s c ++ rest)))).Perm
      (s.ops ++ (next ++ (waiting s c ++ (more.map (Op.register c) ++ rest)))) :=
    ((List.perm_append_comm_assoc _ _ _).append_left _).trans
      ((List.perm_append_comm_assoc _ _ _).trans
        (((List.perm_append_comm_assoc _ _ _).append_left _).append_left _))
  have ended := after controller next
  rw [grown, List.map_append, List.append_assoc] at ended
  refine (((before.append_left _).append_left _).append_left _).trans (moved.trans ?_)
  rw [← List.append_assoc s.ops]
  exact ended.symm.append_left _

theorem perform_consistent {op : Op ι ν χ} (holds : g.Holds s (op :: work s))
    (performed : perform s op = some s') : Consistent g s' := by
  have inside : op.ctrl.index ∈ s.created := holds.located op List.mem_cons_self
  cases op with
  | settle c o =>
      simp only [perform] at performed
      split at performed
      · cases performed
      · cases performed
        have settled := holds.settle [.endSettle c]
        have grown : ((s.controllers c).beginSettle o).uncalled = (s.controllers c).uncalled ++ [] := by
          rw [List.append_nil]
          obtain ⟨-, calls, registered, -⟩ := FutureController.beginSettle_same (c := s.controllers c) o
          exact FutureController.uncalled_congr registered (congrArg _ calls)
        exact (settled.add_end (.endSettle c) trivial inside).perm
          (work_update holds.distinct inside grown [.endSettle c])
  | endSettle c =>
      cases performed
      have ended := (holds.drop_end trivial).reset (s.controllers c).endSettle inside
        (holds.controllers c).endSettle rfl (fun side => by cases side <;> rfl) []
      have grown : (s.controllers c).endSettle.uncalled = (s.controllers c).uncalled ++ [] := by
        rw [List.append_nil]
        exact FutureController.uncalled_congr rfl rfl
      exact ended.perm (work_update holds.distinct inside grown [])
  | register c cont =>
      simp only [perform] at performed
      split at performed
      · cases performed
      · rename_i free
        cases performed
        have unlocked : (s.controllers c).registering = none := by simpa using free
        have begun := holds.reset ((s.controllers c).setOnSuccess cont) inside
          ((holds.controllers c).setOnSuccess unlocked cont) rfl (fun side => by cases side <;> rfl)
          [.endRegister c]
        have grown := (holds.controllers c).uncalled_setOnSuccess cont
        exact (begun.add_end (.endRegister c) trivial inside).perm
          (work_update holds.distinct inside grown [.endRegister c])
  | endRegister c =>
      obtain ⟨pair, underWay, rfl⟩ := Option.map_eq_some_iff.mp performed
      have ended := (holds.drop_end trivial).reset ((s.controllers c).setOnFail pair) inside
        ((holds.controllers c).setOnFail underWay) rfl (fun side => by cases side <;> rfl) []
      have grown : ((s.controllers c).setOnFail pair).uncalled = (s.controllers c).uncalled ++ [] := by
        rw [List.append_nil]
        exact FutureController.uncalled_congr rfl rfl
      exact ended.perm (work_update holds.distinct inside grown [])

/-- A continuation that waited is taken to be run. -/
theorem work_call (distinct : s.created.Nodup) (inside : c.index ∈ s.created) {cont : Cont ν χ c}
    {controller : FutureController (Cont ν χ c) (Val ν c) χ}
    (taken : (cont :: controller.uncalled).Perm (s.controllers c).uncalled) :
    (work s).Perm (.register c cont :: work (s.update c controller [])) := by
  obtain ⟨rest, before, after⟩ := waiting_split distinct inside
  have left := taken.map (Op.register c)
  rw [List.map_cons] at left
  refine (before.append_left _).trans (((left.symm.append_right _).append_left _).trans ?_)
  refine List.perm_middle.trans (List.Perm.cons _ ?_)
  rw [work, State.update, List.append_nil]
  exact (after controller []).symm.append_left _

/-- A thread that goes on with an operation adds it to the work. -/
theorem work_spawn (controller : FutureController (Cont ν χ c) (Val ν c) χ) (op : Op ι ν χ) :
    (op :: work (s.update c controller [])).Perm (work (s.update c controller [op])) := by
  rw [work, work, State.update, State.update, List.append_nil, List.append_assoc]
  exact List.perm_middle.symm

/-- Only the controllers of futures that were created have tasks. -/
theorem created_of_pool (good : Consistent g s) {task : FutureController.Task}
    (member : task ∈ (s.controllers c).pool) : c.index ∈ s.created := by
  by_contra outside
  rw [good.fresh c outside] at member
  cases member

/-- What a task of the pool does to the graph: it changes its controller, and if it calls a continuation then
    with the sequential outcome of the controller. -/
inductive Runs (g : FutureGraph ι ν χ) (s : State ι ν χ) (c : Ctrl ι) :
    FutureController.Task → State ι ν χ → Prop where
  | quiet {task : FutureController.Task} {controller : FutureController (Cont ν χ c) (Val ν c) χ}
      (taken : (s.controllers c).runTask task = some controller) (silent : task.calling = []) :
      Runs g s c task (s.update c controller [])
  | called {side : FutureController.Side} {pair : Nat} {controller : FutureController (Cont ν χ c) (Val ν c) χ}
      {cont : Cont ν χ c} (taken : (s.controllers c).runTask (.call side pair) = some controller)
      (found : (s.controllers c).registered[pair]? = some cont)
      (created : (g.exec c cont (g.result c)).1.ctrl.index ∈ s.created) :
      Runs g s c (.call side pair) { s.update c controller [(g.exec c cont (g.result c)).1] with
        applied := s.applied ++ (g.exec c cont (g.result c)).2 }

theorem runTask_runs (good : Consistent g s) {task : FutureController.Task}
    (stepped : g.runTask s c task = some s') : Runs g s c task s' := by
  unfold runTask at stepped
  split at stepped
  · cases stepped
  · rename_i controller taken
    cases task with
    | process side =>
        cases stepped
        exact .quiet taken rfl
    | post side temp =>
        cases stepped
        exact .quiet taken rfl
    | call side pair =>
        obtain ⟨-, -, ran⟩ := FutureController.runTask_eq_some taken
        obtain ⟨value, exception, registered, -⟩ := ran.same
        have here : (s.update c controller []).controllers c = controller := Function.update_self _ _ _
        have same := outcomeAt_congr value exception side
        simp only [invoke] at stepped
        split at stepped
        · rename_i cont outcome found there
          rw [here, registered] at found
          rw [here, same] at there
          obtain rfl := good.outcome c side outcome there
          split at stepped
          · rename_i created
            have called := Runs.called (g := g) taken found (of_decide_eq_true created)
            simp only [State.update, List.append_nil, Option.some.injEq] at stepped called
            exact stepped ▸ called
          · cases stepped
        · cases stepped

theorem runTask_consistent (good : Consistent g s) {task : FutureController.Task}
    (stepped : g.runTask s c task = some s') : Consistent g s' := by
  have changed : ∀ {controller : FutureController (Cont ν χ c) (Val ν c) χ} (next : List (Op ι ν χ)),
      (s.controllers c).runTask task = some controller →
        c.index ∈ s.created ∧ g.Holds (s.update c controller next) (work s) := by
    intro controller next taken
    obtain ⟨member, unblocked, ran⟩ := FutureController.runTask_eq_some taken
    obtain ⟨value, exception, -, -, -, settlements⟩ := ran.same
    have inside := created_of_pool good member
    refine ⟨inside, ?_⟩
    exact good.reset controller inside ((good.controllers c).ran member unblocked ran) settlements
      (outcomeAt_congr value exception) next
  cases runTask_runs good stepped with
  | @quiet _ controller taken silent =>
      obtain ⟨inside, moved⟩ := changed [] taken
      obtain ⟨-, -, ran⟩ := FutureController.runTask_eq_some taken
      obtain ⟨-, -, registered, -⟩ := ran.same
      have pairs := ran.pairs_eq
      rw [silent, List.append_nil] at pairs
      have grown : controller.uncalled = (s.controllers c).uncalled ++ [] := by
        rw [List.append_nil]
        exact FutureController.uncalled_congr registered pairs
      exact moved.perm (work_update good.distinct inside grown [])
  | @called side pair controller cont taken found created =>
      obtain ⟨inside, moved⟩ := changed [] taken
      obtain ⟨member, -, ran⟩ := FutureController.runTask_eq_some taken
      obtain ⟨-, -, registered, -⟩ := ran.same
      have fresh := ((good.controllers c).call_ready member).2.1
      have split := work_call good.distinct inside
        (FutureController.uncalled_call found fresh registered ran.pairs_eq)
      have called := (moved.perm split).call created
      exact (called.retask (s.ops ++ [(g.exec c cont (g.result c)).1])).perm (work_spawn controller _)

section Create

variable {i : ι}

theorem due_create_of_ne {t : Ctrl ι} (other : t.index ≠ i) (ops : List (Op ι ν χ)) :
    g.due { s with created := i :: s.created, ops := ops } t = g.due s t := by
  cases t with
  | outer j => simp only [due, List.mem_cons, or_iff_right (show ¬ j = i from other)]
  | inner j => simp only [due, List.mem_cons, or_iff_right (show ¬ j = i from other)]

theorem due_of_unknown {t : Ctrl ι} (unknown : t.index ∉ s.created) : g.due s t = 0 := by
  cases t with
  | outer j => exact if_neg unknown
  | inner j => exact if_neg unknown

theorem dueTask_create_of_ne {j : ι} (other : j ≠ i) (ops : List (Op ι ν χ)) :
    g.dueTask { s with created := i :: s.created, ops := ops } j = g.dueTask s j := by
  simp only [dueTask, List.mem_cons, or_iff_right other]

theorem dueTask_of_unknown (unknown : i ∉ s.created) : g.dueTask s i = 0 := if_neg unknown

/-- What a new future adds to the work, counted by what it is to settle and to run. -/
structure Starts (g : FutureGraph ι ν χ) (s : State ι ν χ) (i : ι) (new : List (Op ι ν χ)) : Prop where
  right : ∀ op ∈ new, g.RightOp op
  located : ∀ op ∈ new, op.ctrl.index ∈ i :: s.created
  tokens : ∀ t, new.countP (Op.aims t) = if t.index = i then g.due { s with created := i :: s.created } t else 0
  tasks : ∀ j, new.countP (Op.applies j) = if j = i then g.dueTask { s with created := i :: s.created } j else 0

theorem create_consistent (good : Consistent g s) (unknown : i ∉ s.created) {new : List (Op ι ν χ)}
    (starts : Starts g s i new) :
    Consistent g { s with created := i :: s.created, ops := s.ops ++ new } := by
  have pristine : ∀ t : Ctrl ι, t.index = i → s.controllers t = {} :=
    fun t same => good.fresh t (same ▸ unknown)
  have added : g.Holds { s with created := i :: s.created, ops := s.ops ++ new } (new ++ work s) := {
    controllers := good.controllers
    distinct := List.nodup_cons.mpr ⟨unknown, good.distinct⟩
    fresh := fun t outside => good.fresh t fun inside => outside (List.mem_cons_of_mem _ inside)
    given := fun j given => List.mem_cons_of_mem _ (good.given j given)
    outcome := good.outcome
    right := by
      intro op member
      rcases List.mem_append.mp member with fresh | old
      · exact starts.right op fresh
      · exact good.right op old
    located := by
      intro op member
      rcases List.mem_append.mp member with fresh | old
      · exact starts.located op fresh
      · exact List.mem_cons_of_mem _ (good.located op old)
    tokens := by
      intro t
      have before := good.tokens t
      rw [List.countP_append, starts.tokens t]
      by_cases same : t.index = i
      · rw [due_of_unknown (same ▸ unknown)] at before
        rw [if_pos same]
        change g.due { s with created := i :: s.created } t + _ + (s.controllers t).settlements =
          g.due { s with created := i :: s.created } t
        omega
      · rw [if_neg same, due_create_of_ne same, Nat.zero_add]
        exact before
    tasks := by
      intro j
      have before := good.tasks j
      rw [List.countP_append, starts.tasks j]
      by_cases same : j = i
      · rw [dueTask_of_unknown (same ▸ unknown)] at before
        rw [if_pos same]
        change g.dueTask { s with created := i :: s.created } j + _ + s.applied.countP (fun x => x.1 = j) =
          g.dueTask { s with created := i :: s.created } j
        omega
      · rw [if_neg same, dueTask_create_of_ne same, Nat.zero_add]
        exact before
    answered := good.answered }
  have nothing : ∀ t : Ctrl ι, t.index = i → waiting s t = [] := by
    intro t same
    rw [waiting, pristine t same]
    rfl
  apply added.perm
  change (new ++ (s.ops ++ (ctrls s).flatMap (waiting s))).Perm
    (s.ops ++ new ++ (waiting s (.outer i) ++ (waiting s (.inner i) ++ (ctrls s).flatMap (waiting s))))
  rw [nothing (.outer i) rfl, nothing (.inner i) rfl, List.nil_append, List.nil_append, List.append_assoc]
  exact List.perm_append_comm_assoc _ _ _

theorem starts_source (good : Consistent g s) (unknown : i ∉ s.created) {o : Outcome ν χ}
    (shape : g.node i = .source o) : Starts g s i [] where
  right := fun _ member => absurd member List.not_mem_nil
  located := fun _ member => absurd member List.not_mem_nil
  tokens := by
    have ungiven : i ∉ s.given := fun given => unknown (good.given i given)
    intro t
    split
    · rename_i same
      cases t with
      | outer j =>
          obtain rfl : j = i := same
          simp [due, shape, ungiven]
      | inner j =>
          obtain rfl : j = i := same
          simp [due, shape]
    · rfl
  tasks := by
    intro j
    split
    · rename_i same
      subst same
      simp [dueTask, shape]
    · rfl

/-- A combinator has one piece of work for its future and, if it has an inner controller, one for that. -/
theorem attach_aims (src : ι) (combinator : Combinator ι ν χ) (t : Ctrl ι) :
    (attach i src combinator).countP (Op.aims t) =
      match t with
      | .outer j => if j = i then 1 else 0
      | .inner j => if j = i ∧ combinator.isFlattened then 1 else 0 := by
  cases flattened : combinator.isFlattened with
  | false => cases t <;> simp [attach, flattened, Op.aims, Op.target, target, List.countP_cons, eq_comm]
  | true => cases t <;> simp [attach, flattened, Op.aims, Op.target, target, List.countP_cons, eq_comm]

theorem attach_applies (src : ι) (combinator : Combinator ι ν χ) (j : ι) :
    (attach i src combinator).countP (Op.applies j) = if j = i then 1 else 0 := by
  cases flattened : combinator.isFlattened with
  | false => simp [attach, flattened, Op.applies, List.countP_cons, eq_comm]
  | true => simp [attach, flattened, Op.applies, List.countP_cons, eq_comm]

theorem starts_derived {src : ι} {combinator : Combinator ι ν χ} (known : src ∈ s.created)
    (shape : g.node i = .derived src combinator) : Starts g s i (attach i src combinator) where
  right := by
    intro op member
    rcases List.mem_cons.mp member with rfl | second
    · exact shape
    · cases combinator with
      | thenFuture task =>
          rw [List.mem_singleton.mp second]
          exact ⟨src, task, shape⟩
      | _ => cases second
  located := by
    intro op member
    rcases List.mem_cons.mp member with rfl | second
    · exact List.mem_cons_of_mem _ known
    · cases combinator with
      | thenFuture task =>
          rw [List.mem_singleton.mp second]
          exact List.mem_cons_self
      | _ => cases second
  tokens := by
    intro t
    rw [attach_aims]
    cases t with
    | outer j => by_cases same : j = i <;> simp [Ctrl.index, same, due, shape]
    | inner j => by_cases same : j = i <;> simp [Ctrl.index, same, due, shape]
  tasks := by
    intro j
    rw [attach_applies]
    by_cases same : j = i <;> simp [same, dueTask, shape]

end Create

theorem due_give_of_ne {i : ι} {t : Ctrl ι} (other : t ≠ .outer i) (ops : List (Op ι ν χ)) :
    g.due { s with given := i :: s.given, ops := ops } t = g.due s t := by
  cases t with
  | outer j =>
      have differ : ¬ j = i := fun same => other (same ▸ rfl)
      simp only [due, List.mem_cons, or_iff_right differ]
  | inner j => rfl

theorem giveSource_consistent (good : Consistent g s) {i : ι} (stepped : g.giveSource s i = some s') :
    Consistent g s' := by
  unfold giveSource at stepped
  split at stepped
  · rename_i o shape
    split at stepped
    · rename_i conditions
      obtain ⟨created, ungiven⟩ := conditions
      cases stepped
      have added : g.Holds { s with given := i :: s.given, ops := s.ops ++ [.settle (.outer i) o] }
          (.settle (.outer i) o :: work s) := { good with
        given := by
          intro j given
          rcases List.mem_cons.mp given with rfl | old
          · exact created
          · exact good.given j old
        right := by
          intro op member
          rcases List.mem_cons.mp member with rfl | old
          · exact (sem_source shape).symm
          · exact good.right op old
        located := by
          intro op member
          rcases List.mem_cons.mp member with rfl | old
          · exact created
          · exact good.located op old
        tokens := by
          intro t
          have before := good.tokens t
          by_cases same : t = .outer i
          · subst same
            have none : g.due s (.outer i) = 0 := by simp [due, created, shape, ungiven]
            have one : g.due { s with given := i :: s.given, ops := s.ops ++ [.settle (.outer i) o] }
                (.outer i) = 1 := by simp [due, created, shape]
            rw [List.countP_cons_of_pos (by simp [Op.aims, Op.target]), one]
            rw [none] at before
            change _ + 1 + (s.controllers (.outer i)).settlements = 1
            omega
          · rw [List.countP_cons_of_neg (by simp [Op.aims, Op.target, Ne.symm same]), due_give_of_ne same]
            exact before
        tasks := by
          intro j
          rw [List.countP_cons_of_neg (by simp [Op.applies])]
          exact good.tasks j }
      apply added.perm
      change (.settle (.outer i) o :: (s.ops ++ (ctrls s).flatMap (waiting s))).Perm
        (s.ops ++ [.settle (.outer i) o] ++ (ctrls s).flatMap (waiting s))
      rw [List.append_assoc]
      exact List.perm_middle.symm
    · cases stepped
  · cases stepped

/-- A thread takes the next step of its operation. -/
theorem advance_eq_some {n : Nat} (stepped : g.step s (.advance n) = some s') :
    ∃ op, s.ops.Perm (op :: s.ops.eraseIdx n) ∧ perform { s with ops := s.ops.eraseIdx n } op = some s' := by
  simp only [step] at stepped
  split at stepped
  · cases stepped
  · rename_i op found
    exact ⟨op, Lib.Table.eraseIdx_perm found, stepped⟩

theorem step_consistent (good : Consistent g s) {e : Event ι} (stepped : g.step s e = some s') :
    Consistent g s' := by
  cases e with
  | create i =>
      simp only [step, create] at stepped
      split at stepped
      · cases stepped
      · rename_i unknown
        split at stepped
        · rename_i o shape
          cases stepped
          have started := create_consistent good unknown (starts_source good unknown shape)
          rwa [List.append_nil] at started
        · rename_i src combinator shape
          split at stepped
          · rename_i known
            cases stepped
            exact create_consistent good unknown (starts_derived known shape)
          · cases stepped
  | giveSource i => exact giveSource_consistent good stepped
  | advance n =>
      obtain ⟨op, taken, performed⟩ := advance_eq_some stepped
      have split : (work s).Perm (op :: work { s with ops := s.ops.eraseIdx n }) := taken.append_right _
      exact perform_consistent ((good.perm split).retask _) performed
  | run c task => exact runTask_consistent good stepped

theorem start_consistent : Consistent g ({} : State ι ν χ) where
  controllers := fun _ => FutureController.consistent_start
  distinct := List.nodup_nil
  fresh := fun _ _ => rfl
  given := fun _ member => absurd member List.not_mem_nil
  outcome := by
    intro c side o there
    cases side <;> cases there
  right := fun _ member => absurd member List.not_mem_nil
  located := fun _ member => absurd member List.not_mem_nil
  tokens := by
    intro t
    cases t <;> rfl
  tasks := fun _ => rfl
  answered := fun _ member => absurd member List.not_mem_nil

theorem run_consistent {es : List (Event ι)} (ran : g.machine.run {} es = some s) : Consistent g s :=
  Lib.Machine.run_invariant (P := Consistent g) (fun good stepped => step_consistent good stepped)
    start_consistent ran

end Steps

section Idle

variable [DecidableEq ι]

/-- Work that aims at a controller, with nothing left to run, waits on a controller that was created. -/
theorem waits_of_token (good : Consistent g s) (idle : s.Idle) {t : Ctrl ι} (due : g.due s t = 1)
    (unsettled : (s.controllers t).settlements = 0) :
    ∃ c : Ctrl ι, ∃ cont : Cont ν χ c, c.index ∈ s.created ∧ g.Right c cont ∧ target c cont = t ∧
      (s.controllers c).uncalled ≠ [] := by
  have tokens := good.tokens t
  rw [due, unsettled] at tokens
  have some_ : 0 < (work s).countP (Op.aims t) := by omega
  obtain ⟨op, member, aims⟩ := List.countP_pos_iff.mp some_
  have right := good.right op member
  rw [work, idle.1, List.nil_append] at member
  obtain ⟨c, known, waits⟩ := List.mem_flatMap.mp member
  obtain ⟨cont, listed, rfl⟩ := List.mem_map.mp waits
  refine ⟨c, cont, mem_ctrls.mp known, right, Option.some.inj (of_decide_eq_true aims), ?_⟩
  exact List.ne_nil_of_mem listed

/-- With nothing left to run, nothing waits on a controller that is settled. -/
theorem uncalled_of_settled (good : Consistent g s) (idle : s.Idle)
    (settled : (s.controllers c).settlements = 1) : (s.controllers c).uncalled = [] := by
  have once := (good.controllers c).settledOnce
  apply (good.controllers c).uncalled_idle _ (idle.2 c)
  by_contra unsettled
  rw [settled, if_neg unsettled] at once
  cases once

theorem settlements_of_due (good : Consistent g s) {t : Ctrl ι} (due : g.due s t = 1)
    (some_ : (s.controllers t).settlements ≠ 0) : (s.controllers t).settlements = 1 := by
  have tokens := good.tokens t
  omega

omit [DecidableEq ι] in
/-- What waits on the controller of a future is for a future of higher rank. -/
theorem Right.lower {j : ι} {cont : OuterCont ι ν χ} (right : g.Right (.outer j) cont) :
    g.rank j < g.rank (target (.outer j) cont).index := by
  cases cont with
  | apply i combinator =>
      rw [target_apply_index]
      exact g.src_lt right
  | adopt i => exact right.1
  | restore i kept => exact right.1

/-- Every future is settled, by induction on its rank. -/
theorem settled_of_idle (good : Consistent g s) (idle : s.Idle)
    (all : ∀ i ∈ s.created, ∀ o, g.node i = .source o → i ∈ s.given) {i : ι} (created : i ∈ s.created) :
    (s.controllers (.outer i)).settlements = 1 := by
  induction rank : g.rank i using Nat.strongRecOn generalizing i with
  | ind n ih =>
      -- nothing that is for `i` waits on the controller of another future: that one is settled
      have passed : ∀ {j : ι} {cont : OuterCont ι ν χ}, j ∈ s.created → g.Right (.outer j) cont →
          (target (.outer j) cont).index = i → (s.controllers (.outer j)).uncalled = [] := by
        intro j cont known right aim
        have lower := right.lower
        rw [aim, rank] at lower
        exact uncalled_of_settled good idle (ih _ lower known rfl)
      have due : g.due s (.outer i) = 1 := by
        cases shape : g.node i with
        | source o => simp [FutureGraph.due, created, shape, all i created o shape]
        | derived src combinator => simp [FutureGraph.due, created, shape]
      apply settlements_of_due good due
      intro unsettled
      obtain ⟨c, cont, known, right, aim, waits⟩ := waits_of_token good idle due unsettled
      cases c with
      | outer j => exact waits (passed known right (congrArg Ctrl.index aim))
      | inner j =>
          obtain rfl : j = i := Ctrl.outer.inj aim
          obtain ⟨src, task, shape⟩ := right
          have due' : g.due s (.inner j) = 1 := by simp [FutureGraph.due, created, shape, Combinator.isFlattened]
          apply waits
          apply uncalled_of_settled good idle
          apply settlements_of_due good due'
          intro unsettled'
          obtain ⟨c', cont', known', right', aim', waits'⟩ := waits_of_token good idle due' unsettled'
          cases c' with
          | outer k => exact waits' (passed known' right' (congrArg Ctrl.index aim'))
          | inner k => cases aim'

theorem outcomeOf_settled {κ α : Type u} {controller : FutureController κ α χ}
    (consistent : controller.Consistent) (settled : controller.settlements = 1) {o : Outcome α χ}
    (right : ∀ side o', outcomeAt controller side = some o' → o' = o) : outcomeOf controller = some o := by
  have once := consistent.settledOnce
  have there : controller.isSettled = true := by
    by_contra unsettled
    rw [settled, if_neg unsettled] at once
    cases once
  obtain ⟨side, holds⟩ := FutureController.isSettled_iff.mp there
  have other := consistent.oneOutcome side holds
  cases side with
  | success =>
      obtain ⟨v, value⟩ := Option.isSome_iff_exists.mp holds
      have absent : controller.exception = none := by
        simpa [FutureController.holds, FutureController.Side.other] using other
      rw [← right .success (.value v) (by rw [outcomeAt, value]; rfl), outcomeOf, value, absent]
  | fail =>
      obtain ⟨e, exception⟩ := Option.isSome_iff_exists.mp holds
      have absent : controller.value = none := by
        simpa [FutureController.holds, FutureController.Side.other] using other
      rw [← right .fail (.exception e) (by rw [outcomeAt, exception]; rfl), outcomeOf, exception, absent]

theorem work_of_idle (good : Consistent g s) (idle : s.Idle)
    (all : ∀ i ∈ s.created, ∀ o, g.node i = .source o → i ∈ s.given) (i : ι) :
    (work s).countP (Op.applies i) = 0 := by
  rw [List.countP_eq_zero]
  intro op member
  have right := good.right op member
  rw [work, idle.1, List.nil_append] at member
  obtain ⟨c, known, waits⟩ := List.mem_flatMap.mp member
  obtain ⟨cont, listed, rfl⟩ := List.mem_map.mp waits
  cases c with
  | outer j =>
      have created : j ∈ s.created := mem_ctrls.mp known
      rw [uncalled_of_settled good idle (settled_of_idle good idle all created)] at listed
      cases listed
  | inner j => simp [Op.applies]

/-- How often the callback of the combinator of `i` was called. -/
def State.callbacks (s : State ι ν χ) (i : ι) : Nat := s.applied.countP fun x => x.1 = i && x.2

theorem callbacks_eq {i : ι} {invoked : Bool}
    (answered : ∀ x ∈ s.applied, x.1 = i → x.2 = invoked) :
    s.callbacks i = if invoked then s.applied.countP (fun x => x.1 = i) else 0 := by
  cases invoked with
  | false =>
      apply List.countP_eq_zero.mpr
      intro x member both
      simp only [Bool.and_eq_true, decide_eq_true_eq] at both
      rw [answered x member both.1] at both
      cases both.2
  | true =>
      apply List.countP_congr
      intro x member
      simp only [Bool.and_eq_true, decide_eq_true_eq]
      exact and_iff_left_of_imp (answered x member)

/-- When every source was given its outcome and nothing is left to run, every future is settled, exactly once,
    with its sequential outcome, and its callback was called exactly once if the sequential meaning calls it
    and not at all otherwise. -/
theorem graph_settles {g : FutureGraph ι ν χ} {es : List (Event ι)} {s : State ι ν χ}
    (ran : g.machine.run {} es = some s) (idle : s.Idle)
    (all : ∀ i ∈ s.created, ∀ o, g.node i = .source o → i ∈ s.given) :
    ∀ i ∈ s.created,
      (s.controllers (.outer i)).settlements = 1 ∧ outcomeOf (s.controllers (.outer i)) = some (g.sem i) ∧
      ∀ src combinator, g.node i = .derived src combinator →
        s.callbacks i = if combinator.invokes (g.sem src) then 1 else 0 := by
  intro i created
  have good := run_consistent ran
  have settled := settled_of_idle good idle all created
  refine ⟨settled, outcomeOf_settled (good.controllers _) settled (good.outcome (.outer i)), ?_⟩
  intro src combinator shape
  have one : s.applied.countP (fun x => x.1 = i) = 1 := by
    have tasks := good.tasks i
    rw [work_of_idle good idle all i, Nat.zero_add] at tasks
    rw [tasks]
    simp [dueTask, created, shape]
  rw [← one]
  exact callbacks_eq fun x member same => good.answered x member (same ▸ shape)

end Idle

/-- A value, a failure, and a `then` on the value whose callback returns the failed future. -/
def adoptingGraph : FutureGraph (Fin 3) Nat String where
  node
    | 0 => .source (.value 5)
    | 1 => .source (.exception "failed")
    | 2 => .derived 0 (.thenFuture fun _ => .future 1)
  isVoid _ := false
  unit := 0
  invalidFuture := "returned future is invalid"
  rank i := i.val
  src_lt := by
    intro i src combinator shape
    split at shape
    · cases shape
    · cases shape
    · cases shape
      decide
  returned_lt := by
    intro i src combinator j shape returned
    split at shape
    · cases shape
    · cases shape
    · cases shape
      obtain ⟨v, same⟩ := returned
      cases same
      decide
  typed_source := by
    intro i v shape void
    cases void
  typed := by
    intro i src combinator shape
    split at shape
    · cases shape
    · cases shape
    · cases shape
      intro v j _
      rfl

/-- The `then` is attached before its source has a value, and its callback returns a future that has already
    failed. -/
def adoptingRun : List (Event (Fin 3)) :=
  [.create 0, .create 1, .create 2, .giveSource 0, .giveSource 1,
    -- what the two settlements and the registration post
    .advance 0, .advance 0, .advance 0, .advance 0, .advance 0, .advance 0, .advance 0, .advance 0,
    -- the source drains its queues and calls the callback
    .run (.outer 0) (.process .success), .run (.outer 0) (.process .success),
    .run (.outer 0) (.process .fail), .run (.outer 0) (.process .fail),
    .run (.outer 0) (.post .success [0]), .run (.outer 0) (.post .success []),
    .run (.outer 0) (.call .success 0), .advance 0, .advance 0, .run (.outer 0) (.post .success []),
    .run (.outer 1) (.process .success), .run (.outer 1) (.process .fail), .run (.outer 1) (.post .fail []),
    -- the inner future holds the returned one, and follows it
    .run (.inner 2) (.process .success), .run (.inner 2) (.process .fail),
    .run (.inner 2) (.process .success), .run (.inner 2) (.process .fail),
    .run (.inner 2) (.post .success [0]), .run (.inner 2) (.post .success []),
    .run (.inner 2) (.call .success 0), .advance 0, .advance 0,
    .run (.outer 1) (.process .success), .run (.outer 1) (.process .fail), .run (.outer 1) (.post .fail [0]),
    .run (.outer 1) (.call .fail 0), .advance 0, .advance 0, .run (.outer 1) (.post .fail []),
    .run (.outer 2) (.process .success), .run (.outer 2) (.process .fail), .run (.outer 2) (.post .fail []),
    .run (.inner 2) (.post .success [])]

theorem graph_settles_adopting :
    ∃ s, adoptingGraph.machine.run {} adoptingRun = some s ∧ s.Idle ∧ 2 ∈ s.created ∧
      outcomeOf (s.controllers (.outer 2)) = some (.exception "failed") ∧ s.callbacks 2 = 1 := by
  have reached : ∃ s, adoptingGraph.machine.run {} adoptingRun = some s ∧ s.ops = [] ∧
      (∀ i, (s.controllers (.outer i)).pool = [] ∧ (s.controllers (.inner i)).pool = []) ∧
      s.created = [2, 1, 0] ∧ s.given = [1, 0] := by
    refine ⟨_, rfl, rfl, fun i => ?_, rfl, rfl⟩
    match i with
    | 0 => exact ⟨rfl, rfl⟩
    | 1 => exact ⟨rfl, rfl⟩
    | 2 => exact ⟨rfl, rfl⟩
  obtain ⟨s, ran, ops, pools, created, given⟩ := reached
  have idle : s.Idle := by
    refine ⟨ops, fun c => ?_⟩
    cases c with
    | outer i => exact (pools i).1
    | inner i => exact (pools i).2
  have all : ∀ i ∈ s.created, ∀ o, adoptingGraph.node i = .source o → i ∈ s.given := by
    rw [given]
    intro i _ o shape
    match i with
    | 0 => decide
    | 1 => decide
    | 2 => cases shape
  have member : 2 ∈ s.created := by
    rw [created]
    decide
  obtain ⟨-, outcome, calls⟩ := graph_settles ran idle all 2 member
  exact ⟨s, ran, idle, member, outcome, calls 0 _ rfl⟩

end CommonRpc.FutureGraph
