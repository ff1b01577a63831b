/-
Module: CommonRpc.Core.FutureGraph
Purpose: Graphs of futures that `then`, `catched` and `finally` build over promises and ready futures. Every
  future has a controller; a `then` whose callback returns a future has a second, inner one, which holds the
  returned future until `flatten_future` adopts it. A continuation is what its lambda captured, and running it
  ends in one operation: to settle a controller, or to register a further continuation. Operations are carried
  out by the thread that runs the continuation, in the two halves in which the controller takes its mutexes.
  Callbacks are functions of their argument; the outcome of a source is part of the graph.
Trusted boundary: a controller lives until its continuations have run
-/
import CommonRpc.Core.FutureController
import Mathlib.Logic.Function.Basic

namespace CommonRpc

universe u

/-- How a callback that returns a future ends. -/
inductive Returned (ι χ : Type u) where
  | future (j : ι)
  | invalid
  | throws (exception : χ)

/-- A combinator with its callback. What the callback returns decides which code of the combinator is used. -/
inductive Combinator (ι ν χ : Type u) where
  | thenValue (task : ν → Outcome ν χ)
  | thenFuture (task : ν → Returned ι χ)
  | catchedValue (task : χ → Outcome ν χ)
  /-- The callback returns nothing, or throws. -/
  | catchedVoid (task : χ → Option χ)
  | catchedFuture (task : χ → Returned ι χ)
  | finallyVoid (task : Option χ)
  | finallyFuture (task : Returned ι χ)

inductive Node (ι ν χ : Type u) where
  /-- A promise or a ready future, with the outcome it is given. -/
  | source (outcome : Outcome ν χ)
  | derived (src : ι) (combinator : Combinator ι ν χ)

namespace Combinator

variable {ι ν χ : Type u}

/-- The callback may return the future `j`. -/
def MayReturn : Combinator ι ν χ → ι → Prop
  | .thenFuture task, j => ∃ v, task v = .future j
  | .catchedFuture task, j => ∃ e, task e = .future j
  | .finallyFuture task, j => task = .future j
  | _, _ => False

/-- The combinator has an inner controller. -/
def isFlattened : Combinator ι ν χ → Bool
  | .thenFuture _ => true
  | _ => false

/-- What the compiler checks of a combinator from `src` to `i`, where a void future holds `unit`. -/
def WellTyped (isVoid : ι → Bool) (unit : ν) (src i : ι) : Combinator ι ν χ → Prop
  | .thenValue task => isVoid i = true → ∀ v r, task v = .value r → r = unit
  | .thenFuture task => ∀ v j, task v = .future j → isVoid j = isVoid i
  | .catchedValue _ => isVoid i = false ∧ isVoid src = false
  | .catchedVoid _ => isVoid i = true
  | .catchedFuture task => isVoid i = isVoid src ∧ ∀ e j, task e = .future j → isVoid j = isVoid i
  | .finallyVoid _ => isVoid i = isVoid src
  | .finallyFuture task => isVoid i = isVoid src ∧ ∀ j, task = .future j → isVoid j = true

end Combinator

/-- An acyclic graph of futures that compiles. -/
structure FutureGraph (ι ν χ : Type u) where
  node : ι → Node ι ν χ
  /-- Whether a future stores nothing. -/
  isVoid : ι → Bool
  /-- What stands for the value of a void future. -/
  unit : ν
  /-- `std::logic_error("returned future is invalid")`. -/
  invalidFuture : χ
  rank : ι → Nat
  src_lt : ∀ {i src combinator}, node i = .derived src combinator → rank src < rank i
  returned_lt : ∀ {i src combinator j}, node i = .derived src combinator → combinator.MayReturn j →
    rank j < rank i
  typed_source : ∀ {i v}, node i = .source (.value v) → isVoid i = true → v = unit
  typed : ∀ {i src combinator}, node i = .derived src combinator → combinator.WellTyped isVoid unit src i

namespace FutureGraph

variable {ι ν χ : Type u}

/-- The controllers of the graph. -/
inductive Ctrl (ι : Type u) where
  | outer (i : ι)
  | inner (i : ι)
deriving DecidableEq

/-- The future a controller belongs to. -/
def Ctrl.index : Ctrl ι → ι
  | .outer i => i
  | .inner i => i

/-- What a controller stores: the inner one a future, which may be invalid. -/
abbrev Val (ν : Type u) : Ctrl ι → Type u
  | .outer _ => ν
  | .inner _ => Option ι

/-- The continuations that are registered on the controller of a future. -/
inductive OuterCont (ι ν χ : Type u) where
  /-- The pair that a combinator registers on its source. -/
  | apply (i : ι) (combinator : Combinator ι ν χ)
  /-- The pair that hands the outcome of a returned future on to `i`. -/
  | adopt (i : ι)
  /-- The pair of `finally` on the future its callback returned, with the outcome of the source. -/
  | restore (i : ι) (kept : Outcome ν χ)

/-- The continuations of a controller; an inner one has the pair of `flatten_future`. -/
abbrev Cont (ν χ : Type u) : Ctrl ι → Type u
  | .outer _ => OuterCont ι ν χ
  | .inner _ => PUnit

/-- What a thread has to do next. -/
inductive Op (ι ν χ : Type u) where
  | settle (c : Ctrl ι) (outcome : Outcome (Val ν c) χ)
  | endSettle (c : Ctrl ι)
  | register (c : Ctrl ι) (cont : Cont ν χ c)
  | endRegister (c : Ctrl ι)

/-- The controller an operation works on. -/
def Op.ctrl : Op ι ν χ → Ctrl ι
  | .settle c _ | .endSettle c | .register c _ | .endRegister c => c

section Continuations

variable (g : FutureGraph ι ν χ)

/-- `set_value`, `set_value_state` or, for a void future, `set_value()`. -/
def setValue (i : ι) (v : ν) : Op ι ν χ := .settle (.outer i) (.value v)

def setException (c : Ctrl ι) (e : χ) : Op ι ν χ := .settle c (.exception e)

/-- A value as the code for void and for other futures passes it on. -/
def pass (i : ι) (v : ν) : ν := if g.isVoid i then g.unit else v

def keep (i : ι) : Outcome ν χ → Outcome ν χ
  | .value v => .value (g.pass i v)
  | .exception e => .exception e

/-- `exec_then_on_success` for a callback that returns no future. -/
def execThenOnSuccess (i : ι) : Outcome ν χ → Op ι ν χ
  | .value r => setValue i (g.pass i r)
  | .exception e => setException (.outer i) e

/-- `exec_then_on_success` for a callback that returns a future: it is stored in the inner controller. -/
def execThenFuture (i : ι) : Returned ι χ → Op ι ν χ
  | .future j => .settle (.inner i) (.value (some j))
  | .invalid => .settle (.inner i) (.value none)
  | .throws e => setException (.inner i) e

/-- `get_on_success_for_catched_method`. -/
def onSuccessForCatched (src i : ι) (retVoid : Bool) (v : ν) : Op ι ν χ :=
  if g.isVoid src then setValue i g.unit
  else if retVoid then setValue i g.unit
  else setValue i v

/-- The end of the callbacks that register a pair on the future they got. -/
def follow (i : ι) (cont : OuterCont ι ν χ) : Returned ι χ → Op ι ν χ
  | .future j => .register (.outer j) cont
  | .invalid => setException (.outer i) g.invalidFuture
  | .throws e => setException (.outer i) e

/-- The pair of callbacks a combinator from `src` to `i` registers, called with the outcome of `src`; and whether
    the callback of the combinator is called. -/
def execApply (src i : ι) : Combinator ι ν χ → Outcome ν χ → Op ι ν χ × Bool
  | .thenValue task, .value v => (g.execThenOnSuccess i (task (g.pass src v)), true)
  | .thenValue _, .exception e => (setException (.outer i) e, false)
  | .thenFuture task, .value v => (execThenFuture i (task (g.pass src v)), true)
  | .thenFuture _, .exception e => (setException (.inner i) e, false)
  | .catchedValue _, .value v => (g.onSuccessForCatched src i false v, false)
  | .catchedValue task, .exception e =>
      match task e with
      | .value r => (setValue i r, true)
      | .exception e' => (setException (.outer i) e', true)
  | .catchedVoid _, .value v => (g.onSuccessForCatched src i true v, false)
  | .catchedVoid task, .exception e =>
      match task e with
      | none => (setValue i g.unit, true)
      | some e' => (setException (.outer i) e', true)
  | .catchedFuture _, .value v => (g.onSuccessForCatched src i false v, false)
  | .catchedFuture task, .exception e => (g.follow i (.adopt i) (task e), true)
  | .finallyVoid task, outcome =>
      match task with
      | none => (.settle (.outer i) (g.keep src outcome), true)
      | some e => (setException (.outer i) e, true)
  | .finallyFuture task, outcome => (g.follow i (.restore i (g.keep src outcome)) task, true)

/-- A continuation of a controller, called with its outcome: the operation it ends in and, for the one of a
    combinator, whether the callback was called. -/
def exec : (c : Ctrl ι) → Cont ν χ c → Outcome (Val ν c) χ → Op ι ν χ × List (ι × Bool)
  | .outer src, .apply i combinator, outcome =>
      let (op, called) := g.execApply src i combinator outcome
      (op, [(i, called)])
  | .outer j, .adopt i, outcome => (.settle (.outer i) (g.keep j outcome), [])
  | .outer _, .restore i kept, .value _ => (.settle (.outer i) kept, [])
  | .outer _, .restore i _, .exception e => (setException (.outer i) e, [])
  | .inner i, _, .value none => (setException (.outer i) g.invalidFuture, [])
  | .inner i, _, .value (some j) => (.register (.outer j) (.adopt i), [])
  | .inner i, _, .exception e => (setException (.outer i) e, [])

end Continuations

/-- The futures that were created, their controllers and what threads have to do. -/
structure State (ι ν χ : Type u) where
  created : List ι := []
  controllers : (c : Ctrl ι) → FutureController (Cont ν χ c) (Val ν c) χ := fun _ => {}
  ops : List (Op ι ν χ) := []
  /-- The sources that were given their outcome. -/
  given : List ι := []
  /-- For each combinator's continuation that ran, whether its callback was called. -/
  applied : List (ι × Bool) := []

inductive Event (ι : Type u) where
  /-- A promise, a ready future or a combinator: the future is created and its continuations are on their
      way to their controllers. -/
  | create (i : ι)
  | giveSource (i : ι)
  /-- A thread goes on with one of its operations. -/
  | advance (n : Nat)
  | run (c : Ctrl ι) (task : FutureController.Task)

section Steps

variable [DecidableEq ι] (g : FutureGraph ι ν χ)

/-- What `then`, `catched` and `finally` register. -/
def attach (i src : ι) (combinator : Combinator ι ν χ) : List (Op ι ν χ) :=
  .register (.outer src) (.apply i combinator) ::
    if combinator.isFlattened then [.register (.inner i) PUnit.unit] else []

def create (s : State ι ν χ) (i : ι) : Option (State ι ν χ) :=
  if i ∈ s.created then none
  else
    match g.node i with
    | .source _ => some { s with created := i :: s.created }
    | .derived src combinator =>
        if src ∈ s.created then
          some { s with created := i :: s.created, ops := s.ops ++ attach i src combinator }
        else none

def giveSource (s : State ι ν χ) (i : ι) : Option (State ι ν χ) :=
  match g.node i with
  | .source outcome =>
      if i ∈ s.created ∧ i ∉ s.given then
        some { s with given := i :: s.given, ops := s.ops ++ [.settle (.outer i) outcome] }
      else none
  | .derived _ _ => none

/-- A controller changes and the thread goes on with `next`. -/
def State.update (s : State ι ν χ) (c : Ctrl ι) (controller : FutureController (Cont ν χ c) (Val ν c) χ)
    (next : List (Op ι ν χ)) : State ι ν χ :=
  { s with controllers := Function.update s.controllers c controller, ops := s.ops ++ next }

/-- One half of an operation, when its mutexes are free. -/
def perform (s : State ι ν χ) : Op ι ν χ → Option (State ι ν χ)
  | .settle c outcome =>
      if (s.controllers c).settling then none
      else some (s.update c ((s.controllers c).beginSettle outcome) [.endSettle c])
  | .endSettle c => some (s.update c (s.controllers c).endSettle [])
  | .register c cont =>
      if (s.controllers c).registering.isSome then none
      else some (s.update c ((s.controllers c).setOnSuccess cont) [.endRegister c])
  | .endRegister c =>
      (s.controllers c).registering.map fun pair => s.update c ((s.controllers c).setOnFail pair) []

/-- What the callbacks of a side are called with. -/
def outcomeAt {κ α : Type u} (c : FutureController κ α χ) : FutureController.Side → Option (Outcome α χ)
  | .success => c.value.map .value
  | .fail => c.exception.map .exception

/-- The future an operation works on exists: a callback cannot return one that does not. -/
def isCreated (s : State ι ν χ) (op : Op ι ν χ) : Bool := decide (op.ctrl.index ∈ s.created)

/-- A callback of a controller is called, and its thread goes on. -/
def invoke (s : State ι ν χ) (c : Ctrl ι) (side : FutureController.Side) (pair : Nat) :
    Option (State ι ν χ) :=
  match (s.controllers c).registered[pair]?, outcomeAt (s.controllers c) side with
  | some cont, some outcome =>
      let (op, called) := g.exec c cont outcome
      if isCreated s op then some { s with ops := s.ops ++ [op], applied := s.applied ++ called } else none
  | _, _ => none

def runTask (s : State ι ν χ) (c : Ctrl ι) (task : FutureController.Task) : Option (State ι ν χ) :=
  match (s.controllers c).runTask task with
  | none => none
  | some controller =>
      match task with
      | .call side pair => g.invoke (s.update c controller []) c side pair
      | .process _ | .post _ _ => some (s.update c controller [])

def step (s : State ι ν χ) : Event ι → Option (State ι ν χ)
  | .create i => g.create s i
  | .giveSource i => g.giveSource s i
  | .advance n =>
      match s.ops[n]? with
      | none => none
      | some op => perform { s with ops := s.ops.eraseIdx n } op
  | .run c task => g.runTask s c task

def machine : Lib.Machine (State ι ν χ) (Event ι) where
  step := g.step

end Steps

/-- No task is posted and no thread is at work. -/
def State.Idle (s : State ι ν χ) : Prop := s.ops = [] ∧ ∀ c, (s.controllers c).pool = []

/-- The outcome a controller holds. -/
def outcomeOf {κ α : Type u} (c : FutureController κ α χ) : Option (Outcome α χ) :=
  match c.value, c.exception with
  | some v, none => some (.value v)
  | none, some e => some (.exception e)
  | _, _ => none

end FutureGraph

end CommonRpc
