/-
Module: CommonRpc.Core.Promise
Purpose: `promise` objects and the controllers they create. Threads may run `set_value` and `set_exception` of one
  object at the same time: a call takes the flag `m_completion_pending` by an atomic exchange and settles the
  controller later, so these are steps of their own, and the settlement has the two halves of
  CommonRpc.Core.FutureController. The constructors, the destructor and the move assignment have their objects
  for themselves, by the rules of the language: nobody sees what happens between their exchange of the flag
  and the moment their outcome is stored, so that each is one step, up to the second half of the settlement.
Trusted boundary: posting to the thread pool does not throw
-/
import CommonRpc.Core.FutureController

namespace CommonRpc

universe u v w

/-- A promise object; the controllers are known by their numbers. -/
structure Promise where
  /-- `m_controller` -/
  controller : Option Nat := none
  /-- The controller of `m_future`. -/
  future : Option Nat := none
  completionPending : Bool := false
  destroyed : Bool := false
deriving DecidableEq, Repr

namespace Promise

/-- `explicit promise(ThreadPool *)` with a new controller. -/
def create (controller : Nat) : Promise :=
  { controller := some controller, future := some controller, completionPending := true }

/-- `get_future`: the future, and the promise it was moved out of. -/
def getFuture (p : Promise) : Except String (Nat × Promise) :=
  match p.future with
  | none => .error "no future"
  | some controller => .ok (controller, { p with future := none })

end Promise

namespace Promises

/-- What a controller of a promise holds if it does not hold a value. -/
inductive PromiseError (χ : Type v) where
  /-- `std::future_error(std::future_errc::broken_promise)` -/
  | brokenPromise
  | given (exception : χ)
deriving DecidableEq, Repr

/-- A call that completes a promise. -/
inductive Completion (ν : Type u) (χ : Type v) where
  /-- The argument is what the construction of the stored value gives or throws. -/
  | setValue (value : Except χ ν)
  /-- The argument may be null. -/
  | setException (exception : Option χ)

/-- How a call of `set_value` or `set_exception` ended. -/
inductive CompletionResult (χ : Type v) where
  | completed
  /-- `std::logic_error("promise is invalid")` -/
  | invalidPromise
  /-- `std::invalid_argument("exception must not be null")` -/
  | nullException
  /-- `std::future_error(std::future_errc::promise_already_satisfied)` -/
  | promiseAlreadySatisfied
  /-- The construction of the value threw. -/
  | rethrown (exception : χ)
deriving DecidableEq, Repr

/-- How far a call of `set_value` or `set_exception` has got. -/
inductive CallStage (χ : Type v) where
  | entered
  /-- The flag was set and is taken. -/
  | claimed (controller : Nat)
  /-- Inside `set_value` or `set_exception` of the controller. -/
  | settling (controller : Nat)
  | returned (result : CompletionResult χ)
deriving DecidableEq, Repr

structure Call (ν : Type u) (χ : Type v) where
  object : Nat
  completion : Completion ν χ
  stage : CallStage χ := .entered

variable {κ : Type w} {ν : Type u} {χ : Type v}

/-- What the call settles the controller with, if it gets the right to; a null exception gets none. -/
def Completion.outcome : Completion ν χ → Option (Outcome ν (PromiseError χ))
  | .setValue (.ok value) => some (.value value)
  | .setValue (.error exception) => some (.exception (.given exception))
  | .setException exception => exception.map fun exception => .exception (.given exception)

/-- How a call ends that has settled the controller. -/
def Completion.result : Completion ν χ → CompletionResult χ
  | .setValue (.error exception) => .rethrown exception
  | .setValue (.ok _) | .setException _ => .completed

def Call.isActive (call : Call ν χ) : Bool :=
  match call.stage with
  | .returned _ => false
  | .entered | .claimed _ | .settling _ => true

end Promises

/-- All promise objects, their controllers and the calls on them. -/
structure Promises (κ : Type w) (ν : Type u) (χ : Type v) where
  objects : List Promise := []
  controllers : List (FutureController κ ν (Promises.PromiseError χ)) := []
  calls : List (Promises.Call ν χ) := []
  /-- The calls that got to the exchange, in this order, each after the controller it meant. -/
  claims : List (Nat × Nat) := []
  /-- The futures that were handed out. -/
  futures : List Nat := []

namespace Promises

variable {κ : Type w} {ν : Type u} {χ : Type v}

/-- What may happen next; objects, calls and controllers are given by number. -/
inductive Event (κ : Type w) (ν : Type u) (χ : Type v) where
  | create
  /-- `promise() = default` -/
  | createEmpty
  | moveConstruct (source : Nat)
  | moveAssign (target source : Nat)
  | destroy (object : Nat)
  | getFuture (object : Nat)
  /-- A call of `set_value` or `set_exception`. -/
  | start (object : Nat) (completion : Completion ν χ)
  /-- The null check and `claim_completion`. -/
  | claim (call : Nat)
  | beginSettle (call : Nat)
  | finish (call : Nat)
  /-- The second half of a settlement, and what futures and pool threads do with a controller. -/
  | controller (index : Nat) (event : FutureController.Event κ ν (PromiseError χ))

/-- The object exists. -/
def hasObject (s : Promises κ ν χ) (object : Nat) : Bool :=
  s.objects[object]?.any fun p => !p.destroyed

/-- No call on the object is under way. -/
def isFree (s : Promises κ ν χ) (object : Nat) : Bool :=
  s.calls.all fun call => !(call.isActive && call.object = object)

/-- The object exists and a function may have it for itself. -/
def mayOwn (s : Promises κ ν χ) (object : Nat) : Bool := s.hasObject object && s.isFree object

def setObject (s : Promises κ ν χ) (object : Nat) (p : Promise) : Promises κ ν χ :=
  { s with objects := s.objects.set object p }

def setStage (s : Promises κ ν χ) (index : Nat) (call : Call ν χ) (stage : CallStage χ) : Promises κ ν χ :=
  { s with calls := s.calls.set index { call with stage := stage } }

def setController (s : Promises κ ν χ) (index : Nat) (c : FutureController κ ν (PromiseError χ)) :
    Promises κ ν χ :=
  { s with controllers := s.controllers.set index c }

/-- The part of the call after the null check. -/
def claimCompletion (s : Promises κ ν χ) (index : Nat) (call : Call ν χ) (p : Promise) : Promises κ ν χ :=
  match p.controller with
  | none => s.setStage index call (.returned .invalidPromise)
  | some controller =>
      let asked : Promises κ ν χ := { s with claims := s.claims ++ [(controller, index)] }
      if p.completionPending then
        (asked.setObject call.object { p with completionPending := false }).setStage index call
          (.claimed controller)
      else asked.setStage index call (.returned .promiseAlreadySatisfied)

def claim (s : Promises κ ν χ) (index : Nat) (call : Call ν χ) (p : Promise) : Promises κ ν χ :=
  match call.completion with
  | .setException none => s.setStage index call (.returned .nullException)
  | .setException (some _) | .setValue _ => s.claimCompletion index call p

/-- `m_controller->set_value` or `m_controller->set_exception`, up to its first post. -/
def beginSettle (s : Promises κ ν χ) (controller : Nat) (outcome : Outcome ν (PromiseError χ)) :
    Promises κ ν χ :=
  { s with controllers := s.controllers.modify controller fun c => c.beginSettle outcome }

/-- `abandon` on an object with these members, but for the change of its flag. -/
def abandon (s : Promises κ ν χ) (p : Promise) : Promises κ ν χ :=
  match p.completionPending, p.controller with
  | true, some controller => s.beginSettle controller (.exception .brokenPromise)
  | true, none | false, _ => s

/-- The members of the one object become those of the other; what is left is an empty promise. -/
def moveAssign (s : Promises κ ν χ) (target source : Nat) (p q : Promise) : Promises κ ν χ :=
  if target = source then s
  else ((s.abandon p).setObject target q).setObject source {}

/-- The events of a controller other than the first half of a settlement. -/
def isOutside : FutureController.Event κ ν (PromiseError χ) → Bool
  | .beginSettle _ => false
  | .beginRegister _ | .endRegister | .endSettle | .run _ => true

def step (s : Promises κ ν χ) : Event κ ν χ → Option (Promises κ ν χ)
  | .create =>
      some { s with
        objects := s.objects ++ [.create s.controllers.length]
        controllers := s.controllers ++ [{}] }
  | .createEmpty => some { s with objects := s.objects ++ [{}] }
  | .moveConstruct source =>
      match s.objects[source]? with
      | none => none
      | some p =>
          if s.mayOwn source then some { s with objects := s.objects.set source {} ++ [p] } else none
  | .moveAssign target source =>
      match s.objects[target]?, s.objects[source]? with
      | some p, some q =>
          if s.mayOwn target && s.mayOwn source then some (s.moveAssign target source p q) else none
      | _, _ => none
  | .destroy object =>
      match s.objects[object]? with
      | none => none
      | some p =>
          if s.mayOwn object then some ((s.abandon p).setObject object { destroyed := true }) else none
  | .getFuture object =>
      match s.objects[object]? with
      | none => none
      | some p =>
          if p.destroyed then none
          else match p.getFuture with
            | .error _ => some s
            | .ok (controller, p) => some { s.setObject object p with futures := s.futures ++ [controller] }
  | .start object completion =>
      if s.hasObject object then
        some { s with calls := s.calls ++ [{ object := object, completion := completion }] }
      else none
  | .claim index =>
      match s.calls[index]? with
      | none => none
      | some call =>
          match call.stage, s.objects[call.object]? with
          | .entered, some p => some (s.claim index call p)
          | _, _ => none
  | .beginSettle index =>
      match s.calls[index]? with
      | none => none
      | some call =>
          match call.stage, call.completion.outcome with
          | .claimed controller, some outcome =>
              some ((s.beginSettle controller outcome).setStage index call (.settling controller))
          | _, _ => none
  | .finish index =>
      match s.calls[index]? with
      | none => none
      | some call =>
          match call.stage with
          | .settling controller =>
              -- the function of the controller has returned
              if s.controllers[controller]?.any fun c => !c.settling then
                some (s.setStage index call (.returned call.completion.result))
              else none
          | _ => none
  | .controller index event =>
      match s.controllers[index]? with
      | none => none
      | some c => if isOutside event then (c.step event).map (s.setController index) else none

def machine : Lib.Machine (Promises κ ν χ) (Event κ ν χ) where
  step := step

end Promises

end CommonRpc
