/-
Module: CommonRpc.Core.FutureController
Purpose: `future_controller`: the outcome of a future, its two queues of callbacks and the tasks it posts to
  the thread pool. A registered pair of callbacks is named by its place among the registrations, and the
  queues and tasks hold these names. `set_on_success_and_fail` holds both queue mutexes across its two
  halves and `set_value_state` and `set_exception` hold the value or exception mutex across their two posts,
  so each is two steps here, with the drain tasks, which need those mutexes, shut out in between. A drain
  task posts its callbacks one by one after it released the mutexes.
Trusted boundary: the thread pool runs every posted task once, in any order
-/
import CommonRpc.Lib.Transition

namespace CommonRpc

universe u v w

/-- How a future ended. -/
inductive Outcome (ν : Type u) (χ : Type v) where
  | value (value : ν)
  | exception (exception : χ)
deriving DecidableEq, Repr

namespace FutureController

/-- The two callbacks of a pair; each has a queue, a drain task and a call task of its own. -/
inductive Side where
  | success
  | fail
deriving DecidableEq, Repr

def Side.other : Side → Side
  | .success => .fail
  | .fail => .success

/-- A task that a controller has in its thread pool. -/
inductive Task where
  /-- The task of `process_on_success_async` or `process_on_fail_async`. -/
  | process (side : Side)
  /-- The same task after it swapped the queue out, with the callbacks it has yet to post. -/
  | post (side : Side) (temp : List Nat)
  /-- The task that ends in `call_success` or `call_fail`. -/
  | call (side : Side) (pair : Nat)
deriving DecidableEq, Repr

/-- A callback that was invoked, with what it was given. -/
inductive Call (ν : Type u) (χ : Type v) where
  | success (pair : Nat) (value : Option ν)
  | fail (pair : Nat) (exception : Option χ)
deriving DecidableEq, Repr

def Call.side {ν : Type u} {χ : Type v} : Call ν χ → Side
  | .success _ _ => .success
  | .fail _ _ => .fail

def Call.pair {ν : Type u} {χ : Type v} : Call ν χ → Nat
  | .success pair _ => pair
  | .fail pair _ => pair

end FutureController

/-- `future_controller<ThreadPool, T>` with the tasks it has in the pool. -/
structure FutureController (κ : Type w) (ν : Type u) (χ : Type v) where
  value : Option ν := none
  exception : Option χ := none
  /-- `m_on_success_queue` and `m_on_fail_queue`. -/
  queue : FutureController.Side → List Nat := fun _ => []
  pool : List FutureController.Task := []
  /-- The pairs of callbacks registered so far. -/
  registered : List κ := []
  /-- The pair whose registration is under way: both queue mutexes are held. -/
  registering : Option Nat := none
  /-- The settlement is under way: the value or the exception mutex is held. -/
  settling : Bool := false
  settlements : Nat := 0
  calls : List (FutureController.Call ν χ) := []

namespace FutureController

variable {κ : Type w} {ν : Type u} {χ : Type v}

/-- `thread_pool::post`, for the tasks of this controller. -/
def postTask (c : FutureController κ ν χ) (task : Task) : FutureController κ ν χ :=
  { c with pool := c.pool ++ [task] }

def push (c : FutureController κ ν χ) (side : Side) (pair : Nat) : FutureController κ ν χ :=
  { c with queue := fun s => if s = side then c.queue s ++ [pair] else c.queue s }

/-- The swap of a queue with an empty one. -/
def clear (c : FutureController κ ν χ) (side : Side) : FutureController κ ν χ :=
  { c with queue := fun s => if s = side then [] else c.queue s }

def processOnSuccessAsync (c : FutureController κ ν χ) : FutureController κ ν χ :=
  c.postTask (.process .success)

def processOnFailAsync (c : FutureController κ ν χ) : FutureController κ ν χ :=
  c.postTask (.process .fail)

/-- `set_on_success_unsafe` for the next pair, under both queue mutexes. -/
def setOnSuccess (c : FutureController κ ν χ) (callbacks : κ) : FutureController κ ν χ :=
  ({ c with
      registered := c.registered ++ [callbacks]
      registering := some c.registered.length }.push .success c.registered.length).processOnSuccessAsync

/-- `set_on_fail_unsafe` for the pair under way, and the release of the queue mutexes. -/
def setOnFail (c : FutureController κ ν χ) (pair : Nat) : FutureController κ ν χ :=
  ({ c with registering := none }.push .fail pair).processOnFailAsync

/-- The whole of `set_on_success_and_fail`. -/
def setOnSuccessAndFail (c : FutureController κ ν χ) (callbacks : κ) : FutureController κ ν χ :=
  (c.setOnSuccess callbacks).setOnFail c.registered.length

def store (c : FutureController κ ν χ) : Outcome ν χ → FutureController κ ν χ
  | .value value => { c with value := some value }
  | .exception exception => { c with exception := some exception }

/-- `set_value_state` or `set_exception` up to the first post. -/
def beginSettle (c : FutureController κ ν χ) (outcome : Outcome ν χ) : FutureController κ ν χ :=
  ({ c with settling := true, settlements := c.settlements + 1 }.store outcome).processOnSuccessAsync

/-- The second post and the release of the mutex. -/
def endSettle (c : FutureController κ ν χ) : FutureController κ ν χ :=
  { c with settling := false }.processOnFailAsync

/-- The whole of `set_value_state` or `set_exception`. -/
def settle (c : FutureController κ ν χ) (outcome : Outcome ν χ) : FutureController κ ν χ :=
  (c.beginSettle outcome).endSettle

/-- What the callbacks of a side wait for is there. -/
def holds (c : FutureController κ ν χ) : Side → Bool
  | .success => c.value.isSome
  | .fail => c.exception.isSome

/-- The body of a drain task up to the release of the mutexes. With its own kind of outcome it swaps the
    queue out to post it, with the other kind it swaps the queue out and drops it. -/
def process (c : FutureController κ ν χ) (side : Side) : FutureController κ ν χ :=
  if c.holds side then (c.clear side).postTask (.post side (c.queue side))
  else if c.holds side.other then c.clear side
  else c

/-- One round of the loop in which a drain task posts the callbacks it swapped out. -/
def postNext (c : FutureController κ ν χ) (side : Side) : List Nat → FutureController κ ν χ
  | [] => c
  | pair :: temp => (c.postTask (.call side pair)).postTask (.post side temp)

def callSuccess (c : FutureController κ ν χ) (pair : Nat) : FutureController κ ν χ :=
  { c with calls := c.calls ++ [.success pair c.value] }

def callFail (c : FutureController κ ν χ) (pair : Nat) : FutureController κ ν χ :=
  { c with calls := c.calls ++ [.fail pair c.exception] }

def call (c : FutureController κ ν χ) : Side → Nat → FutureController κ ν χ
  | .success => c.callSuccess
  | .fail => c.callFail

/-- What a pool thread does with a task. -/
def exec (c : FutureController κ ν χ) : Task → FutureController κ ν χ
  | .process side => c.process side
  | .post side temp => c.postNext side temp
  | .call side pair => c.call side pair

/-- A drain task takes its queue's mutex and the value and exception mutexes. -/
def blocked (c : FutureController κ ν χ) : Task → Bool
  | .process _ => c.registering.isSome || c.settling
  | .post _ _ | .call _ _ => false

/-- A task leaves the pool when it runs. -/
def take (c : FutureController κ ν χ) (task : Task) : FutureController κ ν χ :=
  { c with pool := c.pool.erase task }

/-- A pool thread runs one of the posted tasks. -/
def runTask (c : FutureController κ ν χ) (task : Task) : Option (FutureController κ ν χ) :=
  if task ∈ c.pool ∧ c.blocked task = false then some ((c.take task).exec task) else none

def isSettled (c : FutureController κ ν χ) : Bool := c.holds .success || c.holds .fail

/-- What may happen next to a controller. -/
inductive Event (κ : Type w) (ν : Type u) (χ : Type v) where
  | beginRegister (callbacks : κ)
  | endRegister
  | beginSettle (outcome : Outcome ν χ)
  | endSettle
  | run (task : Task)

/-- A controller is settled at most once: its promise or its only producer sees to that. -/
def step (c : FutureController κ ν χ) : Event κ ν χ → Option (FutureController κ ν χ)
  | .beginRegister callbacks =>
      if c.registering.isNone then some (c.setOnSuccess callbacks) else none
  | .endRegister => c.registering.map c.setOnFail
  | .beginSettle outcome => if c.isSettled then none else some (c.beginSettle outcome)
  | .endSettle => if c.settling then some c.endSettle else none
  | .run task => c.runTask task

def machine : Lib.Machine (FutureController κ ν χ) (Event κ ν χ) where
  step := step

end FutureController

end CommonRpc
