/-
Module: CommonRpc.Core.OrderedLock
Purpose: `ordered_lock`: the sort of its arguments at compile time, the checks on their orders, and threads that
  acquire mutexes through it. A mutex is taken or given back in one step, so that the threads may be
  interleaved between any two of them. The orders of the mutexes are part of their types in the source;
  here they are a function on the mutexes, and a call that the compiler would refuse is not a step.
Trusted boundary: a thread has at most one ordered_lock at a time and uses its mutexes through nothing else; it
  calls `lock` only while the lock is not locked and `unlock` only while it is
-/
import CommonRpc.Lib.Transition
import Mathlib.Data.Nat.Basic
import Mathlib.Logic.Function.Basic
import Mathlib.Order.Lattice

namespace CommonRpc

universe u v w

namespace SortTuple

variable {α : Type u} (compare : α → α → Bool)

/-- `do_bubble_rise` of a tuple that starts with `arg1`. -/
def bubbleRiseFrom (arg1 : α) : List α → List α
  | [] => [arg1]
  | arg2 :: args =>
      if compare arg1 arg2 then arg1 :: bubbleRiseFrom arg2 args else arg2 :: bubbleRiseFrom arg1 args

def doBubbleRise : List α → List α
  | [] => []
  | arg :: args => bubbleRiseFrom compare arg args

/-- `sort_tuple_base` of a tuple of the given size. -/
def sortTupleBase : Nat → List α → List α
  | 0, _ => []
  | size + 1, tuple =>
      let bubbled := doBubbleRise compare tuple
      sortTupleBase size bubbled.dropLast ++ bubbled.getLast?.toList

def sortTuple (tuple : List α) : List α := sortTupleBase compare tuple.length tuple

end SortTuple

/-- How the orders of two lockable types compare: the `<` of `order_comparator` and the `==` of the check for
    repeated orders. -/
structure Comparison (θ : Type v) where
  less : θ → θ → Bool
  equal : θ → θ → Bool

namespace Comparison

variable {θ : Type v}

/-- Orders that are compared as numbers. -/
def ofOrder {ω : Type w} [LinearOrder ω] (order : θ → ω) : Comparison θ where
  less a b := decide (order a < order b)
  equal a b := decide (order a = order b)

variable (comparison : Comparison θ)

/-- `sort_tuple_t` with `order_comparator`. -/
def sorted (types : List θ) : List θ := SortTuple.sortTuple comparison.less types

/-- Neighbours in the sorted tuple are compared. -/
def isThereRepeatingOrderNumber (types : List θ) : Bool :=
  ((comparison.sorted types).zip (comparison.sorted types).tail).any fun pair => comparison.equal pair.1 pair.2

def isOrderedLockableTypesValid (types : List θ) : Bool :=
  !types.isEmpty && !comparison.isThereRepeatingOrderNumber types

/-- The last of the one tuple is compared with the first of the other. -/
def compareOrderedLockableTuples (tuple1 tuple2 : List θ) : Bool :=
  match (comparison.sorted tuple1).getLast?, (comparison.sorted tuple2).head? with
  | some last, some first => comparison.less last first
  | _, _ => false

end Comparison

/-- An `ordered_lock` with the mutexes in the order of its arguments. -/
structure OrderedLock (μ : Type u) where
  lockables : List μ
  isLocked : Bool := false
deriving DecidableEq, Repr

namespace OrderedLocks

/-- What `do_safe_lock` was called for. -/
inductive Purpose (μ : Type u) where
  /-- The constructor of the thread's lock. -/
  | construct
  | lock
  /-- The constructor of the lock that `push_back` adds. -/
  | extend (addLockables : List μ)
deriving DecidableEq, Repr

/-- What a thread is doing with its lock. -/
inductive Activity (μ : Type u) where
  | idle
  /-- In `do_safe_lock`: the mutexes that are locked, and those that are not. -/
  | locking (purpose : Purpose μ) (locked rest : List μ)
  /-- A mutex threw: the locked ones are given back. -/
  | unwinding (purpose : Purpose μ) (locked : List μ)
  /-- In `unlock`, perhaps from the destructor. -/
  | unlocking (destructor : Bool) (locked : List μ)
deriving DecidableEq, Repr

structure Thread (μ : Type u) where
  lock : Option (OrderedLock μ) := none
  activity : Activity μ := .idle
deriving DecidableEq, Repr

namespace Thread

variable {μ : Type u}

/-- The mutex that the thread asks for next. -/
def wanted (thread : Thread μ) : Option μ :=
  match thread.activity with
  | .locking _ _ rest => rest.head?
  | .idle | .unwinding _ _ | .unlocking _ _ => none

/-- `do_safe_lock` has succeeded. -/
def locked (thread : Thread μ) (purpose : Purpose μ) : Thread μ :=
  match purpose with
  | .construct | .lock => { lock := thread.lock.map fun lock => { lock with isLocked := true } }
  | .extend addLockables =>
      { lock := thread.lock.map fun lock => { lockables := lock.lockables ++ addLockables, isLocked := true } }

/-- The exception leaves the call; a lock whose constructor threw does not exist. -/
def failed (thread : Thread μ) (purpose : Purpose μ) : Thread μ :=
  match purpose with
  | .construct => {}
  | .lock | .extend _ => { lock := thread.lock }

/-- The end of `unlock` or of the destructor. -/
def unlocked (thread : Thread μ) (destructor : Bool) : Thread μ :=
  if destructor then {} else { lock := thread.lock.map fun lock => { lock with isLocked := false } }

end Thread

end OrderedLocks

/-- Threads and mutexes. -/
structure OrderedLocks (τ : Type v) (μ : Type u) where
  threads : τ → OrderedLocks.Thread μ := fun _ => {}
  /-- The thread that has locked a mutex. -/
  owner : μ → Option τ := fun _ => none

namespace OrderedLocks

/-- What a thread may do next. -/
inductive Event (τ : Type v) (μ : Type u) where
  | construct (thread : τ) (lockables : List μ)
  | constructDeferred (thread : τ) (lockables : List μ)
  | lock (thread : τ)
  /-- `lock()` of the next mutex returns. -/
  | acquire (thread : τ)
  /-- `lock()` of the next mutex throws. -/
  | throws (thread : τ)
  /-- `unlock()` of the next mutex, or the end of the loop over them. -/
  | release (thread : τ)
  | unlock (thread : τ)
  | destroy (thread : τ)
  | pushBack (thread : τ) (addLockables : List μ)

variable {τ : Type v} {μ : Type u} [DecidableEq τ] [DecidableEq μ] (order : μ → Nat)

open Comparison

def setThread (s : OrderedLocks τ μ) (t : τ) (thread : Thread μ) : OrderedLocks τ μ :=
  { s with threads := Function.update s.threads t thread }

def setOwner (s : OrderedLocks τ μ) (m : μ) (owner : Option τ) : OrderedLocks τ μ :=
  { s with owner := Function.update s.owner m owner }

/-- A thread that is not inside a function of its lock. -/
def onIdle (s : OrderedLocks τ μ) (t : τ) (next : Option (OrderedLock μ) → Option (Thread μ)) :
    Option (OrderedLocks τ μ) :=
  match (s.threads t).activity with
  | .idle => (next (s.threads t).lock).map (s.setThread t)
  | .locking _ _ _ | .unwinding _ _ | .unlocking _ _ => none

/-- The call of `do_safe_lock` on these mutexes. -/
def beginLocking (purpose : Purpose μ) (lockables : List μ) : Activity μ :=
  .locking purpose [] (sorted (.ofOrder order) lockables)

/-- `push_back_impl` -/
def pushBack (lock : OrderedLock μ) (addLockables : List μ) : Thread μ :=
  if lock.isLocked then
    { lock := some lock, activity := beginLocking order (.extend addLockables) addLockables }
  else { lock := some { lockables := lock.lockables ++ addLockables } }

def acquire (s : OrderedLocks τ μ) (t : τ) : Option (OrderedLocks τ μ) :=
  match (s.threads t).activity with
  | .locking purpose locked (m :: rest) =>
      if (s.owner m).isSome then none
      else
        let next :=
          if rest.isEmpty then (s.threads t).locked purpose
          else { s.threads t with activity := .locking purpose (locked ++ [m]) rest }
        some ((s.setOwner m (some t)).setThread t next)
  | _ => none

/-- The locked mutexes are given back from the last to the first. -/
def release (s : OrderedLocks τ μ) (t : τ) : Option (OrderedLocks τ μ) :=
  match (s.threads t).activity with
  | .unwinding purpose locked =>
      match locked.getLast? with
      | some m =>
          let next := { s.threads t with activity := .unwinding purpose locked.dropLast }
          some ((s.setOwner m none).setThread t next)
      | none => some (s.setThread t ((s.threads t).failed purpose))
  | .unlocking destructor locked =>
      match locked.getLast? with
      | some m =>
          let next := { s.threads t with activity := .unlocking destructor locked.dropLast }
          some ((s.setOwner m none).setThread t next)
      | none => some (s.setThread t ((s.threads t).unlocked destructor))
  | .idle | .locking _ _ _ => none

def step (s : OrderedLocks τ μ) : Event τ μ → Option (OrderedLocks τ μ)
  | .construct t lockables =>
      s.onIdle t fun lock =>
        if lock.isNone && isOrderedLockableTypesValid (.ofOrder order) lockables then
          some { lock := some { lockables }, activity := beginLocking order .construct lockables }
        else none
  | .constructDeferred t lockables =>
      s.onIdle t fun lock =>
        if lock.isNone && isOrderedLockableTypesValid (.ofOrder order) lockables then
          some { lock := some { lockables } }
        else none
  | .lock t =>
      s.onIdle t fun lock =>
        match lock with
        | some lock =>
            if lock.isLocked then none
            else some { lock := some lock, activity := beginLocking order .lock lock.lockables }
        | none => none
  | .acquire t => s.acquire t
  | .throws t =>
      match (s.threads t).activity with
      | .locking purpose locked (_ :: _) =>
          some (s.setThread t { s.threads t with activity := .unwinding purpose locked })
      | _ => none
  | .release t => s.release t
  | .unlock t =>
      s.onIdle t fun lock =>
        match lock with
        | some lock =>
            if lock.isLocked then
              some { lock := some lock, activity := .unlocking false (sorted (.ofOrder order) lock.lockables) }
            else none
        | none => none
  | .destroy t =>
      s.onIdle t fun lock =>
        match lock with
        | some lock =>
            if lock.isLocked then
              some { lock := some lock, activity := .unlocking true (sorted (.ofOrder order) lock.lockables) }
            else some {}
        | none => none
  | .pushBack t addLockables =>
      s.onIdle t fun lock =>
        match lock with
        | some lock =>
            if isOrderedLockableTypesValid (.ofOrder order) addLockables &&
                compareOrderedLockableTuples (.ofOrder order) lock.lockables addLockables then
              some (pushBack order lock addLockables)
            else none
        | none => none

def machine : Lib.Machine (OrderedLocks τ μ) (Event τ μ) where
  step := step order

end OrderedLocks

end CommonRpc
