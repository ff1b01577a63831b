/-
Module: CommonRpc.Core.OrderedLockObjects
Purpose: `ordered_lock` as an object: its tuple of pointers in the order of the template parameters, the tuple of
  references to them that `sort_tuple2` puts in ascending order, and the flag. Pointers are moved between locks
  with differently ordered parameters through the sorted references. A mutex may throw in `lock()`, and every
  constructor, assignment and destructor that the source runs is run here, those of temporaries included.
  CommonRpc.Core.OrderedLock has threads that interleave between any two mutexes; here one operation follows
  another and the locks are what is looked at.
Trusted boundary: a mutex does not return from `lock()` while it is locked; `unlock()` does not throw. The caller
  passes `adopt_lock_t` only for mutexes that it has locked itself, and unlocks by hand only what it has locked by
  hand. A call that the compiler would refuse is not a step
-/
import CommonRpc.Core.OrderedLock
import Mathlib.Data.List.Perm.Subperm

namespace CommonRpc

universe u v w w'

/-- The indices of `sort_tuple2`: where the element at each place of the sorted tuple comes from. -/
def Comparison.orderedRefs {θ : Type v} (comparison : Comparison θ) (types : List θ) : List Nat :=
  (SortTuple.sortTuple (fun a b => comparison.less a.1 b.1) types.zipIdx).map Prod.snd

/-! ### Mutexes -/

/-- A call of a mutex that has ended. -/
inductive MutexCall (μ : Type u) where
  | locked (m : μ)
  /-- `lock()` threw. -/
  | threw (m : μ)
  | unlocked (m : μ)
deriving DecidableEq, Repr

variable {μ : Type u} [DecidableEq μ]

/-- Whether a mutex is locked after a call; `none` once it was locked twice in a row or unlocked while it was not
    locked. -/
def MutexCall.effect (m : μ) (state : Option Bool) : MutexCall μ → Option Bool
  | .locked m' => if m' = m then (if state = some false then some true else none) else state
  | .threw _ => state
  | .unlocked m' => if m' = m then (if state = some true then some false else none) else state

def MutexCall.replay (m : μ) (calls : List (MutexCall μ)) : Option Bool :=
  calls.foldl (MutexCall.effect m) (some false)

/-- The mutexes, with the calls so far. -/
structure Mutexes (μ : Type u) [DecidableEq μ] where
  held : μ → Bool := fun _ => false
  calls : List (MutexCall μ) := []
  /-- Every mutex was locked and unlocked in turn. -/
  alternate : ∀ m, MutexCall.replay m calls = some (held m) := by intro; rfl

namespace Mutexes

variable (s : Mutexes μ) (m : μ)

def lock (free : s.held m = false) : Mutexes μ where
  held := Function.update s.held m true
  calls := s.calls ++ [.locked m]
  alternate m' := by
    have before := s.alternate m'
    rw [MutexCall.replay] at before
    rw [MutexCall.replay, List.foldl_append, before]
    by_cases same : m = m'
    · subst same
      simp [MutexCall.effect, free]
    · simp [MutexCall.effect, same, Function.update_of_ne (Ne.symm same)]

/-- `lock()` throws. -/
def threw : Mutexes μ where
  held := s.held
  calls := s.calls ++ [.threw m]
  alternate m' := by
    have before := s.alternate m'
    rw [MutexCall.replay] at before
    rw [MutexCall.replay, List.foldl_append, before]
    rfl

def unlock (held : s.held m = true) : Mutexes μ where
  held := Function.update s.held m false
  calls := s.calls ++ [.unlocked m]
  alternate m' := by
    have before := s.alternate m'
    rw [MutexCall.replay] at before
    rw [MutexCall.replay, List.foldl_append, before]
    by_cases same : m = m'
    · subst same
      simp [MutexCall.effect, held]
    · simp [MutexCall.effect, same, Function.update_of_ne (Ne.symm same)]

end Mutexes

/-- What the language does not define. -/
inductive Fault where
  /-- A null pointer is dereferenced. -/
  | nullPointer
  /-- A mutex is unlocked that is not locked. -/
  | notHeld
deriving DecidableEq, Repr

/-- How a call ends. -/
inductive CallOutcome (μ : Type u) [DecidableEq μ] (α : Type v) (β : Type w) where
  | returned (value : α) (mutexes : Mutexes μ)
  /-- An exception leaves the call; the value is what the call has made of its object until then. -/
  | threw (value : β) (mutexes : Mutexes μ)
  /-- It waits for a mutex that is locked. -/
  | blocked
  | fault (kind : Fault)

namespace CallOutcome

variable {α : Type v} {β : Type w} {γ : Type w'}

def andThen (outcome : CallOutcome μ α β) (next : α → Mutexes μ → CallOutcome μ γ β) : CallOutcome μ γ β :=
  match outcome with
  | .returned value mutexes => next value mutexes
  | .threw value mutexes => .threw value mutexes
  | .blocked => .blocked
  | .fault kind => .fault kind

def mapThrown (outcome : CallOutcome μ α β) (change : β → γ) : CallOutcome μ α γ :=
  match outcome with
  | .returned value mutexes => .returned value mutexes
  | .threw value mutexes => .threw (change value) mutexes
  | .blocked => .blocked
  | .fault kind => .fault kind

end CallOutcome

/-- `unlock()` through each of the pointers. -/
def unlockEach {β : Type w} : List (Option μ) → Mutexes μ → CallOutcome μ Unit β
  | [], s => .returned () s
  | none :: _, _ => .fault .nullPointer
  | some m :: rest, s =>
      if held : s.held m = true then unlockEach rest (s.unlock m held) else .fault .notHeld

/-- The body of `do_safe_lock`, with the pointers that `locked` has got. The mutexes that throw in this call are
    given. -/
def lockEach (throws : μ → Bool) : List (Option μ) → List μ → Mutexes μ → CallOutcome μ Unit Unit
  | [], _, s => .returned () s
  | none :: _, _, _ => .fault .nullPointer
  | some m :: rest, locked, s =>
      if throws m then
        -- `do_on_destruct`, not released
        (unlockEach (locked.reverse.map some) (s.threw m)).andThen fun _ s => .threw () s
      else if free : s.held m = false then lockEach throws rest (locked ++ [m]) (s.lock m free)
      else .blocked

/-! ### The lock -/

variable {θ : Type v}

/-- An element of `m_init_ptr_tuple`: a pointer of the type that the template parameter gives it. -/
structure Slot (type : μ → θ) where
  lockable : θ
  pointer : Option μ
  typed : ∀ m, pointer = some m → type m = lockable

namespace Slot

variable {type : μ → θ}

def null (type : μ → θ) (lockable : θ) : Slot type := ⟨lockable, none, nofun⟩

/-- The address of a mutex. -/
def of (type : μ → θ) (m : μ) : Slot type := ⟨type m, some m, fun _ same => by cases same; rfl⟩

end Slot

/-- An `ordered_lock` -/
structure LockObject (type : μ → θ) where
  init : List (Slot type)
  isLocked : Bool := false

namespace LockObject

variable {type : μ → θ} (comparison : Comparison θ)

/-- The template parameters. -/
def types (object : LockObject type) : List θ := object.init.map Slot.lockable

/-- What `m_ordered_ptr_ref_tuple` refers to. -/
def ordered (object : LockObject type) : List (Slot type) :=
  (comparison.orderedRefs object.types).filterMap (object.init[·]?)

/-- The constructor without arguments. -/
def empty (type : μ → θ) (types : List θ) : LockObject type where
  init := types.map (Slot.null type)

/-- The constructor with `defer_lock_t`. -/
def deferred (type : μ → θ) (lockables : List μ) : LockObject type where
  init := lockables.map (Slot.of type)

/-- The constructor with `adopt_lock_t`. -/
def adopting (type : μ → θ) (lockables : List μ) : LockObject type where
  init := lockables.map (Slot.of type)
  isLocked := true

def doSafeLock (object : LockObject type) (throws : μ → Bool) (s : Mutexes μ) : CallOutcome μ Unit Unit :=
  lockEach throws ((object.ordered comparison).map Slot.pointer) [] s

def lock (object : LockObject type) (throws : μ → Bool) (s : Mutexes μ) :
    CallOutcome μ (LockObject type) (LockObject type) :=
  ((object.doSafeLock comparison throws s).mapThrown fun _ => object).andThen fun _ s =>
    .returned { object with isLocked := true } s

/-- The constructor that locks. -/
def construct (type : μ → θ) (lockables : List μ) (throws : μ → Bool) (s : Mutexes μ) :
    CallOutcome μ (LockObject type) Unit :=
  ((deferred type lockables).lock comparison throws s).mapThrown fun _ => ()

variable {β : Type w}

def unlock (object : LockObject type) (s : Mutexes μ) : CallOutcome μ (LockObject type) β :=
  (unlockEach ((object.ordered comparison).reverse.map Slot.pointer) s).andThen fun _ s =>
    .returned { object with isLocked := false } s

/-- The destructor. -/
def destroy (object : LockObject type) (s : Mutexes μ) : CallOutcome μ Unit β :=
  if object.isLocked then (object.unlock comparison s).andThen fun _ s => .returned () s
  else .returned () s

def clear (object : LockObject type) : LockObject type where
  init := object.init.map fun slot => Slot.null type slot.lockable
  isLocked := false

/-- The assignment of one tuple of references to another: what the references refer to is overwritten. -/
def assignRefs (init : List (Slot type)) (refs : List Nat) (values : List (Slot type)) : List (Slot type) :=
  (refs.zip values).foldl (fun init write => init.set write.1 write.2) init

/-- `m_is_locked` and `m_ordered_ptr_ref_tuple` are assigned. The sorted parameters of the two are the same, so
    that a pointer is overwritten by one of its own type. -/
def take (object other : LockObject type) : LockObject type where
  init := assignRefs object.init (comparison.orderedRefs object.types) (other.ordered comparison)
  isLocked := other.isLocked

/-- The constructor from a lock with these parameters in another order: the new lock and what is left of the
    other. -/
def moveConstruct (types : List θ) (other : LockObject type) : LockObject type × LockObject type :=
  ((empty type types).take comparison other, other.clear)

/-- The assignment from another lock. -/
def moveAssign (object other : LockObject type) (s : Mutexes μ) :
    CallOutcome μ (LockObject type × LockObject type) β :=
  (if object.isLocked then object.unlock comparison s else .returned object s).andThen fun object s =>
    .returned (object.take comparison other, other.clear) s

/-- `*std::get<I>(m_init_ptr_tuple)...` -/
def dereferenced (object : LockObject type) : Option (List μ) := object.init.mapM Slot.pointer

/-- `push_back_impl`: the longer lock and what is left of this one. The destructor of `ans` is not written: when
    the constructor of `add_ordered_lock` throws, `ans` is not locked. -/
def pushBackImpl (object : LockObject type) (addLockables : List μ) (throws : μ → Bool) (s : Mutexes μ) :
    CallOutcome μ (LockObject type × LockObject type) (LockObject type) :=
  let ans := empty type (object.types ++ addLockables.map type)
  match object.isLocked with
  | true =>
      ((construct comparison type addLockables throws s).mapThrown fun _ => object).andThen
        fun addOrderedLock s =>
          match object.dereferenced with
          | some lockables =>
              (ans.moveAssign comparison (adopting type (lockables ++ addLockables)) s).andThen fun moved s =>
                (moved.2.destroy comparison s).andThen fun _ s =>
                  (addOrderedLock.clear.destroy comparison s).andThen fun _ s =>
                    .returned (moved.1, object.clear) s
          | none => .fault .nullPointer
  | false =>
      match object.dereferenced with
      | some lockables =>
          (ans.moveAssign comparison (deferred type (lockables ++ addLockables)) s).andThen fun moved s =>
            (moved.2.destroy comparison s).andThen fun _ s => .returned (moved.1, object.clear) s
      | none => .fault .nullPointer

end LockObject

/-! ### Sequences of operations -/

/-- Locks, and mutexes that the caller has locked by hand. -/
structure OrderedLockObjects (type : μ → θ) where
  /-- The locks in the order in which they were constructed; `none` for one that was destroyed. -/
  objects : List (Option (LockObject type)) := []
  byHand : List μ := []
  mutexes : Mutexes μ := {}
  /-- The last operation ended with an exception. -/
  threw : Bool := false
  fault : Option Fault := none

namespace OrderedLockObjects

inductive Event (θ : Type v) (μ : Type u) where
  | lockByHand (m : μ)
  | unlockByHand (m : μ)
  | constructEmpty (types : List θ)
  | construct (lockables : List μ) (throws : μ → Bool)
  | constructDeferred (lockables : List μ)
  | constructAdopting (lockables : List μ)
  | lock (i : Nat) (throws : μ → Bool)
  | unlock (i : Nat)
  | moveConstruct (types : List θ) (source : Nat)
  | moveAssign (target source : Nat)
  | pushBack (i : Nat) (addLockables : List μ) (throws : μ → Bool)
  | destroy (i : Nat)

variable {type : μ → θ} (comparison : Comparison θ)

def object (s : OrderedLockObjects type) (i : Nat) : Option (LockObject type) := s.objects[i]?.join

/-- The end of an operation, with the locks that it leaves. -/
def settle {α : Type w} {β : Type w'} (s : OrderedLockObjects type) (outcome : CallOutcome μ α β)
    (returned : α → List (Option (LockObject type))) (threw : β → List (Option (LockObject type))) :
    Option (OrderedLockObjects type) :=
  match outcome with
  | .returned value mutexes => some { s with objects := returned value, mutexes, threw := false }
  | .threw value mutexes => some { s with objects := threw value, mutexes, threw := true }
  | .blocked => none
  | .fault kind => some { s with fault := some kind, threw := false }

/-- The new lock and what is left of its source. -/
def added (s : OrderedLockObjects type) (i : Nat) (locks : LockObject type × LockObject type) :
    List (Option (LockObject type)) :=
  s.objects.set i (some locks.2) ++ [some locks.1]

variable [DecidableEq θ]

def step (s : OrderedLockObjects type) (event : Event θ μ) : Option (OrderedLockObjects type) :=
  if s.fault.isSome then none
  else
    match event with
    | .lockByHand m =>
        if free : s.mutexes.held m = false then
          some { s with byHand := m :: s.byHand, mutexes := s.mutexes.lock m free, threw := false }
        else none
    | .unlockByHand m =>
        if m ∈ s.byHand then
          if held : s.mutexes.held m = true then
            some { s with byHand := s.byHand.erase m, mutexes := s.mutexes.unlock m held, threw := false }
          else some { s with fault := some .notHeld, threw := false }
        else none
    | .constructEmpty types =>
        if comparison.isOrderedLockableTypesValid types then
          some { s with objects := s.objects ++ [some (.empty type types)], threw := false }
        else none
    | .construct lockables throws =>
        if comparison.isOrderedLockableTypesValid (lockables.map type) then
          s.settle (LockObject.construct comparison type lockables throws s.mutexes)
            (fun object => s.objects ++ [some object]) fun _ => s.objects
        else none
    | .constructDeferred lockables =>
        if comparison.isOrderedLockableTypesValid (lockables.map type) then
          some { s with objects := s.objects ++ [some (.deferred type lockables)], threw := false }
        else none
    | .constructAdopting lockables =>
        if comparison.isOrderedLockableTypesValid (lockables.map type) ∧ lockables.Subperm s.byHand then
          some { s with
            objects := s.objects ++ [some (.adopting type lockables)]
            byHand := s.byHand.diff lockables
            threw := false }
        else none
    | .lock i throws =>
        match s.object i with
        | some object =>
            if object.isLocked then none
            else
              s.settle (object.lock comparison throws s.mutexes)
                (fun object => s.objects.set i (some object)) fun object => s.objects.set i (some object)
        | none => none
    | .unlock i =>
        match s.object i with
        | some object =>
            if object.isLocked then
              s.settle (object.unlock comparison s.mutexes)
                (fun object => s.objects.set i (some object)) Empty.elim
            else none
        | none => none
    | .moveConstruct types source =>
        match s.object source with
        | some other =>
            if comparison.isOrderedLockableTypesValid types ∧
                comparison.sorted types = comparison.sorted other.types then
              some { s with objects := s.added source (other.moveConstruct comparison types), threw := false }
            else none
        | none => none
    | .moveAssign target source =>
        match s.object target, s.object source with
        | some object, some other =>
            if target = source then some { s with threw := false }
            else if comparison.sorted object.types = comparison.sorted other.types then
              s.settle (object.moveAssign (β := Empty) comparison other s.mutexes)
                (fun locks => (s.objects.set target (some locks.1)).set source (some locks.2)) Empty.elim
            else none
        | _, _ => none
    | .pushBack i addLockables throws =>
        match s.object i with
        | some object =>
            let addTypes := addLockables.map type
            if comparison.isOrderedLockableTypesValid addTypes ∧
                comparison.compareOrderedLockableTuples object.types addTypes ∧
                comparison.isOrderedLockableTypesValid (object.types ++ addTypes) then
              s.settle (object.pushBackImpl comparison addLockables throws s.mutexes)
                (fun locks => s.added i locks) fun object => s.objects.set i (some object)
            else none
        | none => none
    | .destroy i =>
        match s.object i with
        | some object =>
            s.settle (object.destroy comparison s.mutexes) (fun _ => s.objects.set i none) Empty.elim
        | none => none

def machine : Lib.Machine (OrderedLockObjects type) (Event θ μ) where
  step := step comparison

end OrderedLockObjects

end CommonRpc
