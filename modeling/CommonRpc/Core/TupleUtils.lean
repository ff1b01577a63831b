/-
Module: CommonRpc.Core.TupleUtils
Purpose: The sorts of `std::tuple`: `sort_tuple_t` on element types with their qualifiers, `do_sort_tuple`, which
  moves references to the elements about with the helpers of tuple-utils, and `do_sort_tuple2`, which sorts the
  types together with their indices and then picks every element once. A tuple is the list of its elements, each
  with its type; a reference to an element is the position of the element in the tuple it was made from. Code that
  does not compile has no result.
Trusted boundary: an element is copied or moved without changing its value
-/
import CommonRpc.Core.OrderedLock

namespace CommonRpc

universe u v

inductive ReferenceKind where
  | lvalue
  | rvalue
deriving DecidableEq, Repr

/-- The type of a tuple element. -/
structure QualifiedType (θ : Type u) where
  type : θ
  isConst : Bool := false
  isVolatile : Bool := false
  reference : Option ReferenceKind := none
deriving DecidableEq, Repr

namespace QualifiedType

/-- `remove_type_qualifiers_t` -/
def removeTypeQualifiers {θ : Type u} (t : QualifiedType θ) : θ := t.type

end QualifiedType

namespace TupleUtils

variable {θ : Type u}

/-- `sort_tuple_t`: the comparator is asked about the types without their qualifiers. -/
def sortTupleT (compare : θ → θ → Bool) (types : List (QualifiedType θ)) : List (QualifiedType θ) :=
  SortTuple.sortTuple (fun a b => compare a.removeTypeQualifiers b.removeTypeQualifiers) types

/-! ### The helpers -/

section Helpers

variable {α : Type v}

/-- `do_swap_first_two_tuple_elements` -/
def swapFirstTwoTupleElements : List α → Option (List α)
  | first :: second :: rest => some (second :: first :: rest)
  | [_] | [] => none

/-- `do_extract_first_tuple_element`: a tuple of the first element, and the other elements. -/
def extractFirstTupleElement : List α → Option (List α × List α)
  | first :: rest => some ([first], rest)
  | [] => none

/-- `do_extract_last_tuple_element`: a tuple of the last element, and the other elements. -/
def extractLastTupleElement (tuple : List α) : Option (List α × List α) :=
  tuple.getLast?.map fun last => ([last], tuple.dropLast)

/-- `do_merge_tuples` -/
def mergeTuples (first second : List α) : List α := first ++ second

/-- The comparator on the types of the first two elements. -/
def compareFirstTwo (compare : α → α → Bool) : List α → Option Bool
  | first :: second :: _ => some (compare first second)
  | [_] | [] => none

variable (compare : α → α → Bool)

/-- `do_bubble_rise` of a tuple of references with the given size. -/
def doBubbleRise : Nat → List α → Option (List α)
  | 0, _ => none
  | 1, refTuple => some refTuple
  | size + 2, refTuple =>
      match compareFirstTwo compare refTuple with
      | none => none
      | some false => do
          let newRefTuple ← swapFirstTwoTupleElements refTuple
          let split ← extractFirstTupleElement newRefTuple
          return mergeTuples split.1 (← doBubbleRise (size + 1) split.2)
      | some true => do
          let split ← extractFirstTupleElement refTuple
          return mergeTuples split.1 (← doBubbleRise (size + 1) split.2)

/-- `sort_ref_tuple` of a tuple of references with the given size. -/
def sortRefTuple : Nat → List α → Option (List α)
  | 0, _ => none
  | 1, tuple => some tuple
  | size + 2, tuple => do
      let bubbled ← doBubbleRise compare (size + 2) tuple
      let split ← extractLastTupleElement bubbled
      return mergeTuples (← sortRefTuple (size + 1) split.2) split.1

end Helpers

/-! ### The two sorts -/

variable {value : QualifiedType θ → Type v}

/-- An element of a tuple: its type, and its value. -/
abbrev Element (value : QualifiedType θ → Type v) : Type (max u v) := Σ type, value type

/-- A reference to an element of a tuple. -/
structure TupleElementRef (tuple : List (Element value)) where
  ref : Fin tuple.length

namespace TupleElementRef

/-- The type of the element, which the type of the reference carries along. -/
def type {tuple : List (Element value)} (r : TupleElementRef tuple) : QualifiedType θ := (tuple.get r.ref).1

/-- The comparator on the types of the elements. -/
def compare {tuple : List (Element value)} (compare : θ → θ → Bool) (a b : TupleElementRef tuple) : Bool :=
  compare a.type.removeTypeQualifiers b.type.removeTypeQualifiers

end TupleElementRef

def makeRefTuple (tuple : List (Element value)) : List (TupleElementRef tuple) :=
  (List.finRange tuple.length).map fun i => ⟨i⟩

def restoreTuple {tuple : List (Element value)} (sortedRefTuple : List (TupleElementRef tuple)) :
    List (Element value) :=
  sortedRefTuple.map fun r => tuple.get r.ref

/-- The early return for a small tuple leaves the rest of the function to be compiled. -/
def doSortTuple (compare : θ → θ → Bool) (tuple : List (Element value)) : Option (List (Element value)) :=
  (sortRefTuple (TupleElementRef.compare compare) tuple.length (makeRefTuple tuple)).map fun sorted =>
    if tuple.length = 0 ∨ tuple.length = 1 then tuple else restoreTuple sorted

/-- `indexed_tuple_type` -/
structure IndexedTupleType (θ : Type u) (size : Nat) where
  type : QualifiedType θ
  index : Fin size

/-- `indexed_tuple_type_comparator` -/
def IndexedTupleType.compare {size : Nat} (compare : θ → θ → Bool) (a b : IndexedTupleType θ size) : Bool :=
  compare a.type.removeTypeQualifiers b.type.removeTypeQualifiers

/-- `make_indexed_tuple_t` -/
def makeIndexedTuple (tuple : List (Element value)) : List (IndexedTupleType θ tuple.length) :=
  (List.finRange tuple.length).map fun i => ⟨(tuple.get i).1, i⟩

def doSortTuple2 (compare : θ → θ → Bool) (tuple : List (Element value)) : List (Element value) :=
  let sortedIndexedTuple := SortTuple.sortTuple (IndexedTupleType.compare compare) (makeIndexedTuple tuple)
  sortedIndexedTuple.map fun t => tuple.get t.index

end TupleUtils

end CommonRpc
