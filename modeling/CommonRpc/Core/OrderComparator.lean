/-
Module: CommonRpc.Core.OrderComparator
Purpose: `order_comparator` with the orders as the source has them: static members of any integral type, each
  lockable type with its own. They are compared by `<` and `==`, so by the usual arithmetic conversions. The
  threads of CommonRpc.Core.OrderedLock have natural numbers for orders instead.
Trusted boundary: the requirements on lockable types other than their order are met
-/
import CommonRpc.Core.OrderedLock
import CommonRpc.Lib.Integral

namespace CommonRpc

open Lib Lib.Integral

universe u

namespace OrderComparator

/-- `order_comparator::compare` -/
def compare {μ : Type u} {D : DataModel} (order : μ → Constant D) (a b : μ) : Bool := less (order a) (order b)

/-- The integral types of the Windows compilers. -/
def windows : DataModel where
  width
    | .int => 32
    | .long => 32
    | .longLong => 64
  isSmallSigned
    | .char | .signedChar | .short => true
    | _ => false
  smallWidth
    | .bool => 1
    | .char | .signedChar | .unsignedChar | .char8 => 8
    | .short | .unsignedShort | .char16 | .wchar => 16
    | .char32 => 32
  width_int_pos := by decide
  width_int_le_long := by decide
  width_long_le_longLong := by decide
  smallWidth_pos type := by cases type with | _ => decide
  smallWidth_le type := by cases type with | _ => decide

end OrderComparator

/-- Orders of any integral types, which are converted before they are compared. -/
def Comparison.ofConstants {μ : Type u} {D : DataModel} (order : μ → Constant D) : Comparison μ where
  less := OrderComparator.compare order
  equal a b := Integral.equal (order a) (order b)

end CommonRpc
