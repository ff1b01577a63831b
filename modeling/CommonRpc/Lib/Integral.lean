/-
Module: CommonRpc.Lib.Integral
Purpose: Comparison of integer constants in C++. The operands are promoted and then converted to their common type,
  so what is compared depends on the types: a negative operand wraps if the common type is unsigned. The widths of
  the types are those of an arbitrary implementation. A comparison is numeric except between a negative operand and
  one that is not, whose common type is unsigned.
Trusted boundary: none
-/
import Mathlib.Algebra.Order.Ring.Int
import Mathlib.Tactic.Linarith

namespace CommonRpc.Lib.Integral

/-- The ranks that promotion leaves alone. -/
inductive Rank where
  | int
  | long
  | longLong
deriving DecidableEq, Repr

def Rank.index : Rank → Nat
  | .int => 0
  | .long => 1
  | .longLong => 2

/-- `int`, `unsigned`, `long`, `unsigned long`, `long long` and `unsigned long long`. -/
structure PromotedType where
  signed : Bool
  rank : Rank
deriving DecidableEq, Repr

/-- The integral types that are promoted before they are compared. -/
inductive SmallType where
  | bool
  | char
  | signedChar
  | unsignedChar
  | char8
  | short
  | unsignedShort
  | char16
  | char32
  | wchar
deriving DecidableEq, Repr

inductive IntegralType where
  | small (type : SmallType)
  | promoted (type : PromotedType)
deriving DecidableEq, Repr

/-- The integral types of an implementation. A width counts the value bits and the sign bit. -/
structure DataModel where
  width : Rank → Nat
  isSmallSigned : SmallType → Bool
  smallWidth : SmallType → Nat
  width_int_pos : 0 < width .int
  width_int_le_long : width .int ≤ width .long
  width_long_le_longLong : width .long ≤ width .longLong
  smallWidth_pos : ∀ type, 0 < smallWidth type
  smallWidth_le : ∀ type, smallWidth type ≤ width .longLong

variable {D : DataModel}

/-- The values of a type with the given sign and width. -/
def InRange (signed : Bool) (width : Nat) (value : Int) : Prop :=
  if signed then -2 ^ (width - 1) ≤ value ∧ value < 2 ^ (width - 1) else 0 ≤ value ∧ value < 2 ^ width

instance (signed : Bool) (width : Nat) (value : Int) : Decidable (InRange signed width value) :=
  inferInstanceAs (Decidable (if signed then _ else _))

def DataModel.isSigned (D : DataModel) : IntegralType → Bool
  | .small type => D.isSmallSigned type
  | .promoted type => type.signed

def DataModel.bits (D : DataModel) : IntegralType → Nat
  | .small type => D.smallWidth type
  | .promoted type => D.width type.rank

/-- A constant of an integral type. -/
structure Constant (D : DataModel) where
  type : IntegralType
  value : Int
  inRange : InRange (D.isSigned type) (D.bits type) value

/-- Whether a promoted type represents all values of a type with the given sign and width. -/
def represents (D : DataModel) (target : PromotedType) (signed : Bool) (width : Nat) : Bool :=
  if signed = target.signed then width ≤ D.width target.rank else target.signed && width < D.width target.rank

/-- The candidates of promotion, in their order. -/
def promotions : List PromotedType :=
  [⟨true, .int⟩, ⟨false, .int⟩, ⟨true, .long⟩, ⟨false, .long⟩, ⟨true, .longLong⟩]

/-- Integral promotion. -/
def promote (D : DataModel) : IntegralType → PromotedType
  | .promoted type => type
  | .small type =>
      (promotions.find? fun target => represents D target (D.isSmallSigned type) (D.smallWidth type)).getD
        ⟨false, .longLong⟩

/-- The common type of a signed and an unsigned operand. -/
def mixedType (D : DataModel) (signedRank unsignedRank : Rank) : PromotedType :=
  if signedRank.index ≤ unsignedRank.index then ⟨false, unsignedRank⟩
  else if D.width unsignedRank < D.width signedRank then ⟨true, signedRank⟩
  else ⟨false, signedRank⟩

/-- The usual arithmetic conversions on promoted operands. -/
def commonType (D : DataModel) (a b : PromotedType) : PromotedType :=
  match a.signed, b.signed with
  | true, false => mixedType D a.rank b.rank
  | false, true => mixedType D b.rank a.rank
  | _, _ => if a.rank.index ≤ b.rank.index then b else a

/-- Conversion of a value to a type, modulo a power of two. -/
def convert (D : DataModel) (target : PromotedType) (value : Int) : Int :=
  if target.signed then value.bmod (2 ^ D.width target.rank) else value % 2 ^ D.width target.rank

namespace Constant

def promoted (c : Constant D) : PromotedType := promote D c.type

end Constant

/-- The operator `<`. -/
def less (a b : Constant D) : Bool :=
  convert D (commonType D a.promoted b.promoted) a.value < convert D (commonType D a.promoted b.promoted) b.value

/-- The operator `==`. -/
def equal (a b : Constant D) : Bool :=
  convert D (commonType D a.promoted b.promoted) a.value = convert D (commonType D a.promoted b.promoted) b.value

/-! ### Ranges -/

theorem DataModel.width_pos (D : DataModel) (rank : Rank) : 0 < D.width rank := by
  have := D.width_int_pos
  have := D.width_int_le_long
  have := D.width_long_le_longLong
  cases rank with
  | int => omega
  | long => omega
  | longLong => omega

theorem DataModel.width_mono (D : DataModel) {a b : Rank} (below : a.index ≤ b.index) : D.width a ≤ D.width b := by
  have := D.width_int_le_long
  have := D.width_long_le_longLong
  cases a with
  | int => cases b with | _ => omega
  | long =>
      cases b with
      | int => simp [Rank.index] at below
      | _ => omega
  | longLong =>
      cases b with
      | int => simp [Rank.index] at below
      | long => simp [Rank.index] at below
      | longLong => exact Nat.le_refl _

/-- A type represents the values of a narrower one. -/
theorem represents_inRange {target : PromotedType} {signed : Bool} {width : Nat} {value : Int}
    (fits : represents D target signed width = true) (inRange : InRange signed width value) :
    InRange target.signed (D.width target.rank) value := by
  obtain ⟨targetSigned, rank⟩ := target
  unfold represents at fits
  unfold InRange at inRange ⊢
  cases signed with
  | true =>
      cases targetSigned with
      | true =>
          simp only [if_true, decide_eq_true_eq] at fits inRange ⊢
          have bound : (2 : Int) ^ (width - 1) ≤ 2 ^ (D.width rank - 1) :=
            pow_le_pow_right₀ (by decide) (by omega)
          omega
      | false => simp at fits
  | false =>
      cases targetSigned with
      | true =>
          simp only [Bool.false_eq_true, if_false, Bool.true_and, decide_eq_true_eq, if_true] at fits inRange ⊢
          have bound : (2 : Int) ^ width ≤ 2 ^ (D.width rank - 1) := pow_le_pow_right₀ (by decide) (by omega)
          have low : (0 : Int) < 2 ^ (D.width rank - 1) := by positivity
          omega
      | false =>
          simp only [if_true, Bool.false_eq_true, if_false, decide_eq_true_eq] at fits inRange ⊢
          have bound : (2 : Int) ^ width ≤ 2 ^ D.width rank := pow_le_pow_right₀ (by decide) fits
          omega

/-- Promotion keeps the value. -/
theorem Constant.promoted_inRange (c : Constant D) :
    InRange c.promoted.signed (D.width c.promoted.rank) c.value := by
  obtain ⟨type, value, inRange⟩ := c
  cases type with
  | promoted type => exact inRange
  | small type =>
      simp only [Constant.promoted, promote]
      cases found : promotions.find? fun target =>
          represents D target (D.isSmallSigned type) (D.smallWidth type) with
      | some target =>
          have fits := List.find?_some found
          exact represents_inRange fits inRange
      | none =>
          -- the signed candidates failed, so the type is unsigned, and the last one takes it
          have rest := List.find?_eq_none.mp found ⟨true, .longLong⟩ (by simp [promotions])
          have narrow := D.smallWidth_le type
          have unsigned : D.isSmallSigned type = false := by
            cases sign : D.isSmallSigned type with
            | false => rfl
            | true => simp [represents, sign, narrow] at rest
          have fits : represents D ⟨false, .longLong⟩ (D.isSmallSigned type) (D.smallWidth type) = true := by
            simp [represents, unsigned, narrow]
          exact represents_inRange fits inRange

/-! ### Conversion to the common type -/

theorem commonType_comm (a b : PromotedType) : commonType D a b = commonType D b a := by
  obtain ⟨signedA, rankA⟩ := a
  obtain ⟨signedB, rankB⟩ := b
  cases signedA with
  | true =>
      cases signedB with
      | true => cases rankA with | _ => cases rankB with | _ => rfl
      | false => rfl
  | false =>
      cases signedB with
      | true => rfl
      | false => cases rankA with | _ => cases rankB with | _ => rfl

/-- A signed common type represents the operand; an unsigned one is at least as wide. -/
theorem commonType_absorbs (a b : PromotedType) :
    (commonType D a b).signed = true ∧ represents D (commonType D a b) a.signed (D.width a.rank) = true ∨
      (commonType D a b).signed = false ∧ D.width a.rank ≤ D.width (commonType D a b).rank := by
  obtain ⟨signedA, rankA⟩ := a
  obtain ⟨signedB, rankB⟩ := b
  cases signedA with
  | true =>
      cases signedB with
      | true =>
          left
          simp only [commonType]
          split
          next below => exact ⟨rfl, by simpa [represents] using D.width_mono below⟩
          next => exact ⟨rfl, by simp [represents]⟩
      | false =>
          simp only [commonType, mixedType]
          split
          next below => exact .inr ⟨rfl, D.width_mono below⟩
          next =>
              split
              next => exact .inl ⟨rfl, by simp [represents]⟩
              next => exact .inr ⟨rfl, Nat.le_refl _⟩
  | false =>
      cases signedB with
      | true =>
          simp only [commonType, mixedType]
          split
          next => exact .inr ⟨rfl, Nat.le_refl _⟩
          next above =>
              split
              next wider => exact .inl ⟨rfl, by simpa [represents] using wider⟩
              next => exact .inr ⟨rfl, D.width_mono (Nat.le_of_lt (Nat.not_le.mp above))⟩
      | false =>
          right
          simp only [commonType]
          split
          next below => exact ⟨rfl, D.width_mono below⟩
          next => exact ⟨rfl, Nat.le_refl _⟩

/-- What conversion to the common type does: a negative value wraps if the type is unsigned. -/
def image (D : DataModel) (target : PromotedType) (value : Int) : Int :=
  if target.signed = false ∧ value < 0 then value + 2 ^ D.width target.rank else value

theorem convert_of_inRange {target : PromotedType} {value : Int} (signed : target.signed = true)
    (inRange : InRange true (D.width target.rank) value) : convert D target value = value := by
  have pos := D.width_pos target.rank
  have half : (2 : Int) ^ D.width target.rank = 2 * 2 ^ (D.width target.rank - 1) := by
    rw [← pow_succ', Nat.sub_add_cancel pos]
  simp only [InRange, if_true] at inRange
  rw [convert, if_pos signed]
  apply Int.bmod_eq_of_le
  · push_cast
    omega
  · push_cast
    omega

theorem convert_unsigned {target : PromotedType} {value : Int} (unsigned : target.signed = false)
    (low : -2 ^ D.width target.rank ≤ value) (high : value < 2 ^ D.width target.rank) :
    convert D target value = image D target value := by
  rw [convert, image, unsigned]
  simp only [Bool.false_eq_true, if_false, true_and]
  split
  next negative => rw [Int.emod_eq_add_self_emod, Int.emod_eq_of_lt (by omega) (by omega)]
  next => rw [Int.emod_eq_of_lt (by omega) high]

/-- Conversion of the left operand. -/
theorem convert_commonType (a b : Constant D) :
    convert D (commonType D a.promoted b.promoted) a.value =
      image D (commonType D a.promoted b.promoted) a.value := by
  have inRange := a.promoted_inRange
  rcases commonType_absorbs (D := D) a.promoted b.promoted with ⟨signed, fits⟩ | ⟨unsigned, wide⟩
  · have within := represents_inRange fits inRange
    rw [signed] at within
    rw [convert_of_inRange signed within, image, signed]
    simp
  · have bound : (2 : Int) ^ D.width a.promoted.rank ≤ 2 ^ D.width (commonType D a.promoted b.promoted).rank :=
      pow_le_pow_right₀ (by decide) wide
    have low : (2 : Int) ^ (D.width a.promoted.rank - 1) ≤ 2 ^ D.width a.promoted.rank :=
      pow_le_pow_right₀ (by decide) (Nat.sub_le _ _)
    have pos : (0 : Int) < 2 ^ (D.width a.promoted.rank - 1) := by positivity
    unfold InRange at inRange
    apply convert_unsigned unsigned
    · split at inRange
      next => omega
      next => omega
    · split at inRange
      next => omega
      next => omega

/-- Comparison in terms of the images. -/
theorem less_iff_image (a b : Constant D) :
    less a b = true ↔ image D (commonType D a.promoted b.promoted) a.value <
      image D (commonType D a.promoted b.promoted) b.value := by
  have right := convert_commonType b a
  rw [commonType_comm] at right
  rw [less, decide_eq_true_eq, convert_commonType, right]

theorem equal_iff_image (a b : Constant D) :
    equal a b = true ↔ image D (commonType D a.promoted b.promoted) a.value =
      image D (commonType D a.promoted b.promoted) b.value := by
  have right := convert_commonType b a
  rw [commonType_comm] at right
  rw [equal, decide_eq_true_eq, convert_commonType, right]

/-- Operands are ordered one way or the other unless they compare equal. -/
theorem less_or_less_iff (a b : Constant D) : less a b = true ∨ less b a = true ↔ ¬ equal a b = true := by
  rw [less_iff_image, less_iff_image, equal_iff_image, commonType_comm b.promoted a.promoted]
  omega

/-- Two negative operands are of signed types. -/
theorem commonType_negative {a b : Constant D} (negA : a.value < 0) (negB : b.value < 0) :
    (commonType D a.promoted b.promoted).signed = true := by
  have signed : ∀ c : Constant D, c.value < 0 → c.promoted.signed = true := by
    intro c negative
    have inRange := c.promoted_inRange
    cases sign : c.promoted.signed with
    | true => rfl
    | false =>
        rw [sign] at inRange
        simp only [InRange, Bool.false_eq_true, if_false] at inRange
        omega
  rw [commonType, signed a negA, signed b negB]
  simp only
  split
  next => exact signed b negB
  next => exact signed a negA

/-! ### When a comparison is not numeric -/

/-- A negative operand `n` and an operand `x` that is not, with an unsigned common type in which `n` wraps to a
    value above `x`: the comparison puts `x` before `n`. -/
def Misordered (n x : Constant D) : Prop :=
  n.value < 0 ∧ 0 ≤ x.value ∧ (commonType D n.promoted x.promoted).signed = false ∧
    x.value < n.value + 2 ^ D.width (commonType D n.promoted x.promoted).rank

/-- A negative operand that wraps to the value of the other one. -/
def Meets (n x : Constant D) : Prop :=
  n.value < 0 ∧ 0 ≤ x.value ∧ (commonType D n.promoted x.promoted).signed = false ∧
    x.value = n.value + 2 ^ D.width (commonType D n.promoted x.promoted).rank

instance (n x : Constant D) : Decidable (Misordered n x) := inferInstanceAs (Decidable (_ ∧ _))

instance (n x : Constant D) : Decidable (Meets n x) := inferInstanceAs (Decidable (_ ∧ _))

/-- The comparison is numeric but for a negative operand that wraps. -/
theorem less_iff (a b : Constant D) :
    less a b = true ↔ a.value < b.value ∧ ¬ Misordered a b ∧ ¬ Meets a b ∨ Misordered b a := by
  have negative := @commonType_negative D a b
  rw [less_iff_image, Misordered, Misordered, Meets, commonType_comm b.promoted a.promoted, image, image]
  -- by the signs of the operands and of the common type
  grind

/-- Operands compare equal if they have the same value, or if one of them wraps to the other. -/
theorem equal_iff (a b : Constant D) : equal a b = true ↔ a.value = b.value ∨ Meets a b ∨ Meets b a := by
  have negative := @commonType_negative D a b
  rw [equal_iff_image, Meets, Meets, commonType_comm b.promoted a.promoted, image, image]
  grind

end CommonRpc.Lib.Integral
