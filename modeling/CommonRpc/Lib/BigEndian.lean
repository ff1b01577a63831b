/-
Module: CommonRpc.Lib.BigEndian
Purpose: Fixed-width big-endian bytes. `toBytes w n` and `ofBytes` are the arithmetic reading: base 256
  digits, most significant first. `shiftMask` and `orShift` are the two loops programs write for it over
  machine words of any width. The two readings agree (`shiftMask_eq_toBytes`, `orShift_toNat`), so the
  round trips are proved once, on numbers.
Trusted boundary: none
-/
import Mathlib.Algebra.Order.Ring.Nat
import Mathlib.Tactic.Linarith
import Mathlib.Tactic.Ring

namespace CommonRpc.Lib.BigEndian

/-- The number a byte string spells in base 256, most significant byte first. -/
def ofBytes : List UInt8 → Nat
  | [] => 0
  | b :: bs => b.toNat * 256 ^ bs.length + ofBytes bs

/-- The `w` lowest base 256 digits of a number, most significant first. -/
def toBytes : Nat → Nat → List UInt8
  | 0, _ => []
  | w + 1, n => UInt8.ofNat (n / 256 ^ w) :: toBytes w n

@[simp] theorem length_toBytes (w n : Nat) : (toBytes w n).length = w := by
  induction w with
  | zero => rfl
  | succ w ih => simp [toBytes, ih]

theorem ofBytes_lt (bs : List UInt8) : ofBytes bs < 256 ^ bs.length := by
  induction bs with
  | nil => simp [ofBytes]
  | cons b bs ih =>
      have hb : b.toNat < 256 := b.toNat_lt
      have hmul : b.toNat * 256 ^ bs.length ≤ 255 * 256 ^ bs.length :=
        Nat.mul_le_mul_right _ (by omega)
      simp only [ofBytes, List.length_cons, pow_succ]
      omega

/-- Reading back the digits of a number gives the number modulo the width. -/
theorem ofBytes_toBytes (w n : Nat) : ofBytes (toBytes w n) = n % 256 ^ w := by
  induction w with
  | zero => simp [toBytes, ofBytes, Nat.mod_one]
  | succ w ih =>
      simp only [toBytes, ofBytes, length_toBytes, ih, UInt8.toNat_ofNat', Nat.reducePow]
      rw [pow_succ, Nat.mod_mul]
      ring

theorem ofBytes_toBytes_of_lt {w n : Nat} (h : n < 256 ^ w) : ofBytes (toBytes w n) = n := by
  rw [ofBytes_toBytes, Nat.mod_eq_of_lt h]

/-- Digits of higher weight than the width do not show. -/
theorem toBytes_add_mul (w a n : Nat) : toBytes w (a * 256 ^ w + n) = toBytes w n := by
  induction w generalizing a with
  | zero => rfl
  | succ w ih =>
      have hsplit : a * 256 ^ (w + 1) + n = a * 256 * 256 ^ w + n := by ring
      have hpos : 0 < 256 ^ w := Nat.pow_pos (by decide)
      have hdiv : (a * 256 * 256 ^ w + n) / 256 ^ w = a * 256 + n / 256 ^ w := by
        rw [Nat.add_comm, Nat.add_mul_div_right _ _ hpos, Nat.add_comm]
      rw [hsplit]
      simp only [toBytes, ih, hdiv]
      congr 1
      apply UInt8.toNat_inj.mp
      simp only [UInt8.toNat_ofNat', Nat.reducePow]
      omega

/-- Every byte string is the digit string of the number it spells. -/
theorem toBytes_ofBytes (bs : List UInt8) : toBytes bs.length (ofBytes bs) = bs := by
  induction bs with
  | nil => rfl
  | cons b bs ih =>
      have hpos : 0 < 256 ^ bs.length := Nat.pow_pos (by decide)
      have hdiv : (b.toNat * 256 ^ bs.length + ofBytes bs) / 256 ^ bs.length = b.toNat := by
        rw [Nat.add_comm, Nat.add_mul_div_right _ _ hpos, Nat.div_eq_of_lt (ofBytes_lt bs),
          Nat.zero_add]
      simp only [List.length_cons, toBytes, ofBytes, hdiv, UInt8.ofNat_toNat]
      rw [toBytes_add_mul, ih]

/-! ### The word loops -/

/-- `ans |= byte << offset` over the bytes, the offset of a byte being eight times the number of
    bytes after it. -/
def orShift {w : Nat} (ans : BitVec w) : List UInt8 → BitVec w
  | [] => ans
  | b :: bs => orShift (ans ||| (b.toBitVec.setWidth w <<< (bs.length * 8))) bs

/-- `(number >> offset) & 0xFF` for each of the `k` byte positions, the highest first. -/
def shiftMask {w : Nat} (k : Nat) (number : BitVec w) : List UInt8 :=
  (List.range k).map fun i =>
    UInt8.ofBitVec (((number >>> ((k - i - 1) * 8)) &&& 0xFF#w).setWidth 8)

theorem two_pow_mul_eight (k : Nat) : 2 ^ (k * 8) = 256 ^ k := by
  rw [Nat.mul_comm, pow_mul, show 2 ^ 8 = 256 from rfl]

/-- Or-ing in a byte below all bits set so far is adding it. -/
theorem orShift_step_toNat {w k a : Nat} {ans : BitVec w} (b : UInt8)
    (low : ans.toNat = a * 256 ^ (k + 1)) (fits : (a + 1) * 256 ^ (k + 1) ≤ 2 ^ w) :
    (ans ||| (b.toBitVec.setWidth w <<< (k * 8))).toNat = ans.toNat + b.toNat * 256 ^ k := by
  have hb : b.toNat < 256 := b.toNat_lt
  have hpos : 0 < 256 ^ k := Nat.pow_pos (by decide)
  have hsucc : 256 ^ (k + 1) = 256 * 256 ^ k := by ring
  have hbk : b.toNat * 256 ^ k < 256 ^ (k + 1) := by
    rw [hsucc]
    exact (Nat.mul_lt_mul_right hpos).mpr hb
  have hpow : 256 ^ (k + 1) ≤ 2 ^ w := le_trans (Nat.le_mul_of_pos_left _ (Nat.succ_pos a)) fits
  have hbw : b.toNat < 2 ^ w := lt_of_lt_of_le hb (le_trans (by rw [hsucc]; omega) hpow)
  have hshift : (b.toBitVec.setWidth w <<< (k * 8)).toNat = b.toNat * 256 ^ k := by
    rw [BitVec.toNat_shiftLeft, BitVec.toNat_setWidth, UInt8.toNat_toBitVec,
      Nat.mod_eq_of_lt hbw, Nat.shiftLeft_eq, two_pow_mul_eight,
      Nat.mod_eq_of_lt (lt_of_lt_of_le hbk hpow)]
  have hans : ans.toNat = a <<< ((k + 1) * 8) := by
    rw [Nat.shiftLeft_eq, two_pow_mul_eight, low]
  rw [BitVec.toNat_or, hshift, hans]
  refine (Nat.shiftLeft_add_eq_or_of_lt ?_ a).symm
  rwa [two_pow_mul_eight]

/-- The or loop adds the number the bytes spell, as long as the word has room for it. -/
theorem orShift_toNat_add {w a : Nat} (bs : List UInt8) {ans : BitVec w}
    (low : ans.toNat = a * 256 ^ bs.length) (fits : (a + 1) * 256 ^ bs.length ≤ 2 ^ w) :
    (orShift ans bs).toNat = ans.toNat + ofBytes bs := by
  induction bs generalizing a ans with
  | nil => simp [orShift, ofBytes]
  | cons b bs ih =>
      have hstep := orShift_step_toNat b low fits
      have hb : b.toNat < 256 := b.toNat_lt
      have hlow : (ans ||| (b.toBitVec.setWidth w <<< (bs.length * 8))).toNat =
          (a * 256 + b.toNat) * 256 ^ bs.length := by
        rw [hstep, low, List.length_cons]
        ring
      have hfits : (a * 256 + b.toNat + 1) * 256 ^ bs.length ≤ 2 ^ w := by
        refine le_trans ?_ fits
        rw [List.length_cons, pow_succ', ← Nat.mul_assoc]
        exact Nat.mul_le_mul_right _ (by omega)
      rw [orShift, ih hlow hfits, hstep, ofBytes]
      omega

/-- The or loop from zero spells the bytes. -/
theorem orShift_toNat {w : Nat} {bs : List UInt8} (fits : bs.length * 8 ≤ w) :
    (orShift (0#w) bs).toNat = ofBytes bs := by
  have hroom : (0 + 1) * 256 ^ bs.length ≤ 2 ^ w := by
    rw [Nat.zero_add, Nat.one_mul, ← two_pow_mul_eight]
    exact Nat.pow_le_pow_right (by decide) fits
  rw [orShift_toNat_add bs (a := 0) (by simp) hroom]
  simp

/-- One position of the mask loop is one base 256 digit. -/
theorem shiftMask_digit {w : Nat} (wide : 8 ≤ w) (number : BitVec w) (k : Nat) :
    UInt8.ofBitVec (((number >>> (k * 8)) &&& 0xFF#w).setWidth 8) =
      UInt8.ofNat (number.toNat / 256 ^ k) := by
  have hmask : 255 < 2 ^ w :=
    lt_of_lt_of_le (by decide : 255 < 2 ^ 8) (Nat.pow_le_pow_right (by decide) wide)
  apply UInt8.toNat_inj.mp
  simp only [UInt8.toNat_ofBitVec, BitVec.toNat_setWidth, BitVec.toNat_and, BitVec.toNat_ushiftRight,
    BitVec.toNat_ofNat, UInt8.toNat_ofNat', Nat.shiftRight_eq_div_pow, two_pow_mul_eight,
    Nat.mod_eq_of_lt hmask]
  rw [show 255 = 2 ^ 8 - 1 from rfl, Nat.and_two_pow_sub_one_eq_mod, Nat.mod_mod]

/-- The mask loop computes the base 256 digits. -/
theorem shiftMask_eq_toBytes {w : Nat} (wide : 8 ≤ w) (k : Nat) (number : BitVec w) :
    shiftMask k number = toBytes k number.toNat := by
  have hdigits : ∀ k, (List.range k).map (fun i => UInt8.ofNat (number.toNat / 256 ^ (k - i - 1))) =
      toBytes k number.toNat := by
    intro k
    induction k with
    | zero => rfl
    | succ k ih =>
        rw [List.range_succ_eq_map, toBytes, ← ih]
        simp [Function.comp_def]
  rw [shiftMask, ← hdigits]
  refine List.map_congr_left ?_
  intro i _
  exact shiftMask_digit wide number (k - i - 1)

end CommonRpc.Lib.BigEndian
