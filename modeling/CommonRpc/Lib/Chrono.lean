/-
Module: CommonRpc.Lib.Chrono
Purpose: Clock arithmetic with counts of a signed type, in which overflow is undefined. A duration in coarse ticks
  is converted to the ticks of the clock before it is compared or added, and the conversion multiplies; it is as
  much a place to overflow as the addition. The intended sum stops at the last point of time.
Trusted boundary: none
-/
import CommonRpc.Lib.Integral

namespace CommonRpc.Lib.Chrono

/-- The greatest count. -/
def maxValue (width : Nat) : Int := 2 ^ (width - 1) - 1

/-- The result of an operation on counts; an overflow has none. -/
def checked (width : Nat) (value : Int) : Option Int :=
  if Integral.InRange true width value then some value else none

section Clock

variable (width : Nat) (factor : Int)

/-- Conversion to the ticks of the clock, `factor` for each tick of the duration. -/
def durationCast (duration : Int) : Option Int := checked width (duration * factor)

/-- A point of time plus a duration. -/
def addTo (point duration : Int) : Option Int := do
  let ticks ← durationCast width factor duration
  checked width (point + ticks)

/-- Whether a duration is longer than a number of ticks of the clock. -/
def exceeds (duration ticks : Int) : Option Bool := do
  let converted ← durationCast width factor duration
  return decide (converted > ticks)

/-- The sum, or the last point of time. -/
def saturatedAdd (point duration : Int) : Int := min (point + duration * factor) (maxValue width)

/-- The sum with a comparison before it that is meant to keep it in range. -/
def guardedAdd (point duration : Int) : Option Int := do
  let remaining ← checked width (maxValue width - point)
  let longer ← exceeds width factor duration remaining
  if longer then return maxValue width else addTo width factor point duration

end Clock

variable {width : Nat} {factor : Int}

theorem checked_of_nonneg {value : Int} (nonneg : 0 ≤ value) :
    checked width value = if value ≤ maxValue width then some value else none := by
  have power : (0 : Int) < 2 ^ (width - 1) := Int.pow_pos (by decide)
  have inRange : Integral.InRange true width value ↔ value ≤ maxValue width := by
    rw [Integral.InRange, if_pos rfl, maxValue]
    omega
  simp only [checked, inRange]

/-- The sum is defined, and then it is the intended one, exactly if it is in range. -/
theorem addTo_eq {point duration : Int} (pointNonneg : 0 ≤ point) (ticksNonneg : 0 ≤ duration * factor) :
    addTo width factor point duration =
      if point + duration * factor ≤ maxValue width then some (saturatedAdd width factor point duration)
      else none := by
  have sum : checked width (point + duration * factor) =
      if point + duration * factor ≤ maxValue width then some (point + duration * factor) else none :=
    checked_of_nonneg (Int.add_nonneg pointNonneg ticksNonneg)
  rw [addTo, durationCast, checked_of_nonneg ticksNonneg]
  by_cases converted : duration * factor ≤ maxValue width
  · rw [if_pos converted, Option.bind_eq_bind, Option.bind_some, sum]
    split
    next inRange => rw [saturatedAdd, Int.min_eq_left inRange]
    next => rfl
  · have notInRange : ¬ point + duration * factor ≤ maxValue width := by omega
    rw [if_neg converted, if_neg notInRange]
    rfl

theorem exceeds_eq {duration : Int} (ticksNonneg : 0 ≤ duration * factor) (ticks : Int) :
    exceeds width factor duration ticks =
      if duration * factor ≤ maxValue width then some (decide (duration * factor > ticks)) else none := by
  rw [exceeds, durationCast, checked_of_nonneg ticksNonneg]
  split <;> rfl

/-- The guard takes care of the sum, but not of the conversion that it needs itself. -/
theorem guardedAdd_eq {point duration : Int} (pointNonneg : 0 ≤ point) (pointInRange : point ≤ maxValue width)
    (ticksNonneg : 0 ≤ duration * factor) :
    guardedAdd width factor point duration =
      if duration * factor ≤ maxValue width then some (saturatedAdd width factor point duration) else none := by
  have remaining : checked width (maxValue width - point) = some (maxValue width - point) := by
    rw [checked_of_nonneg (by omega), if_pos (by omega)]
  rw [guardedAdd, remaining, Option.bind_eq_bind, Option.bind_some, exceeds_eq ticksNonneg]
  by_cases converted : duration * factor ≤ maxValue width
  · rw [if_pos converted, if_pos converted, Option.bind_eq_bind, Option.bind_some]
    by_cases longer : duration * factor > maxValue width - point
    · have saturated : saturatedAdd width factor point duration = maxValue width :=
        Int.min_eq_right (by omega)
      rw [if_pos (decide_eq_true longer), saturated]
      rfl
    · have inRange : point + duration * factor ≤ maxValue width := by omega
      rw [if_neg (by simp [longer]), addTo_eq pointNonneg ticksNonneg, if_pos inRange]
  · rw [if_neg converted, if_neg converted]
    rfl

/-- A longer duration does not end earlier. -/
theorem saturatedAdd_mono (point : Int) {shorter longer : Int} (factorNonneg : 0 ≤ factor) (le : shorter ≤ longer) :
    saturatedAdd width factor point shorter ≤ saturatedAdd width factor point longer := by
  have ticks : shorter * factor ≤ longer * factor := Int.mul_le_mul_of_nonneg_right le factorNonneg
  rw [saturatedAdd, saturatedAdd]
  omega

end CommonRpc.Lib.Chrono
