import Mathlib.Algebra.Order.Field.Rat
import Mathlib.Algebra.Order.Field.Basic

/-!
# Rounding up to a multiple

`Rat.ceilTo step x` is the smallest multiple of a positive `step` that is not below `x`.
-/

namespace Rat

/-- Round up to the next multiple of `step`. -/
def ceilTo (step x : Rat) : Rat := (x / step).ceil * step

variable {step x y : Rat}

theorem le_ceilTo (hstep : 0 < step) (x : Rat) : x ≤ ceilTo step x := by
  have hceil : x / step ≤ ((x / step).ceil : Rat) := Rat.le_ceil
  exact (div_le_iff₀ hstep).mp hceil

theorem ceilTo_mono (hstep : 0 < step) (hxy : x ≤ y) : ceilTo step x ≤ ceilTo step y := by
  have hdiv : x / step ≤ y / step := div_le_div_of_nonneg_right hxy hstep.le
  have hceil : (x / step).ceil ≤ (y / step).ceil := Rat.ceil_le_iff.mpr (hdiv.trans Rat.le_ceil)
  exact mul_le_mul_of_nonneg_right (Int.cast_le.mpr hceil) hstep.le

/-- A positive part of a step is rounded up to one step. -/
theorem ceilTo_of_le (hstep : 0 < step) (hx : 0 < x) (hle : x ≤ step) : ceilTo step x = step := by
  have hone : (x / step).ceil = 1 := by
    have hupper : (x / step).ceil ≤ 1 :=
      Rat.ceil_le_iff.mpr (by rw [Int.cast_one]; exact (div_le_one hstep).mpr hle)
    have hlower : 0 < (x / step).ceil :=
      Rat.lt_ceil_iff.mpr (by rw [Int.cast_zero]; exact div_pos hx hstep)
    omega
  unfold ceilTo
  rw [hone, Int.cast_one, one_mul]

/-- Nothing positive is rounded up to less than one step. -/
theorem step_le_ceilTo (hstep : 0 < step) (hx : 0 < x) : step ≤ ceilTo step x := by
  have hpos : 0 < (x / step).ceil :=
    Rat.lt_ceil_iff.mpr (by rw [Int.cast_zero]; exact div_pos hx hstep)
  have hone : (1 : Rat) ≤ (x / step).ceil := by exact_mod_cast hpos
  calc step = 1 * step := (one_mul step).symm
    _ ≤ (x / step).ceil * step := mul_le_mul_of_nonneg_right hone hstep.le

end Rat
