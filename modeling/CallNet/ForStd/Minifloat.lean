import Mathlib.Data.Nat.Log
import Mathlib.Order.Monotone.Basic
import Mathlib.Tactic.Ring

/-!
# Small floating-point numbers

A number of at least `2 ^ k` is coded by its exponent and by the `k` bits behind its leading bit;
what is behind these is dropped.  `lower k c` is the least number with code `c`, and `step k c`
says how many have it.

* `lower_le_iff`: the code is the last one whose least number is not above the number
* `code_lower`: every code is the code of its least number
* `two_pow_mul_step_le`: a step is a small part of the numbers it holds
-/

namespace Minifloat

def code (k x : Nat) : Nat := 2 ^ k * (x.log2 - k) + (x / 2 ^ (x.log2 - k) - 2 ^ k)

def lower (k c : Nat) : Nat := (2 ^ k + c % 2 ^ k) * 2 ^ (c / 2 ^ k)

def step (k c : Nat) : Nat := 2 ^ (c / 2 ^ k)

theorem step_pos (k c : Nat) : 0 < step k c := Nat.two_pow_pos _

/-- The bits of a number down to the last one that is kept. -/
theorem leading_bounds {k x : Nat} (hx : 2 ^ k ≤ x) :
    2 ^ k ≤ x / 2 ^ (x.log2 - k) ∧ x / 2 ^ (x.log2 - k) < 2 ^ k + 2 ^ k := by
  have hpos : 0 < 2 ^ (x.log2 - k) := Nat.two_pow_pos _
  have hne : x ≠ 0 := by
    have := Nat.two_pow_pos k
    omega
  have hk : k ≤ x.log2 := (Nat.le_log2 hne).mpr hx
  rw [Nat.le_div_iff_mul_le hpos, Nat.div_lt_iff_lt_mul hpos, ← Nat.two_mul, ← Nat.pow_succ',
    ← Nat.pow_add, ← Nat.pow_add]
  have hlow : k + (x.log2 - k) = x.log2 := by omega
  have hhigh : k + 1 + (x.log2 - k) = x.log2 + 1 := by omega
  rw [hlow, hhigh]
  exact ⟨Nat.log2_self_le hne, Nat.lt_log2_self⟩

theorem code_div {k x : Nat} (hx : 2 ^ k ≤ x) : code k x / 2 ^ k = x.log2 - k := by
  obtain ⟨hlow, hhigh⟩ := leading_bounds hx
  rw [code, Nat.mul_add_div (Nat.two_pow_pos k), Nat.div_eq_of_lt (by omega), Nat.add_zero]

theorem code_mod {k x : Nat} (hx : 2 ^ k ≤ x) :
    code k x % 2 ^ k = x / 2 ^ (x.log2 - k) - 2 ^ k := by
  obtain ⟨hlow, hhigh⟩ := leading_bounds hx
  rw [code, Nat.mul_add_mod, Nat.mod_eq_of_lt (by omega)]

theorem step_code {k x : Nat} (hx : 2 ^ k ≤ x) : step k (code k x) = 2 ^ (x.log2 - k) := by
  rw [step, code_div hx]

theorem lower_code {k x : Nat} (hx : 2 ^ k ≤ x) :
    lower k (code k x) = x / step k (code k x) * step k (code k x) := by
  rw [step_code hx, lower, code_div hx, code_mod hx, Nat.add_sub_cancel' (leading_bounds hx).1]

theorem lower_code_le {k x : Nat} (hx : 2 ^ k ≤ x) : lower k (code k x) ≤ x := by
  rw [lower_code hx]
  exact Nat.div_mul_le_self x _

theorem lt_lower_code_add {k x : Nat} (hx : 2 ^ k ≤ x) :
    x < lower k (code k x) + step k (code k x) := by
  rw [lower_code hx]
  exact Nat.lt_div_mul_add (step_pos k _)

/-- The steps are put end to end, also where the exponent changes. -/
theorem lower_succ (k c : Nat) : lower k (c + 1) = lower k c + step k c := by
  have hpos := Nat.two_pow_pos k
  have hlt := Nat.mod_lt c hpos
  have hc := Nat.div_add_mod c (2 ^ k)
  unfold lower step
  by_cases hmod : c % 2 ^ k + 1 < 2 ^ k
  · have hnext : c + 1 = 2 ^ k * (c / 2 ^ k) + (c % 2 ^ k + 1) := by omega
    have hdiv : (c + 1) / 2 ^ k = c / 2 ^ k := by
      rw [hnext, Nat.mul_add_div hpos, Nat.div_eq_of_lt hmod, Nat.add_zero]
    have hrem : (c + 1) % 2 ^ k = c % 2 ^ k + 1 := by
      rw [hnext, Nat.mul_add_mod, Nat.mod_eq_of_lt hmod]
    rw [hdiv, hrem]
    ring
  · have hlast : c % 2 ^ k + 1 = 2 ^ k := by omega
    have hnext : c + 1 = 2 ^ k * (c / 2 ^ k + 1) := by
      rw [Nat.mul_add, Nat.mul_one]
      omega
    have hdiv : (c + 1) / 2 ^ k = c / 2 ^ k + 1 := by
      rw [hnext, Nat.mul_div_cancel_left _ hpos]
    have hrem : (c + 1) % 2 ^ k = 0 := by
      rw [hnext, Nat.mul_mod_right]
    rw [hdiv, hrem, Nat.add_zero, Nat.pow_succ]
    calc 2 ^ k * (2 ^ (c / 2 ^ k) * 2)
        = (2 ^ k + 2 ^ k) * 2 ^ (c / 2 ^ k) := by ring
      _ = (2 ^ k + (c % 2 ^ k + 1)) * 2 ^ (c / 2 ^ k) := by rw [hlast]
      _ = (2 ^ k + c % 2 ^ k) * 2 ^ (c / 2 ^ k) + 2 ^ (c / 2 ^ k) := by ring

theorem lower_strictMono (k : Nat) : StrictMono (lower k) := by
  apply strictMono_nat_of_lt_succ
  intro c
  rw [lower_succ]
  exact Nat.lt_add_of_pos_right (step_pos k c)

/-- The code is the last one whose least number is not above the number. -/
theorem lower_le_iff {k x c : Nat} (hx : 2 ^ k ≤ x) : lower k c ≤ x ↔ c ≤ code k x := by
  constructor
  · intro h
    by_contra hlt
    have hnext : lower k (code k x + 1) ≤ lower k c :=
      (lower_strictMono k).monotone (by omega)
    have hx := lt_lower_code_add hx
    rw [lower_succ] at hnext
    omega
  · intro h
    exact ((lower_strictMono k).monotone h).trans (lower_code_le hx)

theorem code_mono {k x y : Nat} (hx : 2 ^ k ≤ x) (hxy : x ≤ y) : code k x ≤ code k y :=
  (lower_le_iff (hx.trans hxy)).mp ((lower_code_le hx).trans hxy)

/-- The numbers of a code are those from its least number on, one step long. -/
theorem code_eq {k x c : Nat} (hlow : lower k c ≤ x) (hhigh : x < lower k c + step k c) :
    code k x = c := by
  have hx : 2 ^ k ≤ x := by
    have hzero : lower k 0 = 2 ^ k := by simp [lower]
    rw [← hzero]
    exact ((lower_strictMono k).monotone (Nat.zero_le c)).trans hlow
  apply Nat.le_antisymm
  · by_contra hlt
    have hnext := (lower_le_iff (c := c + 1) hx).mpr (by omega)
    rw [lower_succ] at hnext
    omega
  · exact (lower_le_iff hx).mp hlow

theorem code_lower (k c : Nat) : code k (lower k c) = c :=
  code_eq (Nat.le_refl _) (Nat.lt_add_of_pos_right (step_pos k c))

/-- A step is a small part of the numbers it holds. -/
theorem two_pow_mul_step_le (k c : Nat) : 2 ^ k * step k c ≤ lower k c :=
  Nat.mul_le_mul_right _ (Nat.le_add_right _ _)

end Minifloat
