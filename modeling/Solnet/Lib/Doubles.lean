import Mathlib.Data.Int.Log
import Mathlib.Data.Rat.Floor
import Mathlib.Tactic.NormNum

/-! The arithmetic of finite numbers in double precision: a result is the nearest number that has
53 significant bits, the even one of two that are as near. Whole numbers below `2 ^ 53` are
exact. -/
namespace Doubles

/-- The nearest integer, the even one of two that are as near. -/
def nearestEven (x : ℚ) : Int :=
  let low := ⌊x⌋
  if x - low < 1 / 2 ∨ x - low = 1 / 2 ∧ low % 2 = 0 then low else low + 1

/-- The exponent of the last bit, which does not go below that of the least double. -/
def lastBit (x : ℚ) : Int := max (Int.log 2 |x| - 52) (-1074)

/-- Overflow is left out: a number past the largest double is not rounded to infinity. -/
def nearest (x : ℚ) : ℚ := nearestEven (x / 2 ^ lastBit x) * 2 ^ lastBit x

def add (x y : ℚ) : ℚ := nearest (x + y)

def sub (x y : ℚ) : ℚ := nearest (x - y)

theorem nearestEven_intCast (n : Int) : nearestEven n = n := by
  have whole : (n : ℚ) - ⌊(n : ℚ)⌋ < 1 / 2 := by
    rw [Int.floor_intCast, sub_self]
    norm_num
  rw [nearestEven, if_pos (.inl whole), Int.floor_intCast]

theorem lastBit_nonpos {n : Int} (small : |n| < 2 ^ 53) : lastBit n ≤ 0 := by
  have log : Int.log 2 |(n : ℚ)| < 53 := by
    by_cases zero : n = 0
    · rw [zero, Int.cast_zero, abs_zero, Int.log_zero_right]
      decide
    · have positive : (0 : ℚ) < |(n : ℚ)| := abs_pos.mpr (Int.cast_ne_zero.mpr zero)
      rw [← Int.lt_zpow_iff_log_lt (by decide) positive, ← Int.cast_abs]
      exact_mod_cast small
  rw [lastBit, max_le_iff]
  omega

/-- Whole numbers that have at most 53 bits are doubles. -/
theorem nearest_intCast {n : Int} (small : |n| < 2 ^ 53) : nearest n = n := by
  obtain ⟨m, bit⟩ := Int.exists_eq_neg_ofNat (lastBit_nonpos small)
  have scaled : (n : ℚ) / 2 ^ lastBit n = ((n * 2 ^ m : Int) : ℚ) := by
    rw [bit, zpow_neg, div_inv_eq_mul, zpow_natCast]
    push_cast
    rfl
  have unit : (2 : ℚ) ^ lastBit n ≠ 0 := zpow_ne_zero _ two_ne_zero
  rw [nearest, scaled, nearestEven_intCast, ← scaled, div_mul_cancel₀ _ unit]

example : nearest (1 / 10) = 3602879701896397 / 36028797018963968 := by decide +kernel

theorem nearest_zero : nearest 0 = 0 := by
  exact_mod_cast nearest_intCast (n := 0) (by norm_num)

/-- A difference that is cut off at zero is exact when the difference itself is. -/
theorem max_sub_eq_iff {x y : ℚ} (ordered : y ≤ x) :
    max 0 (sub x y) = x - y ↔ sub x y = x - y := by
  rcases ordered.eq_or_lt with rfl | below
  · rw [sub, sub_self, nearest_zero, max_self]
  · have positive : 0 < x - y := sub_pos.mpr below
    constructor
    · intro same
      rcases max_choice 0 (sub x y) with zero | kept
      · exact absurd (zero.symm.trans same) positive.ne
      · exact kept.symm.trans same
    · intro exact
      rw [exact, max_eq_right positive.le]

end Doubles
