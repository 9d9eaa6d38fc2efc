import Mathlib.Algebra.Field.Rat
import Mathlib.Data.Int.Log
import Mathlib.Data.Rat.Floor
import Mathlib.Tactic.Linarith

/-! The double nearest to a rational number, and the even one of two that are equally near.
Exponents are bounded from below only: a number too large for a double stays large. -/

namespace Double

def roundEven (q : ℚ) : ℤ :=
  if q - ⌊q⌋ < 1 / 2 ∨ q - ⌊q⌋ = 1 / 2 ∧ ⌊q⌋ % 2 = 0 then ⌊q⌋ else ⌊q⌋ + 1

theorem roundEven_intCast (n : ℤ) : roundEven n = n := by
  simp [roundEven]

def exponent (q : ℚ) : ℤ := max (Int.log 2 |q| - 52) (-1074)

def ofRat (q : ℚ) : ℚ := roundEven (q / 2 ^ exponent q) * 2 ^ exponent q

theorem ofRat_of_multiple {q : ℚ} {k : ℤ} (multiple : q = k * 2 ^ exponent q) : ofRat q = q := by
  have unit : (2 : ℚ) ^ exponent q ≠ 0 := zpow_ne_zero _ (by decide)
  have whole : q / 2 ^ exponent q = k := (div_eq_iff unit).mpr multiple
  rw [ofRat, whole, roundEven_intCast, ← multiple]

theorem exponent_nonpos {q : ℚ} (small : |q| < 2 ^ 53) : exponent q ≤ 0 := by
  rcases eq_or_ne q 0 with rfl | other
  · simp [exponent]
  · have log : Int.log 2 |q| < 53 :=
      (Int.lt_zpow_iff_log_lt (by decide) (abs_pos.mpr other)).mp (by exact_mod_cast small)
    rw [exponent]
    omega

theorem ofRat_intCast {n : ℤ} (small : |n| < 2 ^ 53) : ofRat n = n := by
  have small : |(n : ℚ)| < 2 ^ 53 := by exact_mod_cast small
  obtain ⟨k, same⟩ := Int.exists_eq_neg_ofNat (exponent_nonpos small)
  refine ofRat_of_multiple (k := n * 2 ^ k) ?_
  have unit : (2 : ℚ) ^ k ≠ 0 := pow_ne_zero _ (by decide)
  rw [same, zpow_neg, zpow_natCast]
  push_cast
  rw [mul_assoc, mul_inv_cancel₀ unit, mul_one]

/-- From `2 ^ 53` on, every other whole number is left out. -/
example : ofRat 9007199254740993 = 9007199254740992 ∧
    ofRat 9007199254740995 = 9007199254740996 := by decide +kernel

end Double
