import Mathlib.Data.Rat.Floor
import Mathlib.Tactic.Positivity
import Mathlib.Tactic.NormNum
import Mathlib.Tactic.FieldSimp

/-!
# Rounding to a double

- `double`: the double nearest to a number from one on, ties to even;
- `le_double`: it passes no integer.
-/

namespace Double

/-- The nearest integer, and the even one of two. -/
def roundEven (x : Rat) : Int :=
  if x - ⌊x⌋ < 1 / 2 then ⌊x⌋ else if 1 / 2 < x - ⌊x⌋ then ⌊x⌋ + 1 else if ⌊x⌋ % 2 = 0 then ⌊x⌋ else ⌊x⌋ + 1

/-- How far the doubles around a number are apart. -/
def ulp (q : Rat) : Rat := 2 ^ Nat.log2 ⌊q⌋₊ / 2 ^ 52

/-- The double nearest to a number from one on. -/
def double (q : Rat) : Rat := roundEven (q / ulp q) * ulp q

example : double (1 + 1 / 3) = 6004799503160661 / 2 ^ 52 ∧ double (3 - 1 / 2 ^ 52) = 3 := by decide +kernel

theorem le_roundEven {n : Int} {x : Rat} (h : (n : Rat) ≤ x) : n ≤ roundEven x := by
  have hfloor : n ≤ ⌊x⌋ := Int.le_floor.2 h
  unfold roundEven
  split_ifs <;> omega

section Bounds

variable {n : Nat} {q : Rat}

theorem ulp_pos : 0 < ulp q := by
  unfold ulp
  positivity

/-- An integer is a whole number of steps where the steps are no longer than one. -/
theorem natCast_div_ulp (h : Nat.log2 ⌊q⌋₊ ≤ 52) (n : Nat) : (n : Rat) / ulp q = ((n * 2 ^ (52 - Nat.log2 ⌊q⌋₊) : Nat) : Int) := by
  have hsplit : (2 : Rat) ^ 52 = 2 ^ (52 - Nat.log2 ⌊q⌋₊) * 2 ^ Nat.log2 ⌊q⌋₊ := by
    rw [← pow_add, Nat.sub_add_cancel h]
  have hne : (2 : Rat) ^ Nat.log2 ⌊q⌋₊ ≠ 0 := by positivity
  rw [ulp, div_div_eq_mul_div, hsplit, ← mul_assoc, mul_div_cancel_right₀ _ hne]
  push_cast
  rfl

/-- Rounding does not go below an integer. -/
theorem le_double (h : Nat.log2 ⌊q⌋₊ ≤ 52) (hn : (n : Rat) ≤ q) : (n : Rat) ≤ double q := by
  have hle : (n : Rat) / ulp q ≤ q / ulp q := div_le_div_of_nonneg_right hn ulp_pos.le
  rw [natCast_div_ulp h] at hle
  have hround : (((n * 2 ^ (52 - Nat.log2 ⌊q⌋₊) : Nat) : Int) : Rat) ≤ roundEven (q / ulp q) :=
    Int.cast_le.2 (le_roundEven hle)
  rw [← natCast_div_ulp h] at hround
  exact (div_le_iff₀ ulp_pos).1 hround

end Bounds

end Double
