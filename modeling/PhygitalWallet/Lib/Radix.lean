import Mathlib.Data.Nat.Digits.Lemmas
import Mathlib.Tactic.Ring

/-!
# Regrouping of bits

A list of digits in base `2 ^ w`, the most significant first, is the number that its bits write. Two lists of another
width hold the same bits when they write the same number.

- `value`: the number of a list of digits;
- `Regroups`: the same bits in digits of two widths, with zero bits at the end of the first list;
- `Regroups.left_inj`: the left side is determined by the right one.
-/

namespace Radix

/-- The number of the digits, the most significant first. -/
def value (base : ℕ) (ds : List ℕ) : ℕ := Nat.ofDigits base ds.reverse

variable {base : ℕ}

@[simp] theorem value_nil : value base [] = 0 := rfl

@[simp] theorem value_singleton (d : ℕ) : value base [d] = d := Nat.ofDigits_singleton

@[simp] theorem value_append (ds es : List ℕ) :
    value base (ds ++ es) = value base ds * base ^ es.length + value base es := by
  rw [value, List.reverse_append, Nat.ofDigits_append, List.length_reverse, value, value]
  ring

theorem value_cons (d : ℕ) (ds : List ℕ) : value base (d :: ds) = d * base ^ ds.length + value base ds := by
  rw [← List.singleton_append, value_append, value_singleton]

theorem value_inj {ds ds' : List ℕ} (hbase : 1 < base) (hlen : ds.length = ds'.length) (hds : ∀ d ∈ ds, d < base)
    (hds' : ∀ d ∈ ds', d < base) (h : value base ds = value base ds') : ds = ds' := by
  apply List.reverse_injective
  apply Nat.ofDigits_inj_of_len_eq hbase
  · rw [List.length_reverse, List.length_reverse, hlen]
  · simpa only [List.mem_reverse] using hds
  · simpa only [List.mem_reverse] using hds'
  · exact h

/-- The first list holds the bits of the second, and `r` zeros after them. -/
structure Regroups (w v r : ℕ) (ds es : List ℕ) : Prop where
  length : w * ds.length = v * es.length + r
  value : value (2 ^ w) ds = Radix.value (2 ^ v) es * 2 ^ r

variable {w v r r' : ℕ} {ds ds' es es' : List ℕ}

theorem Regroups.left_inj (h : Regroups w v r ds es) (h' : Regroups w v r' ds' es) (hw : 0 < w) (hr : r < w)
    (hr' : r' < w) (hds : ∀ d ∈ ds, d < 2 ^ w) (hds' : ∀ d ∈ ds', d < 2 ^ w) : ds = ds' := by
  -- the zeros are fewer than a digit
  have hlen : ds.length = ds'.length := by
    have hl := h.length
    have hl' := h'.length
    rcases Nat.lt_trichotomy ds.length ds'.length with hlt | heq | hlt
    · have hmul := Nat.mul_le_mul_left w hlt
      rw [Nat.mul_succ] at hmul
      omega
    · exact heq
    · have hmul := Nat.mul_le_mul_left w hlt
      rw [Nat.mul_succ] at hmul
      omega
  obtain rfl : r = r' := by
    have hl := h.length
    have hl' := h'.length
    rw [hlen] at hl
    omega
  exact value_inj (Nat.one_lt_two_pow hw.ne') hlen hds hds' (h.value.trans h'.value.symm)

/-- A group of digits in front, which regroups without a rest. -/
theorem Regroups.append {front front' : List ℕ} (hfront : Regroups w v 0 front front') (h : Regroups w v r ds es) :
    Regroups w v r (front ++ ds) (front' ++ es) := by
  have hpow : (2 ^ w) ^ ds.length = (2 ^ v) ^ es.length * 2 ^ r := by
    rw [← Nat.pow_mul, ← Nat.pow_mul, ← Nat.pow_add, h.length]
  constructor
  · rw [List.length_append, List.length_append, Nat.mul_add, Nat.mul_add, hfront.length, h.length]
    omega
  · rw [value_append, value_append, hfront.value, h.value, hpow]
    ring

end Radix
