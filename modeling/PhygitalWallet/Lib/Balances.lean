import Mathlib.Algebra.BigOperators.Group.Finset.Piecewise

/-!
# Balances

Every account has a balance, and an amount moves from one account to another, or to itself.

- `Moves`: an amount moved, and nothing else changed;
- `Moves.source`, `Moves.target`, `Moves.other`: the balances after it;
- `Moves.sum`: no amount is made or lost among accounts that hold both ends.
-/

namespace Balances

variable {K : Type} [DecidableEq K] {f g : K → ℕ} {n : ℕ} {a b k : K}

/-- `n` moved from `a` to `b`; `a` had it. -/
structure Moves (n : ℕ) (a b : K) (f g : K → ℕ) : Prop where
  covered : n ≤ f a
  balance : ∀ k, g k + (if k = a then n else 0) = f k + (if k = b then n else 0)

theorem moves_zero (a b : K) (f : K → ℕ) : Moves 0 a b f f := by
  refine ⟨Nat.zero_le _, fun k => ?_⟩
  simp

theorem Moves.source (h : Moves n a b f g) (hne : a ≠ b) : g a + n = f a := by
  have hbalance := h.balance a
  rwa [if_pos rfl, if_neg hne, Nat.add_zero] at hbalance

theorem Moves.target (h : Moves n a b f g) (hne : a ≠ b) : g b = f b + n := by
  have hbalance := h.balance b
  rwa [if_pos rfl, if_neg hne.symm, Nat.add_zero] at hbalance

theorem Moves.other (h : Moves n a b f g) (ha : k ≠ a) (hb : k ≠ b) : g k = f k := by
  have hbalance := h.balance k
  rwa [if_neg ha, if_neg hb] at hbalance

/-- Only the source loses. -/
theorem Moves.le_of_ne (h : Moves n a b f g) (ha : k ≠ a) : f k ≤ g k := by
  have hbalance := h.balance k
  rw [if_neg ha] at hbalance
  omega

/-- **Nothing is made or lost.** -/
theorem Moves.sum (h : Moves n a b f g) {s : Finset K} (ha : a ∈ s) (hb : b ∈ s) : ∑ k ∈ s, g k = ∑ k ∈ s, f k := by
  have hsum : ∑ k ∈ s, (g k + if k = a then n else 0) = ∑ k ∈ s, (f k + if k = b then n else 0) :=
    Finset.sum_congr rfl fun k _ => h.balance k
  rw [Finset.sum_add_distrib, Finset.sum_add_distrib, Finset.sum_ite_eq', Finset.sum_ite_eq', if_pos ha, if_pos hb] at hsum
  omega

end Balances
