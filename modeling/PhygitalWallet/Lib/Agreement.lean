import Mathlib.Data.List.Forall2

/-!
# Two runs that agree

Two computations agree when both fail, whatever their errors, or both return and what they return is related.

- `Agree.bind`: agreement step by step;
- `foldl_forall₂`, `foldlM_forall₂`: the same loop over two lists of related items;
- `forall₂_zipIdx`: related items at the same positions.
-/

namespace Agreement

variable {ε α β γ δ σ : Type}

/-- Both fail, or both return related values. -/
def Agree (R : α → β → Prop) : Except ε α → Except ε β → Prop
  | .ok a, .ok b => R a b
  | .error _, .error _ => True
  | _, _ => False

variable {R : α → β → Prop} {S : γ → δ → Prop} {x : Except ε α} {y : Except ε β}

theorem agree_of_fail (hx : ∀ a, x ≠ .ok a) (hy : ∀ b, y ≠ .ok b) : Agree R x y := by
  cases x with
  | error e =>
    cases y with
    | error e' => trivial
    | ok b => exact absurd rfl (hy b)
  | ok a => exact absurd rfl (hx a)

theorem Agree.refl {R : α → α → Prop} (hR : ∀ a, R a a) (x : Except ε α) : Agree R x x := by
  cases x with
  | error e => trivial
  | ok a => exact hR a

theorem Agree.ok_iff (h : Agree R x y) : (∃ a, x = .ok a) ↔ ∃ b, y = .ok b := by
  cases x <;> cases y <;> simp_all [Agree]

/-- **Step by step.** -/
theorem Agree.bind (h : Agree R x y) {f : α → Except ε γ} {g : β → Except ε δ}
    (hfg : ∀ a b, R a b → Agree S (f a) (g b)) : Agree S (x >>= f) (y >>= g) := by
  cases x with
  | error e =>
    cases y with
    | error e' => trivial
    | ok b => exact h.elim
  | ok a =>
    cases y with
    | error e => exact h.elim
    | ok b => exact hfg a b h

/-! ## Loops over related lists -/

variable {l : List α} {l' : List β}

theorem forall₂_zipIdx (h : List.Forall₂ R l l') (n : Nat) :
    List.Forall₂ (fun p q => R p.1 q.1 ∧ p.2 = q.2) (l.zipIdx n) (l'.zipIdx n) := by
  induction h generalizing n with
  | nil => exact .nil
  | cons hR _ ih => exact .cons ⟨hR, rfl⟩ (ih (n + 1))

theorem foldl_forall₂ {f : σ → α → σ} {g : σ → β → σ} (h : List.Forall₂ R l l')
    (hstep : ∀ s a b, R a b → f s a = g s b) (s : σ) : l.foldl f s = l'.foldl g s := by
  induction h generalizing s with
  | nil => rfl
  | cons hR _ ih => rw [List.foldl_cons, List.foldl_cons, hstep s _ _ hR, ih]

theorem foldlM_forall₂ {f : σ → α → Except ε σ} {g : σ → β → Except ε σ} (h : List.Forall₂ R l l')
    (hstep : ∀ s a b, R a b → f s a = g s b) (s : σ) : l.foldlM f s = l'.foldlM g s := by
  induction h generalizing s with
  | nil => rfl
  | cons hR _ ih =>
    rw [List.foldlM_cons, List.foldlM_cons, hstep s _ _ hR]
    exact bind_congr ih

end Agreement
