import Mathlib.Order.Lattice
import Mathlib.Tactic.Order

/-!
# Bisection of a descending sequence

The runs of a loop that halves a window `[left, right)` over entries in descending order. A derivation of `Search` is a
run that ends: each of its turns has `left < right`, and reads an entry that is there.

- `Search.total`: the loop ends where every entry of the window can be read;
- `Search.unique`: it ends in one way;
- `Search.eq_some_iff`: it finds the entry of the key.
-/

namespace Bisection

variable {α : Type} [LinearOrder α]

/-- `left + (right - left) / 2`. -/
def mid (left right : ℕ) : ℕ := left + (right - left) / 2

theorem mid_bounds {left right : ℕ} (h : left < right) : left ≤ mid left right ∧ mid left right < right := by
  unfold mid
  omega

/-- A run from a window to its outcome: the position that was found, or none. -/
inductive Search (read : ℕ → Option α) (key : α) : ℕ → ℕ → Option ℕ → Prop
  | missing {left : ℕ} : Search read key left left none
  | found {left right : ℕ} (h : left < right) (hread : read (mid left right) = some key) :
      Search read key left right (some (mid left right))
  | behind {left right : ℕ} {entry : α} {out : Option ℕ} (h : left < right) (hread : read (mid left right) = some entry)
      (hlt : key < entry) (rest : Search read key (mid left right + 1) right out) : Search read key left right out
  | before {left right : ℕ} {entry : α} {out : Option ℕ} (h : left < right) (hread : read (mid left right) = some entry)
      (hlt : entry < key) (rest : Search read key left (mid left right) out) : Search read key left right out

variable {read : ℕ → Option α} {key : α} {left right : ℕ}

/-- **The loop ends**, where every entry can be read. -/
theorem Search.total (key : α) (hread : ∀ i, i < right → ∃ entry, read i = some entry) (hle : left ≤ right) :
    ∃ out, Search read key left right out := by
  induction hn : right - left using Nat.strong_induction_on generalizing left right with
  | _ n ih =>
    subst hn
    rcases hle.lt_or_eq with hlt | rfl
    · obtain ⟨hleft, hright⟩ := mid_bounds hlt
      obtain ⟨entry, hentry⟩ := hread _ hright
      rcases lt_trichotomy key entry with hk | rfl | hk
      · obtain ⟨out, hout⟩ := ih (right - (mid left right + 1)) (by omega) hread (by omega) rfl
        exact ⟨out, .behind hlt hentry hk hout⟩
      · exact ⟨_, .found hlt hentry⟩
      · obtain ⟨out, hout⟩ := ih (mid left right - left) (by omega) (fun i hi => hread i (by omega)) hleft rfl
        exact ⟨out, .before hlt hentry hk hout⟩
    · exact ⟨none, .missing⟩

theorem Search.unique {out out' : Option ℕ} (h : Search read key left right out)
    (h' : Search read key left right out') : out = out' := by
  induction h with
  | missing =>
    cases h' with
    | missing => rfl
    | found h => exact absurd h (lt_irrefl _)
    | behind h => exact absurd h (lt_irrefl _)
    | before h => exact absurd h (lt_irrefl _)
  | found h hread =>
    cases h' with
    | missing => exact absurd h (lt_irrefl _)
    | found => rfl
    | behind _ hread' hlt => exact absurd (Option.some.inj (hread.symm.trans hread')) hlt.ne
    | before _ hread' hlt => exact absurd (Option.some.inj (hread'.symm.trans hread)) hlt.ne
  | behind h hread hlt _ ih =>
    cases h' with
    | missing => exact absurd h (lt_irrefl _)
    | found _ hread' => exact absurd (Option.some.inj (hread'.symm.trans hread)) hlt.ne
    | behind _ _ _ rest => exact ih rest
    | before _ hread' hlt' =>
      obtain rfl := Option.some.inj (hread.symm.trans hread')
      exact absurd hlt (lt_asymm hlt')
  | before h hread hlt _ ih =>
    cases h' with
    | missing => exact absurd h (lt_irrefl _)
    | found _ hread' => exact absurd (Option.some.inj (hread.symm.trans hread')) hlt.ne
    | behind _ hread' hlt' =>
      obtain rfl := Option.some.inj (hread.symm.trans hread')
      exact absurd hlt (lt_asymm hlt')
    | before _ _ _ rest => exact ih rest

/-- **The entry of the key is found**, in a window of entries in strictly descending order. -/
theorem Search.eq_some_iff {out : Option ℕ} (h : Search read key left right out)
    (hsorted : ∀ i j a b, i < j → j < right → read i = some a → read j = some b → b < a) (i : ℕ) :
    out = some i ↔ left ≤ i ∧ i < right ∧ read i = some key := by
  induction h with
  | missing =>
    simp only [reduceCtorEq, false_iff, not_and]
    omega
  | @found left right h hread =>
    obtain ⟨hleft, hright⟩ := mid_bounds h
    rw [Option.some_inj]
    constructor
    · rintro rfl
      exact ⟨hleft, hright, hread⟩
    · rintro ⟨-, hi, hkey⟩
      rcases lt_trichotomy (mid left right) i with hlt | heq | hlt
      · exact absurd (hsorted _ _ _ _ hlt hi hread hkey) (lt_irrefl key)
      · exact heq
      · exact absurd (hsorted _ _ _ _ hlt hright hkey hread) (lt_irrefl key)
  | @behind left right entry out h hread hlt rest ih =>
    obtain ⟨hleft, hright⟩ := mid_bounds h
    rw [ih hsorted]
    refine ⟨fun ⟨hi, hir, hkey⟩ => ⟨by omega, hir, hkey⟩, fun ⟨hi, hir, hkey⟩ => ⟨?_, hir, hkey⟩⟩
    -- up to the middle every entry is above the key
    by_contra hle
    rcases (not_le.1 hle |> Nat.lt_succ_iff.1).lt_or_eq with hlow | rfl
    · exact absurd (hsorted _ _ _ _ hlow hright hkey hread) (lt_asymm hlt)
    · exact hlt.ne (Option.some.inj (hkey.symm.trans hread))
  | @before left right entry out h hread hlt rest ih =>
    obtain ⟨hleft, hright⟩ := mid_bounds h
    rw [ih fun i j a b hij hj => hsorted i j a b hij (by omega)]
    refine ⟨fun ⟨hi, hir, hkey⟩ => ⟨hi, by omega, hkey⟩, fun ⟨hi, hir, hkey⟩ => ⟨hi, ?_, hkey⟩⟩
    by_contra hge
    rcases (not_lt.1 hge).lt_or_eq with hhigh | rfl
    · exact absurd (hsorted _ _ _ _ hhigh hir hread hkey) (lt_asymm hlt)
    · exact hlt.ne (Option.some.inj (hread.symm.trans hkey))

end Bisection
