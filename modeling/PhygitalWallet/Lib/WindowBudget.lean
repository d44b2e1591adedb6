import Mathlib.Algebra.BigOperators.Group.List.Basic
import Mathlib.Tactic.Linarith
import Mathlib.Tactic.Ring

/-!
# Budgets per calendar window

Time is cut into windows of `w` units on a fixed grid (`windowOf`; `w ≤ 0` is one window for all time). A budget of `C`
per window admits a charge exactly when the charges already made in its window leave room for it.

A meter need not keep the log of charges: an anchor on the grid and what is left since then are enough, if the anchor
is moved up lazily, by whole windows, at the next charge. `Tracks` relates such a pair to the log, `Tracks.advance` and
`Tracks.charge` are the two steps of the meter, and `Tracks.room` says that after the advance the remaining amount is
exactly the room left in the window of the charge.
-/

namespace WindowBudget

/-- The window a time falls in. -/
def windowOf (w t : Int) : Int := if 0 < w then t / w else 0

/-- What a log of timed charges spends in window `k`. -/
def spentIn (w k : Int) (log : List (Int × Nat)) : Nat :=
  ((log.filter fun e => windowOf w e.1 = k).map (·.2)).sum

variable {w k t : Int} {log : List (Int × Nat)}

theorem windowOf_eq_iff (hw : 0 < w) : windowOf w t = k ↔ k * w ≤ t ∧ t < (k + 1) * w := by
  rw [windowOf, if_pos hw, le_antisymm_iff, Int.le_ediv_iff_mul_le hw, ← Int.lt_add_one_iff,
    Int.ediv_lt_iff_lt_mul hw, and_comm]

theorem windowOf_lifetime (hw : ¬0 < w) : windowOf w t = 0 := if_neg hw

theorem spentIn_append (a : Nat) :
    spentIn w k (log ++ [(t, a)]) = spentIn w k log + if windowOf w t = k then a else 0 := by
  by_cases h : windowOf w t = k <;> simp [spentIn, List.filter_append, h]

/-- The meter with anchor `anchor` and `remaining` left knows the log: the anchor is on the grid and not in the
future, what is left is the room in the anchor's window, nothing was charged in a later window, and no window is
overspent. -/
structure Tracks (C : Nat) (w clock anchor : Int) (remaining : Nat) (log : List (Int × Nat)) : Prop where
  grid : 0 < w → w ∣ anchor
  past : anchor ≤ clock
  room : remaining + spentIn w (windowOf w anchor) log = C
  later : ∀ k, windowOf w anchor < k → spentIn w k log = 0
  bounded : ∀ k, spentIn w k log ≤ C

variable {C remaining : Nat} {clock anchor : Int}

theorem Tracks.start (hg : 0 < w → w ∣ anchor) (hp : anchor ≤ clock) : Tracks C w clock anchor C [] :=
  ⟨hg, hp, by simp [spentIn], by simp [spentIn], by simp [spentIn]⟩

theorem Tracks.wait (h : Tracks C w clock anchor remaining log) (ht : clock ≤ t) :
    Tracks C w t anchor remaining log :=
  ⟨h.grid, le_trans h.past ht, h.room, h.later, h.bounded⟩

theorem Tracks.remaining_le (h : Tracks C w clock anchor remaining log) : remaining ≤ C := by
  have := h.room
  omega

/-- A window that has passed is behind the window of `t`. -/
theorem windowOf_lt (hw : 0 < w) (hg : w ∣ anchor) (he : w ≤ t - anchor) : windowOf w anchor < windowOf w t := by
  obtain ⟨m, rfl⟩ := hg
  have ha : windowOf w (w * m) = m := (windowOf_eq_iff hw).2 ⟨by linarith, by linarith⟩
  have ht : m + 1 ≤ windowOf w t := by
    rw [windowOf, if_pos hw, Int.le_ediv_iff_mul_le hw]
    linarith
  omega

/-- The anchor moved up by whole windows is the start of the window of `t`. -/
theorem advance_eq (hw : 0 < w) (hg : w ∣ anchor) : anchor + (t - anchor) / w * w = windowOf w t * w := by
  obtain ⟨m, rfl⟩ := hg
  have h : (t - w * m) / w = t / w - m := by
    rw [show t - w * m = t + w * (-m) by ring, Int.add_mul_ediv_left _ _ (by omega)]
    ring
  rw [h, windowOf, if_pos hw]
  ring

/-- **Refill.** When a whole window has passed, the anchor moves to the window of the clock and the budget is full:
nothing has been charged there yet. -/
theorem Tracks.advance (h : Tracks C w clock anchor remaining log) (hw : 0 < w)
    (he : w ≤ t - anchor) : Tracks C w t (anchor + (t - anchor) / w * w) C log := by
  have hg := h.grid hw
  have hlt := windowOf_lt hw hg he
  rw [advance_eq hw hg]
  have hwin : windowOf w (windowOf w t * w) = windowOf w t := (windowOf_eq_iff hw).2 ⟨le_refl _, by linarith⟩
  refine ⟨fun _ => Dvd.intro_left _ rfl, ?_, ?_, ?_, h.bounded⟩
  · exact ((windowOf_eq_iff hw).1 rfl).1
  · rw [hwin, h.later _ hlt, Nat.add_zero]
  · intro k hk
    rw [hwin] at hk
    exact h.later k (by omega)

/-- Before a whole window has passed, the clock is still in the window of the anchor. -/
theorem Tracks.same_window (h : Tracks C w clock anchor remaining log) (ht : clock ≤ t)
    (he : 0 < w → t - anchor < w) : windowOf w anchor = windowOf w t := by
  by_cases hw : 0 < w
  · obtain ⟨m, rfl⟩ := h.grid hw
    have := h.past
    have := he hw
    rw [(windowOf_eq_iff hw).2 ⟨show m * w ≤ w * m by linarith, by linarith⟩]
    exact ((windowOf_eq_iff hw).2 ⟨by linarith, by linarith⟩).symm
  · rw [windowOf_lifetime hw, windowOf_lifetime hw]

/-- **Charge.** In the window of the anchor, what is left pays for the charge. -/
theorem Tracks.charge {a : Nat} (h : Tracks C w t anchor remaining log) (hwin : windowOf w anchor = windowOf w t)
    (ha : a ≤ remaining) : Tracks C w t anchor (remaining - a) (log ++ [(t, a)]) := by
  refine ⟨h.grid, h.past, ?_, ?_, ?_⟩
  · have := h.room
    rw [spentIn_append, if_pos hwin.symm]
    omega
  · intro k hk
    rw [spentIn_append, h.later k hk, if_neg (by omega)]
  · intro k
    have hb := h.bounded k
    have hr := h.room
    rw [spentIn_append]
    split
    · next hk =>
      rw [hwin, hk] at hr
      omega
    · omega

/-- A charge of nothing leaves the meter where it was. -/
theorem Tracks.charge_zero (h : Tracks C w clock anchor remaining log) (ht : clock ≤ t) :
    Tracks C w t anchor remaining (log ++ [(t, 0)]) := by
  refine ⟨h.grid, le_trans h.past ht, ?_, ?_, ?_⟩
  · simpa [spentIn_append] using h.room
  · intro k hk
    simpa [spentIn_append] using h.later k hk
  · intro k
    simpa [spentIn_append] using h.bounded k

end WindowBudget
