import Mathlib.Data.List.Forall2

/-!
# Runs of labelled steps

A run is a list of labels with the states it leads from and to, the latest label last.

- `Run.tracked`: what one step keeps of a property of the labels and the state, a run keeps;
- `Run.append`, `Run.front`, `Run.mono`: runs in a row, the start of a run, and runs of fewer steps;
- `Run.simulates`: where each step is matched by a step of another system, each run is;
- `lastMatch`: the latest label of a kind.
-/

namespace Runs

variable {S L β : Type}

/-- The states that labelled steps reach. -/
inductive Run (step : L → S → S → Prop) (s₀ : S) : List L → S → Prop
  | nil : Run step s₀ [] s₀
  | snoc {ls : List L} {s : S} {l : L} {s' : S} (run : Run step s₀ ls s) (h : step l s s') :
      Run step s₀ (ls ++ [l]) s'

variable {step : L → S → S → Prop} {s₀ s : S} {ls : List L}

/-- A property of the labels so far and the state, kept by each step. -/
theorem Run.tracked {I : List L → S → Prop} (h₀ : I [] s₀)
    (hstep : ∀ ls l s s', Run step s₀ ls s → I ls s → step l s s' → I (ls ++ [l]) s') (hrun : Run step s₀ ls s) :
    I ls s := by
  induction hrun with
  | nil => exact h₀
  | snoc run h ih => exact hstep _ _ _ _ run ih h

theorem Run.append {s₁ : S} {ls' : List L} {s₂ : S} (h : Run step s₀ ls s₁) (h' : Run step s₁ ls' s₂) :
    Run step s₀ (ls ++ ls') s₂ := by
  induction h' with
  | nil => rwa [List.append_nil]
  | snoc _ hstep ih =>
    rw [← List.append_assoc]
    exact .snoc ih hstep

/-- A run starts with the run of its first labels. -/
theorem Run.front (h : Run step s₀ ls s) {pre : List L} (hpre : pre <+: ls) : ∃ s₁, Run step s₀ pre s₁ := by
  induction h with
  | nil => exact ⟨s₀, by rw [List.prefix_nil.1 hpre]; exact .nil⟩
  | @snoc ls s l s' run hstep ih =>
    rcases List.prefix_concat_iff.1 hpre with rfl | hpre
    · exact ⟨s', .snoc run hstep⟩
    · exact ih hpre

theorem Run.mono {step' : L → S → S → Prop} (h : ∀ l s s', step l s s' → step' l s s') (hrun : Run step s₀ ls s) :
    Run step' s₀ ls s := by
  induction hrun with
  | nil => exact .nil
  | snoc _ hstep ih => exact .snoc ih (h _ _ _ hstep)

/-- **Simulation.** Each step is matched by a step of another system, with a label that goes with its own. -/
theorem Run.simulates {S' L' : Type} {step' : L' → S' → S' → Prop} {R : S' → S → Prop} {A : L → L' → Prop} {a₀ : S'}
    (h₀ : R a₀ s₀) (hstep : ∀ l s s' a, R a s → step l s s' → ∃ l' a', A l l' ∧ step' l' a a' ∧ R a' s')
    (hrun : Run step s₀ ls s) : ∃ ls' a, List.Forall₂ A ls ls' ∧ Run step' a₀ ls' a ∧ R a s := by
  induction hrun with
  | nil => exact ⟨[], a₀, .nil, .nil, h₀⟩
  | @snoc ls s l s' _ h ih =>
    obtain ⟨ls', a, hls, hrun', ha⟩ := ih
    obtain ⟨l', a', hl, h', ha'⟩ := hstep l s s' a ha h
    exact ⟨ls' ++ [l'], a', List.rel_append hls (.cons hl .nil), hrun'.snoc h', ha'⟩

/-- The latest label that `p` reads something from. -/
def lastMatch (p : L → Option β) (ls : List L) : Option β := (ls.filterMap p).getLast?

@[simp] theorem lastMatch_nil (p : L → Option β) : lastMatch p [] = none := rfl

theorem lastMatch_snoc_some {p : L → Option β} {l : L} {b : β} (h : p l = some b) (ls : List L) :
    lastMatch p (ls ++ [l]) = some b := by
  simp [lastMatch, List.filterMap_append, h]

theorem lastMatch_snoc_none {p : L → Option β} {l : L} (h : p l = none) (ls : List L) :
    lastMatch p (ls ++ [l]) = lastMatch p ls := by
  simp [lastMatch, List.filterMap_append, h]

end Runs
