import PhygitalWallet.Lib.Runs
import Mathlib.Data.List.Infix
import Mathlib.Logic.Function.Basic

/-!
# Updates that a snapshot undoes

Updates of one value are applied, and later confirmed or rolled back. A rollback writes the value back that was there
when the update was applied.

- `Cell`: a value, the updates that write it and the marks that a confirmation leaves on it;
- `Cell.run`: what the events make of the value;
- `Cell.expected`: the updates that were not rolled back, in the order in which they were applied;
- `Cell.run_fixed`, `Cell.expected_fixed`: a value that no update changes;
- `Undisturbed`: since an update, no other one that stands has written the value, and no mark was left on it;
- `Cell.run_value`: where every rollback is of an undisturbed update, the value is the expected one;
- `Cell.Simulates`: a part of a larger state that behaves as the cell.
-/

namespace Snapshots

variable {ι V : Type}

inductive Event (ι : Type)
  | apply (i : ι)
  | confirm (i : ι)
  | rollback (i : ι)
deriving DecidableEq, Repr

/-- A value with its updates. -/
structure Cell (ι V : Type) where
  upd : ι → V → V
  fix : ι → V → V
  /-- From the snapshot and the value. -/
  restore : ι → V → V → V
  writes : ι → Prop
  marks : ι → Prop
  upd_of_not_writes : ∀ {i v}, ¬ writes i → upd i v = v
  fix_of_not_marks : ∀ {i v}, ¬ marks i → fix i v = v
  restore_of_not_writes : ∀ {i saved v}, ¬ writes i → restore i saved v = v
  writes_of_marks : ∀ {i}, marks i → writes i
  fix_upd : ∀ {i j v}, i ≠ j → fix i (upd j v) = upd j (fix i v)
  fix_fix : ∀ {i j v}, i ≠ j → fix i (fix j v) = fix j (fix i v)

/-- A value that some updates write with an argument, and that no confirmation marks. -/
def Cell.plain {A : Type} (arg : ι → Option A) (upd : A → V → V) (restore : V → V → V) : Cell ι V where
  upd i v := (arg i).elim v fun a => upd a v
  fix _ v := v
  restore i saved v := (arg i).elim v fun _ => restore saved v
  writes i := (arg i).isSome
  marks _ := False
  upd_of_not_writes h := by rw [Option.not_isSome_iff_eq_none.1 h]; rfl
  fix_of_not_marks _ := rfl
  restore_of_not_writes h := by rw [Option.not_isSome_iff_eq_none.1 h]; rfl
  writes_of_marks h := h.elim
  fix_upd _ := rfl
  fix_fix _ := rfl

/-! ## Events -/

/-- The event may come next: an update is applied once, and then confirmed or rolled back once. -/
def Allowed (es : List (Event ι)) : Event ι → Prop
  | .apply i => .apply i ∉ es
  | .confirm i | .rollback i => .apply i ∈ es ∧ .confirm i ∉ es ∧ .rollback i ∉ es

def Ordered (es : List (Event ι)) : Prop := ∀ pre e post, es = pre ++ e :: post → Allowed pre e

def Event.applied : Event ι → Option ι
  | .apply i => some i
  | _ => none

/-- The updates in the order in which they were applied. -/
def applied (es : List (Event ι)) : List ι := es.filterMap Event.applied

theorem mem_applied {es : List (Event ι)} {i : ι} : i ∈ applied es ↔ .apply i ∈ es := by
  rw [applied, List.mem_filterMap]
  constructor
  · rintro ⟨e, he, happlied⟩
    cases e with
    | apply j => exact Option.some.inj happlied ▸ he
    | confirm j => cases happlied
    | rollback j => cases happlied
  · intro h
    exact ⟨_, h, rfl⟩

theorem applied_append (es es' : List (Event ι)) : applied (es ++ es') = applied es ++ applied es' :=
  List.filterMap_append

section Ordered

variable {es es' : List (Event ι)} {e : Event ι} {i : ι}

theorem Ordered.front (h : Ordered (es ++ es')) : Ordered es := by
  rintro pre e post rfl
  exact h pre e (post ++ es') (by simp)

theorem Ordered.last (h : Ordered (es ++ [e])) : Allowed es e := h es e [] rfl

theorem Ordered.snoc (h : Ordered es) (he : Allowed es e) : Ordered (es ++ [e]) := by
  intro pre e' post heq
  rcases List.eq_nil_or_concat post with rfl | ⟨post, x, rfl⟩
  · obtain ⟨rfl, hlast⟩ := List.append_inj' heq rfl
    rw [← (List.cons.inj hlast).1]
    exact he
  · rw [List.concat_eq_append, ← List.cons_append, ← List.append_assoc] at heq
    obtain ⟨rfl, -⟩ := List.append_inj' heq rfl
    exact h pre e' post rfl

/-- Only what was applied is settled. -/
theorem Ordered.settled (h : Ordered es) (hmem : .confirm i ∈ es ∨ .rollback i ∈ es) : .apply i ∈ es := by
  rcases hmem with hmem | hmem
  · obtain ⟨pre, post, rfl⟩ := List.append_of_mem hmem
    exact List.mem_append_left _ (h pre _ post rfl).1
  · obtain ⟨pre, post, rfl⟩ := List.append_of_mem hmem
    exact List.mem_append_left _ (h pre _ post rfl).1

/-- No update is applied twice. -/
theorem Ordered.apply_once {pre post : List (Event ι)} (h : Ordered (pre ++ .apply i :: post)) :
    .apply i ∉ pre ∧ .apply i ∉ post := by
  refine ⟨h pre _ post rfl, fun hmem => ?_⟩
  obtain ⟨mid, rest, rfl⟩ := List.append_of_mem hmem
  refine h (pre ++ .apply i :: mid) (.apply i) rest (by simp) ?_
  simp

/-- A new update was not settled before. -/
theorem Ordered.fresh {pre post : List (Event ι)} (h : Ordered (pre ++ .apply i :: post)) :
    .confirm i ∉ pre ∧ .rollback i ∉ pre := by
  have hnew := h.apply_once.1
  exact ⟨fun hmem => hnew (h.front.settled (Or.inl hmem)), fun hmem => hnew (h.front.settled (Or.inr hmem))⟩

theorem foldl_fixed {f : V → ι → V} {is : List ι} (h : ∀ v, ∀ i ∈ is, f v i = v) (v : V) : is.foldl f v = v := by
  induction is generalizing v with
  | nil => rfl
  | cons i is ih =>
    rw [List.foldl_cons, h v i List.mem_cons_self]
    exact ih (fun v j hj => h v j (List.mem_cons_of_mem _ hj)) v

end Ordered

/-! ## Values -/

structure State (ι V : Type) where
  value : V
  saved : ι → V

variable [DecidableEq ι]

def Cell.step (c : Cell ι V) (s : State ι V) : Event ι → State ι V
  | .apply i => ⟨c.upd i s.value, Function.update s.saved i s.value⟩
  | .confirm i => { s with value := c.fix i s.value }
  | .rollback i => { s with value := c.restore i (s.saved i) s.value }

/-- The value after the events, and the snapshots. -/
def Cell.run (c : Cell ι V) (v₀ : V) (es : List (Event ι)) : State ι V := es.foldl c.step ⟨v₀, fun _ => v₀⟩

/-- What stands of an update. -/
def Cell.kept (c : Cell ι V) (es : List (Event ι)) (v : V) (i : ι) : V :=
  if .rollback i ∈ es then v else if .confirm i ∈ es then c.fix i (c.upd i v) else c.upd i v

/-- The updates that were not rolled back, in the order in which they were applied. -/
def Cell.expected (c : Cell ι V) (v₀ : V) (es : List (Event ι)) : V := (applied es).foldl (c.kept es) v₀

/-- Since it was applied, no other update that stands has written the value, and no confirmation has marked it. -/
def Undisturbed (c : Cell ι V) (es : List (Event ι)) (i : ι) : Prop :=
  ∀ pre post, es = pre ++ .apply i :: post →
    ∀ j, (c.writes j → .apply j ∈ post → .rollback j ∈ post) ∧ (c.marks j → .confirm j ∉ post)

section Cell

variable {c : Cell ι V} {v v₀ : V} {es pre post : List (Event ι)} {e : Event ι} {i j : ι}

theorem Cell.run_snoc (c : Cell ι V) (v₀ : V) (es : List (Event ι)) (e : Event ι) :
    c.run v₀ (es ++ [e]) = c.step (c.run v₀ es) e := by
  simp [Cell.run]

/-- The snapshot of an update is the value before it. -/
theorem Cell.saved_eq (h : .apply i ∉ post) : (c.run v₀ (pre ++ .apply i :: post)).saved i = (c.run v₀ pre).value := by
  induction post using List.reverseRecOn with
  | nil => simp [Cell.run_snoc, Cell.step]
  | append_singleton post e ih =>
    rw [List.mem_append, not_or, List.mem_singleton] at h
    rw [← List.cons_append, ← List.append_assoc, Cell.run_snoc, ← ih h.1]
    cases e with
    | apply j =>
      have hne : i ≠ j := fun heq => h.2 (heq ▸ rfl)
      simp [Cell.step, hne]
    | confirm j => rfl
    | rollback j => rfl

theorem Cell.kept_of_not_writes (h : ¬ c.writes i) : c.kept es v i = v := by
  have hmarks : ¬ c.marks i := fun hm => h (c.writes_of_marks hm)
  unfold Cell.kept
  simp [c.upd_of_not_writes h, c.fix_of_not_marks hmarks]

theorem Cell.kept_congr (hr : Event.rollback i ∈ es ↔ .rollback i ∈ pre)
    (hc : Event.confirm i ∈ es ↔ .confirm i ∈ pre) : c.kept es v i = c.kept pre v i := by
  simp only [Cell.kept, hr, hc]

/-- Without marks a confirmation does not matter. -/
theorem Cell.kept_of_not_marks (h : ¬ c.marks i) : c.kept es v i = if .rollback i ∈ es then v else c.upd i v := by
  unfold Cell.kept
  rw [c.fix_of_not_marks h, ite_self]

/-! ## A value that no update changes -/

section Fixed

variable (hupd : ∀ i, c.upd i v₀ = v₀) (hfix : ∀ i, c.fix i v₀ = v₀)

include hupd hfix

theorem Cell.run_fixed (hrestore : ∀ i, c.restore i v₀ v₀ = v₀) (es : List (Event ι)) :
    c.run v₀ es = ⟨v₀, fun _ => v₀⟩ := by
  induction es using List.reverseRecOn with
  | nil => rfl
  | append_singleton es e ih =>
    rw [Cell.run_snoc, ih]
    cases e with
    | apply i => simp [Cell.step, hupd]
    | confirm i => simp [Cell.step, hfix]
    | rollback i => simp [Cell.step, hrestore]

theorem Cell.expected_fixed : c.expected v₀ es = v₀ := by
  rw [Cell.expected]
  induction applied es with
  | nil => rfl
  | cons i is ih =>
    have hkept : c.kept es v₀ i = v₀ := by
      unfold Cell.kept
      simp [hupd, hfix]
    rw [List.foldl_cons, hkept, ih]

end Fixed

/-! ## One event -/

theorem Cell.expected_split (c : Cell ι V) (v₀ : V) (es pre post : List (Event ι)) (i : ι) :
    (applied (pre ++ .apply i :: post)).foldl (c.kept es) v₀ =
      (applied post).foldl (c.kept es) (c.kept es ((applied pre).foldl (c.kept es) v₀) i) := by
  have hsplit : applied (pre ++ .apply i :: post) = applied pre ++ i :: applied post := applied_append _ _
  rw [hsplit, List.foldl_append, List.foldl_cons]

theorem Cell.expected_apply (hord : Ordered (es ++ [.apply i])) :
    c.expected v₀ (es ++ [.apply i]) = c.upd i (c.expected v₀ es) := by
  have hnew := hord.fresh
  have hfront : (applied es).foldl (c.kept (es ++ [.apply i])) v₀ = c.expected v₀ es := by
    refine List.foldl_ext _ _ _ fun v j _ => ?_
    exact Cell.kept_congr (by simp) (by simp)
  rw [Cell.expected, Cell.expected_split, hfront]
  have hkept : ∀ v, c.kept (es ++ [.apply i]) v i = c.upd i v := by
    intro v
    simp [Cell.kept, hnew.1, hnew.2]
  rw [hkept]
  rfl

/-- A mark is the same before and after what another update does. -/
theorem Cell.fix_kept (h : i ≠ j) : c.fix i (c.kept es v j) = c.kept es (c.fix i v) j := by
  unfold Cell.kept
  split
  · rfl
  · split
    · rw [c.fix_fix h, c.fix_upd h]
    · rw [c.fix_upd h]

theorem Cell.fix_foldl {is : List ι} (h : i ∉ is) :
    c.fix i (is.foldl (c.kept es) v) = is.foldl (c.kept es) (c.fix i v) := by
  induction is generalizing v with
  | nil => rfl
  | cons j is ih =>
    rw [List.mem_cons, not_or] at h
    rw [List.foldl_cons, List.foldl_cons, ih h.2, Cell.fix_kept h.1]

theorem Cell.expected_confirm (hord : Ordered (es ++ [.confirm i])) :
    c.expected v₀ (es ++ [.confirm i]) = c.fix i (c.expected v₀ es) := by
  obtain ⟨happlied, hc, hr⟩ := hord.last
  obtain ⟨pre, post, rfl⟩ := List.append_of_mem happlied
  have honce := hord.front.apply_once
  have hothers : ∀ (v : V) (j : ι), j ≠ i →
      c.kept (pre ++ .apply i :: post ++ [.confirm i]) v j = c.kept (pre ++ .apply i :: post) v j := by
    intro v j hj
    exact Cell.kept_congr (by simp) (by simp [hj])
  have hself : ∀ v, c.kept (pre ++ .apply i :: post ++ [.confirm i]) v i =
      c.fix i (c.kept (pre ++ .apply i :: post) v i) := by
    intro v
    have hr' : Event.rollback i ∉ pre ++ .apply i :: post ++ [.confirm i] := by
      rw [List.mem_append, not_or]
      exact ⟨hr, by simp⟩
    have hc' : Event.confirm i ∈ pre ++ .apply i :: post ++ [.confirm i] :=
      List.mem_append_right _ List.mem_cons_self
    simp only [Cell.kept, if_neg hr', if_neg hr, if_pos hc', if_neg hc]
  have hpre : ∀ v, ∀ j ∈ applied pre, c.kept (pre ++ .apply i :: post ++ [.confirm i]) v j =
      c.kept (pre ++ .apply i :: post) v j := by
    intro v j hj
    exact hothers v j fun heq => honce.1 (mem_applied.1 (heq ▸ hj))
  have hpost : ∀ v, ∀ j ∈ applied post, c.kept (pre ++ .apply i :: post ++ [.confirm i]) v j =
      c.kept (pre ++ .apply i :: post) v j := by
    intro v j hj
    exact hothers v j fun heq => honce.2 (mem_applied.1 (heq ▸ hj))
  have hsame : applied (pre ++ .apply i :: post ++ [.confirm i]) = applied (pre ++ .apply i :: post) := by
    rw [applied_append]
    exact List.append_nil _
  rw [Cell.expected, Cell.expected, hsame, Cell.expected_split, Cell.expected_split, hself,
    List.foldl_ext _ _ _ hpre, List.foldl_ext _ _ _ hpost,
    Cell.fix_foldl fun hmem => honce.2 (mem_applied.1 hmem)]

/-! ## A rollback -/

/-- Every rollback was of an undisturbed update. -/
def Cell.Safe (c : Cell ι V) (es : List (Event ι)) : Prop :=
  ∀ pre i post, es = pre ++ .rollback i :: post → c.writes i → Undisturbed c pre i

omit [DecidableEq ι] in
/-- While an update stands, nothing that was applied before it is rolled back. -/
theorem Cell.Safe.earlier (hsafe : c.Safe (pre ++ .apply i :: post)) (hord : Ordered (pre ++ .apply i :: post))
    (hi : c.writes i) (hr : .rollback i ∉ post) (hj : c.writes j) (hmem : .apply j ∈ pre) : .rollback j ∉ post := by
  intro hback
  obtain ⟨a, b, rfl⟩ := List.append_of_mem hmem
  obtain ⟨p, q, rfl⟩ := List.append_of_mem hback
  have hsplit : a ++ .apply j :: b ++ .apply i :: (p ++ .rollback j :: q) =
      a ++ .apply j :: (b ++ .apply i :: p) ++ .rollback j :: q := by simp
  have hquiet := hsafe _ j q hsplit hj a (b ++ .apply i :: p) rfl i
  have hlater := hquiet.1 hi (by simp)
  have hbefore : Event.rollback i ∉ a ++ .apply j :: b := hord.fresh.2
  simp only [List.mem_append, List.mem_cons, not_or] at hlater hbefore hr
  rcases hlater with hb | heq | hp
  · exact hbefore.2.2 hb
  · cases heq
  · exact hr.1 hp

/-- **An undisturbed update** is the last that stands, on the value of its snapshot. -/
theorem Cell.expected_undisturbed (v₀ : V) (tail : List (Event ι)) (hsafe : c.Safe (pre ++ .apply i :: post))
    (hord : Ordered (pre ++ .apply i :: post)) (hi : c.writes i) (hr : .rollback i ∉ post)
    (hquiet : Undisturbed c (pre ++ .apply i :: post) i) (htail : ∀ j, .rollback j ∈ tail → j = i) (hconfirm : ∀ j, .confirm j ∉ tail) :
    (applied (pre ++ .apply i :: post)).foldl (c.kept (pre ++ .apply i :: post ++ tail)) v₀ =
      c.kept (pre ++ .apply i :: post ++ tail) (c.expected v₀ pre) i := by
  have honce := hord.apply_once
  have hpost : ∀ v, ∀ j ∈ applied post, c.kept (pre ++ .apply i :: post ++ tail) v j = v := by
    intro v j hj
    by_cases hw : c.writes j
    · have hback := (hquiet pre post rfl j).1 hw (mem_applied.1 hj)
      rw [Cell.kept, if_pos (by simp [hback])]
    · exact Cell.kept_of_not_writes hw
  have hpre : ∀ v, ∀ j ∈ applied pre, c.kept (pre ++ .apply i :: post ++ tail) v j = c.kept pre v j := by
    intro v j hj
    have happly := mem_applied.1 hj
    have hne : j ≠ i := fun heq => honce.1 (heq ▸ happly)
    by_cases hw : c.writes j
    · have hback := hsafe.earlier hord hi hr hw happly
      have htail' : Event.rollback j ∉ tail := fun hmem => hne (htail j hmem)
      have hrollback : Event.rollback j ∈ pre ++ .apply i :: post ++ tail ↔ .rollback j ∈ pre := by
        simp [hback, htail']
      by_cases hm : c.marks j
      · have hkeep := (hquiet pre post rfl j).2 hm
        exact Cell.kept_congr hrollback (by simp [hkeep, hconfirm j])
      · rw [Cell.kept_of_not_marks hm, Cell.kept_of_not_marks hm]
        simp only [hrollback]
    · rw [Cell.kept_of_not_writes hw, Cell.kept_of_not_writes hw]
  rw [Cell.expected_split, foldl_fixed hpost, List.foldl_ext _ _ _ hpre]
  rfl

/-! ## Runs -/

/-- Every rollback takes its own update back from the snapshot. -/
def Cell.Restores (c : Cell ι V) (v₀ : V) (es : List (Event ι)) : Prop :=
  ∀ pre i post, es = pre ++ .rollback i :: post → c.writes i →
    c.restore i ((c.run v₀ pre).saved i) (c.upd i ((c.run v₀ pre).saved i)) = (c.run v₀ pre).saved i

theorem Cell.value_rollback (hord : Ordered (es ++ [.rollback i])) (hsafe : c.Safe (es ++ [.rollback i]))
    (hrestores : c.Restores v₀ (es ++ [.rollback i]))
    (ih : ∀ pre, pre <+: es → (c.run v₀ pre).value = c.expected v₀ pre) :
    (c.run v₀ (es ++ [.rollback i])).value = c.expected v₀ (es ++ [.rollback i]) := by
  obtain ⟨happlied, hc, hr⟩ := hord.last
  have hvalue := ih es (List.prefix_refl es)
  have hsame : applied (es ++ [.rollback i]) = applied es := by
    rw [applied_append]
    exact List.append_nil _
  rw [Cell.run_snoc, Cell.expected, hsame]
  simp only [Cell.step]
  by_cases hi : c.writes i
  · obtain ⟨pre, post, rfl⟩ := List.append_of_mem happlied
    have hfront : c.Safe (pre ++ .apply i :: post) := by
      intro p j q heq
      exact hsafe p j (q ++ [.rollback i]) (by rw [heq]; simp)
    have hr' : .rollback i ∉ post := by
      intro hmem
      exact hr (by simp [hmem])
    have hquiet := hsafe _ i [] rfl hi
    have hsaved : (c.run v₀ (pre ++ .apply i :: post)).saved i = c.expected v₀ pre :=
      (Cell.saved_eq hord.front.apply_once.2).trans (ih pre (List.prefix_append _ _))
    have hbefore := Cell.expected_undisturbed v₀ [] hfront hord.front hi hr' hquiet (by simp) (by simp)
    have hafter := Cell.expected_undisturbed v₀ [.rollback i] hfront hord.front hi hr' hquiet (by simp) (by simp)
    have hgone : c.kept (pre ++ .apply i :: post ++ [.rollback i]) (c.expected v₀ pre) i = c.expected v₀ pre := by
      rw [Cell.kept, if_pos (by simp)]
    have hstands : c.kept (pre ++ .apply i :: post) (c.expected v₀ pre) i = c.upd i (c.expected v₀ pre) := by
      rw [Cell.kept, if_neg hr, if_neg hc]
    rw [List.append_nil] at hbefore
    have hback := hrestores _ i [] rfl hi
    rw [hsaved] at hback ⊢
    have hnow : c.expected v₀ (pre ++ .apply i :: post) = c.upd i (c.expected v₀ pre) := hbefore.trans hstands
    rw [hafter, hgone, hvalue, hnow]
    exact hback
  · rw [c.restore_of_not_writes hi, hvalue]
    refine (List.foldl_ext _ _ _ fun v j _ => ?_).symm
    by_cases hj : j = i
    · rw [hj, Cell.kept_of_not_writes hi, Cell.kept_of_not_writes hi]
    · exact Cell.kept_congr (by simp [hj]) (by simp)

theorem Cell.run_prefix (hord : Ordered es) (hsafe : c.Safe es) (hrestores : c.Restores v₀ es) :
    ∀ pre, pre <+: es → (c.run v₀ pre).value = c.expected v₀ pre := by
  induction es using List.reverseRecOn with
  | nil =>
    intro pre hpre
    rw [List.prefix_nil.1 hpre]
    rfl
  | append_singleton es e ih =>
    have hfront := ih hord.front
      (fun p j q heq => hsafe p j (q ++ [e]) (by rw [heq]; simp))
      (fun p j q heq => hrestores p j (q ++ [e]) (by rw [heq]; simp))
    intro pre hpre
    rcases List.prefix_concat_iff.1 hpre with rfl | hpre
    · have hvalue := hfront es (List.prefix_refl es)
      cases e with
      | apply i =>
        rw [Cell.expected_apply hord, Cell.run_snoc, ← hvalue]
        rfl
      | confirm i =>
        rw [Cell.expected_confirm hord, Cell.run_snoc, ← hvalue]
        rfl
      | rollback i => exact Cell.value_rollback hord hsafe hrestores hfront
    · exact hfront pre hpre

/-- **The value after a run** of safe rollbacks is made of the updates that were not rolled back. -/
theorem Cell.run_value (hord : Ordered es) (hsafe : c.Safe es) (hrestores : c.Restores v₀ es) :
    (c.run v₀ es).value = c.expected v₀ es := Cell.run_prefix hord hsafe hrestores es (List.prefix_refl es)

/-! ## Systems -/

variable {S : Type}

/-- The steps of a system do with a part of its state what the events do with the cell. -/
structure Cell.Simulates (c : Cell ι V) (step : Event ι → S → S → Prop) (view : S → V) (saves : S → ι → V → Prop) :
    Prop where
  apply : ∀ {i s s'}, step (.apply i) s s' →
    view s' = c.upd i (view s) ∧ saves s' i (view s) ∧ ∀ j v, j ≠ i → saves s j v → saves s' j v
  confirm : ∀ {i s s'}, step (.confirm i) s s' →
    view s' = c.fix i (view s) ∧ ∀ j v, j ≠ i → saves s j v → saves s' j v
  rollback : ∀ {i s s'}, step (.rollback i) s s' →
    (∀ v, saves s i v → view s' = c.restore i v (view s)) ∧ ∀ j v, j ≠ i → saves s j v → saves s' j v

/-- A run of the system is a run of the cell. -/
theorem Cell.Simulates.run {step : Event ι → S → S → Prop} {view : S → V} {saves : S → ι → V → Prop}
    (h : c.Simulates step view saves) {s₀ s : S} (hrun : Runs.Run step s₀ es s) (hord : Ordered es) :
    view s = (c.run (view s₀) es).value ∧ ∀ i, .apply i ∈ es → .confirm i ∉ es → .rollback i ∉ es →
      saves s i ((c.run (view s₀) es).saved i) := by
  induction hrun with
  | nil => exact ⟨rfl, by simp⟩
  | @snoc es s e s' _ hstep ih =>
    obtain ⟨hvalue, hsaves⟩ := ih hord.front
    rw [Cell.run_snoc]
    cases e with
    | apply i =>
      obtain ⟨hview, hnew, hkeep⟩ := h.apply hstep
      refine ⟨by rw [hview, hvalue]; rfl, fun j hmem hc hr => ?_⟩
      simp only [Cell.step]
      by_cases hji : j = i
      · subst hji
        rw [Function.update_self, ← hvalue]
        exact hnew
      · rw [Function.update_of_ne hji]
        exact hkeep _ _ hji (hsaves j (by simpa [hji] using hmem) (by simpa using hc) (by simpa using hr))
    | confirm i =>
      obtain ⟨hview, hkeep⟩ := h.confirm hstep
      refine ⟨by rw [hview, hvalue]; rfl, fun j hmem hc hr => ?_⟩
      rw [List.mem_append, not_or] at hc
      have hji : j ≠ i := fun heq => hc.2 (heq ▸ List.mem_cons_self)
      exact hkeep _ _ hji (hsaves j (by simpa using hmem) hc.1 (by simpa using hr))
    | rollback i =>
      obtain ⟨hown, hkeep⟩ := h.rollback hstep
      obtain ⟨happlied, hc, hr⟩ := hord.last
      constructor
      · simp only [Cell.step]
        rw [hown _ (hsaves i happlied hc hr), hvalue]
      · intro j hmem hc' hr'
        rw [List.mem_append, not_or] at hr'
        have hji : j ≠ i := fun heq => hr'.2 (heq ▸ List.mem_cons_self)
        exact hkeep _ _ hji (hsaves j (by simpa using hmem) (by simpa using hc') hr'.1)

end Cell

end Snapshots
