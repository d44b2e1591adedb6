import Mathlib.Algebra.BigOperators.Group.List.Basic
import Mathlib.Algebra.Order.BigOperators.Group.List
import Mathlib.Data.List.Nodup

/-!
# Tables with a primary key

Rows with distinct keys, as one statement of SQL after another leaves them.

- `find`, `insert`, `update`, `delete`, `deleteWhere`: the statements, `insert` failing on a key that is there;
- `total`: a sum over the rows; what each statement does to it (`total_insert`, `total_delete`, `total_le_of_sublist`).
-/

namespace SqlTable

variable {κ ρ : Type}

structure Table (key : ρ → κ) where
  rows : List ρ
  nodup : (rows.map key).Nodup

variable {key : ρ → κ}

theorem Table.ext {t u : Table key} (h : t.rows = u.rows) : t = u := by
  cases t
  cases u
  cases h
  rfl

instance [DecidableEq ρ] : DecidableEq (Table key) := fun t u =>
  decidable_of_iff (t.rows = u.rows) ⟨Table.ext, congrArg Table.rows⟩

namespace Table

def empty (key : ρ → κ) : Table key := ⟨[], List.nodup_nil⟩

/-- `SELECT .. WHERE key = k`. -/
def find [DecidableEq κ] (t : Table key) (k : κ) : Option ρ := t.rows.find? fun r => key r = k

/-- `DELETE .. WHERE p`. -/
def deleteWhere (t : Table key) (p : ρ → Bool) : Table key :=
  ⟨t.rows.filter fun r => !p r, t.nodup.sublist (List.filter_sublist.map key)⟩

/-- `DELETE .. WHERE key = k`. -/
def delete [DecidableEq κ] (t : Table key) (k : κ) : Table key := t.deleteWhere fun r => key r = k

/-- `INSERT`, which fails on a key that is there. -/
def insert [DecidableEq κ] (t : Table key) (r : ρ) : Option (Table key) :=
  if h : key r ∈ t.rows.map key then none
  else some ⟨t.rows ++ [r], by
    rw [List.map_append, List.map_singleton]
    exact t.nodup.append (List.nodup_singleton _) (List.disjoint_singleton.2 h)⟩

/-- `UPDATE .. WHERE key = k`, of columns that are not the key. -/
def update [DecidableEq κ] (t : Table key) (k : κ) (f : ρ → ρ) (hf : ∀ r, key (f r) = key r) : Table key :=
  ⟨t.rows.map fun r => if key r = k then f r else r, by
    have hkeys : (t.rows.map fun r => if key r = k then f r else r).map key = t.rows.map key := by
      rw [List.map_map]
      refine List.map_congr_left fun r _ => ?_
      show key (if key r = k then f r else r) = key r
      split
      · exact hf r
      · rfl
    rw [hkeys]
    exact t.nodup⟩

/-- A sum over the rows. -/
def total {M : Type} [AddCommMonoid M] (t : Table key) (f : ρ → M) : M := (t.rows.map f).sum

variable {t t' : Table key} {r s : ρ} {k : κ} {p : ρ → Bool}

/-! ## Rows and keys -/

theorem key_inj (hr : r ∈ t.rows) (hs : s ∈ t.rows) (h : key r = key s) : r = s :=
  List.inj_on_of_nodup_map t.nodup hr hs h

/-- The one entry of a list with a key that no other has. -/
theorem filter_key_of_nodup {α : Type} [DecidableEq κ] {f : α → κ} {l : List α} (hnodup : (l.map f).Nodup) {a : α}
    (ha : a ∈ l) : l.filter (fun b => f b = f a) = [a] := by
  induction l with
  | nil => cases ha
  | cons b l ih =>
    rw [List.map_cons, List.nodup_cons] at hnodup
    rcases List.mem_cons.1 ha with rfl | ha
    · have hnone : l.filter (fun b => f b = f a) = [] :=
        List.filter_eq_nil_iff.2 fun b hb heq => hnodup.1 (List.mem_map.2 ⟨b, hb, of_decide_eq_true heq⟩)
      rw [List.filter_cons, if_pos (decide_eq_true rfl), hnone]
    · have hne : f b ≠ f a := fun heq => hnodup.1 (List.mem_map.2 ⟨a, ha, heq.symm⟩)
      rw [List.filter_cons, if_neg (by simpa using hne)]
      exact ih hnodup.2 ha

theorem mem_deleteWhere : r ∈ (t.deleteWhere p).rows ↔ r ∈ t.rows ∧ p r = false := by
  simp [deleteWhere]

section Keys

variable [DecidableEq κ]

theorem find_eq_some : t.find k = some r ↔ r ∈ t.rows ∧ key r = k := by
  constructor
  · intro h
    exact ⟨List.mem_of_find?_eq_some h, by simpa using List.find?_some h⟩
  · rintro ⟨hr, rfl⟩
    cases hf : t.find (key r) with
    | none => simpa using List.find?_eq_none.1 hf r hr
    | some s =>
      have hs : s ∈ t.rows ∧ key s = key r := ⟨List.mem_of_find?_eq_some hf, by simpa using List.find?_some hf⟩
      rw [key_inj hs.1 hr hs.2]

theorem find_eq_none : t.find k = none ↔ ∀ r ∈ t.rows, key r ≠ k := by
  simp [find, List.find?_eq_none]

theorem mem_delete : r ∈ (t.delete k).rows ↔ r ∈ t.rows ∧ key r ≠ k := by
  simp [delete, mem_deleteWhere]

theorem find_delete_self : (t.delete k).find k = none :=
  find_eq_none.2 fun _ hr => (mem_delete.1 hr).2

theorem find_delete_ne {k' : κ} (h : k ≠ k') : (t.delete k).find k' = t.find k' := by
  apply Option.ext
  intro r
  rw [find_eq_some, find_eq_some, mem_delete]
  constructor
  · rintro ⟨⟨hr, -⟩, rfl⟩
    exact ⟨hr, rfl⟩
  · rintro ⟨hr, rfl⟩
    exact ⟨⟨hr, Ne.symm h⟩, rfl⟩

theorem insert_eq_none : t.insert r = none ↔ t.find (key r) ≠ none := by
  unfold insert
  rw [ne_eq, find_eq_none]
  split
  · next h =>
    obtain ⟨s, hs, hkey⟩ := List.mem_map.1 h
    exact ⟨fun _ hall => hall s hs hkey, fun _ => rfl⟩
  · next h =>
    refine ⟨fun h => (by cases h), fun hno => absurd ?_ hno⟩
    intro s hs hkey
    exact h (List.mem_map.2 ⟨s, hs, hkey⟩)

/-- A key that is not there can be inserted. -/
theorem insert_of_find (h : t.find (key r) = none) : ∃ t', t.insert r = some t' := by
  cases hi : t.insert r with
  | none => exact absurd h (insert_eq_none.1 hi)
  | some t' => exact ⟨t', rfl⟩

theorem rows_insert (h : t.insert r = some t') : t'.rows = t.rows ++ [r] := by
  unfold insert at h
  split at h
  · cases h
  · cases h
    rfl

theorem mem_insert (h : t.insert r = some t') : s ∈ t'.rows ↔ s ∈ t.rows ∨ s = r := by
  rw [rows_insert h, List.mem_append, List.mem_singleton]

section Update

variable {f : ρ → ρ} {hf : ∀ r, key (f r) = key r}

theorem mem_update : s ∈ (t.update k f hf).rows ↔ (s ∈ t.rows ∧ key s ≠ k) ∨ ∃ r ∈ t.rows, key r = k ∧ f r = s := by
  simp only [update, List.mem_map]
  constructor
  · rintro ⟨r, hr, rfl⟩
    by_cases hk : key r = k
    · rw [if_pos hk]
      exact Or.inr ⟨r, hr, hk, rfl⟩
    · rw [if_neg hk]
      exact Or.inl ⟨hr, hk⟩
  · rintro (⟨hs, hk⟩ | ⟨r, hr, hk, rfl⟩)
    · exact ⟨s, hs, if_neg hk⟩
    · exact ⟨r, hr, if_pos hk⟩

end Update

end Keys

/-! ## Sums -/

section Total

variable {M : Type} [AddCommMonoid M] {f g : ρ → M}

theorem total_insert [DecidableEq κ] (h : t.insert r = some t') : t'.total f = t.total f + f r := by
  rw [total, total, rows_insert h, List.map_append, List.sum_append, List.map_singleton, List.sum_singleton]

/-- A deleted row leaves the sum. -/
theorem total_delete [DecidableEq κ] (hr : r ∈ t.rows) : t.total f = f r + (t.delete (key r)).total f := by
  obtain ⟨rows, nodup⟩ := t
  simp only [total, delete, deleteWhere] at hr ⊢
  induction rows with
  | nil => cases hr
  | cons s rows ih =>
    rw [List.map_cons, List.nodup_cons] at nodup
    obtain ⟨hs, nodup⟩ := nodup
    have hkeys : ∀ a ∈ rows, key s ≠ key a := fun a ha hkey => hs (List.mem_map.2 ⟨a, ha, hkey.symm⟩)
    rcases List.mem_cons.1 hr with rfl | hr
    · have hall : rows.filter (fun a => !decide (key a = key r)) = rows :=
        List.filter_eq_self.2 fun a ha => by simp [Ne.symm (hkeys a ha)]
      simp [hall]
    · have hne : key s ≠ key r := hkeys r hr
      simp only [List.map_cons, List.sum_cons, List.filter_cons, hne, decide_false, Bool.not_false, if_true,
        ih nodup hr]
      rw [← add_assoc, add_comm (f s), add_assoc]

end Total

section Order

variable {M : Type} [AddCommMonoid M] [Preorder M] [AddLeftMono M] {f g : ρ → M}

/-- A sum of terms that shrink. -/
theorem total_le (h : ∀ r ∈ t.rows, f r ≤ g r) : t.total f ≤ t.total g := List.sum_le_sum h

/-- A sum over fewer rows. -/
theorem total_le_of_sublist (h : t'.rows.Sublist t.rows) (hf : ∀ r ∈ t.rows, 0 ≤ f r) : t'.total f ≤ t.total f :=
  (h.map f).sum_le_sum fun a ha => by
    obtain ⟨r, hr, rfl⟩ := List.mem_map.1 ha
    exact hf r hr

end Order

theorem rows_deleteWhere_sublist (t : Table key) (p : ρ → Bool) : (t.deleteWhere p).rows.Sublist t.rows :=
  List.filter_sublist

end Table

end SqlTable
