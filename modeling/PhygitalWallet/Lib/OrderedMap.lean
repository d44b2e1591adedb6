import Mathlib.Algebra.BigOperators.Group.List.Basic
import Mathlib.Data.List.Induction
import Mathlib.Data.List.Nodup

/-!
# Maps in the order of their insertions

A `Map` of JavaScript as the list of its entries: a new key goes to the end, a key that is there keeps its place.

- `get`, `set`, `erase`: an entry is read, written and deleted by its key (`get_set`, `get_erase`);
- `nodup_set`, `nodup_erase`, `get_of_mem`: the keys differ, so each entry is the one of its key;
- `groups`: the items of a list by their keys (`groups_spec`);
- `totals`: the sums of a list of amounts by their keys (`get_totals`, `mem_keys_totals`).
-/

namespace OrderedMap

variable {κ ν : Type} [DecidableEq κ]

/-- The value of the first entry with the key. -/
def get : List (κ × ν) → κ → Option ν
  | [], _ => none
  | (key, value) :: rest, k => if k = key then some value else get rest k

/-- An entry that is there is written in its place; a new one goes to the end. -/
def set : List (κ × ν) → κ → ν → List (κ × ν)
  | [], k, v => [(k, v)]
  | (key, value) :: rest, k, v => if k = key then (key, v) :: rest else (key, value) :: set rest k v

/-- The other entries keep their order. -/
def erase : List (κ × ν) → κ → List (κ × ν)
  | [], _ => []
  | (key, value) :: rest, k => if k = key then erase rest k else (key, value) :: erase rest k

/-- In the order of the entries. -/
def keys (m : List (κ × ν)) : List κ := m.map Prod.fst

/-- A key reads what was set under it; the other keys read what they did. -/
theorem get_set (m : List (κ × ν)) (k : κ) (v : ν) (q : κ) : get (set m k v) q = if q = k then some v else get m q := by
  induction m with
  | nil => rfl
  | cons entry rest ih =>
    obtain ⟨key, value⟩ := entry
    by_cases hk : k = key
    · subst hk
      rw [set, if_pos rfl, get, get]
      split <;> rfl
    · rw [set, if_neg hk, get, get, ih]
      by_cases hq : q = key
      · rw [if_pos hq, if_pos hq, if_neg fun heq => hk (heq.symm.trans hq)]
      · rw [if_neg hq, if_neg hq]

/-- A key that was erased is gone; the other keys read what they did. -/
theorem get_erase (m : List (κ × ν)) (k q : κ) : get (erase m k) q = if q = k then none else get m q := by
  induction m with
  | nil => simp [erase, get]
  | cons entry rest ih =>
    obtain ⟨key, value⟩ := entry
    by_cases hk : k = key
    · subst hk
      rw [erase, if_pos rfl, ih, get]
      split <;> rfl
    · rw [erase, if_neg hk, get, get, ih]
      by_cases hq : q = key
      · rw [if_pos hq, if_pos hq, if_neg fun heq => hk (heq.symm.trans hq)]
      · rw [if_neg hq, if_neg hq]

/-- Setting adds the key and no other. -/
theorem mem_keys_set {m : List (κ × ν)} {k : κ} {v : ν} {q : κ} : q ∈ keys (set m k v) ↔ q ∈ keys m ∨ q = k := by
  induction m with
  | nil => simp [keys, set]
  | cons entry rest ih =>
    obtain ⟨key, value⟩ := entry
    by_cases hk : k = key
    · subst hk
      rw [set, if_pos rfl]
      simp only [keys, List.map_cons, List.mem_cons]
      tauto
    · rw [set, if_neg hk]
      simp only [keys, List.map_cons, List.mem_cons] at ih ⊢
      rw [ih, or_assoc]

/-- What is read is an entry. -/
theorem mem_of_get {m : List (κ × ν)} {k : κ} {v : ν} (h : get m k = some v) : (k, v) ∈ m := by
  induction m with
  | nil => cases h
  | cons entry rest ih =>
    obtain ⟨key, value⟩ := entry
    rw [get] at h
    split at h
    · next hk =>
      cases h
      rw [hk]
      exact List.mem_cons_self
    · exact List.mem_cons_of_mem _ (ih h)

/-- An entry after setting is the new one or an old one. -/
theorem mem_set {m : List (κ × ν)} {k : κ} {v : ν} {entry : κ × ν} (h : entry ∈ set m k v) :
    entry = (k, v) ∨ entry ∈ m := by
  induction m with
  | nil => exact Or.inl (List.mem_singleton.1 h)
  | cons first rest ih =>
    obtain ⟨key, value⟩ := first
    rw [set] at h
    split at h
    · next hk =>
      rcases List.mem_cons.1 h with rfl | h
      · exact Or.inl (by rw [hk])
      · exact Or.inr (List.mem_cons_of_mem _ h)
    · rcases List.mem_cons.1 h with rfl | h
      · exact Or.inr List.mem_cons_self
      · exact (ih h).imp_right (List.mem_cons_of_mem _)

/-- A key is there when something is read under it. -/
theorem mem_keys_iff {m : List (κ × ν)} {k : κ} : k ∈ keys m ↔ (get m k).isSome = true := by
  induction m with
  | nil => simp [keys, get]
  | cons entry rest ih =>
    obtain ⟨key, value⟩ := entry
    by_cases hk : k = key
    · simp [keys, get, hk]
    · simpa [keys, get, hk] using ih

/-- Setting adds no second entry of a key. -/
theorem nodup_set {m : List (κ × ν)} {k : κ} {v : ν} (h : (keys m).Nodup) : (keys (set m k v)).Nodup := by
  induction m with
  | nil => simp [keys, set]
  | cons entry rest ih =>
    obtain ⟨key, value⟩ := entry
    obtain ⟨hnotin, hrest⟩ := List.nodup_cons.1 h
    by_cases hk : k = key
    · rw [set, if_pos hk]
      exact h
    · rw [set, if_neg hk]
      refine List.nodup_cons.2 ⟨fun hmem => ?_, ih hrest⟩
      rcases mem_keys_set.1 hmem with hmem | heq
      · exact hnotin hmem
      · exact hk heq.symm

/-- Erasing leaves the keys distinct. -/
theorem nodup_erase {m : List (κ × ν)} {k : κ} (h : (keys m).Nodup) : (keys (erase m k)).Nodup := by
  induction m with
  | nil => exact h
  | cons entry rest ih =>
    obtain ⟨key, value⟩ := entry
    obtain ⟨hnotin, hrest⟩ := List.nodup_cons.1 h
    by_cases hk : k = key
    · rw [erase, if_pos hk]
      exact ih hrest
    · rw [erase, if_neg hk]
      refine List.nodup_cons.2 ⟨fun hmem => hnotin ?_, ih hrest⟩
      have hsome := mem_keys_iff.1 hmem
      rw [get_erase] at hsome
      split at hsome
      · cases hsome
      · exact mem_keys_iff.2 hsome

/-- Where the keys differ, each entry is the one of its key. -/
theorem get_of_mem {m : List (κ × ν)} {k : κ} {v : ν} (h : (keys m).Nodup) (hmem : (k, v) ∈ m) : get m k = some v := by
  induction m with
  | nil => cases hmem
  | cons entry rest ih =>
    obtain ⟨key, value⟩ := entry
    obtain ⟨hnotin, hrest⟩ := List.nodup_cons.1 h
    rcases List.mem_cons.1 hmem with heq | hmem
    · cases heq
      exact if_pos rfl
    · have hkey : k ∈ keys rest := List.mem_map_of_mem (f := Prod.fst) hmem
      rw [get, if_neg fun heq : k = key => hnotin (heq ▸ hkey)]
      exact ih hrest hmem

/-! ## Lists by key -/

/-- `m.set(k, [...(m.get(k) ?? []), item])`. -/
def push {α : Type} (m : List (κ × List α)) (item : κ × α) : List (κ × List α) :=
  set m item.1 ((get m item.1).getD [] ++ [item.2])

/-- The items by their keys; a group is where its first item came. -/
def groups {α : Type} (items : List (κ × α)) : List (κ × List α) := items.foldl push []

/-- Every item is in the group of its key, and every group has items of its key. -/
theorem groups_spec {α : Type} (items : List (κ × α)) :
    (∀ item ∈ items, ∃ group ∈ groups items, group.1 = item.1 ∧ item.2 ∈ group.2) ∧
      ∀ group ∈ groups items, ∀ a ∈ group.2, (group.1, a) ∈ items := by
  have hinv : (∀ item ∈ items, ∃ as, get (groups items) item.1 = some as ∧ item.2 ∈ as) ∧
      ∀ group ∈ groups items, ∀ a ∈ group.2, (group.1, a) ∈ items := by
    induction items using List.reverseRecOn with
    | nil => exact ⟨by simp, by simp [groups]⟩
    | append_singleton items last ih =>
      obtain ⟨hin, hfrom⟩ := ih
      have hgroups : groups (items ++ [last]) = push (groups items) last := by
        rw [groups, List.foldl_append]
        rfl
      rw [hgroups]
      constructor
      · intro item hitem
        rw [push, get_set]
        by_cases hkey : item.1 = last.1
        · rw [if_pos hkey]
          refine ⟨_, rfl, ?_⟩
          rcases List.mem_append.1 hitem with hitem | hitem
          · obtain ⟨as, has, hmem⟩ := hin item hitem
            rw [hkey] at has
            rw [has]
            exact List.mem_append_left _ hmem
          · rw [List.mem_singleton.1 hitem]
            exact List.mem_append_right _ List.mem_cons_self
        · rw [if_neg hkey]
          rcases List.mem_append.1 hitem with hitem | hitem
          · exact hin item hitem
          · exact absurd (by rw [List.mem_singleton.1 hitem]) hkey
      · intro group hgroup a ha
        rcases mem_set hgroup with rfl | hgroup
        · rcases List.mem_append.1 ha with ha | ha
          · cases hget : get (groups items) last.1 with
            | none =>
              rw [hget] at ha
              cases ha
            | some as =>
              rw [hget] at ha
              exact List.mem_append_left _ (hfrom _ (mem_of_get hget) a ha)
          · rw [List.mem_singleton.1 ha]
            exact List.mem_append_right _ List.mem_cons_self
        · exact List.mem_append_left _ (hfrom group hgroup a ha)
  refine ⟨fun item hitem => ?_, hinv.2⟩
  obtain ⟨as, has, hmem⟩ := hinv.1 item hitem
  exact ⟨_, mem_of_get has, rfl, hmem⟩

/-! ## Sums by key -/

variable [AddCommMonoid ν]

/-- `m.set(k, (m.get(k) ?? 0) + amount)`. -/
def add (m : List (κ × ν)) (item : κ × ν) : List (κ × ν) := set m item.1 ((get m item.1).getD 0 + item.2)

/-- The amounts summed by their keys. -/
def totals (items : List (κ × ν)) : List (κ × ν) := items.foldl add []

/-- The sum of the amounts of one key. -/
def sumOf (items : List (κ × ν)) (k : κ) : ν := ((items.filter fun item => item.1 = k).map Prod.snd).sum

/-- Adding on to a map adds the sum of each key. -/
theorem get_foldl_add (items m : List (κ × ν)) (k : κ) :
    (get (items.foldl add m) k).getD 0 = (get m k).getD 0 + sumOf items k := by
  induction items generalizing m with
  | nil => simp [sumOf]
  | cons item items ih =>
    rw [List.foldl_cons, ih, add, get_set]
    by_cases hk : k = item.1
    · subst hk
      simp [sumOf, add_assoc]
    · have hk' : item.1 ≠ k := fun heq => hk heq.symm
      simp [sumOf, hk, hk']

/-- A total is the sum of the amounts of its key. -/
theorem get_totals (items : List (κ × ν)) (k : κ) : (get (totals items) k).getD 0 = sumOf items k := by
  rw [totals, get_foldl_add]
  exact zero_add _

/-- Adding on to a map adds the keys of the amounts. -/
theorem mem_keys_foldl_add {items m : List (κ × ν)} {k : κ} :
    k ∈ keys (items.foldl add m) ↔ k ∈ keys m ∨ k ∈ items.map Prod.fst := by
  induction items generalizing m with
  | nil => simp
  | cons item items ih => rw [List.foldl_cons, ih, add, mem_keys_set, List.map_cons, List.mem_cons, or_assoc]

/-- The keys of the totals are those of the amounts. -/
theorem mem_keys_totals {items : List (κ × ν)} {k : κ} : k ∈ keys (totals items) ↔ k ∈ items.map Prod.fst := by
  rw [totals, mem_keys_foldl_add]
  simp [keys]

/-- A key without an amount has no sum. -/
theorem sumOf_eq_zero {items : List (κ × ν)} {k : κ} (h : k ∉ items.map Prod.fst) : sumOf items k = 0 := by
  have hnone : (items.filter fun item => item.1 = k) = [] := by
    rw [List.filter_eq_nil_iff]
    intro item hitem hk
    exact h (of_decide_eq_true hk ▸ List.mem_map_of_mem hitem)
  rw [sumOf, hnone]
  rfl

end OrderedMap
