import Mathlib.Data.List.Sort
import Mathlib.Order.Lattice

/-!
# Reading a sorted table page by page

The rows come with the largest keys first; the key of a page's last row is where the next page goes on. The table may grow
from one page to the next.

- `Page`: what one page holds, and `page_lookAhead`: the page that is cut from one row too many;
- `Page.shrinks`: each page leaves fewer rows;
- `Reads`: the pages of a whole reading, with `Reads.descending`, `Reads.complete`;
- `Reads.eq_of_static`: a reading of a table that stays the same.
-/

namespace Keyset

variable {ρ κ : Type} [LinearOrder κ]

/-- The row comes after the place that a reading has come to. -/
def Past (key : ρ → κ) (after : Option κ) (r : ρ) : Prop := ∀ k ∈ after, key r < k

instance (key : ρ → κ) (after : Option κ) : DecidablePred (Past key after) := fun r =>
  match after with
  | none => isTrue nofun
  | some k => decidable_of_iff (key r < k) (by simp [Past])

def Descending (key : ρ → κ) (rows : List ρ) : Prop := rows.Pairwise fun a b => key b < key a

/-- What one page of a table holds, and where the next one goes on. -/
structure Page (key : ρ → κ) (table page : List ρ) (after next : Option κ) : Prop where
  mem : ∀ r ∈ page, r ∈ table ∧ Past key after r
  descending : Descending key page
  rest : ∀ r ∈ table, Past key after r → r ∈ page ∨ ∃ k ∈ next, key r < k
  next : ∀ k ∈ next, ∃ r ∈ page, key r = k ∧ ∀ s ∈ page, k ≤ key s

/-- The pages of a reading that ends. -/
inductive Reads (key : ρ → κ) : Option κ → List (List ρ) → List ρ → Prop
  | last {after : Option κ} {table page : List ρ} (h : Page key table page after none) : Reads key after [table] page
  | next {after : Option κ} {k : κ} {table page rest : List ρ} {tables : List (List ρ)} (h : Page key table page after (some k))
      (hrest : Reads key (some k) tables rest) : Reads key after (table :: tables) (page ++ rest)

variable {key : ρ → κ} {after : Option κ} {table rows : List ρ} {tables : List (List ρ)}

theorem Past.trans {k : κ} {r s : ρ} (hr : Past key (some k) r) (hs : Past key after s) (hk : key s = k) :
    Past key after r := by
  intro k' hk'
  have hlt : key r < key s := by
    rw [hk]
    exact hr k rfl
  exact hlt.trans (hs k' hk')

/-- Every page leaves fewer rows than there were. -/
theorem Page.shrinks {page : List ρ} {k : κ} (h : Page key table page after (some k)) :
    (table.filter (Past key (some k) ·)).length < (table.filter (Past key after ·)).length := by
  obtain ⟨r, hr, hk, -⟩ := h.next k rfl
  obtain ⟨hmem, hpast⟩ := h.mem r hr
  have hsub : (table.filter (Past key (some k) ·)).Sublist ((table.filter (Past key after ·)).filter (key · ≠ k)) := by
    rw [List.filter_filter]
    refine List.monotone_filter_right table fun s hs => ?_
    have hs : Past key (some k) s := by simpa using hs
    have hne : key s ≠ k := (hs k rfl).ne
    simpa using ⟨hne, hs.trans hpast hk⟩
  refine lt_of_le_of_lt hsub.length_le (List.length_filter_lt_length_iff_exists.2 ⟨r, ?_, ?_⟩)
  · simpa using ⟨hmem, hpast⟩
  · simpa using hk

/-! ## Readings -/

theorem Reads.mem (h : Reads key after tables rows) : ∀ r ∈ rows, (∃ table ∈ tables, r ∈ table) ∧ Past key after r := by
  induction h with
  | last h =>
    intro r hr
    obtain ⟨hmem, hpast⟩ := h.mem r hr
    exact ⟨⟨_, List.mem_singleton_self _, hmem⟩, hpast⟩
  | next h hrest ih =>
    intro r hr
    rcases List.mem_append.1 hr with hr | hr
    · obtain ⟨hmem, hpast⟩ := h.mem r hr
      exact ⟨⟨_, List.mem_cons_self, hmem⟩, hpast⟩
    · obtain ⟨⟨t, ht, hmem⟩, hpast⟩ := ih r hr
      obtain ⟨s, hs, hk, -⟩ := h.next _ rfl
      exact ⟨⟨t, List.mem_cons_of_mem _ ht, hmem⟩, hpast.trans (h.mem s hs).2 hk⟩

/-- **No row comes twice**, and each comes before those with smaller keys. -/
theorem Reads.descending (h : Reads key after tables rows) : Descending key rows := by
  induction h with
  | last h => exact h.descending
  | next h hrest ih =>
    refine List.pairwise_append.2 ⟨h.descending, ih, fun a ha b hb => ?_⟩
    obtain ⟨-, hpast⟩ := hrest.mem b hb
    obtain ⟨s, hs, hk, hle⟩ := h.next _ rfl
    exact lt_of_lt_of_le (hpast _ rfl) (hle a ha)

theorem Descending.nodup (h : Descending key rows) : rows.Nodup := h.imp fun {a b} hlt heq => by
  subst heq
  exact lt_irrefl _ hlt

/-- **No row is lost** that is there all the time. -/
theorem Reads.complete (h : Reads key after tables rows) : ∀ r, (∀ table ∈ tables, r ∈ table) → Past key after r → r ∈ rows := by
  induction h with
  | last h =>
    intro r hr hpast
    rcases h.rest r (hr _ (List.mem_singleton_self _)) hpast with hmem | ⟨k, hk, -⟩
    · exact hmem
    · cases hk
  | next h hrest ih =>
    intro r hr hpast
    rcases h.rest r (hr _ List.mem_cons_self) hpast with hmem | ⟨k, hk, hlt⟩
    · exact List.mem_append_left _ hmem
    · obtain rfl := Option.some.inj hk
      refine List.mem_append_right _ (ih r (fun t ht => hr t (List.mem_cons_of_mem _ ht)) ?_)
      intro k' hk'
      obtain rfl := Option.some.inj hk'
      exact hlt

/-- A table that stays the same is read in its order. -/
theorem Reads.eq_of_static (h : Reads key none tables rows) (hsame : ∀ t ∈ tables, t = table) {sorted : List ρ}
    (hsorted : Descending key sorted) (hmem : ∀ r, r ∈ sorted ↔ r ∈ table) : rows = sorted := by
  have hrows : ∀ r, r ∈ rows ↔ r ∈ table := by
    intro r
    constructor
    · intro hr
      obtain ⟨⟨t, ht, hmem⟩, -⟩ := h.mem r hr
      exact hsame t ht ▸ hmem
    · intro hr
      refine h.complete r (fun t ht => ?_) nofun
      rw [hsame t ht]
      exact hr
  have hperm : rows.Perm sorted :=
    (List.perm_ext_iff_of_nodup h.descending.nodup hsorted.nodup).2 fun r => (hrows r).trans (hmem r).symm
  exact hperm.eq_of_pairwise (fun a b _ _ hab hba => absurd (hab.trans hba) (lt_irrefl _)) h.descending hsorted

/-! ## Pages -/

/-- One row more than a page is read, to see whether there is another page. -/
theorem page_lookAhead {sorted : List ρ} {limit n : ℕ} (hsorted : Descending key sorted)
    (hmem : ∀ r, r ∈ sorted ↔ r ∈ table ∧ Past key after r) (hlimit : 0 < limit) (hn : limit < n) :
    (limit < (sorted.take n).length → ∃ last, (sorted.take limit).getLast? = some last ∧
      Page key table (sorted.take limit) after (some (key last))) ∧
    ((sorted.take n).length ≤ limit → Page key table (sorted.take n) after none) := by
  constructor
  · intro hmore
    have hlong : limit < sorted.length := by
      rw [List.length_take] at hmore
      omega
    have hne : sorted.take limit ≠ [] := by
      rw [ne_eq, List.take_eq_nil_iff, not_or]
      exact ⟨hlimit.ne', List.ne_nil_of_length_pos (by omega)⟩
    obtain ⟨last, hlast⟩ := List.getLast?_isSome.2 hne |> Option.isSome_iff_exists.1
    obtain ⟨front, hfront⟩ : ∃ front, sorted.take limit = front ++ [last] := List.getLast?_eq_some_iff.1 hlast
    have hsplit : Descending key (sorted.take limit ++ sorted.drop limit) := by
      rw [List.take_append_drop]
      exact hsorted
    obtain ⟨hpage, -, hcross⟩ := List.pairwise_append.1 hsplit
    have hlastMem : last ∈ sorted.take limit := by
      rw [hfront]
      simp
    refine ⟨last, hlast, ⟨fun r hr => (hmem r).1 (List.mem_of_mem_take hr), hpage, fun r hr hpast => ?_, fun k hk => ?_⟩⟩
    · have hr : r ∈ sorted.take limit ++ sorted.drop limit := by
        rw [List.take_append_drop]
        exact (hmem r).2 ⟨hr, hpast⟩
      rcases List.mem_append.1 hr with hr | hr
      · exact Or.inl hr
      · exact Or.inr ⟨_, rfl, hcross last hlastMem r hr⟩
    · obtain rfl := Option.some.inj hk
      refine ⟨last, hlastMem, rfl, fun s hs => ?_⟩
      rw [hfront] at hs hpage
      rcases List.mem_append.1 hs with hs | hs
      · exact ((List.pairwise_append.1 hpage).2.2 s hs last (List.mem_singleton_self _)).le
      · rw [List.mem_singleton.1 hs]
  · intro hall
    have htake : sorted.take n = sorted := by
      refine List.take_of_length_le ?_
      rw [List.length_take] at hall
      omega
    rw [htake]
    exact ⟨fun r hr => (hmem r).1 hr, hsorted, fun r hr hpast => Or.inl ((hmem r).2 ⟨hr, hpast⟩), nofun⟩

end Keyset
