import Mathlib.Algebra.BigOperators.Group.Finset.Basic
import Mathlib.Algebra.GroupWithZero.Nat
import Mathlib.Data.List.Nodup
import Mathlib.Data.List.Induction

/-!
# Loops over a list

- `foldlM_add_iff`: a loop that checks each item and adds its cost succeeds exactly when every item passes, with the
  start plus the total cost;
- `foldlM_unit_iff`: a loop that only checks;
- `foldlM_iff`, `foldlM_error`, `foldlM_congr`: a loop whose steps are checks and updates, which errors it can give, and
  what it depends on;
- `isDup`, `nodup_iff_not_isDup`: the quadratic duplicate check `items[..i].any(|o| key(o) == key(item))`;
- `firsts`, `sum_firsts`: a loop that skips duplicates visits every key once;
- `pushNew`, `pushAll`: a loop that collects distinct keys gives each a position that it keeps.
-/

namespace ListLoop

variable {ε α β : Type}

/-- A loop whose step checks the item and updates the state. -/
theorem foldlM_iff {f : β → α → Except ε β} {P : α → Prop} {g : β → α → β} {l : List α}
    (h : ∀ b, ∀ a ∈ l, ∀ b', f b a = .ok b' ↔ P a ∧ b' = g b a) (b b' : β) :
    l.foldlM f b = .ok b' ↔ (∀ a ∈ l, P a) ∧ b' = l.foldl g b := by
  induction l generalizing b with
  | nil => simp [pure, Except.pure, eq_comm]
  | cons a l ih =>
    have ih' := fun c => ih (fun b x hx => h b x (List.mem_cons_of_mem _ hx)) c
    have ha := h b a List.mem_cons_self
    simp only [List.foldlM_cons, List.forall_mem_cons, List.foldl_cons]
    cases hf : f b a with
    | error e =>
      have hP : ¬P a := fun hP => by
        rw [(ha (g b a)).2 ⟨hP, rfl⟩] at hf
        cases hf
      simp [bind, Except.bind, hP]
    | ok c =>
      obtain ⟨hP, rfl⟩ := (ha c).1 hf
      simp only [bind, Except.bind, ih', hP, true_and]

/-- The errors of a loop are errors of its step. -/
theorem foldlM_error {f : β → α → Except ε β} {E : ε → Prop} {l : List α}
    (h : ∀ b, ∀ a ∈ l, ∀ e, f b a = .error e → E e) {b : β} {e : ε} (hl : l.foldlM f b = .error e) : E e := by
  induction l generalizing b with
  | nil => cases hl
  | cons a l ih =>
    rw [List.foldlM_cons] at hl
    cases hf : f b a with
    | error e' =>
      rw [hf] at hl
      cases hl
      exact h b a List.mem_cons_self _ hf
    | ok c =>
      rw [hf] at hl
      exact ih (fun b x hx => h b x (List.mem_cons_of_mem _ hx)) hl

/-- A loop depends on its step at the items only. -/
theorem foldlM_congr {f g : β → α → Except ε β} {l : List α} (h : ∀ b, ∀ a ∈ l, f b a = g b a) (b : β) :
    l.foldlM f b = l.foldlM g b := by
  induction l generalizing b with
  | nil => rfl
  | cons a l ih =>
    rw [List.foldlM_cons, List.foldlM_cons, h b a List.mem_cons_self]
    exact bind_congr fun c => ih (fun b x hx => h b x (List.mem_cons_of_mem _ hx)) c

/-- A checking loop with an accumulator. -/
theorem foldlM_add_iff {f : Nat → α → Except ε Nat} {P : α → Prop} {c : α → Nat} {l : List α}
    (h : ∀ n, ∀ a ∈ l, ∀ n', f n a = .ok n' ↔ P a ∧ n' = n + c a) (n n' : Nat) :
    l.foldlM f n = .ok n' ↔ (∀ a ∈ l, P a) ∧ n' = n + (l.map c).sum := by
  have hsum : ∀ (l : List α) (n : Nat), l.foldl (fun n a => n + c a) n = n + (l.map c).sum := by
    intro l
    induction l with
    | nil => simp
    | cons a l ih =>
      intro n
      rw [List.foldl_cons, ih, List.map_cons, List.sum_cons, Nat.add_assoc]
  rw [foldlM_iff h, hsum]

/-- A checking loop. -/
theorem foldlM_unit_iff {f : α → Except ε Unit} {P : α → Prop} {l : List α}
    (h : ∀ a ∈ l, f a = .ok () ↔ P a) : l.foldlM (fun _ a => f a) () = .ok () ↔ ∀ a ∈ l, P a := by
  induction l with
  | nil => simp [pure, Except.pure]
  | cons a l ih =>
    have ih' := ih fun b hb => h b (List.mem_cons_of_mem _ hb)
    have ha := h a List.mem_cons_self
    simp only [List.foldlM_cons, List.forall_mem_cons]
    cases hf : f a with
    | error e =>
      have hP : ¬P a := fun hP => by
        rw [ha.2 hP] at hf
        cases hf
      simp [bind, Except.bind, hP]
    | ok u => simp [bind, Except.bind, ih', ha.1 hf]

/-- A lookup that fails as a whole when one item fails. -/
theorem getElem?_mapM {f : α → Option β} {l : List α} {out : List β} (h : l.mapM f = some out) :
    out.length = l.length ∧ ∀ i : Nat, out[i]? = l[i]?.bind f := by
  induction l generalizing out with
  | nil =>
    cases h
    simp
  | cons a l ih =>
    rw [List.mapM_cons] at h
    obtain ⟨b, hb, h⟩ := Option.bind_eq_some_iff.1 h
    obtain ⟨bs, hbs, h⟩ := Option.bind_eq_some_iff.1 h
    cases h
    obtain ⟨hlen, hget⟩ := ih hbs
    refine ⟨by simp [hlen], fun i => ?_⟩
    cases i with
    | zero => simp [hb]
    | succ i => simpa using hget i

theorem mapM_congr {f g : α → Option β} {l : List α} (h : ∀ a ∈ l, f a = g a) : l.mapM f = l.mapM g := by
  induction l with
  | nil => rfl
  | cons a l ih => rw [List.mapM_cons, List.mapM_cons, h a List.mem_cons_self, ih fun b hb => h b (List.mem_cons_of_mem _ hb)]

/-- A map that fails as a whole when one item fails. -/
theorem forall₂_of_mapM {f : α → Except ε β} {l : List α} {out : List β} (h : l.mapM f = .ok out) :
    List.Forall₂ (fun a b => f a = .ok b) l out := by
  induction l generalizing out with
  | nil =>
    cases h
    exact .nil
  | cons a l ih =>
    rw [List.mapM_cons] at h
    cases hf : f a with
    | error e =>
      rw [hf] at h
      cases h
    | ok b =>
      cases hl : l.mapM f with
      | error e =>
        rw [hf, hl] at h
        cases h
      | ok bs =>
        rw [hf, hl] at h
        cases h
        exact .cons hf (ih hl)

/-! ## Duplicates -/

variable {κ : Type} [DecidableEq κ]

/-- The key of the item at position `i` occurs before `i`. -/
def isDup (key : α → κ) (l : List α) (a : α) (i : Nat) : Bool := (l.take i).any fun o => key o = key a

theorem isDup_append_left {key : α → κ} {l r : List α} {a : α} {i : Nat} (hi : i ≤ l.length) :
    isDup key (l ++ r) a i = isDup key l a i := by
  rw [isDup, isDup, List.take_append_of_le_length hi]

theorem isDup_length {key : α → κ} {l r : List α} {a : α} :
    isDup key (l ++ r) a l.length = true ↔ key a ∈ l.map key := by
  simp [isDup]

/-- No item is a duplicate exactly when the keys are distinct. -/
theorem nodup_iff_not_isDup {key : α → κ} {l : List α} :
    (∀ p ∈ l.zipIdx, ¬isDup key l p.1 p.2 = true) ↔ (l.map key).Nodup := by
  induction l using List.reverseRecOn with
  | nil => simp
  | append_singleton l a ih =>
    rw [List.zipIdx_append, List.map_append, List.nodup_append, ← ih]
    simp only [List.mem_append, List.zipIdx_cons, List.zipIdx_nil, List.mem_singleton, Nat.zero_add]
    constructor
    · intro h
      refine ⟨fun p hp => ?_, by simp, ?_⟩
      · rw [← isDup_append_left (r := [a]) (Nat.le_of_lt (List.snd_lt_of_mem_zipIdx hp))]
        exact h p (Or.inl hp)
      · have ha := h (a, l.length) (Or.inr rfl)
        rw [isDup_length] at ha
        rintro k hk b hb rfl
        simp only [List.map_cons, List.map_nil, List.mem_singleton] at hb
        exact ha (hb ▸ hk)
    · rintro ⟨h, -, hd⟩ p (hp | rfl)
      · rw [isDup_append_left (Nat.le_of_lt (List.snd_lt_of_mem_zipIdx hp))]
        exact h p hp
      · rw [isDup_length]
        intro hk
        exact hd _ hk (key a) (by simp) rfl

/-! ## Distinct keys -/

/-- The items, with their positions, whose key occurs there first. -/
def firsts (key : α → κ) (l : List α) : List (α × Nat) := l.zipIdx.filter fun p => !isDup key l p.1 p.2

theorem firsts_concat (key : α → κ) (l : List α) (a : α) :
    firsts key (l ++ [a]) = firsts key l ++ if key a ∈ l.map key then [] else [(a, l.length)] := by
  have hleft : l.zipIdx.filter (fun p => !isDup key (l ++ [a]) p.1 p.2) = firsts key l := by
    apply List.filter_congr
    intro p hp
    rw [isDup_append_left (Nat.le_of_lt (List.snd_lt_of_mem_zipIdx hp))]
  rw [firsts, List.zipIdx_append, List.filter_append, hleft]
  congr 1
  simp only [List.zipIdx_cons, List.zipIdx_nil, Nat.zero_add, List.filter_cons, List.filter_nil]
  by_cases h : key a ∈ l.map key
  · rw [if_pos h, isDup_length.2 h]
    rfl
  · have : isDup key (l ++ [a]) a l.length = false := by
      rw [Bool.eq_false_iff]
      exact fun hd => h (isDup_length.1 hd)
    rw [if_neg h, this]
    rfl

theorem mem_firsts {key : α → κ} {l : List α} {p : α × Nat} (h : p ∈ firsts key l) : l[p.2]? = some p.1 := by
  exact List.mk_mem_zipIdx_iff_getElem?.1 (List.mem_of_mem_filter h)

theorem keys_firsts (key : α → κ) (l : List α) :
    ((firsts key l).map fun p => key p.1).Nodup ∧ ∀ k, k ∈ (firsts key l).map (fun p => key p.1) ↔ k ∈ l.map key := by
  induction l using List.reverseRecOn with
  | nil => simp [firsts]
  | append_singleton l a ih =>
    obtain ⟨hnd, hmem⟩ := ih
    rw [firsts_concat, List.map_append]
    by_cases h : key a ∈ l.map key
    · rw [if_pos h]
      refine ⟨by simpa using hnd, fun k => ?_⟩
      rw [List.map_nil, List.append_nil, hmem, List.map_append, List.mem_append, List.map_singleton,
        List.mem_singleton]
      constructor
      · exact Or.inl
      · rintro (hk | rfl)
        · exact hk
        · exact h
    · rw [if_neg h]
      refine ⟨?_, fun k => by simp [← hmem]⟩
      rw [List.nodup_append]
      refine ⟨hnd, by simp, fun k hk b hb => ?_⟩
      rw [List.map_singleton, List.mem_singleton] at hb
      rintro rfl
      exact h (hb ▸ (hmem k).1 hk)

/-- **Every key once.** A sum over first occurrences is the sum over the set of keys. -/
theorem sum_firsts {M : Type} [AddCommMonoid M] (key : α → κ) (l : List α) (f : κ → M) :
    ((firsts key l).map fun p => f (key p.1)).sum = ∑ k ∈ (l.map key).toFinset, f k := by
  obtain ⟨hnd, hmem⟩ := keys_firsts key l
  have hset : ((firsts key l).map fun p => key p.1).toFinset = (l.map key).toFinset := by
    ext k
    rw [List.mem_toFinset, List.mem_toFinset, hmem]
  rw [← hset, List.sum_toFinset f hnd, List.map_map]
  rfl

/-! ## Collecting keys -/

/-- The key is appended unless it is there. -/
def pushNew (keys : List κ) (k : κ) : List κ := if k ∈ keys then keys else keys ++ [k]

def pushAll (keys ks : List κ) : List κ := ks.foldl pushNew keys

theorem mem_pushNew {keys : List κ} {k a : κ} : a ∈ pushNew keys k ↔ a ∈ keys ∨ a = k := by
  unfold pushNew
  split
  · next h =>
    constructor
    · exact Or.inl
    · rintro (ha | rfl)
      · exact ha
      · exact h
  · simp

theorem nodup_pushNew {keys : List κ} (h : keys.Nodup) (k : κ) : (pushNew keys k).Nodup := by
  unfold pushNew
  split
  · exact h
  · next hk =>
    rw [← List.concat_eq_append]
    exact h.concat hk

theorem prefix_pushNew (keys : List κ) (k : κ) : keys <+: pushNew keys k := by
  unfold pushNew
  split
  · exact List.prefix_rfl
  · exact List.prefix_append _ _

theorem prefix_pushAll (keys ks : List κ) : keys <+: pushAll keys ks := by
  induction ks generalizing keys with
  | nil => exact List.prefix_rfl
  | cons k ks ih => exact (prefix_pushNew keys k).trans (ih (pushNew keys k))

theorem mem_pushAll {keys ks : List κ} {a : κ} : a ∈ pushAll keys ks ↔ a ∈ keys ∨ a ∈ ks := by
  induction ks generalizing keys with
  | nil => simp [pushAll]
  | cons k ks ih =>
    rw [pushAll, List.foldl_cons, ← pushAll, ih, mem_pushNew, List.mem_cons, or_assoc]

theorem nodup_pushAll {keys : List κ} (h : keys.Nodup) (ks : List κ) : (pushAll keys ks).Nodup := by
  induction ks generalizing keys with
  | nil => exact h
  | cons k ks ih => exact ih (nodup_pushNew h k)

theorem pushAll_append (keys ks ks' : List κ) : pushAll keys (ks ++ ks') = pushAll (pushAll keys ks) ks' := by
  simp [pushAll]

/-- A key that is there keeps its position. -/
theorem idxOf_extend {keys keys' : List κ} {k : κ} (h : keys <+: keys') (hk : k ∈ keys) :
    keys'.idxOf k = keys.idxOf k := by
  obtain ⟨rest, rfl⟩ := h
  exact List.idxOf_append_of_mem hk

end ListLoop
