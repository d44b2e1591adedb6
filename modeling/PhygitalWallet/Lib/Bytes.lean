import Mathlib.Tactic.Ring

/-!
# Byte strings: little-endian numbers, slices and overwrites

- `toLE w n` / `ofLE bs`: the `w`-byte little-endian form of a number and back (`ofLE_toLE`, `toLE_ofLE`);
- `slice bs a b`: the bytes `a ≤ i < b`; `sliceFrom bs a`: the bytes from `a` on;
- `getRange bs a b`: the slice, defined only when the range is inside `bs`;
- `copyInto bs a b src`: overwrite the range `a..b` with `src`, defined only when the range is inside `bs` and `src`
  has its length (the condition under which a slice copy does not panic).

The slice lemmas are stated for a byte string cut as `pre ++ field ++ post`: a layout is a list of fields, and a
reader that slices at the offsets of the layout finds the fields (`slice_eq`, `sliceFrom_eq`), a writer that
overwrites there replaces one field and nothing else (`copyInto_eq`).
-/

namespace ByteSeq

/-- A byte string. -/
abbrev Bytes := List UInt8

/-! ## Little-endian numbers -/

/-- The `w` low bytes of `n`, least significant first. -/
def toLE : Nat → Nat → Bytes
  | 0, _ => []
  | w + 1, n => UInt8.ofNat (n % 256) :: toLE w (n / 256)

/-- The number a byte string spells, least significant byte first. -/
def ofLE : Bytes → Nat
  | [] => 0
  | b :: bs => b.toNat + 256 * ofLE bs

@[simp] theorem length_toLE : ∀ w n, (toLE w n).length = w
  | 0, _ => rfl
  | w + 1, n => by simp [toLE, length_toLE w]

/-- A number that fits in `w` bytes is read back. -/
theorem ofLE_toLE : ∀ {w n : Nat}, n < 256 ^ w → ofLE (toLE w n) = n
  | 0, n, h => by simp at h; simp [toLE, ofLE, h]
  | w + 1, n, h => by
    have hq : n / 256 < 256 ^ w := Nat.div_lt_of_lt_mul (by rw [← Nat.pow_succ']; exact h)
    have hb : (UInt8.ofNat (n % 256)).toNat = n % 256 := by
      rw [UInt8.toNat_ofNat']; exact Nat.mod_eq_of_lt (Nat.mod_lt _ (by decide))
    rw [toLE, ofLE, ofLE_toLE hq, hb]
    omega

theorem ofLE_lt : ∀ bs : Bytes, ofLE bs < 256 ^ bs.length
  | [] => by simp [ofLE]
  | b :: bs => by
    have h := ofLE_lt bs
    have hb : b.toNat < 256 := b.toNat_lt
    simp only [ofLE, List.length_cons, Nat.pow_succ]
    omega

/-- Every byte string is the little-endian form of the number it spells. -/
theorem toLE_ofLE : ∀ bs : Bytes, toLE bs.length (ofLE bs) = bs
  | [] => rfl
  | b :: bs => by
    have hb : b.toNat < 256 := b.toNat_lt
    have hm : (b.toNat + 256 * ofLE bs) % 256 = b.toNat := by omega
    have hd : (b.toNat + 256 * ofLE bs) / 256 = ofLE bs := by omega
    simp only [ofLE, List.length_cons, toLE, hm, hd, toLE_ofLE bs, UInt8.ofNat_toNat]

theorem toLE_inj {w m n : Nat} (hm : m < 256 ^ w) (hn : n < 256 ^ w) (h : toLE w m = toLE w n) : m = n := by
  rw [← ofLE_toLE hm, h, ofLE_toLE hn]

/-! ## Slices -/

/-- The bytes `a ≤ i < b`. -/
def slice (bs : Bytes) (a b : Nat) : Bytes := (bs.drop a).take (b - a)

/-- The bytes from `a` on. -/
def sliceFrom (bs : Bytes) (a : Nat) : Bytes := bs.drop a

theorem length_slice {bs : Bytes} {a b : Nat} (hb : b ≤ bs.length) : (slice bs a b).length = b - a := by
  simp only [slice, List.length_take, List.length_drop]
  omega

/-- A slice of a slice. -/
theorem slice_slice (bs : Bytes) {a b c d : Nat} (hd : a + d ≤ b) :
    slice (slice bs a b) c d = slice bs (a + c) (a + d) := by
  have hmin : min (d - c) (b - a - c) = a + d - (a + c) := by omega
  rw [slice, slice, slice, List.drop_take, List.take_take, List.drop_drop, hmin]

/-- The slice at the place of a field is the field. -/
theorem slice_eq {bs field : Bytes} {a b : Nat} (pre post : Bytes) (h : bs = pre ++ field ++ post) (ha : pre.length = a)
    (hb : a + field.length = b) : slice bs a b = field := by
  subst h ha hb
  simp [slice]

/-- What follows the last field is the rest. -/
theorem sliceFrom_eq {bs : Bytes} {a : Nat} (pre post : Bytes) (h : bs = pre ++ post) (ha : pre.length = a) :
    sliceFrom bs a = post := by
  subst h ha
  simp [sliceFrom]

/-- A prefix grown by a slice. -/
theorem take_eq_slice {bs : Bytes} {a b : Nat} (hab : a ≤ b) : bs.take b = bs.take a ++ slice bs a b := by
  obtain ⟨n, rfl⟩ := Nat.exists_eq_add_of_le hab
  rw [slice, Nat.add_sub_cancel_left, List.take_add]

/-- A byte string cut at the two ends of a slice. -/
theorem eq_slice {bs : Bytes} {a b : Nat} (hab : a ≤ b) :
    bs = bs.take a ++ slice bs a b ++ sliceFrom bs b := by
  rw [← take_eq_slice hab, sliceFrom, List.take_append_drop]

/-- `data.get(a..b)`: the slice, where the range is inside `bs`. -/
def getRange (bs : Bytes) (a b : Nat) : Option Bytes := if a ≤ b ∧ b ≤ bs.length then some (slice bs a b) else none

theorem getRange_of_le {bs : Bytes} {a b : Nat} (hab : a ≤ b) (hb : b ≤ bs.length) :
    getRange bs a b = some (slice bs a b) := if_pos ⟨hab, hb⟩

/-- The range at the place of a field is the field. -/
theorem getRange_eq {bs field : Bytes} {a b : Nat} (pre post : Bytes) (h : bs = pre ++ field ++ post) (ha : pre.length = a)
    (hb : a + field.length = b) : getRange bs a b = some field := by
  have hl : bs.length = pre.length + field.length + post.length := by simp [h, Nat.add_assoc]
  rw [getRange_of_le (by omega) (by omega), slice_eq pre post h ha hb]

theorem getRange_eq_some {bs out : Bytes} {a b : Nat} (h : getRange bs a b = some out) :
    a ≤ b ∧ b ≤ bs.length ∧ slice bs a b = out := by
  unfold getRange at h
  split at h
  · next hc => exact ⟨hc.1, hc.2, Option.some.inj h⟩
  · cases h

/-! ## Overwrites -/

/-- `bs[a..b].copy_from_slice(src)`: `none` where the range is not inside `bs` or the lengths differ. -/
def copyInto (bs : Bytes) (a b : Nat) (src : Bytes) : Option Bytes :=
  if a ≤ b ∧ b ≤ bs.length ∧ src.length = b - a then some (bs.take a ++ src ++ bs.drop b) else none

/-- Overwriting a field by one of the same length. -/
theorem copyInto_eq {bs src : Bytes} {a b : Nat} (pre old post : Bytes) (h : bs = pre ++ old ++ post) (ha : pre.length = a)
    (hb : a + old.length = b) (hs : src.length = old.length) :
    copyInto bs a b src = some (pre ++ src ++ post) := by
  subst h ha hb
  have hd : pre.length + old.length = (pre ++ old).length := by simp
  rw [copyInto, if_pos (by simp; omega), hd, List.drop_left]
  simp

/-- An overwrite keeps the length. -/
theorem length_copyInto {bs src out : Bytes} {a b : Nat} (h : copyInto bs a b src = some out) :
    out.length = bs.length := by
  unfold copyInto at h
  split at h
  · cases h
    simp only [List.length_append, List.length_take, List.length_drop]
    omega
  · cases h

/-- A string of a known length falls into two parts. -/
theorem exists_append {bs : Bytes} {m n : Nat} (h : bs.length = m + n) :
    ∃ a b, bs = a ++ b ∧ a.length = m ∧ b.length = n :=
  ⟨bs.take m, bs.drop m, (List.take_append_drop m bs).symm, by rw [List.length_take]; omega,
    by rw [List.length_drop]; omega⟩

end ByteSeq
