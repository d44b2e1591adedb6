import PhygitalWallet.Lib.Bytes

/-!
# Text of bytes

- `decodeUtf8`: what a decoder that never fails makes of bytes; what is not UTF-8 becomes U+FFFD;
- `utf16Length`, `takeUnits`, `codeUnits`: lengths, cuts and values of 16-bit units, as JavaScript counts;
- `utf8Bytes`: the bytes of a text; `decodeUtf8_utf8Bytes`: they are decoded to the text.
-/

namespace Utf8

open ByteSeq

/-- What is still to come of a character: how many bytes, the bounds of the next one, the number so far. -/
structure Pending where
  needed : Nat := 0
  lower : Nat := 0x80
  upper : Nat := 0xbf
  codePoint : Nat := 0
deriving DecidableEq, Repr

def replacement : Char := '\uFFFD'

/-- A byte where a character starts. -/
def startChar (b : Nat) : List Char × Pending :=
  if b ≤ 0x7f then ([Char.ofNat b], {})
  else if 0xc2 ≤ b ∧ b ≤ 0xdf then ([], { needed := 1, codePoint := b % 0x20 })
  else if 0xe0 ≤ b ∧ b ≤ 0xef then
    ([], { needed := 2, lower := if b = 0xe0 then 0xa0 else 0x80, upper := if b = 0xed then 0x9f else 0xbf,
           codePoint := b % 0x10 })
  else if 0xf0 ≤ b ∧ b ≤ 0xf4 then
    ([], { needed := 3, lower := if b = 0xf0 then 0x90 else 0x80, upper := if b = 0xf4 then 0x8f else 0xbf,
           codePoint := b % 8 })
  else ([replacement], {})

/-- One byte: a byte that cannot come next starts anew. -/
def nextByte (pending : Pending) (b : Nat) : List Char × Pending :=
  if pending.needed = 0 then startChar b
  else if b < pending.lower ∨ pending.upper < b then
    let (chars, next) := startChar b
    (replacement :: chars, next)
  else
    let codePoint := pending.codePoint * 0x40 + b % 0x40
    if pending.needed = 1 then ([Char.ofNat codePoint], {})
    else ([], { needed := pending.needed - 1, codePoint })

def decodeFrom (pending : Pending) : Bytes → List Char
  | [] => if pending.needed = 0 then [] else [replacement]
  | b :: bytes =>
    let (chars, next) := nextByte pending b.toNat
    chars ++ decodeFrom next bytes

/-- `new TextDecoder().decode(bytes)`: a byte order mark at the start is dropped. -/
def decodeUtf8 (bytes : Bytes) : List Char :=
  decodeFrom {} (if [0xef, 0xbb, 0xbf].isPrefixOf bytes then bytes.drop 3 else bytes)

example : decodeUtf8 [0x61, 0xe2, 0x82, 0xac, 0xff, 0xe2, 0x82] = ['a', '€', replacement, replacement] := by decide

/-- The length in 16-bit units. -/
def utf16Length (chars : List Char) : Nat := (chars.map fun c => if c.toNat ≤ 0xffff then 1 else 2).sum

/-- The first units; half of a character is shown as U+FFFD. -/
def takeUnits : Nat → List Char → List Char
  | 0, _ => []
  | _, [] => []
  | n + 1, c :: chars =>
    if c.toNat ≤ 0xffff then c :: takeUnits n chars
    else match n with
      | 0 => [replacement]
      | n + 1 => c :: takeUnits n chars

/-- The 16-bit units of a text; a character above U+FFFF has two. -/
def codeUnits (chars : List Char) : List Nat :=
  chars.flatMap fun c =>
    if c.toNat ≤ 0xffff then [c.toNat]
    else [0xd800 + (c.toNat - 0x10000) / 0x400, 0xdc00 + (c.toNat - 0x10000) % 0x400]

/-- `new TextEncoder().encode(s)`. -/
def utf8Bytes (s : String) : Bytes := s.toUTF8.toList

/-! ## Decoding what was encoded -/

theorem byteArray_toList_loop (bs : ByteArray) (i : Nat) (r : List UInt8) :
    ByteArray.toList.loop bs i r = r.reverse ++ bs.data.toList.drop i := by
  fun_induction ByteArray.toList.loop bs i r with
  | case1 i r h ih =>
    have hi : i < bs.data.toList.length := h
    rw [ih, List.drop_eq_getElem_cons hi, List.reverse_cons, List.append_assoc, List.singleton_append]
    congr 2
    show bs.data[i]! = _
    rw [getElem!_pos bs.data i h, Array.getElem_toList]
  | case2 i r h =>
    have hi : bs.data.toList.length ≤ i := not_lt.1 h
    rw [List.drop_eq_nil_of_le hi, List.append_nil]

theorem utf8Bytes_eq (s : String) : utf8Bytes s = s.toList.flatMap String.utf8EncodeChar := by
  have hlist : utf8Bytes s = s.toByteArray.data.toList := byteArray_toList_loop s.toByteArray 0 []
  rw [hlist, ← String.utf8Encode_toList, List.utf8Encode, List.toList_data_toByteArray]

theorem ofNat_eq {c : Char} {n : Nat} (h : n = c.val.toNat) : Char.ofNat n = c := by
  subst h
  exact Char.ofNat_toNat c

section Bytes

variable {p : Pending} {b : UInt8} {rest : Bytes}

theorem decodeFrom_start (h : startChar b.toNat = ([], p)) : decodeFrom {} (b :: rest) = decodeFrom p rest := by
  rw [decodeFrom]
  simp only [nextByte, if_true, h, List.nil_append]

/-- A byte that is not the last of its character. -/
theorem decodeFrom_more (hn : 1 < p.needed) (hl : p.lower ≤ b.toNat) (hu : b.toNat ≤ p.upper) :
    decodeFrom p (b :: rest) =
      decodeFrom { needed := p.needed - 1, codePoint := p.codePoint * 0x40 + b.toNat % 0x40 } rest := by
  rw [decodeFrom]
  simp only [nextByte, if_neg (show p.needed ≠ 0 by omega), if_neg (show p.needed ≠ 1 by omega),
    if_neg (show ¬(b.toNat < p.lower ∨ p.upper < b.toNat) by omega), List.nil_append]

/-- The last byte of a character. -/
theorem decodeFrom_last {c : Char} (hn : p.needed = 1) (hl : p.lower ≤ b.toNat) (hu : b.toNat ≤ p.upper)
    (hc : p.codePoint * 0x40 + b.toNat % 0x40 = c.val.toNat) : decodeFrom p (b :: rest) = c :: decodeFrom {} rest := by
  rw [decodeFrom]
  simp only [nextByte, if_neg (show p.needed ≠ 0 by omega), if_pos hn,
    if_neg (show ¬(b.toNat < p.lower ∨ p.upper < b.toNat) by omega), ofNat_eq hc, List.singleton_append]

end Bytes

/-! ### First bytes -/

theorem startChar_two {n : Nat} (h₁ : 2 ≤ n) (h₂ : n < 0x20) :
    startChar (n + 0xc0) = ([], { needed := 1, codePoint := n }) := by
  rw [startChar, if_neg (by omega), if_pos (by omega)]
  congr 2
  omega

theorem startChar_three {n : Nat} (h : n < 0x10) :
    startChar (n + 0xe0) =
      ([], { needed := 2, lower := if n = 0 then 0xa0 else 0x80, upper := if n = 13 then 0x9f else 0xbf, codePoint := n }) := by
  have hlow : n + 0xe0 = 0xe0 ↔ n = 0 := by omega
  have hhigh : n + 0xe0 = 0xed ↔ n = 13 := by omega
  have hnumber : (n + 0xe0) % 0x10 = n := by omega
  rw [startChar, if_neg (by omega), if_neg (by omega), if_pos (by omega)]
  simp only [hlow, hhigh, hnumber]

theorem startChar_four {n : Nat} (h : n < 5) :
    startChar (n + 0xf0) =
      ([], { needed := 3, lower := if n = 0 then 0x90 else 0x80, upper := if n = 4 then 0x8f else 0xbf, codePoint := n }) := by
  have hlow : n + 0xf0 = 0xf0 ↔ n = 0 := by omega
  have hhigh : n + 0xf0 = 0xf4 ↔ n = 4 := by omega
  have hnumber : (n + 0xf0) % 8 = n := by omega
  rw [startChar, if_neg (by omega), if_neg (by omega), if_neg (by omega), if_pos (by omega)]
  simp only [hlow, hhigh, hnumber]

/-! ### One character -/

section Char

variable {c : Char} {v : Nat} {rest : Bytes}

theorem toNat_byte {n : Nat} (h : n < 256) : (UInt8.ofNat n).toNat = n := UInt8.toNat_ofNat_of_lt' h

theorem decodeFrom_one (hv : c.val.toNat = v) (h : v ≤ 0x7f) :
    decodeFrom {} (UInt8.ofNat v :: rest) = c :: decodeFrom {} rest := by
  have hbyte : (UInt8.ofNat v).toNat = v := toNat_byte (by omega)
  rw [decodeFrom]
  simp only [nextByte, startChar, hbyte, h, if_true, ofNat_eq hv.symm, List.singleton_append]

theorem decodeFrom_two (hv : c.val.toNat = v) (h₁ : 0x7f < v) (h₂ : v ≤ 0x7ff) :
    decodeFrom {} (UInt8.ofNat (v / 64 % 0x20 + 0xc0) :: UInt8.ofNat (v % 0x40 + 0x80) :: rest) =
      c :: decodeFrom {} rest := by
  have hb₀ : (UInt8.ofNat (v / 64 % 0x20 + 0xc0)).toNat = v / 64 % 0x20 + 0xc0 := toNat_byte (by omega)
  have hb₁ : (UInt8.ofNat (v % 0x40 + 0x80)).toNat = v % 0x40 + 0x80 := toNat_byte (by omega)
  rw [decodeFrom_start (hb₀ ▸ startChar_two (by omega) (by omega))]
  refine decodeFrom_last rfl ?_ ?_ ?_
  · show 0x80 ≤ _
    omega
  · show _ ≤ 0xbf
    omega
  · show v / 64 % 0x20 * 0x40 + _ = _
    omega

/-- The second byte is bounded so that the number is none of a shorter sequence, and no surrogate. -/
theorem decodeFrom_three (hv : c.val.toNat = v) (h₁ : 0x7ff < v) (h₂ : v ≤ 0xffff) (hs : v < 0xd800 ∨ 0xdfff < v) :
    decodeFrom {} (UInt8.ofNat (v / 4096 % 0x10 + 0xe0) :: UInt8.ofNat (v / 64 % 0x40 + 0x80) ::
      UInt8.ofNat (v % 0x40 + 0x80) :: rest) = c :: decodeFrom {} rest := by
  have hb₀ : (UInt8.ofNat (v / 4096 % 0x10 + 0xe0)).toNat = v / 4096 % 0x10 + 0xe0 := toNat_byte (by omega)
  have hb₁ : (UInt8.ofNat (v / 64 % 0x40 + 0x80)).toNat = v / 64 % 0x40 + 0x80 := toNat_byte (by omega)
  have hb₂ : (UInt8.ofNat (v % 0x40 + 0x80)).toNat = v % 0x40 + 0x80 := toNat_byte (by omega)
  have hn : v / 4096 % 0x10 = v / 4096 := by omega
  rw [hn] at hb₀ ⊢
  rw [decodeFrom_start (hb₀ ▸ startChar_three (by omega)), decodeFrom_more (Nat.lt_succ_self 1)]
  · refine decodeFrom_last rfl ?_ ?_ ?_
    · show 0x80 ≤ _
      omega
    · show _ ≤ 0xbf
      omega
    · show (v / 4096 * 0x40 + _) * 0x40 + _ = _
      omega
  · show (if v / 4096 = 0 then 0xa0 else 0x80) ≤ _
    split <;> omega
  · show _ ≤ (if v / 4096 = 13 then 0x9f else 0xbf)
    split <;> omega

theorem decodeFrom_four (hv : c.val.toNat = v) (h₁ : 0xffff < v) (h₂ : v < 0x110000) :
    decodeFrom {} (UInt8.ofNat (v / 262144 % 0x08 + 0xf0) :: UInt8.ofNat (v / 4096 % 0x40 + 0x80) ::
      UInt8.ofNat (v / 64 % 0x40 + 0x80) :: UInt8.ofNat (v % 0x40 + 0x80) :: rest) = c :: decodeFrom {} rest := by
  have hb₀ : (UInt8.ofNat (v / 262144 % 0x08 + 0xf0)).toNat = v / 262144 % 0x08 + 0xf0 := toNat_byte (by omega)
  have hb₁ : (UInt8.ofNat (v / 4096 % 0x40 + 0x80)).toNat = v / 4096 % 0x40 + 0x80 := toNat_byte (by omega)
  have hb₂ : (UInt8.ofNat (v / 64 % 0x40 + 0x80)).toNat = v / 64 % 0x40 + 0x80 := toNat_byte (by omega)
  have hb₃ : (UInt8.ofNat (v % 0x40 + 0x80)).toNat = v % 0x40 + 0x80 := toNat_byte (by omega)
  have hn : v / 262144 % 0x08 = v / 262144 := by omega
  rw [hn] at hb₀ ⊢
  rw [decodeFrom_start (hb₀ ▸ startChar_four (by omega)), decodeFrom_more (by show 1 < 3; omega),
    decodeFrom_more (Nat.lt_succ_self 1)]
  · refine decodeFrom_last rfl ?_ ?_ ?_
    · show 0x80 ≤ _
      omega
    · show _ ≤ 0xbf
      omega
    · show ((v / 262144 * 0x40 + _) * 0x40 + _) * 0x40 + _ = _
      omega
  · show 0x80 ≤ _
    omega
  · show _ ≤ 0xbf
    omega
  · show (if v / 262144 = 0 then 0x90 else 0x80) ≤ _
    split <;> omega
  · show _ ≤ (if v / 262144 = 4 then 0x8f else 0xbf)
    split <;> omega

end Char

/-- The bytes of a character are decoded to it, whatever follows. -/
theorem decodeFrom_encodeChar (c : Char) (rest : Bytes) :
    decodeFrom {} (String.utf8EncodeChar c ++ rest) = c :: decodeFrom {} rest := by
  have hvalid : c.val.toNat < 0xd800 ∨ 0xdfff < c.val.toNat ∧ c.val.toNat < 0x110000 := c.valid
  generalize hv : c.val.toNat = v at hvalid
  unfold String.utf8EncodeChar
  simp only [hv]
  split
  · next h => exact decodeFrom_one hv h
  · split
    · next h₁ h₂ => exact decodeFrom_two hv (by omega) h₂
    · split
      · next h₁ h₂ h₃ => exact decodeFrom_three hv (by omega) h₃ (by omega)
      · next h₁ h₂ h₃ => exact decodeFrom_four hv (by omega) (by omega)

theorem decodeFrom_encode : ∀ chars : List Char, decodeFrom {} (chars.flatMap String.utf8EncodeChar) = chars
  | [] => rfl
  | c :: chars => by rw [List.flatMap_cons, decodeFrom_encodeChar, decodeFrom_encode chars]

/-- A character whose bytes are those of the byte order mark. -/
theorem utf8Bytes_inj {s t : String} : utf8Bytes s = utf8Bytes t ↔ s = t := by
  constructor
  · intro h
    rw [utf8Bytes_eq, utf8Bytes_eq] at h
    rw [← String.toList_inj, ← decodeFrom_encode s.toList, h, decodeFrom_encode]
  · rintro rfl
    rfl

theorem eq_of_bom {c : Char} {rest : Bytes} (h : [0xef, 0xbb, 0xbf] <+: String.utf8EncodeChar c ++ rest) :
    c = '\uFEFF' := by
  obtain ⟨tail, htail⟩ := h
  have hdecode := decodeFrom_encodeChar c rest
  rw [← htail] at hdecode
  have hbom := decodeFrom_encodeChar '\uFEFF' tail
  exact (List.cons.inj (hdecode.symm.trans hbom)).1

/-- **Text is decoded to itself**, unless it starts with a byte order mark. -/
theorem decodeUtf8_utf8Bytes {s : String} (h : s.toList.head? ≠ some '\uFEFF') : decodeUtf8 (utf8Bytes s) = s.toList := by
  have hbom : ([0xef, 0xbb, 0xbf].isPrefixOf (utf8Bytes s)) = false := by
    rw [Bool.eq_false_iff]
    intro hpre
    rw [List.isPrefixOf_iff_prefix, utf8Bytes_eq] at hpre
    cases hs : s.toList with
    | nil =>
      rw [hs] at hpre
      cases List.prefix_nil.1 hpre
    | cons c chars =>
      rw [hs, List.flatMap_cons] at hpre
      rw [hs, eq_of_bom hpre] at h
      exact h rfl
  rw [decodeUtf8, hbom, utf8Bytes_eq]
  exact decodeFrom_encode s.toList

end Utf8
