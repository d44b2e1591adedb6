import Mathlib.Data.Nat.Digits.Defs
import PhygitalWallet.Lib.Bytes

/-!
# Bytes as text

- `hexOf`, `base64Of` (with padding), `base58Of`: the three text forms of a byte string;
- `base64Decode_base64Chars`: base64 text is read back;
- `base64Of_ne_base58Of`, `base64Of_ne_hexOf`: a byte string whose length is one more than a multiple of three has base64
  text that no byte string has in another base.
-/

namespace BaseText

open ByteSeq

/-- The character of a digit. -/
def digitChar (alphabet : List Char) (d : Nat) : Char := alphabet.getD d ' '

/-! ## Base 16 -/

def hexAlphabet : List Char :=
  ['0', '1', '2', '3', '4', '5', '6', '7', '8', '9', 'a', 'b', 'c', 'd', 'e', 'f']

def hexOf (bytes : Bytes) : String :=
  String.ofList (bytes.flatMap fun b => [digitChar hexAlphabet (b.toNat / 16), digitChar hexAlphabet (b.toNat % 16)])

theorem hexOf_ne_empty {bytes : Bytes} (h : bytes ≠ []) : hexOf bytes ≠ "" := by
  obtain ⟨b, bytes, rfl⟩ := List.exists_cons_of_ne_nil h
  intro heq
  have hchars := String.ofList_injective (heq.trans String.ofList_nil.symm)
  simp at hchars

/-! ## Base 64 -/

def base64Alphabet : List Char :=
  ['A', 'B', 'C', 'D', 'E', 'F', 'G', 'H', 'I', 'J', 'K', 'L', 'M', 'N', 'O', 'P', 'Q', 'R', 'S', 'T', 'U', 'V', 'W',
    'X', 'Y', 'Z', 'a', 'b', 'c', 'd', 'e', 'f', 'g', 'h', 'i', 'j', 'k', 'l', 'm', 'n', 'o', 'p', 'q', 'r', 's',
    't', 'u', 'v', 'w', 'x', 'y', 'z', '0', '1', '2', '3', '4', '5', '6', '7', '8', '9', '+', '/']

def base64Chars : Bytes → List Char
  | [] => []
  | [a] => [digitChar base64Alphabet (a.toNat / 4), digitChar base64Alphabet (a.toNat % 4 * 16), '=', '=']
  | [a, b] => [digitChar base64Alphabet (a.toNat / 4), digitChar base64Alphabet (a.toNat % 4 * 16 + b.toNat / 16),
      digitChar base64Alphabet (b.toNat % 16 * 4), '=']
  | a :: b :: c :: rest =>
    digitChar base64Alphabet (a.toNat / 4) :: digitChar base64Alphabet (a.toNat % 4 * 16 + b.toNat / 16) ::
      digitChar base64Alphabet (b.toNat % 16 * 4 + c.toNat / 64) :: digitChar base64Alphabet (c.toNat % 64) ::
      base64Chars rest

def base64Of (bytes : Bytes) : String := String.ofList (base64Chars bytes)

/-- One byte is left at the end, so two characters are padding. -/
theorem padding_mem : ∀ {bytes : Bytes}, bytes.length % 3 = 1 → '=' ∈ base64Chars bytes
  | [], h => by simp at h
  | [_], _ => by simp [base64Chars]
  | [_, _], h => by simp at h
  | _ :: _ :: _ :: rest, h => by
    have hrest : rest.length % 3 = 1 := by
      simp only [List.length_cons] at h
      omega
    simp [base64Chars, padding_mem hrest]

theorem base64Of_ne_empty {bytes : Bytes} (h : bytes ≠ []) : base64Of bytes ≠ "" := by
  intro heq
  have hchars := String.ofList_injective (heq.trans String.ofList_nil.symm)
  match bytes with
  | [] => exact h rfl
  | [_] => cases hchars
  | [_, _] => cases hchars
  | _ :: _ :: _ :: _ => cases hchars

/-- A digit of the text. -/
def base64Digit (c : Char) : Option Nat := base64Alphabet.idxOf? c

/-- Text with padding, read back; the bits that a last group leaves over are not looked at. -/
def base64Decode : List Char → Option Bytes
  | [] => some []
  | a :: b :: c :: d :: rest => do
    let i ← base64Digit a
    let j ← base64Digit b
    let first := UInt8.ofNat (i * 4 + j / 16)
    if rest = [] ∧ c = '=' ∧ d = '=' then return [first]
    let k ← base64Digit c
    let second := UInt8.ofNat (j % 16 * 16 + k / 4)
    if rest = [] ∧ d = '=' then return [first, second]
    let l ← base64Digit d
    let bytes ← base64Decode rest
    return first :: second :: UInt8.ofNat (k % 4 * 64 + l) :: bytes
  | _ => none

theorem base64Digit_digitChar : ∀ d < 64, base64Digit (digitChar base64Alphabet d) = some d ∧
    digitChar base64Alphabet d ≠ '=' := by
  decide +kernel

/-- What was written is read back. -/
theorem base64Decode_base64Chars : ∀ bytes : Bytes, base64Decode (base64Chars bytes) = some bytes
  | [] => rfl
  | [a] => by
    have ha : a.toNat < 256 := a.toNat_lt
    have h₀ := (base64Digit_digitChar (a.toNat / 4) (by omega)).1
    have h₁ := (base64Digit_digitChar (a.toNat % 4 * 16) (by omega)).1
    have hfirst : a.toNat / 4 * 4 + a.toNat % 4 * 16 / 16 = a.toNat := by omega
    simp only [base64Chars, base64Decode, h₀, h₁, hfirst, UInt8.ofNat_toNat, Option.bind_eq_bind, Option.bind_some,
      and_self, if_true]
    rfl
  | [a, b] => by
    have ha : a.toNat < 256 := a.toNat_lt
    have hb : b.toNat < 256 := b.toNat_lt
    have h₀ := (base64Digit_digitChar (a.toNat / 4) (by omega)).1
    have h₁ := (base64Digit_digitChar (a.toNat % 4 * 16 + b.toNat / 16) (by omega)).1
    obtain ⟨h₂, hc⟩ := base64Digit_digitChar (b.toNat % 16 * 4) (by omega)
    have hfirst : a.toNat / 4 * 4 + (a.toNat % 4 * 16 + b.toNat / 16) / 16 = a.toNat := by omega
    have hsecond : (a.toNat % 4 * 16 + b.toNat / 16) % 16 * 16 + b.toNat % 16 * 4 / 4 = b.toNat := by omega
    simp only [base64Chars, base64Decode, h₀, h₁, h₂, hc, hfirst, hsecond, UInt8.ofNat_toNat, Option.bind_eq_bind,
      Option.bind_some, and_self, and_true, and_false, if_true, if_false]
    rfl
  | a :: b :: c :: rest => by
    have ha : a.toNat < 256 := a.toNat_lt
    have hb : b.toNat < 256 := b.toNat_lt
    have hc : c.toNat < 256 := c.toNat_lt
    have h₀ := (base64Digit_digitChar (a.toNat / 4) (by omega)).1
    have h₁ := (base64Digit_digitChar (a.toNat % 4 * 16 + b.toNat / 16) (by omega)).1
    have h₂ := (base64Digit_digitChar (b.toNat % 16 * 4 + c.toNat / 64) (by omega)).1
    obtain ⟨h₃, hpad⟩ := base64Digit_digitChar (c.toNat % 64) (by omega)
    have hfirst : a.toNat / 4 * 4 + (a.toNat % 4 * 16 + b.toNat / 16) / 16 = a.toNat := by omega
    have hsecond : (a.toNat % 4 * 16 + b.toNat / 16) % 16 * 16 + (b.toNat % 16 * 4 + c.toNat / 64) / 4 = b.toNat := by
      omega
    have hthird : (b.toNat % 16 * 4 + c.toNat / 64) % 4 * 64 + c.toNat % 64 = c.toNat := by omega
    simp only [base64Chars, base64Decode, h₀, h₁, h₂, h₃, hpad, hfirst, hsecond, hthird, UInt8.ofNat_toNat,
      base64Decode_base64Chars rest, Option.bind_eq_bind, Option.bind_some, and_false, if_false]
    rfl

/-! ## Base 58 -/

def base58Alphabet : List Char :=
  ['1', '2', '3', '4', '5', '6', '7', '8', '9', 'A', 'B', 'C', 'D', 'E', 'F', 'G', 'H', 'J', 'K', 'L', 'M', 'N', 'P',
    'Q', 'R', 'S', 'T', 'U', 'V', 'W', 'X', 'Y', 'Z', 'a', 'b', 'c', 'd', 'e', 'f', 'g', 'h', 'i', 'j', 'k', 'm',
    'n', 'o', 'p', 'q', 'r', 's', 't', 'u', 'v', 'w', 'x', 'y', 'z']

/-- The digits of a big-endian number, after a `1` for every leading zero byte. -/
def base58Chars (bytes : Bytes) : List Char :=
  (bytes.takeWhile (· = 0)).map (fun _ => '1') ++
    (Nat.digits 58 (ofLE bytes.reverse)).reverse.map (digitChar base58Alphabet)

def base58Of (bytes : Bytes) : String := String.ofList (base58Chars bytes)

/-- The number of a byte string whose last byte is not zero. -/
theorem pow_le_ofLE {b : UInt8} (hb : b ≠ 0) : ∀ bs : Bytes, 256 ^ bs.length ≤ ofLE (bs ++ [b])
  | [] => by
    have hpos : b.toNat ≠ 0 := fun h => hb (UInt8.toNat_inj.1 h)
    simp only [List.length_nil, List.nil_append, ofLE]
    omega
  | a :: bs => by
    have ih := pow_le_ofLE hb bs
    simp only [List.length_cons, List.cons_append, ofLE, Nat.pow_succ]
    omega

theorem ofLE_le_append (xs ys : Bytes) : ofLE xs ≤ ofLE (xs ++ ys) := by
  induction xs with
  | nil => exact Nat.zero_le _
  | cons x xs ih =>
    simp only [List.cons_append, ofLE]
    omega

/-- The text has a character for every byte at least. -/
theorem length_base58Chars (bytes : Bytes) : bytes.length ≤ (base58Chars bytes).length := by
  have hsplit := List.takeWhile_append_dropWhile (p := (· = (0 : UInt8))) (l := bytes)
  have hlen : bytes.length = (bytes.takeWhile (· = 0)).length + (bytes.dropWhile (· = 0)).length := by
    rw [← List.length_append, hsplit]
  rw [base58Chars, List.length_append, List.length_map, List.length_map, List.length_reverse, hlen]
  refine Nat.add_le_add_left ?_ _
  cases hrest : bytes.dropWhile (· = 0) with
  | nil => exact Nat.zero_le _
  | cons b rest =>
    have hb : b ≠ 0 := by
      have hhead := List.head_dropWhile_not (· = (0 : UInt8)) (l := bytes) (by rw [hrest]; exact List.cons_ne_nil _ _)
      simpa [hrest] using hhead
    have hvalue : 256 ^ rest.length ≤ ofLE bytes.reverse := by
      rw [← hsplit, hrest, List.reverse_append, List.reverse_cons]
      have hrev := pow_le_ofLE hb rest.reverse
      rw [List.length_reverse] at hrev
      exact hrev.trans (ofLE_le_append _ _)
    have hdigits := Nat.lt_base_pow_length_digits (b := 58) (m := ofLE bytes.reverse) (by decide)
    by_contra hshort
    have hle : (Nat.digits 58 (ofLE bytes.reverse)).length ≤ rest.length := by
      simp only [List.length_cons] at hshort
      omega
    have hpow : 58 ^ (Nat.digits 58 (ofLE bytes.reverse)).length ≤ 256 ^ rest.length :=
      (Nat.pow_le_pow_left (by decide) _).trans (Nat.pow_le_pow_right (by decide) hle)
    omega

theorem digitChar_base58 {d : Nat} (h : d < 58) : digitChar base58Alphabet d ≠ '=' := by
  have hall : ∀ d < 58, digitChar base58Alphabet d ≠ '=' := by decide +kernel
  exact hall d h

theorem padding_not_mem (bytes : Bytes) : '=' ∉ base58Chars bytes := by
  unfold base58Chars
  rw [List.mem_append, not_or]
  constructor
  · intro h
    obtain ⟨_, -, heq⟩ := List.mem_map.1 h
    exact absurd heq (by decide)
  · intro h
    obtain ⟨d, hd, heq⟩ := List.mem_map.1 h
    exact digitChar_base58 (Nat.digits_lt_base (by decide) (List.mem_reverse.1 hd)) heq

theorem padding_not_mem_hex (bytes : Bytes) : '=' ∉ (hexOf bytes).toList := by
  have hall : ∀ d < 16, digitChar hexAlphabet d ≠ '=' := by decide +kernel
  rw [hexOf, String.toList_ofList]
  intro h
  obtain ⟨b, -, hmem⟩ := List.mem_flatMap.1 h
  have hb : b.toNat < 256 := b.toNat_lt
  rcases List.mem_cons.1 hmem with heq | hmem
  · exact hall _ (by omega) heq.symm
  · exact hall _ (by omega) (List.mem_singleton.1 hmem).symm

/-! ## Texts that differ -/

theorem base64Of_ne_base58Of {bytes : Bytes} (h : bytes.length % 3 = 1) (bytes' : Bytes) :
    base64Of bytes ≠ base58Of bytes' := by
  intro heq
  have hchars := String.ofList_injective heq
  have hmem := padding_mem h
  rw [hchars] at hmem
  exact padding_not_mem bytes' hmem

theorem base64Of_ne_hexOf {bytes : Bytes} (h : bytes.length % 3 = 1) (bytes' : Bytes) : base64Of bytes ≠ hexOf bytes' := by
  intro heq
  have hmem := padding_mem h
  rw [← String.toList_ofList (l := base64Chars bytes)] at hmem
  refine padding_not_mem_hex bytes' ?_
  rw [← heq]
  exact hmem

end BaseText
