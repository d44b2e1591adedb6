import PhygitalWallet.Lib.Radix
import PhygitalWallet.Secure.Encoding
import Mathlib.Data.List.DropRight

/-!
# What the base64 codec accepts (`encoding.ts`)

A text of the signer and its bytes are the same bits in digits of two widths.

- `decodeDigits_eq`: the 32 bits of the accumulator are enough;
- `decodeExact_eq_ok`: what the loop of the decoder accepts;
- `regroups_digitsOf`: what the encoder writes;
- `base64ToBytes_eq_ok`: the accepted texts of some bytes are what the encoder writes, up to two signs of padding;
- `base64_codec`: the round trips, the cap and the accumulator.
-/

namespace PhygitalWallet.Secure

open ByteSeq BaseText Radix

/-! ## Digits -/

/-- `alphabet.charCodeAt(d)`. -/
def Variant.code (variant : Variant) (d : Nat) : Nat := (digitChar variant.alphabet d).toNat

section Alphabet

variable {variant : Variant}

theorem Variant.length_alphabet (variant : Variant) : variant.alphabet.length = 64 := by cases variant <;> rfl

theorem Variant.code_lt (variant : Variant) : ∀ d < 64, variant.code d < 128 ∧ variant.code d ≠ '='.toNat := by
  cases variant <;> decide +kernel

theorem Variant.lookup_code (variant : Variant) : ∀ d < 64, variant.lookup (variant.code d) = some d := by
  cases variant <;> decide +kernel

/-- A unit is a digit when it is the code of one. -/
theorem Variant.lookup_eq_some {code d : Nat} : variant.lookup code = some d ↔ d < 64 ∧ variant.code d = code := by
  constructor
  · intro h
    obtain ⟨hd, hcode, -⟩ := List.idxOf?_eq_some_iff.1 h
    rw [List.length_map] at hd
    refine ⟨variant.length_alphabet ▸ hd, ?_⟩
    rw [← hcode, List.getElem_map, Variant.code, digitChar, List.getD_eq_getElem?_getD, List.getElem?_eq_getElem hd,
      Option.getD_some]
  · rintro ⟨hd, rfl⟩
    exact variant.lookup_code d hd

end Alphabet

/-! ## Padding -/

/-- Half of a character is above every digit. -/
theorem codeUnits_of_lt {chars : List Char} (h : ∀ u ∈ Utf8.codeUnits chars, u < 128) :
    Utf8.codeUnits chars = chars.map Char.toNat := by
  induction chars with
  | nil => rfl
  | cons c chars ih =>
    simp only [Utf8.codeUnits, List.flatMap_cons, List.mem_append] at h ⊢
    rw [List.map_cons, ← ih fun u hu => h u (Or.inr hu)]
    split
    · rfl
    · next hc =>
      rw [if_neg hc] at h
      have hhalf := h _ (Or.inl List.mem_cons_self)
      omega

theorem codeUnits_of_code {chars : List Char} (h : ∀ c ∈ chars, c.toNat < 128) :
    Utf8.codeUnits chars = chars.map Char.toNat := by
  induction chars with
  | nil => rfl
  | cons c chars ih =>
    have hc := h c List.mem_cons_self
    simp only [Utf8.codeUnits, List.flatMap_cons]
    rw [if_pos (by omega), List.map_cons, ← ih fun c hc => h c (List.mem_cons_of_mem _ hc)]
    rfl

theorem stripPadding_eq (units : List Nat) : stripPadding units =
    if 2 < (units.rtakeWhile (· = '='.toNat)).length then .error .excessPadding
    else .ok (units.rdropWhile (· = '='.toNat)) := by
  have hlen : (units.rtakeWhile (· = '='.toNat)).length = (units.reverse.takeWhile (· = '='.toNat)).length :=
    List.length_reverse
  have htake : units.take (units.length - (units.rtakeWhile (· = '='.toNat)).length) =
      units.rdropWhile (· = '='.toNat) := by
    have happ : units.rdropWhile (· = '='.toNat) ++ units.rtakeWhile (· = '='.toNat) = units :=
      List.rdropWhile_append_rtakeWhile
    have hsum := congrArg List.length happ
    rw [List.length_append] at hsum
    rw [← hsum, Nat.add_sub_cancel]
    exact (List.prefix_iff_eq_take.1 (List.rdropWhile_prefix _ _)).symm
  simp only [stripPadding, ← hlen, htake]

/-- What is taken off is a run of at most two signs. -/
theorem stripPadding_ok {units body : List Nat} (h : stripPadding units = .ok body) :
    ∃ pad ≤ 2, units = body ++ List.replicate pad '='.toNat := by
  rw [stripPadding_eq] at h
  split at h
  · cases h
  · next hpad =>
    cases h
    refine ⟨_, not_lt.1 hpad, ?_⟩
    have hrun : units.rtakeWhile (· = '='.toNat) =
        List.replicate (units.rtakeWhile (· = '='.toNat)).length '='.toNat := by
      rw [List.eq_replicate_iff]
      refine ⟨rfl, fun u hu => ?_⟩
      have hsign := List.mem_rtakeWhile_imp hu
      exact of_decide_eq_true hsign
    rw [← hrun]
    exact List.rdropWhile_append_rtakeWhile.symm

/-- Digits have no sign of padding among them. -/
theorem stripPadding_append {body : List Nat} {pad : Nat} (hbody : ∀ u ∈ body, u ≠ '='.toNat) (hpad : pad ≤ 2) :
    stripPadding (body ++ List.replicate pad '='.toNat) = .ok body := by
  have hdrop : (body ++ List.replicate pad '='.toNat).rdropWhile (· = '='.toNat) = body := by
    induction pad with
    | zero =>
      rw [List.replicate_zero, List.append_nil, List.rdropWhile_eq_self_iff]
      intro hne hlast
      exact hbody _ (List.getLast_mem hne) (of_decide_eq_true hlast)
    | succ pad ih =>
      rw [List.replicate_succ', ← List.append_assoc, List.rdropWhile_concat, if_pos (decide_eq_true rfl)]
      exact ih (by omega)
  have happ : (body ++ List.replicate pad '='.toNat).rdropWhile (· = '='.toNat) ++
      (body ++ List.replicate pad '='.toNat).rtakeWhile (· = '='.toNat) = _ := List.rdropWhile_append_rtakeWhile
  rw [hdrop, List.append_right_inj] at happ
  rw [stripPadding_eq, hdrop, happ, List.length_replicate, if_neg (by omega)]

/-! ## The accumulator -/

/-- The loop of the decoder with an accumulator that has no bound. -/
def decodeExact (variant : Variant) (maxBytes : Nat) : List Nat → Nat → Nat → Bytes → Except DecodeError Bytes
  | [], acc, bits, out => if acc % 2 ^ bits ≠ 0 then .error .nonCanonicalTrailingBits else .ok out
  | code :: input, acc, bits, out =>
    match variant.lookup code with
    | none => .error .invalidCharacter
    | some val =>
      let acc := acc * 64 + val
      if 8 ≤ bits + 6 then
        let out := out ++ [UInt8.ofNat (acc / 2 ^ (bits + 6 - 8))]
        if maxBytes < out.length then .error .tooLarge
        else decodeExact variant maxBytes input acc (bits + 6 - 8) out
      else decodeExact variant maxBytes input acc (bits + 6) out

theorem shift_or {acc val : Nat} (hval : val < 64) :
    (((acc % 2 ^ 32) <<< 6) % 2 ^ 32) ||| val = (acc * 64 + val) % 2 ^ 32 := by
  have hshift : ((acc % 2 ^ 32) <<< 6) % 2 ^ 32 = 2 ^ 6 * (acc % 2 ^ 26) := by
    rw [Nat.shiftLeft_eq]
    omega
  rw [hshift, ← Nat.two_pow_add_eq_or_of_lt hval]
  omega

/-- The byte that is emitted lies within the 32 bits. -/
theorem byte_of_accumulator {acc bits : Nat} (hbits : bits ≤ 24) :
    UInt8.ofNat (((acc % 2 ^ 32) >>> bits) &&& 0xff) = UInt8.ofNat (acc / 2 ^ bits) := by
  have hmod : acc % 2 ^ 32 / 2 ^ bits = acc / 2 ^ bits % 2 ^ (32 - bits) := by
    rw [← Nat.mod_mul_right_div_self, ← Nat.pow_add, Nat.add_sub_cancel' (by omega)]
  have hdvd : 2 ^ 8 ∣ 2 ^ (32 - bits) := Nat.pow_dvd_pow 2 (by omega)
  rw [Nat.shiftRight_eq_div_pow, hmod]
  show UInt8.ofNat (_ &&& (2 ^ 8 - 1)) = _
  rw [Nat.and_two_pow_sub_one_eq_mod, Nat.mod_mod_of_dvd _ hdvd]
  apply UInt8.toNat_inj.1
  rw [UInt8.toNat_ofNat', UInt8.toNat_ofNat']
  omega

section Decoding

variable {variant : Variant} {maxBytes : Nat}

/-- **The accumulator loses no bit that is emitted later.** -/
theorem decodeDigits_eq {input : List Nat} {acc bits : Nat} {out : Bytes} (hbits : bits < 8) :
    decodeDigits variant maxBytes input (acc % 2 ^ 32) bits out = decodeExact variant maxBytes input acc bits out := by
  induction input generalizing acc bits out with
  | nil =>
    have hdvd : 2 ^ bits ∣ 2 ^ 32 := Nat.pow_dvd_pow 2 (by omega)
    rw [decodeDigits, decodeExact, Nat.one_shiftLeft, Nat.and_two_pow_sub_one_eq_mod, Nat.mod_mod_of_dvd _ hdvd]
    cases bits with
    | zero => simp [Nat.mod_one]
    | succ bits => simp
  | cons code input ih =>
    rw [decodeDigits, decodeExact]
    cases hval : variant.lookup code with
    | none => rfl
    | some val =>
      obtain ⟨hlt, -⟩ := Variant.lookup_eq_some.1 hval
      simp only [shift_or hlt]
      split
      · rw [byte_of_accumulator (by omega), ih (by omega)]
      · rw [ih (by omega)]

theorem bytes_inj {b b' : Bytes} (hlen : b.length = b'.length)
    (h : value 256 (b.map UInt8.toNat) = value 256 (b'.map UInt8.toNat)) : b = b' := by
  have hlt : ∀ bs : Bytes, ∀ d ∈ bs.map UInt8.toNat, d < 256 := by
    intro bs d hd
    obtain ⟨byte, -, rfl⟩ := List.mem_map.1 hd
    exact byte.toNat_lt
  have hmap : b.map UInt8.toNat = b'.map UInt8.toNat := by
    apply value_inj (by omega) _ (hlt b) (hlt b') h
    rw [List.length_map, List.length_map, hlen]
  exact List.map_injective_iff.2 (fun _ _ => UInt8.toNat_inj.1) hmap

/-- The bits of the accumulator, `n` of them so far, and of the units that are left are those of the bytes. -/
def Reads (variant : Variant) (input : List Nat) (acc n : Nat) (b : Bytes) : Prop :=
  ∃ ds r, input = ds.map variant.code ∧ (∀ d ∈ ds, d < 64) ∧ r < 8 ∧ n + 6 * ds.length = 8 * b.length + r ∧
    acc * 64 ^ ds.length + value 64 ds = value 256 (b.map UInt8.toNat) * 2 ^ r

theorem reads_nil {acc n : Nat} {b : Bytes} : Reads variant [] acc n b ↔
    ∃ r < 8, n = 8 * b.length + r ∧ acc = value 256 (b.map UInt8.toNat) * 2 ^ r := by
  constructor
  · rintro ⟨ds, r, hds, -, hr, hlen, hvalue⟩
    obtain rfl := List.map_eq_nil_iff.1 hds.symm
    simp only [List.length_nil, Nat.pow_zero, value_nil, Nat.mul_one, Nat.add_zero, Nat.mul_zero] at hlen hvalue
    exact ⟨r, hr, hlen, hvalue⟩
  · rintro ⟨r, hr, rfl, rfl⟩
    refine ⟨[], r, rfl, nofun, hr, by simp, by simp⟩

theorem reads_cons {code val : Nat} {input : List Nat} {acc n : Nat} {b : Bytes}
    (hval : variant.lookup code = some val) :
    Reads variant (code :: input) acc n b ↔ Reads variant input (acc * 64 + val) (n + 6) b := by
  obtain ⟨hlt, rfl⟩ := Variant.lookup_eq_some.1 hval
  constructor
  · rintro ⟨ds, r, hds, hdigits, hr, hlen, hvalue⟩
    obtain ⟨d, ds, rfl, hcode, rfl⟩ := List.map_eq_cons_iff.1 hds.symm
    obtain rfl : d = val := by
      have hd := variant.lookup_code d (hdigits d List.mem_cons_self)
      rw [hcode, hval] at hd
      exact (Option.some.inj hd).symm
    refine ⟨ds, r, rfl, fun d hd => hdigits d (List.mem_cons_of_mem _ hd), hr, ?_, ?_⟩
    · rw [List.length_cons] at hlen
      omega
    · rw [← hvalue, List.length_cons, value_cons]
      ring
  · rintro ⟨ds, r, rfl, hdigits, hr, hlen, hvalue⟩
    refine ⟨val :: ds, r, rfl, List.forall_mem_cons.2 ⟨hlt, hdigits⟩, hr, ?_, ?_⟩
    · rw [List.length_cons]
      omega
    · rw [← hvalue, List.length_cons, value_cons]
      ring

theorem not_reads_cons {code : Nat} {input : List Nat} {acc n : Nat} {b : Bytes} (hval : variant.lookup code = none) :
    ¬Reads variant (code :: input) acc n b := by
  rintro ⟨ds, r, hds, hdigits, -⟩
  obtain ⟨d, ds, rfl, rfl, -⟩ := List.map_eq_cons_iff.1 hds.symm
  rw [variant.lookup_code d (hdigits d List.mem_cons_self)] at hval
  cases hval

/-- The bytes have all the bits that were read but the last few. -/
theorem Reads.le_length {input : List Nat} {acc n : Nat} {b : Bytes} (h : Reads variant input acc n b) :
    n < 8 * (b.length + 1) := by
  obtain ⟨ds, r, -, -, hr, hlen, -⟩ := h
  omega

/-- A digit pushes the bits up by its width. -/
theorem push_digit {acc bits val : Nat} (hlt : val < 64) : (acc * 64 + val) / 2 ^ (bits + 6) = acc / 2 ^ bits := by
  rw [Nat.pow_add, Nat.mul_comm (2 ^ bits), ← Nat.div_div_eq_div_mul]
  congr 1
  omega

/-- A byte is emitted from the bits in front. -/
theorem emit_byte {acc bits : Nat} {out : Bytes} (h : acc / 2 ^ (bits + 8) = value 256 (out.map UInt8.toNat)) :
    acc / 2 ^ bits = value 256 ((out ++ [UInt8.ofNat (acc / 2 ^ bits)]).map UInt8.toNat) := by
  have hsplit : acc / 2 ^ (bits + 8) = acc / 2 ^ bits / 256 := by rw [Nat.div_div_eq_div_mul, Nat.pow_add]
  rw [List.map_append, List.map_singleton, value_append, value_singleton, ← h, hsplit, UInt8.toNat_ofNat',
    List.length_singleton, Nat.pow_one]
  exact (Nat.div_add_mod' _ 256).symm

/-- **What the loop accepts**, after it has emitted the bits of the accumulator in front of the last ones. -/
theorem decodeExact_eq_ok {input : List Nat} {acc bits : Nat} {out b : Bytes} (hbits : bits < 8)
    (hout : acc / 2 ^ bits = value 256 (out.map UInt8.toNat)) (hmax : out.length ≤ maxBytes) :
    decodeExact variant maxBytes input acc bits out = .ok b ↔
      b.length ≤ maxBytes ∧ Reads variant input acc (8 * out.length + bits) b := by
  induction input generalizing acc bits out with
  | nil =>
    have hacc := Nat.div_add_mod acc (2 ^ bits)
    rw [hout] at hacc
    rw [decodeExact, reads_nil]
    constructor
    · intro h
      split at h
      · cases h
      · next hzero =>
        cases h
        rw [not_not.1 hzero] at hacc
        exact ⟨hmax, bits, hbits, rfl, by rw [← hacc]; ring⟩
    · rintro ⟨-, r, hr, hlen, hvalue⟩
      obtain rfl : r = bits := by omega
      have hzero : acc % 2 ^ r = 0 := by rw [hvalue, Nat.mul_mod_left]
      have hb : value 256 (out.map UInt8.toNat) = value 256 (b.map UInt8.toNat) := by
        rw [← hout, hvalue, Nat.mul_div_cancel _ (Nat.two_pow_pos r)]
      rw [if_neg (not_not.2 hzero), bytes_inj (by omega) hb]
  | cons code input ih =>
    rw [decodeExact]
    cases hval : variant.lookup code with
    | none =>
      simp only [not_reads_cons hval, and_false, iff_false]
      exact fun h => nomatch h
    | some val =>
      obtain ⟨hlt, -⟩ := Variant.lookup_eq_some.1 hval
      have hpush : (acc * 64 + val) / 2 ^ (bits + 6) = value 256 (out.map UInt8.toNat) := (push_digit hlt).trans hout
      rw [reads_cons hval]
      simp only
      split
      · next hbyte =>
        have hemit : (acc * 64 + val) / 2 ^ (bits + 6 - 8) =
            value 256 ((out ++ [UInt8.ofNat ((acc * 64 + val) / 2 ^ (bits + 6 - 8))]).map UInt8.toNat) := by
          refine emit_byte ?_
          rw [show bits + 6 - 8 + 8 = bits + 6 by omega]
          exact hpush
        split
        · next hmax' =>
          simp only [reduceCtorEq, false_iff, not_and]
          intro hle hreads
          have hlen := hreads.le_length
          rw [List.length_append, List.length_singleton] at hmax'
          omega
        · next hmax' =>
          rw [ih (by omega) hemit (not_lt.1 hmax'), List.length_append, List.length_singleton]
          rw [show 8 * (out.length + 1) + (bits + 6 - 8) = 8 * out.length + bits + 6 by omega]
      · rw [ih (by omega) hpush hmax, Nat.add_assoc]

end Decoding

/-! ## The digits that are written -/

/-- The digits of the encoder, without their characters. -/
def digitsOf : Bytes → List Nat
  | [] => []
  | [a] =>
    let n := a.toNat * 65536
    [n / 262144 % 64, n / 4096 % 64]
  | [a, b] =>
    let n := a.toNat * 65536 + b.toNat * 256
    [n / 262144 % 64, n / 4096 % 64, n / 64 % 64]
  | a :: b :: c :: rest =>
    let n := a.toNat * 65536 + b.toNat * 256 + c.toNat
    [n / 262144 % 64, n / 4096 % 64, n / 64 % 64, n % 64] ++ digitsOf rest

theorem base64Digits_eq (variant : Variant) (bytes : Bytes) :
    ∃ pad ≤ 2, base64Digits variant bytes =
      (digitsOf bytes).map (digitChar variant.alphabet) ++ List.replicate pad '=' := by
  fun_induction digitsOf bytes with
  | case1 => exact ⟨0, by omega, rfl⟩
  | case2 a n =>
    cases variant with
    | std => exact ⟨2, by omega, rfl⟩
    | url => exact ⟨0, by omega, rfl⟩
  | case3 a b n =>
    cases variant with
    | std => exact ⟨1, by omega, rfl⟩
    | url => exact ⟨0, by omega, rfl⟩
  | case4 a b c rest n ih =>
    obtain ⟨pad, hpad, ih⟩ := ih
    refine ⟨pad, hpad, ?_⟩
    rw [base64Digits, ih, List.map_append, List.append_assoc]
    rfl

theorem digitsOf_lt (bytes : Bytes) : ∀ d ∈ digitsOf bytes, d < 64 := by
  fun_induction digitsOf bytes with
  | case1 => nofun
  | case2 a n => simp [Nat.mod_lt]
  | case3 a b n => simp [Nat.mod_lt]
  | case4 a b c rest n ih =>
    intro d hd
    rcases List.mem_append.1 hd with hd | hd
    · simp only [List.mem_cons, List.not_mem_nil, or_false] at hd
      omega
    · exact ih d hd

/-- **What the encoder writes**: the bits of the bytes, filled up to a whole digit. -/
theorem regroups_digitsOf (bytes : Bytes) : ∃ r < 6, Regroups 6 8 r (digitsOf bytes) (bytes.map UInt8.toNat) := by
  fun_induction digitsOf bytes with
  | case1 => exact ⟨0, by omega, rfl, rfl⟩
  | case2 a n =>
    have ha := a.toNat_lt
    refine ⟨4, by omega, rfl, ?_⟩
    simp only [List.map_cons, List.map_nil, value_cons, value_nil, List.length_cons, List.length_nil]
    omega
  | case3 a b n =>
    have ha := a.toNat_lt
    have hb := b.toNat_lt
    refine ⟨2, by omega, rfl, ?_⟩
    simp only [List.map_cons, List.map_nil, value_cons, value_nil, List.length_cons, List.length_nil]
    omega
  | case4 a b c rest n ih =>
    have ha := a.toNat_lt
    have hb := b.toNat_lt
    have hc := c.toNat_lt
    obtain ⟨r, hr, ih⟩ := ih
    have hgroup : Regroups 6 8 0 [n / 262144 % 64, n / 4096 % 64, n / 64 % 64, n % 64] [a.toNat, b.toNat, c.toNat] := by
      refine ⟨rfl, ?_⟩
      simp only [value_cons, value_nil, List.length_cons, List.length_nil]
      omega
    exact ⟨r, hr, hgroup.append ih⟩

/-! ## The codec -/

section Codec

variable {variant : Variant} {maxBytes : Nat}

/-- The digits that the decoder reads as some bytes are those that the encoder writes. -/
theorem reads_iff {units : List Nat} {b : Bytes} (hlen : units.length % 4 ≠ 1) :
    Reads variant units 0 0 b ↔ units = (digitsOf b).map variant.code := by
  obtain ⟨r, hr, hwritten⟩ := regroups_digitsOf b
  have hbytes : (b.map UInt8.toNat).length = b.length := List.length_map _
  constructor
  · rintro ⟨ds, r', rfl, hdigits, hr', hbits, hvalue⟩
    rw [List.length_map] at hlen
    have hread : Regroups 6 8 r' ds (b.map UInt8.toNat) := by
      refine ⟨by omega, ?_⟩
      rw [Nat.zero_mul, Nat.zero_add] at hvalue
      exact hvalue
    rw [hread.left_inj hwritten (by decide) (by omega) hr hdigits (digitsOf_lt b)]
  · rintro rfl
    refine ⟨digitsOf b, r, rfl, digitsOf_lt b, by omega, ?_, ?_⟩
    · have hbits := hwritten.length
      omega
    · rw [Nat.zero_mul, Nat.zero_add]
      exact hwritten.value

theorem toNat_written (ds : List Nat) (pad : Nat) :
    (ds.map (digitChar variant.alphabet) ++ List.replicate pad '=').map Char.toNat =
      ds.map variant.code ++ List.replicate pad '='.toNat := by
  rw [List.map_append, List.map_map, List.map_replicate]
  rfl

theorem lt_of_mem_written {ds : List Nat} {pad u : Nat} (hdigits : ∀ d ∈ ds, d < 64)
    (hu : u ∈ ds.map variant.code ++ List.replicate pad '='.toNat) : u < 128 := by
  rcases List.mem_append.1 hu with hu | hu
  · obtain ⟨d, hd, rfl⟩ := List.mem_map.1 hu
    exact (variant.code_lt d (hdigits d hd)).1
  · obtain ⟨-, rfl⟩ := List.mem_replicate.1 hu
    decide

/-- A text of digits and padding has the units of its characters, and no other text has them. -/
theorem codeUnits_eq_iff {chars : List Char} {ds : List Nat} {pad : Nat} (hdigits : ∀ d ∈ ds, d < 64) :
    Utf8.codeUnits chars = ds.map variant.code ++ List.replicate pad '='.toNat ↔
      chars = ds.map (digitChar variant.alphabet) ++ List.replicate pad '=' := by
  constructor
  · intro h
    rw [codeUnits_of_lt fun u hu => lt_of_mem_written hdigits (h ▸ hu), ← toNat_written] at h
    exact List.map_injective_iff.2 (fun _ _ => Char.toNat_inj.1) h
  · rintro rfl
    rw [codeUnits_of_code, toNat_written]
    intro c hc
    apply lt_of_mem_written hdigits
    rw [← toNat_written]
    exact List.mem_map_of_mem hc

theorem decodeDigits_start (input : List Nat) :
    decodeDigits variant maxBytes input 0 0 [] = decodeExact variant maxBytes input 0 0 [] := by
  show decodeDigits variant maxBytes input (0 % 2 ^ 32) 0 [] = _
  exact decodeDigits_eq (by decide)

theorem decodeExact_start {input : List Nat} {b : Bytes} :
    decodeExact variant maxBytes input 0 0 [] = .ok b ↔ b.length ≤ maxBytes ∧ Reads variant input 0 0 b :=
  decodeExact_eq_ok (by decide) rfl (Nat.zero_le _)

/-- **What the decoder accepts**: what the encoder writes, up to two signs of padding. -/
theorem base64ToBytes_eq_ok {input : String} {b : Bytes} : base64ToBytes input maxBytes variant = .ok b ↔
    b.length ≤ maxBytes ∧
      ∃ pad ≤ 2, input.toList = (digitsOf b).map (digitChar variant.alphabet) ++ List.replicate pad '=' := by
  unfold base64ToBytes
  constructor
  · intro h
    cases hstrip : stripPadding (Utf8.codeUnits input.toList) with
    | error e =>
      rw [hstrip] at h
      cases h
    | ok units =>
      rw [hstrip] at h
      change (if _ then _ else if _ then _ else _) = _ at h
      split at h
      · cases h
      split at h
      · cases h
      next hlen =>
      rw [decodeDigits_start, decodeExact_start, reads_iff hlen] at h
      obtain ⟨hmax, rfl⟩ := h
      obtain ⟨pad, hpad, hunits⟩ := stripPadding_ok hstrip
      exact ⟨hmax, pad, hpad, (codeUnits_eq_iff (digitsOf_lt b)).1 hunits⟩
  · rintro ⟨hmax, pad, hpad, htext⟩
    have hsigns : ∀ u ∈ (digitsOf b).map variant.code, u ≠ '='.toNat := by
      intro u hu
      obtain ⟨d, hd, rfl⟩ := List.mem_map.1 hu
      exact (variant.code_lt d (digitsOf_lt b d hd)).2
    have hlen : ((digitsOf b).map variant.code).length = (digitsOf b).length := List.length_map _
    obtain ⟨r, hr, hwritten⟩ := regroups_digitsOf b
    have hbits := hwritten.length
    rw [List.length_map] at hbits
    rw [(codeUnits_eq_iff (digitsOf_lt b)).2 htext, stripPadding_append hsigns hpad]
    show (if _ then _ else if _ then _ else _) = _
    rw [if_neg (by omega), if_neg (by omega), decodeDigits_start, decodeExact_start, reads_iff (by omega)]
    exact ⟨hmax, rfl⟩

/-- What was encoded is decoded. -/
theorem base64ToBytes_bytesToBase64 {b : Bytes} (hb : b.length ≤ maxBytes) :
    base64ToBytes (bytesToBase64 b variant) maxBytes variant = .ok b := by
  refine base64ToBytes_eq_ok.2 ⟨hb, ?_⟩
  rw [bytesToBase64, String.toList_ofList]
  exact base64Digits_eq variant b

/-- The text without the padding at its end. -/
def unpadded (text : String) : List Char := text.toList.rdropWhile (· = '=')

theorem unpadded_of_written {text : String} {ds : List Nat} {pad : Nat} (hdigits : ∀ d ∈ ds, d < 64)
    (h : text.toList = ds.map (digitChar variant.alphabet) ++ List.replicate pad '=') :
    unpadded text = ds.map (digitChar variant.alphabet) := by
  rw [unpadded, h]
  clear h
  induction pad with
  | zero =>
    rw [List.replicate_zero, List.append_nil, List.rdropWhile_eq_self_iff]
    intro hne hlast
    obtain ⟨d, hd, hchar⟩ := List.mem_map.1 (List.getLast_mem hne)
    have hsign := (variant.code_lt d (hdigits d hd)).2
    rw [Variant.code, hchar, of_decide_eq_true hlast] at hsign
    exact hsign rfl
  | succ pad ih =>
    rw [List.replicate_succ', ← List.append_assoc, List.rdropWhile_concat, if_pos (decide_eq_true rfl), ih]

end Codec

/-- **The base64 codec of the signer.** What was encoded is decoded; what is accepted is what the encoder writes, up to
the padding, so no two texts without padding are accepted for the same bytes; a text of more bytes than the cap is
rejected; and the 32 bits of the accumulator do what an accumulator without a bound does. -/
theorem base64_codec (variant : Variant) (maxBytes : Nat) :
    (∀ b : Bytes, b.length ≤ maxBytes → base64ToBytes (bytesToBase64 b variant) maxBytes variant = .ok b) ∧
    (∀ input b, base64ToBytes input maxBytes variant = .ok b → unpadded (bytesToBase64 b variant) = unpadded input) ∧
    (∀ input input' b, unpadded input = input.toList → unpadded input' = input'.toList →
      base64ToBytes input maxBytes variant = .ok b → base64ToBytes input' maxBytes variant = .ok b → input = input') ∧
    (∀ input cap b, base64ToBytes input cap variant = .ok b → maxBytes < b.length →
      ∃ e, base64ToBytes input maxBytes variant = .error e) ∧
    ∀ units, decodeDigits variant maxBytes units 0 0 [] = decodeExact variant maxBytes units 0 0 [] := by
  have hagain : ∀ input b, base64ToBytes input maxBytes variant = .ok b →
      unpadded input = (digitsOf b).map (digitChar variant.alphabet) := by
    intro input b h
    obtain ⟨-, pad, -, htext⟩ := base64ToBytes_eq_ok.1 h
    exact unpadded_of_written (digitsOf_lt b) htext
  refine ⟨fun b hb => base64ToBytes_bytesToBase64 hb, ?_, ?_, ?_, decodeDigits_start⟩
  · intro input b h
    obtain ⟨hb, -⟩ := base64ToBytes_eq_ok.1 h
    rw [hagain input b h, hagain _ b (base64ToBytes_bytesToBase64 hb)]
  · intro input input' b hin hin' h h'
    rw [← String.toList_inj, ← hin, ← hin', hagain input b h, hagain input' b h']
  · intro input cap b h hlen
    cases hshort : base64ToBytes input maxBytes variant with
    | error e => exact ⟨e, rfl⟩
    | ok b' =>
      obtain ⟨hmax, pad, hpad, htext⟩ := base64ToBytes_eq_ok.1 hshort
      obtain ⟨hcap, htext'⟩ := base64ToBytes_eq_ok.1 h
      -- under the larger of the two caps both byte strings would be the result
      have hb : base64ToBytes input (max cap maxBytes) variant = .ok b :=
        base64ToBytes_eq_ok.2 ⟨hcap.trans (Nat.le_max_left _ _), htext'⟩
      have hb' : base64ToBytes input (max cap maxBytes) variant = .ok b' :=
        base64ToBytes_eq_ok.2 ⟨hmax.trans (Nat.le_max_right _ _), pad, hpad, htext⟩
      obtain rfl := Except.ok.inj (hb.symm.trans hb')
      omega

end PhygitalWallet.Secure
