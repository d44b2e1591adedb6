import Mathlib.Data.List.DropRight
import PhygitalWallet.Lib.JsText

/-!
# Decimal text with a point

- `padStart`, `padEnd`, `stripZeros`, `bigInt`: the operations on decimal text;
- `fixedText`: a number of base units in decimals, without zeros at the end;
- `fixedText_parts`, `literal_fixedText`: its parts and its value are read back.
-/

namespace JsText

/-! ## Operations -/

/-- `text.padStart(n, c)`. -/
def padStart (cs : List Char) (n : Nat) (c : Char) : List Char := List.replicate (n - cs.length) c ++ cs

/-- `text.padEnd(n, c)`. -/
def padEnd (cs : List Char) (n : Nat) (c : Char) : List Char := cs ++ List.replicate (n - cs.length) c

/-- `text.replace(/0+$/, "")`. -/
def dropZeros (cs : List Char) : List Char := cs.rdropWhile (· = '0')

/-- `text.replace(/^0+(?=\d)/, "")`. -/
def stripZeros : List Char → List Char
  | '0' :: c :: cs => if c.isDigit then stripZeros (c :: cs) else '0' :: c :: cs
  | cs => cs

/-- `BigInt(text)`; `none` throws. -/
def bigInt (text : List Char) : Option Int :=
  match trim text with
  | [] => some 0
  | '0' :: 'x' :: cs | '0' :: 'X' :: cs => (radixDigits 16 cs).map Int.ofNat
  | '0' :: 'o' :: cs | '0' :: 'O' :: cs => (radixDigits 8 cs).map Int.ofNat
  | '0' :: 'b' :: cs | '0' :: 'B' :: cs => (radixDigits 2 cs).map Int.ofNat
  | cs =>
    let (negative, digits) := sign cs
    if digits = [] ∨ digits.any (fun c => !c.isDigit) then none
    else
      let n : Int := Nat.ofDigitChars 10 digits 0
      some (if negative then -n else n)

example : bigInt " -042 ".toList = some (-42) ∧ bigInt "0x1f".toList = some 31 ∧ bigInt "1.5".toList = none := by
  decide +kernel

/-- The decimals of a fraction of `10 ^ d` units, without zeros at the end. -/
def fractionText (n d : Nat) : List Char := dropZeros (padStart (Nat.toDigits 10 n) d '0')

/-- `n` units in `d` decimals. -/
def fixedText (n d : Nat) : List Char :=
  if fractionText (n % 10 ^ d) d = [] then Nat.toDigits 10 (n / 10 ^ d)
  else Nat.toDigits 10 (n / 10 ^ d) ++ '.' :: fractionText (n % 10 ^ d) d

/-! ## Digits -/

section Digits

variable {cs fs : List Char} {n d : Nat}

/-- What is dropped are zeros. -/
theorem exists_dropZeros (cs : List Char) : ∃ k, cs = dropZeros cs ++ List.replicate k '0' := by
  induction cs using List.reverseRecOn with
  | nil => exact ⟨0, rfl⟩
  | append_singleton cs c ih =>
    by_cases hc : c = '0'
    · obtain ⟨k, hk⟩ := ih
      refine ⟨k + 1, ?_⟩
      rw [dropZeros, List.rdropWhile_concat_pos _ _ _ (by simpa using hc), hc, List.replicate_succ',
        ← List.append_assoc]
      exact congrArg (· ++ ['0']) hk
    · refine ⟨0, ?_⟩
      rw [dropZeros, List.rdropWhile_concat_neg _ _ _ (by simpa using hc), List.replicate_zero, List.append_nil]

theorem isDigit_padStart (h : ∀ c ∈ cs, c.isDigit = true) : ∀ c ∈ padStart cs n '0', c.isDigit = true := by
  intro c hc
  rcases List.mem_append.1 hc with hc | hc
  · rw [List.eq_of_mem_replicate hc]
    rfl
  · exact h c hc

theorem isDigit_fractionText : ∀ c ∈ fractionText n d, c.isDigit = true := by
  intro c hc
  have hfront := List.rdropWhile_prefix (· = '0') (padStart (Nat.toDigits 10 n) d '0')
  exact isDigit_padStart isDigit_toDigits c (hfront.subset hc)

theorem ofDigitChars_padStart : Nat.ofDigitChars 10 (padStart cs n '0') 0 = Nat.ofDigitChars 10 cs 0 := by
  rw [padStart, Nat.ofDigitChars_append, Nat.ofDigitChars_replicate_zero, Nat.mul_zero]

/-- Padded digits of a fraction are as many as its decimals. -/
theorem length_padStart (h : n < 10 ^ d) (hd : 0 < d) : (padStart (Nat.toDigits 10 n) d '0').length = d := by
  have hlen := (Nat.length_toDigits_le_iff (n := n) (by decide : 1 < 10) hd).2 h
  rw [padStart, List.length_append, List.length_replicate]
  omega

/-- **The decimals of a fraction**, padded again, are the fraction. -/
theorem fractionText_spec (h : n < 10 ^ d) : (fractionText n d).length ≤ d ∧
    Nat.ofDigitChars 10 (padEnd (fractionText n d) d '0') 0 = n := by
  cases d with
  | zero =>
    obtain rfl : n = 0 := by omega
    exact ⟨by decide, by decide⟩
  | succ d =>
    have hlen := length_padStart h d.succ_pos
    obtain ⟨k, hk⟩ := exists_dropZeros (padStart (Nat.toDigits 10 n) (d + 1) '0')
    have hsplit : (fractionText n (d + 1)).length + k = d + 1 := by
      have hcount := congrArg List.length hk
      rw [List.length_append, List.length_replicate, hlen] at hcount
      exact hcount.symm
    refine ⟨by omega, ?_⟩
    have hpad : padEnd (fractionText n (d + 1)) (d + 1) '0' = padStart (Nat.toDigits 10 n) (d + 1) '0' := by
      rw [padEnd, show d + 1 - (fractionText n (d + 1)).length = k by omega]
      exact hk.symm
    rw [hpad, ofDigitChars_padStart, ofDigitChars_decimal]

theorem stripZeros_spec (hne : cs ≠ []) (h : ∀ c ∈ cs, c.isDigit = true) : stripZeros cs ≠ [] ∧
    (∀ c ∈ stripZeros cs, c.isDigit = true) ∧ Nat.ofDigitChars 10 (stripZeros cs) 0 = Nat.ofDigitChars 10 cs 0 := by
  induction cs using stripZeros.induct with
  | case1 c cs hc ih =>
    have hrest : ∀ x ∈ c :: cs, x.isDigit = true := fun x hx => h x (List.mem_cons_of_mem _ hx)
    obtain ⟨hne', hdigits, hvalue⟩ := ih (List.cons_ne_nil _ _) hrest
    rw [stripZeros, if_pos hc]
    refine ⟨hne', hdigits, hvalue.trans ?_⟩
    rw [Nat.ofDigitChars_cons (c := '0')]
    rfl
  | case2 c cs hc => exact absurd (h c (by simp)) hc
  | case3 cs hcs =>
    rw [stripZeros]
    · exact ⟨hne, h, rfl⟩
    · exact hcs

theorem bigInt_of_digits (hne : cs ≠ []) (h : ∀ c ∈ cs, c.isDigit = true) :
    bigInt cs = some ((Nat.ofDigitChars 10 cs 0 : Nat) : Int) := by
  obtain ⟨c, rest, rfl⟩ := List.exists_cons_of_ne_nil hne
  have htrim : trim (c :: rest) = c :: rest := trim_eq_self fun x hx => isSpace_of_isDigit (h x hx)
  have hsign : sign (c :: rest) = (false, c :: rest) := sign_of_digit (h c List.mem_cons_self)
  have hsecond : ∀ x tail, rest = x :: tail → x.isDigit = true := fun x tail heq => h x (by simp [heq])
  have hall : (c :: rest).any (fun x => !x.isDigit) = false := by
    rw [List.any_eq_false]
    intro x hx
    rw [h x hx]
    exact Bool.false_ne_true
  unfold bigInt
  rw [htrim]
  split
  · next heq => cases heq
  all_goals try next heq => cases heq; exact absurd (hsecond _ _ rfl) (by decide)
  simp [hsign, hall]

/-- Digits are a decimal literal, also with a point among them. -/
theorem literal_cons {c : Char} {rest : List Char} (hc : c.isDigit = true)
    (hsecond : ∀ x ∈ rest.head?, x.isDigit = true ∨ x = '.') : literal (c :: rest) = decimal (c :: rest) := by
  have hsign : sign (c :: rest) = (false, c :: rest) := sign_of_digit hc
  unfold literal
  split
  · next heq => cases heq
  all_goals try next heq => cases heq; exact absurd (hsecond _ rfl) (by decide)
  rw [hsign]
  simp

theorem decimal_point (hne : cs ≠ []) (hcs : ∀ c ∈ cs, c.isDigit = true) (hfs : ∀ c ∈ fs, c.isDigit = true) :
    decimal (cs ++ '.' :: fs) = some (((Nat.ofDigitChars 10 (cs ++ fs) 0 : Nat) : Rat) / 10 ^ fs.length) := by
  have hpoint : ('.' : Char).isDigit = false := rfl
  have htake : (cs ++ '.' :: fs).takeWhile Char.isDigit = cs := by
    rw [List.takeWhile_append_of_pos hcs, List.takeWhile_cons_of_neg (by simp [hpoint]), List.append_nil]
  have hdrop : (cs ++ '.' :: fs).dropWhile Char.isDigit = '.' :: fs := by
    rw [List.dropWhile_append_of_pos hcs, List.dropWhile_cons_of_neg (by simp [hpoint])]
  have htake' : fs.takeWhile Char.isDigit = fs := List.takeWhile_eq_self_iff.2 hfs
  have hdrop' : fs.dropWhile Char.isDigit = [] := List.dropWhile_eq_nil_iff.2 hfs
  unfold decimal
  simp only [htake, hdrop, htake', hdrop', hne, false_and, if_false, exponent]
  show some (if (0 : Int) ≤ 0 - (fs.length : Int) then _ else _) = _
  by_cases hlen : fs.length = 0
  · rw [hlen]
    simp
  · rw [if_neg (by omega)]
    have hscale : (-(0 - (fs.length : Int))).toNat = fs.length := by omega
    rw [hscale]

end Digits

/-! ## The text of a number -/

section Fixed

variable {n d : Nat}

/-- **The digits** before and after the point are the number, but for the zeros at the end. -/
theorem ofDigitChars_fixed (n d : Nat) :
    Nat.ofDigitChars 10 (Nat.toDigits 10 (n / 10 ^ d) ++ fractionText (n % 10 ^ d) d) 0 *
      10 ^ (d - (fractionText (n % 10 ^ d) d).length) = n := by
  have hlt : n % 10 ^ d < 10 ^ d := Nat.mod_lt n (Nat.pow_pos (by decide))
  obtain ⟨hlen, hfraction⟩ := fractionText_spec hlt
  rw [padEnd, Nat.ofDigitChars_append, Nat.ofDigitChars_replicate_zero] at hfraction
  rw [Nat.ofDigitChars_append, ofDigitChars_decimal, Nat.ofDigitChars_eq_ofDigitChars_zero]
  generalize hk : (fractionText (n % 10 ^ d) d).length = k at hlen hfraction ⊢
  generalize Nat.ofDigitChars 10 (fractionText (n % 10 ^ d) d) 0 = digits at hfraction ⊢
  have hpow : 10 ^ d = 10 ^ k * 10 ^ (d - k) := by rw [← Nat.pow_add, Nat.add_sub_cancel' hlen]
  calc (10 ^ k * (n / 10 ^ d) + digits) * 10 ^ (d - k)
      = 10 ^ k * 10 ^ (d - k) * (n / 10 ^ d) + 10 ^ (d - k) * digits := by ring
    _ = 10 ^ d * (n / 10 ^ d) + n % 10 ^ d := by rw [← hpow, hfraction]
    _ = n := Nat.div_add_mod n (10 ^ d)

theorem isDigit_or_point : ∀ c ∈ fixedText n d, c.isDigit = true ∨ c = '.' := by
  intro c hc
  unfold fixedText at hc
  split at hc
  · exact Or.inl (isDigit_toDigits c hc)
  · rcases List.mem_append.1 hc with hc | hc
    · exact Or.inl (isDigit_toDigits c hc)
    · rcases List.mem_cons.1 hc with rfl | hc
      · exact Or.inr rfl
      · exact Or.inl (isDigit_fractionText c hc)

theorem trim_fixedText : trim (fixedText n d) = fixedText n d := by
  refine trim_eq_self fun c hc => ?_
  rcases isDigit_or_point c hc with hdigit | rfl
  · exact isSpace_of_isDigit hdigit
  · decide

/-- **The parts** of the text. -/
theorem fixedText_parts (n d : Nat) : (fixedText n d).splitOn '.' =
    Nat.toDigits 10 (n / 10 ^ d) :: if fractionText (n % 10 ^ d) d = [] then [] else [fractionText (n % 10 ^ d) d] := by
  have hwhole : '.' ∉ Nat.toDigits 10 (n / 10 ^ d) := fun hmem => absurd (isDigit_toDigits _ hmem) (by decide)
  have hfraction : '.' ∉ fractionText (n % 10 ^ d) d := fun hmem => absurd (isDigit_fractionText _ hmem) (by decide)
  unfold fixedText
  split
  · exact List.splitOn_eq_singleton hwhole
  · rw [List.splitOn_append_cons_self_of_not_mem hwhole]
    congr 1
    exact List.splitOn_eq_singleton hfraction

/-- The text is a literal of its digits. -/
theorem literal_fixedText_digits (n d : Nat) : literal (fixedText n d) =
    some (((Nat.ofDigitChars 10 (Nat.toDigits 10 (n / 10 ^ d) ++ fractionText (n % 10 ^ d) d) 0 : Nat) : Rat) /
      10 ^ (fractionText (n % 10 ^ d) d).length) := by
  unfold fixedText
  split
  · next hnone =>
    rw [hnone, List.append_nil, literal_of_digits Nat.toDigits_ne_nil isDigit_toDigits]
    simp
  · obtain ⟨c, rest, hwhole⟩ := List.exists_cons_of_ne_nil (Nat.toDigits_ne_nil (n := n / 10 ^ d) (b := 10))
    have hc : ∀ x ∈ c :: rest, x.isDigit = true := hwhole ▸ isDigit_toDigits
    rw [hwhole, List.cons_append, literal_cons (hc c List.mem_cons_self) ?_, ← List.cons_append,
      decimal_point (List.cons_ne_nil _ _) hc isDigit_fractionText]
    intro x hx
    cases rest with
    | nil => exact Or.inr (Option.some.inj hx).symm
    | cons y rest =>
      obtain rfl := Option.some.inj hx
      exact Or.inl (hc _ (by simp))

/-- **The value** of the text is the number of units, in decimals. -/
theorem literal_fixedText (n d : Nat) : literal (fixedText n d) = some ((n : Rat) / 10 ^ d) := by
  have hlen : (fractionText (n % 10 ^ d) d).length ≤ d := (fractionText_spec (Nat.mod_lt n (Nat.pow_pos (by decide)))).1
  have hdigits := congrArg (Nat.cast (R := Rat)) (ofDigitChars_fixed n d)
  rw [literal_fixedText_digits]
  generalize (fractionText (n % 10 ^ d) d).length = k at hlen hdigits ⊢
  generalize Nat.ofDigitChars 10 (Nat.toDigits 10 (n / 10 ^ d) ++ fractionText (n % 10 ^ d) d) 0 = digits at hdigits ⊢
  push_cast at hdigits
  congr 1
  rw [div_eq_div_iff (pow_ne_zero k (by norm_num)) (pow_ne_zero d (by norm_num)), ← hdigits, mul_assoc, ← pow_add,
    Nat.sub_add_cancel hlen]

end Fixed

end JsText
