import Mathlib.Data.List.Infix
import Mathlib.Data.List.TakeWhile
import Mathlib.Data.Rat.Cast.Order
import Mathlib.Tactic.NormNum
import PhygitalWallet.Lib.Bytes

/-!
# Text as JavaScript reads it

- `trim`: without the white space at both ends;
- `parseInt`: the integer at the start;
- `number`: `Number(text)` where it is finite, before the rounding to a double;
- `number_decimal`, `number_integerText`: the text of an integer is read back;
- `includes`, `startsWith`, `includesIgnoreCase`: words in a text, with `infix_split`.
-/

namespace JsText

/-- White space and line terminators. -/
def isSpace (c : Char) : Bool :=
  [0x09, 0x0a, 0x0b, 0x0c, 0x0d, 0x20, 0xa0, 0x1680, 0x2028, 0x2029, 0x202f, 0x205f, 0x3000, 0xfeff].contains c.toNat ||
    decide (0x2000 ≤ c.toNat ∧ c.toNat ≤ 0x200a)

/-- Letters, digits and signs. -/
theorem isSpace_of_visible {c : Char} (h : 0x20 < c.toNat ∧ c.toNat < 0x7f) : isSpace c = false := by
  simp only [isSpace, List.contains_eq_mem, List.mem_cons, List.not_mem_nil, or_false, Bool.or_eq_false_iff,
    decide_eq_false_iff_not]
  omega

/-- `text.trim()`. -/
def trim (cs : List Char) : List Char := ((cs.dropWhile isSpace).reverse.dropWhile isSpace).reverse

/-- What is left does not start with white space. -/
theorem head?_trim {cs : List Char} {c : Char} (h : (trim cs).head? = some c) : isSpace c = false := by
  have hprefix : trim cs <+: cs.dropWhile isSpace := by
    rw [trim, ← List.reverse_suffix, List.reverse_reverse]
    exact List.dropWhile_suffix isSpace
  obtain ⟨rest, hrest⟩ := hprefix
  cases htrim : trim cs with
  | nil =>
    rw [htrim] at h
    cases h
  | cons d ds =>
    rw [htrim] at h hrest
    cases h
    have hdrop : cs.dropWhile isSpace ≠ [] := by
      rw [← hrest]
      exact List.cons_ne_nil _ _
    have hhead := List.head_dropWhile_not isSpace hdrop
    have hd : (cs.dropWhile isSpace).head hdrop = c := by simp [← hrest]
    rw [hd] at hhead
    exact hhead

/-- Nothing is left of space. -/
theorem trim_of_all {cs : List Char} (h : ∀ c ∈ cs, isSpace c = true) : trim cs = [] := by
  rw [trim, List.dropWhile_eq_nil_iff.2 h]
  rfl

/-- Text without white space at its ends. -/
theorem trim_eq_self {cs : List Char} (h : ∀ c ∈ cs, isSpace c = false) : trim cs = cs := by
  have hdrop : ∀ {l : List Char}, (∀ c ∈ l, isSpace c = false) → l.dropWhile isSpace = l := by
    intro l hl
    cases l with
    | nil => rfl
    | cons c l => rw [List.dropWhile_cons_of_neg (by simp [hl c List.mem_cons_self])]
  rw [trim, hdrop h, hdrop fun c hc => h c (List.mem_reverse.1 hc), List.reverse_reverse]

/-! ## Numbers -/

/-- The sign at the start, and the rest. -/
def sign : List Char → Bool × List Char
  | '-' :: cs => (true, cs)
  | '+' :: cs => (false, cs)
  | cs => (false, cs)

/-- The value of a digit in bases up to sixteen. -/
def digitValue (c : Char) : Option Nat :=
  if c.isDigit then some (c.toNat - '0'.toNat)
  else if 'a' ≤ c ∧ c ≤ 'f' then some (c.toNat - 'a'.toNat + 10)
  else if 'A' ≤ c ∧ c ≤ 'F' then some (c.toNat - 'A'.toNat + 10)
  else none

/-- `Number.parseInt(text, radix)`: the digits at the start; `none` is not a number. -/
def parseInt (radix : Nat) (cs : List Char) : Option Int :=
  let (negative, cs) := sign (cs.dropWhile isSpace)
  let cs := match radix, cs with
    | 16, '0' :: 'x' :: cs | 16, '0' :: 'X' :: cs => cs
    | _, cs => cs
  let digits := cs.takeWhile fun c => (digitValue c).any (· < radix)
  if digits = [] then none
  else
    let n : Int := (digits.foldl (fun n c => n * radix + (digitValue c).getD 0) 0 : Nat)
    some (if negative then -n else n)

example : parseInt 10 " 042px".toList = some 42 ∧ parseInt 16 "-0xfg".toList = some (-15) ∧ parseInt 10 "x".toList = none := by
  decide +kernel

/-- Digits of a base, at least one. -/
def radixDigits (base : Nat) (cs : List Char) : Option Nat := do
  let digits ← cs.mapM digitValue
  if digits = [] ∨ ∃ d ∈ digits, base ≤ d then none else some (digits.foldl (fun n d => n * base + d) 0)

/-- The exponent after the digits. -/
def exponent : List Char → Option Int
  | [] => some 0
  | c :: cs =>
    if c = 'e' ∨ c = 'E' then
      let (negative, digits) := sign cs
      if digits = [] ∨ digits.any (fun c => !c.isDigit) then none
      else
        let n : Int := Nat.ofDigitChars 10 digits 0
        some (if negative then -n else n)
    else none

/-- A decimal literal without a sign. -/
def decimal (cs : List Char) : Option Rat :=
  let whole := cs.takeWhile Char.isDigit
  let rest := cs.dropWhile Char.isDigit
  let (fraction, rest) := match rest with
    | '.' :: rest => (rest.takeWhile Char.isDigit, rest.dropWhile Char.isDigit)
    | _ => ([], rest)
  if whole = [] ∧ fraction = [] then none
  else do
    let e ← exponent rest
    let scale : Int := e - fraction.length
    let digits : Nat := Nat.ofDigitChars 10 (whole ++ fraction) 0
    some (if 0 ≤ scale then (digits : Rat) * 10 ^ scale.toNat else (digits : Rat) / 10 ^ (-scale).toNat)

/-- The numbers that are rounded to an infinity start here. -/
def overflow : Rat := 2 ^ 1024 - 2 ^ 970

/-- A literal without white space around it. -/
def literal : List Char → Option Rat
  | [] => some 0
  | '0' :: 'x' :: cs | '0' :: 'X' :: cs => (radixDigits 16 cs).map fun n => (n : Rat)
  | '0' :: 'o' :: cs | '0' :: 'O' :: cs => (radixDigits 8 cs).map fun n => (n : Rat)
  | '0' :: 'b' :: cs | '0' :: 'B' :: cs => (radixDigits 2 cs).map fun n => (n : Rat)
  | cs =>
    let (negative, cs) := sign cs
    (decimal cs).map fun value => if negative then -value else value

/-- `Number(text)` where it is finite. -/
def number (text : List Char) : Option Rat := do
  let value ← literal (trim text)
  if overflow ≤ |value| then none else some value

example : number " 12.50e1 ".toList = some 125 ∧ number "0x1F".toList = some 31 ∧ number "1e400".toList = none := by
  decide +kernel

/-! ## Decimal digits are read back -/

theorem isSpace_of_isDigit {c : Char} (h : c.isDigit = true) : isSpace c = false := by
  simp only [Char.isDigit, Bool.and_eq_true, decide_eq_true_eq] at h
  have hlow : 48 ≤ c.toNat := h.1
  have hhigh : c.toNat ≤ 57 := h.2
  exact isSpace_of_visible ⟨by omega, by omega⟩

section Digits

variable {cs : List Char}

theorem sign_of_digit {c : Char} (h : c.isDigit = true) : sign (c :: cs) = (false, c :: cs) := by
  unfold sign
  split
  · next heq =>
    cases heq
    cases h
  · next heq =>
    cases heq
    cases h
  · rfl

theorem decimal_of_digits (hne : cs ≠ []) (h : ∀ c ∈ cs, c.isDigit = true) :
    decimal cs = some ((Nat.ofDigitChars 10 cs 0 : Nat) : Rat) := by
  have htake : cs.takeWhile Char.isDigit = cs := List.takeWhile_eq_self_iff.2 h
  have hdrop : cs.dropWhile Char.isDigit = [] := List.dropWhile_eq_nil_iff.2 h
  unfold decimal
  simp [htake, hdrop, hne, exponent]

theorem literal_of_digits (hne : cs ≠ []) (h : ∀ c ∈ cs, c.isDigit = true) :
    literal cs = some ((Nat.ofDigitChars 10 cs 0 : Nat) : Rat) := by
  obtain ⟨c, rest, rfl⟩ := List.exists_cons_of_ne_nil hne
  have hsign : sign (c :: rest) = (false, c :: rest) := sign_of_digit (h c List.mem_cons_self)
  -- the letter of a base is no digit
  have hsecond : ∀ d tail, rest = d :: tail → d.isDigit = true := fun d tail heq => h d (by simp [heq])
  unfold literal
  split
  · next heq => cases heq
  all_goals try next heq => cases heq; exact absurd (hsecond _ _ rfl) (by decide)
  simp only [hsign, decimal_of_digits hne h]
  rfl

theorem literal_of_negative (hne : cs ≠ []) (h : ∀ c ∈ cs, c.isDigit = true) :
    literal ('-' :: cs) = some (-((Nat.ofDigitChars 10 cs 0 : Nat) : Rat)) := by
  have hsign : sign ('-' :: cs) = (true, cs) := rfl
  unfold literal
  split
  · next heq => cases heq
  all_goals try next heq => cases heq
  simp only [hsign, decimal_of_digits hne h]
  rfl

end Digits

section Text

variable {n : Nat}

theorem isDigit_toDigits : ∀ c ∈ Nat.toDigits 10 n, c.isDigit = true :=
  fun _ hc => Nat.isDigit_of_mem_toDigits (by decide) (by decide) hc

theorem ofDigitChars_decimal : Nat.ofDigitChars 10 (Nat.toDigits 10 n) 0 = n :=
  Nat.ofDigitChars_toDigits (by decide) (by decide)

theorem not_overflow (h : n < 2 ^ 53) : ¬overflow ≤ (n : Rat) := by
  have hn : (n : Rat) < 2 ^ 53 := by exact_mod_cast h
  have hover : (2 : Rat) ^ 53 ≤ overflow := by decide +kernel
  rw [not_le]
  exact lt_of_lt_of_le hn hover

/-- **Decimal digits are read back.** -/
theorem number_decimal (h : n < 2 ^ 53) : number (Nat.toDigits 10 n) = some (n : Rat) := by
  rw [number, trim_eq_self fun c hc => isSpace_of_isDigit (isDigit_toDigits c hc),
    literal_of_digits Nat.toDigits_ne_nil isDigit_toDigits, ofDigitChars_decimal]
  refine if_neg ?_
  rw [abs_of_nonneg (Nat.cast_nonneg n)]
  exact not_overflow h

theorem number_negative (h : n < 2 ^ 53) : number ('-' :: Nat.toDigits 10 n) = some (-(n : Rat)) := by
  have hspace : ∀ c ∈ '-' :: Nat.toDigits 10 n, isSpace c = false :=
    List.forall_mem_cons.2 ⟨by decide, fun c hc => isSpace_of_isDigit (isDigit_toDigits c hc)⟩
  rw [number, trim_eq_self hspace, literal_of_negative Nat.toDigits_ne_nil isDigit_toDigits, ofDigitChars_decimal]
  refine if_neg ?_
  rw [abs_neg, abs_of_nonneg (Nat.cast_nonneg n)]
  exact not_overflow h

/-- `String(n)` for a safe integer. -/
def integerText (n : Int) : List Char :=
  if n < 0 then '-' :: Nat.toDigits 10 n.natAbs else Nat.toDigits 10 n.natAbs

theorem number_integerText {n : Int} (h : n.natAbs < 2 ^ 53) : number (integerText n) = some (n : Rat) := by
  unfold integerText
  split
  · next hneg =>
    rw [number_negative h]
    have hn : (n : Rat) = -(n.natAbs : Rat) := by
      rw [← Int.cast_natCast, Int.ofNat_natAbs_of_nonpos hneg.le, Int.cast_neg, neg_neg]
    rw [hn]
  · next hpos =>
    rw [number_decimal h]
    have hn : (n : Rat) = (n.natAbs : Rat) := by
      rw [← Int.cast_natCast, Int.natAbs_of_nonneg (not_lt.1 hpos)]
    rw [hn]

/-- The text of a number holds digits and a sign. -/
theorem not_mem_integerText {c : Char} (hdigit : c.isDigit = false) (hsign : c ≠ '-') (n : Int) : c ∉ integerText n := by
  have hnot : c ∉ Nat.toDigits 10 n.natAbs := by
    intro hc
    rw [isDigit_toDigits c hc] at hdigit
    cases hdigit
  unfold integerText
  split
  · exact List.not_mem_cons_of_ne_of_not_mem hsign hnot
  · exact hnot

end Text

/-! ## Words -/

/-- `text.includes(word)`. -/
def includes (text word : String) : Bool := decide (word.toList <:+: text.toList)

/-- `text.startsWith(word)`. -/
def startsWith (text word : String) : Bool := decide (word.toList <+: text.toList)

/-- `/word/i.test(text)`, for a word of small letters. -/
def includesIgnoreCase (text word : String) : Bool := decide (word.toList <:+: text.toList.map Char.toLower)

theorem toLower_of_not_capital {c : Char} (h : ¬ (65 ≤ c.toNat ∧ c.toNat ≤ 90)) : c.toLower = c :=
  dif_neg h

/-- A word lies on one side of a character that it does not have. -/
theorem infix_split {α : Type} {word xs ys : List α} {c : α} (hc : c ∉ word) (h : word <:+: xs ++ c :: ys) :
    word <:+: xs ∨ word <:+: ys := by
  obtain ⟨s, t, h⟩ := h
  rcases List.append_eq_append_iff.1 h with ⟨rest, hxs, -⟩ | ⟨rest, hleft, hright⟩
  · exact Or.inl ⟨s, rest, hxs.symm⟩
  · cases rest with
    | nil =>
      rw [List.append_nil] at hleft
      exact Or.inl ⟨s, [], by rw [List.append_nil, hleft]⟩
    | cons d rest =>
      obtain ⟨rfl, hys⟩ := List.cons.inj hright
      rcases List.append_eq_append_iff.1 hleft with ⟨rest', -, hword⟩ | ⟨rest', -, hrest⟩
      · exact absurd (hword ▸ List.mem_append_right _ List.mem_cons_self) hc
      · cases rest' with
        | nil =>
          have hword : c :: rest = word := hrest
          exact absurd (hword ▸ List.mem_cons_self) hc
        | cons e rest' =>
          obtain ⟨-, rfl⟩ := List.cons.inj hrest
          exact Or.inr ⟨rest', t, hys.symm⟩

/-- A text that lacks one of its characters does not have the word. -/
theorem not_infix_of_not_mem {α : Type} {word xs : List α} {c : α} (hc : c ∈ word) (h : c ∉ xs) : ¬ word <:+: xs :=
  fun hword => h (hword.subset hc)

/-- A text that is shorter does not have the word. -/
theorem not_infix_of_length {α : Type} {word xs : List α} (h : xs.length < word.length) : ¬ word <:+: xs :=
  fun hword => absurd hword.length_le (by omega)

end JsText
