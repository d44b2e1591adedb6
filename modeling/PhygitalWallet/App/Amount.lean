import PhygitalWallet.Lib.FixedPoint

/-!
# Token amounts as text (`lib/tokens/amount.ts`)

- `formatTokenAmount`, `uiAmountToRaw`: from base units to text, and back;
- `uiAmountToRaw_formatTokenAmount`: a positive amount comes back.
-/

namespace PhygitalWallet.App

open JsText

def formatTokenAmount (raw : Int) (decimals : Nat) : String :=
  if raw = 0 then "0"
  else
    let abs := raw.natAbs
    let base := 10 ^ decimals
    let whole := toString (abs / base)
    let frac := dropZeros (padStart (toString (abs % base)).toList decimals '0')
    let formatted := if 0 < frac.length then whole ++ "." ++ String.ofList frac else whole
    if raw < 0 then "-" ++ formatted else formatted

/-- What `uiAmountToRaw` throws. -/
inductive AmountError
  | enterAmount
  | tooPrecise (decimals : Nat)
  | syntaxError
deriving DecidableEq, Repr

/-- The text of the error; the engine writes its own for a text that is no integer. -/
def AmountError.message : AmountError → Option String
  | .enterAmount => some "Enter a valid amount."
  | .tooPrecise decimals => some ("Amount supports at most " ++ toString decimals ++ " decimals")
  | .syntaxError => none

def okOrThrow {α : Type} (value : Option α) (e : AmountError) : Except AmountError α :=
  match value with
  | some a => .ok a
  | none => .error e

/-- `Number(trimmed) <= 0` is the sign of the exact value. -/
def uiAmountToRaw (uiAmount : String) (decimals : Nat) : Except AmountError Int := do
  let trimmed := trim uiAmount.toList
  if trimmed = [] ∨ (literal trimmed).any (fun value => decide (value ≤ 0)) ∨ 2 < (trimmed.splitOn '.').length then
    throw .enterAmount
  let whole := ((trimmed.splitOn '.')[0]?).getD ['0']
  let frac := ((trimmed.splitOn '.')[1]?).getD []
  if decimals < frac.length then
    throw (.tooPrecise decimals)
  let padded := padEnd frac decimals '0'
  let wholePart ← okOrThrow (bigInt (if stripZeros whole = [] then ['0'] else stripZeros whole)) .syntaxError
  let fracPart ← okOrThrow (bigInt (if padded = [] then ['0'] else padded)) .syntaxError
  return wholePart * 10 ^ decimals + fracPart

example : formatTokenAmount 1500 3 = "1.5" ∧ uiAmountToRaw " 01.50" 3 = .ok 1500 ∧
    uiAmountToRaw "0.001" 2 = .error (.tooPrecise 2) := by decide +kernel

theorem formatTokenAmount_pos {raw : Nat} (h : 0 < raw) (decimals : Nat) :
    (formatTokenAmount raw decimals).toList = fixedText raw decimals := by
  have hdigits : ∀ n : Nat, (toString n).toList = Nat.toDigits 10 n := fun n => Nat.toList_repr
  have hfrac : dropZeros (padStart (toString (raw % 10 ^ decimals)).toList decimals '0') =
      fractionText (raw % 10 ^ decimals) decimals := by
    rw [hdigits]
    rfl
  unfold formatTokenAmount fixedText
  rw [if_neg (by omega), if_neg (by omega)]
  simp only [Int.natAbs_natCast, hfrac]
  split
  · next hsome =>
    rw [if_neg (List.ne_nil_of_length_pos hsome)]
    simp
  · next hnone =>
    rw [if_pos (List.length_eq_zero_iff.1 (by omega)), hdigits]

/-- The whole part, without zeros in front. -/
theorem bigInt_whole (n : Nat) : bigInt (if stripZeros (Nat.toDigits 10 n) = [] then ['0'] else
    stripZeros (Nat.toDigits 10 n)) = some (n : Int) := by
  obtain ⟨hne, hdigits, hvalue⟩ := stripZeros_spec (Nat.toDigits_ne_nil (n := n) (b := 10)) isDigit_toDigits
  rw [if_neg hne, bigInt_of_digits hne hdigits, hvalue, ofDigitChars_decimal]

/-- The decimals, with their zeros at the end. -/
theorem bigInt_fraction {n d : Nat} (h : n < 10 ^ d) : bigInt (if padEnd (fractionText n d) d '0' = [] then ['0'] else
    padEnd (fractionText n d) d '0') = some (n : Int) := by
  have hvalue := (fractionText_spec h).2
  split
  · next hnil =>
    rw [hnil] at hvalue
    rw [← hvalue]
    decide
  · next hne =>
    rw [bigInt_of_digits hne, hvalue]
    intro c hc
    rcases List.mem_append.1 hc with hc | hc
    · exact isDigit_fractionText c hc
    · rw [List.eq_of_mem_replicate hc]
      rfl

/-- **The round trip** of a positive amount. -/
theorem uiAmountToRaw_formatTokenAmount {raw : Nat} (h : 0 < raw) (decimals : Nat) :
    uiAmountToRaw (formatTokenAmount raw decimals) decimals = .ok (raw : Int) := by
  have hlt : raw % 10 ^ decimals < 10 ^ decimals := Nat.mod_lt raw (Nat.pow_pos (by decide))
  have hq := literal_fixedText raw decimals
  have hpos : 0 < (raw : ℚ) / 10 ^ decimals := div_pos (by exact_mod_cast h) (pow_pos (by norm_num) _)
  have hparts := fixedText_parts raw decimals
  have hne : fixedText raw decimals ≠ [] := by
    intro hnil
    rw [hnil] at hq
    have hzero : (0 : ℚ) = (raw : ℚ) / 10 ^ decimals := Option.some.inj hq
    exact absurd hzero (ne_of_lt hpos)
  have hcount : ((fixedText raw decimals).splitOn '.').length ≤ 2 := by
    rw [hparts]
    split <;> simp
  have hwhole : (((fixedText raw decimals).splitOn '.')[0]?).getD ['0'] = Nat.toDigits 10 (raw / 10 ^ decimals) := by
    rw [hparts]
    rfl
  have hfrac : (((fixedText raw decimals).splitOn '.')[1]?).getD [] = fractionText (raw % 10 ^ decimals) decimals := by
    rw [hparts]
    split
    · next hnil =>
      rw [hnil]
      rfl
    · rfl
  have hguard : ¬ (fixedText raw decimals = [] ∨
      (literal (fixedText raw decimals)).any (fun value => decide (value ≤ 0)) ∨
      2 < ((fixedText raw decimals).splitOn '.').length) := by
    rw [hq, Option.any_some, decide_eq_false (not_le.2 hpos)]
    simp [hne, hcount]
  unfold uiAmountToRaw
  simp only [formatTokenAmount_pos h, trim_fixedText, hwhole, hfrac]
  rw [if_neg hguard, if_neg (not_lt.2 (fractionText_spec hlt).1), bigInt_whole, bigInt_fraction hlt]
  have hsum : ((raw / 10 ^ decimals : Nat) : Int) * 10 ^ decimals + (raw % 10 ^ decimals : Nat) = raw := by
    have hsplit := Nat.div_add_mod raw (10 ^ decimals)
    rw [Nat.mul_comm] at hsplit
    exact_mod_cast hsplit
  exact congrArg Except.ok hsum

end PhygitalWallet.App
