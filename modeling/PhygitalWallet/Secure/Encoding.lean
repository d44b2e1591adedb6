import PhygitalWallet.Lib.BaseText
import PhygitalWallet.Lib.Utf8

/-!
# Base64 on the trust boundary (`encoding.ts`)

- `base64ToBytes`: strict, with a cap on the output; the accumulator has 32 bits;
- `bytesToBase64`: padding in the standard variant only.
-/

namespace PhygitalWallet.Secure

open ByteSeq BaseText

inductive Variant
  | std | url
deriving DecidableEq, Repr

/-- `B64_STD`, `B64_URL`. -/
def Variant.alphabet : Variant → List Char
  | .std => base64Alphabet
  | .url => base64Alphabet.take 62 ++ ['-', '_']

/-- `DecodeError`. -/
inductive DecodeError
  | excessPadding | tooLarge | invalidLength | invalidCharacter | nonCanonicalTrailingBits
deriving DecidableEq, Repr

/-! ## Decoding -/

/-- `lookup[code]`, where −1 is no digit. -/
def Variant.lookup (variant : Variant) (code : Nat) : Option Nat := (variant.alphabet.map Char.toNat).idxOf? code

/-- The digits that are left, the 32 bits of the accumulator with the number of bits in it, and the bytes so far. -/
def decodeDigits (variant : Variant) (maxBytes : Nat) : List Nat → Nat → Nat → Bytes → Except DecodeError Bytes
  | [], buffer, bits, out =>
    if 0 < bits ∧ buffer &&& ((1 <<< bits) - 1) ≠ 0 then .error .nonCanonicalTrailingBits else .ok out
  | code :: input, buffer, bits, out =>
    match variant.lookup code with
    | none => .error .invalidCharacter
    | some val =>
      let buffer := ((buffer <<< 6) % 2 ^ 32) ||| val
      if 8 ≤ bits + 6 then
        let out := out ++ [UInt8.ofNat ((buffer >>> (bits + 6 - 8)) &&& 0xff)]
        if maxBytes < out.length then .error .tooLarge
        else decodeDigits variant maxBytes input buffer (bits + 6 - 8) out
      else decodeDigits variant maxBytes input buffer (bits + 6) out

/-- The 16-bit units of the input without the padding at its end. -/
def stripPadding (units : List Nat) : Except DecodeError (List Nat) :=
  let pad := (units.reverse.takeWhile (· = '='.toNat)).length
  if 2 < pad then .error .excessPadding else .ok (units.take (units.length - pad))

def base64ToBytes (input : String) (maxBytes : Nat) (variant : Variant) : Except DecodeError Bytes := do
  let units ← stripPadding (Utf8.codeUnits input.toList)
  if maxBytes < units.length * 3 / 4 then .error .tooLarge
  else if units.length % 4 = 1 then .error .invalidLength
  else decodeDigits variant maxBytes units 0 0 []

/-! ## Encoding -/

def Variant.padding (variant : Variant) (n : Nat) : List Char :=
  match variant with
  | .std => List.replicate n '='
  | .url => []

def base64Digits (variant : Variant) : Bytes → List Char
  | [] => []
  | [a] =>
    let n := a.toNat * 65536
    [digitChar variant.alphabet (n / 262144 % 64), digitChar variant.alphabet (n / 4096 % 64)] ++ variant.padding 2
  | [a, b] =>
    let n := a.toNat * 65536 + b.toNat * 256
    [digitChar variant.alphabet (n / 262144 % 64), digitChar variant.alphabet (n / 4096 % 64),
      digitChar variant.alphabet (n / 64 % 64)] ++ variant.padding 1
  | a :: b :: c :: rest =>
    let n := a.toNat * 65536 + b.toNat * 256 + c.toNat
    [digitChar variant.alphabet (n / 262144 % 64), digitChar variant.alphabet (n / 4096 % 64),
      digitChar variant.alphabet (n / 64 % 64), digitChar variant.alphabet (n % 64)] ++ base64Digits variant rest

def bytesToBase64 (bytes : Bytes) (variant : Variant) : String := String.ofList (base64Digits variant bytes)

example : base64ToBytes (bytesToBase64 [0, 255, 62, 63] .url) 4 .url = .ok [0, 255, 62, 63] := by decide +kernel

end PhygitalWallet.Secure
