import PhygitalWallet.Lib.Bytes

/-!
# SHA-256

The hash function, so that runs on fixed inputs can be evaluated. The words of a block slide through a window of sixteen:
every round uses the first and appends the word that the schedule makes of the window.

- `digest`, `length_digest`; `hmac`, the tag that uses it.
-/

namespace Sha256

open ByteSeq (Bytes toLE)

/-- The round constants. -/
def roundConstants : List UInt32 := [
  0x428a2f98, 0x71374491, 0xb5c0fbcf, 0xe9b5dba5, 0x3956c25b, 0x59f111f1, 0x923f82a4, 0xab1c5ed5,
  0xd807aa98, 0x12835b01, 0x243185be, 0x550c7dc3, 0x72be5d74, 0x80deb1fe, 0x9bdc06a7, 0xc19bf174,
  0xe49b69c1, 0xefbe4786, 0x0fc19dc6, 0x240ca1cc, 0x2de92c6f, 0x4a7484aa, 0x5cb0a9dc, 0x76f988da,
  0x983e5152, 0xa831c66d, 0xb00327c8, 0xbf597fc7, 0xc6e00bf3, 0xd5a79147, 0x06ca6351, 0x14292967,
  0x27b70a85, 0x2e1b2138, 0x4d2c6dfc, 0x53380d13, 0x650a7354, 0x766a0abb, 0x81c2c92e, 0x92722c85,
  0xa2bfe8a1, 0xa81a664b, 0xc24b8b70, 0xc76c51a3, 0xd192e819, 0xd6990624, 0xf40e3585, 0x106aa070,
  0x19a4c116, 0x1e376c08, 0x2748774c, 0x34b0bcb5, 0x391c0cb3, 0x4ed8aa4a, 0x5b9cca4f, 0x682e6ff3,
  0x748f82ee, 0x78a5636f, 0x84c87814, 0x8cc70208, 0x90befffa, 0xa4506ceb, 0xbef9a3f7, 0xc67178f2]

/-- The working variables. -/
structure State where
  a : UInt32
  b : UInt32
  c : UInt32
  d : UInt32
  e : UInt32
  f : UInt32
  g : UInt32
  h : UInt32

def State.initial : State :=
  ⟨0x6a09e667, 0xbb67ae85, 0x3c6ef372, 0xa54ff53a, 0x510e527f, 0x9b05688c, 0x1f83d9ab, 0x5be0cd19⟩

def State.add (s t : State) : State :=
  ⟨s.a + t.a, s.b + t.b, s.c + t.c, s.d + t.d, s.e + t.e, s.f + t.f, s.g + t.g, s.h + t.h⟩

def rotr (x n : UInt32) : UInt32 := (x >>> n) ||| (x <<< (32 - n))

/-- One round, with its constant and its word. -/
def State.round (s : State) (k w : UInt32) : State :=
  let t₁ := s.h + (rotr s.e 6 ^^^ rotr s.e 11 ^^^ rotr s.e 25) + ((s.e &&& s.f) ^^^ (~~~s.e &&& s.g)) + k + w
  let t₂ := (rotr s.a 2 ^^^ rotr s.a 13 ^^^ rotr s.a 22) + ((s.a &&& s.b) ^^^ (s.a &&& s.c) ^^^ (s.b &&& s.c))
  ⟨t₁ + t₂, s.a, s.b, s.c, s.d + t₁, s.e, s.f, s.g⟩

/-- The word after a window. -/
def nextWord (w₀ w₁ w₉ w₁₄ : UInt32) : UInt32 :=
  w₀ + (rotr w₁ 7 ^^^ rotr w₁ 18 ^^^ (w₁ >>> 3)) + w₉ + (rotr w₁₄ 17 ^^^ rotr w₁₄ 19 ^^^ (w₁₄ >>> 10))

/-- The rounds of a block, over the window of its words. -/
def rounds : List UInt32 → List UInt32 → State → State
  | k :: ks, w₀ :: w₁ :: rest, s =>
    rounds ks (w₁ :: rest ++ [nextWord w₀ w₁ (rest.getD 7 0) (rest.getD 12 0)]) (s.round k w₀)
  | _, _, s => s

/-- The blocks of a message. -/
def blocks : Nat → List UInt32 → State → State
  | 0, _, s => s
  | n + 1, words, s => blocks n (words.drop 16) (s.add (rounds roundConstants (words.take 16) s))

/-- Big-endian words. -/
def wordsOf : Bytes → List UInt32
  | a :: b :: c :: d :: rest =>
    ((a.toUInt32 <<< 24) ||| (b.toUInt32 <<< 16) ||| (c.toUInt32 <<< 8) ||| d.toUInt32) :: wordsOf rest
  | _ => []

def bytesOf (x : UInt32) : Bytes := [(x >>> 24).toUInt8, (x >>> 16).toUInt8, (x >>> 8).toUInt8, x.toUInt8]

/-- A one bit, zeros, and the number of bits. -/
def pad (bs : Bytes) : Bytes :=
  bs ++ [0x80] ++ List.replicate ((119 - bs.length % 64) % 64) 0 ++ (toLE 8 (8 * bs.length)).reverse

def digest (bs : Bytes) : Bytes :=
  let padded := pad bs
  let s := blocks (padded.length / 64) (wordsOf padded) .initial
  bytesOf s.a ++ bytesOf s.b ++ bytesOf s.c ++ bytesOf s.d ++ bytesOf s.e ++ bytesOf s.f ++ bytesOf s.g ++ bytesOf s.h

theorem length_digest (bs : Bytes) : (digest bs).length = 32 := rfl

/-- The digest of `abc`. -/
example : digest [97, 98, 99] =
    [186, 120, 22, 191, 143, 1, 207, 234, 65, 65, 64, 222, 93, 174, 34, 35,
      176, 3, 97, 163, 150, 23, 122, 156, 180, 16, 255, 97, 242, 0, 21, 173] := by decide +kernel

/-! ## Tags -/

/-- HMAC with this digest. -/
def hmac (key message : Bytes) : Bytes :=
  let key := if 64 < key.length then digest key else key
  let block := key ++ List.replicate (64 - key.length) 0
  digest (block.map (· ^^^ 0x5c) ++ digest (block.map (· ^^^ 0x36) ++ message))

theorem length_hmac (key message : Bytes) : (hmac key message).length = 32 := length_digest _

/-- The tag of `data` under `key`. -/
example : (hmac [107, 101, 121] [100, 97, 116, 97]).take 4 = [0x50, 0x31, 0xfe, 0x3d] := by decide +kernel

end Sha256
