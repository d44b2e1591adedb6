import PhygitalWallet.Lib.Codec
import PhygitalWallet.Lib.Utf8
import PhygitalWallet.Program.Types

/-!
# The wallet blob (`wallet-format.ts`)

- `encodeWalletBlob`, `decodeWalletBlob`: the binary format, with its checks;
- `decodes_walletBlob`: what the reader accepts, in one equivalence;
- `decodeWalletBlob_encode`, `encodeWalletBlob_decode`: the round trips;
- `buildAad`: the authenticated data of the ciphertext;
- `buildAad_inj`: it is that of one wallet, credential, salt and site.
-/

namespace PhygitalWallet.Secure

open ByteSeq ByteCodec

/-! ## Constants -/

/-- Magic prefix. ASCII "SSW1". -/
def blobMagic : Bytes := [0x53, 0x53, 0x57, 0x31]

def blobVersion : UInt8 := 1

/-- Max encoded wallet-blob size. -/
def maxBlobBytes : Nat := 1024

def maxCredentialIdBytes : Nat := 256
def ed25519PubkeyBytes : Nat := 32
def kdfSaltBytes : Nat := 32
def aesGcmIvBytes : Nat := 12

/-- Seed and GCM tag. -/
def expectedCiphertextBytes : Nat := 48

def hkdfInfoLabel : String := "secure-signer:wrap:v1"

/-! ## The format -/

inductive BlobError
  | truncated | u16Overflow | pubkey | salt | iv | ct | credentialId | tooShort | tooLarge | badMagic
  | unsupportedVersion | credentialIdLength | ciphertextLength | trailingBytes
deriving DecidableEq, Repr

structure WalletBlobFields where
  publicKey : Bytes
  credentialId : Bytes
  kdfSalt : Bytes
  iv : Bytes
  ciphertext : Bytes
deriving DecidableEq, Repr

structure ParsedWalletBlob extends WalletBlobFields where
  version : UInt8
deriving DecidableEq, Repr

/-- Big-endian. -/
def writeU16 (n : Nat) : Except BlobError Bytes :=
  if 0xffff < n then .error .u16Overflow else .ok (toLE 2 n).reverse

def encodeWalletBlob (f : WalletBlobFields) : Except BlobError Bytes :=
  if f.publicKey.length ≠ ed25519PubkeyBytes then .error .pubkey
  else if f.kdfSalt.length ≠ kdfSaltBytes then .error .salt
  else if f.iv.length ≠ aesGcmIvBytes then .error .iv
  else if f.ciphertext.length ≠ expectedCiphertextBytes then .error .ct
  else if f.credentialId.length < 1 ∨ maxCredentialIdBytes < f.credentialId.length then .error .credentialId
  else do
    let credentialIdLength ← writeU16 f.credentialId.length
    let ciphertextLength ← writeU16 f.ciphertext.length
    return blobMagic ++ [blobVersion] ++ f.publicKey ++ credentialIdLength ++ f.credentialId ++ f.kdfSalt ++ f.iv ++
      ciphertextLength ++ f.ciphertext

/-! ## The reader -/

def Reader.bytes (n : Nat) : Decoder BlobError Bytes := takeBytes .truncated n

def Reader.u8 : Decoder BlobError UInt8 := byte .truncated

/-- Big-endian. -/
def Reader.u16 : Decoder BlobError Nat := (fun bs => ofLE bs.reverse) <$> takeBytes .truncated 2

/-- The fields up to the end of the ciphertext. -/
def readWalletBlob : Decoder BlobError ParsedWalletBlob := do
  let magic ← Reader.bytes 4
  if magic = blobMagic then do
    let version ← Reader.u8
    if version = blobVersion then do
      let publicKey ← Reader.bytes ed25519PubkeyBytes
      let credLen ← Reader.u16
      if 1 ≤ credLen ∧ credLen ≤ maxCredentialIdBytes then do
        let credentialId ← Reader.bytes credLen
        let kdfSalt ← Reader.bytes kdfSaltBytes
        let iv ← Reader.bytes aesGcmIvBytes
        let ctLen ← Reader.u16
        if ctLen = expectedCiphertextBytes then do
          let ciphertext ← Reader.bytes ctLen
          return { publicKey, credentialId, kdfSalt, iv, ciphertext, version }
        else throw .ciphertextLength
      else throw .credentialIdLength
    else throw .unsupportedVersion
  else throw .badMagic

/-- Strict decode: every field is bounded. -/
def decodeWalletBlob (bytes : Bytes) : Except BlobError ParsedWalletBlob :=
  if bytes.length < 4 + 1 + 32 + 2 + 1 + 32 + 12 + 2 + expectedCiphertextBytes then .error .tooShort
  else if maxBlobBytes < bytes.length then .error .tooLarge
  else do
    let (parsed, rest) ← readWalletBlob ⟨bytes, 0⟩
    if rest.input ≠ [] then .error .trailingBytes else .ok parsed

/-! ## What is accepted -/

/-- `u16` of the reader, as a format. -/
def Format.u16 : Format Nat := ⟨fun n => (toLE 2 n).reverse, fun _ => 0, fun n => n < 65536⟩

theorem decodes_u16 : Decodes Reader.u16 Format.u16 := by
  refine ((decodes_takeBytes BlobError.truncated 2).map _ (fun n => (toLE 2 n).reverse) ?_).congr ?_ ?_
  · intro bs hbs
    have hlen : bs.reverse.length = 2 := by rw [List.length_reverse]; exact hbs
    rw [← hlen, toLE_ofLE, List.reverse_reverse]
  · intro n
    have hlen : (toLE 2 n).reverse.length = 2 := by rw [List.length_reverse, length_toLE]
    show (toLE 2 n).reverse.length = 2 ∧ ofLE (toLE 2 n).reverse.reverse = n ↔ n < 65536
    rw [List.reverse_reverse]
    constructor
    · rintro ⟨-, heq⟩
      have hlt := ofLE_lt (toLE 2 n)
      rw [heq, length_toLE] at hlt
      exact hlt
    · intro hn
      exact ⟨hlen, ofLE_toLE hn⟩
  · intro n _
    exact ⟨rfl, rfl⟩

/-- The bytes of a parsed blob, and which parsed blobs there are. -/
def Format.walletBlob : Format ParsedWalletBlob where
  encode p := blobMagic ++ [p.version] ++ p.publicKey ++ (toLE 2 p.credentialId.length).reverse ++ p.credentialId ++
    p.kdfSalt ++ p.iv ++ (toLE 2 p.ciphertext.length).reverse ++ p.ciphertext
  cost _ := 0
  valid p := p.version = blobVersion ∧ p.publicKey.length = ed25519PubkeyBytes ∧
    (1 ≤ p.credentialId.length ∧ p.credentialId.length ≤ maxCredentialIdBytes) ∧ p.kdfSalt.length = kdfSaltBytes ∧
    p.iv.length = aesGcmIvBytes ∧ p.ciphertext.length = expectedCiphertextBytes

theorem guard_eq_ok {α : Type} {P : Prop} [Decidable P] {d : Decoder BlobError α} {e : BlobError} {s : Cursor}
    {x : α × Cursor} : (if P then d else throw e) s = .ok x ↔ P ∧ d s = .ok x := by
  by_cases hP : P
  · simp [hP]
  · simp only [hP, if_false, false_and, iff_false]
    exact fun h => nomatch h

/-- **What the reader accepts.** -/
theorem decodes_walletBlob : Decodes readWalletBlob Format.walletBlob := by
  intro s p s'
  simp only [readWalletBlob, ByteCodec.bind_eq_ok, guard_eq_ok]
  constructor
  · rintro ⟨magic, s₁, h₁, hmagic, version, s₂, h₂, hversion, publicKey, s₃, h₃, credLen, s₄, h₄, hcred, credentialId, s₅,
      h₅, kdfSalt, s₆, h₆, iv, s₇, h₇, ctLen, s₈, h₈, hct, ciphertext, s₉, h₉, hp⟩
    obtain ⟨-, i₁, b₁⟩ := (decodes_takeBytes _ _ _ _ _).1 h₁
    obtain ⟨-, i₂, b₂⟩ := (decodes_byte _ _ _ _).1 h₂
    obtain ⟨l₃, i₃, b₃⟩ := (decodes_takeBytes _ _ _ _ _).1 h₃
    obtain ⟨-, i₄, b₄⟩ := (decodes_u16 _ _ _).1 h₄
    obtain ⟨l₅, i₅, b₅⟩ := (decodes_takeBytes _ _ _ _ _).1 h₅
    obtain ⟨l₆, i₆, b₆⟩ := (decodes_takeBytes _ _ _ _ _).1 h₆
    obtain ⟨l₇, i₇, b₇⟩ := (decodes_takeBytes _ _ _ _ _).1 h₇
    obtain ⟨-, i₈, b₈⟩ := (decodes_u16 _ _ _).1 h₈
    obtain ⟨l₉, i₉, b₉⟩ := (decodes_takeBytes _ _ _ _ _).1 h₉
    cases hp
    change credentialId.length = credLen at l₅
    change ciphertext.length = ctLen at l₉
    subst l₅ l₉
    refine ⟨⟨hversion, l₃, hcred, l₆, l₇, hct⟩, ?_, ?_⟩
    · rw [i₁, i₂, i₃, i₄, i₅, i₆, i₇, i₈, i₉, hmagic]
      simp [Format.walletBlob, Format.bytes, Format.byte, Format.u16]
    · rw [b₁, b₂, b₃, b₄, b₅, b₆, b₇, b₈, b₉]
      simp [Format.walletBlob, Format.bytes, Format.byte, Format.u16]
  · rintro ⟨⟨hversion, hkey, hcred, hsalt, hiv, hct⟩, hi, hb⟩
    obtain ⟨input, budget⟩ := s
    obtain ⟨rest, budget'⟩ := s'
    simp only [Format.walletBlob, Nat.zero_add, List.append_assoc] at hi hb
    subst hi hb
    have hsmall : p.credentialId.length < 65536 := by
      have hmax : maxCredentialIdBytes < 65536 := by decide
      omega
    have hsmall' : p.ciphertext.length < 65536 := by
      rw [hct]
      decide
    refine ⟨blobMagic, ⟨_, _⟩, (decodes_takeBytes _ _ _ _ _).2 ⟨rfl, rfl, (Nat.zero_add _).symm⟩, rfl,
      p.version, ⟨_, _⟩, (decodes_byte _ _ _ _).2 ⟨trivial, rfl, (Nat.zero_add _).symm⟩, hversion,
      p.publicKey, ⟨_, _⟩, (decodes_takeBytes _ _ _ _ _).2 ⟨hkey, rfl, (Nat.zero_add _).symm⟩,
      p.credentialId.length, ⟨_, _⟩, (decodes_u16 _ _ _).2 ⟨hsmall, rfl, (Nat.zero_add _).symm⟩, hcred,
      p.credentialId, ⟨_, _⟩, (decodes_takeBytes _ _ _ _ _).2 ⟨rfl, rfl, (Nat.zero_add _).symm⟩,
      p.kdfSalt, ⟨_, _⟩, (decodes_takeBytes _ _ _ _ _).2 ⟨hsalt, rfl, (Nat.zero_add _).symm⟩,
      p.iv, ⟨_, _⟩, (decodes_takeBytes _ _ _ _ _).2 ⟨hiv, rfl, (Nat.zero_add _).symm⟩,
      p.ciphertext.length, ⟨_, _⟩, (decodes_u16 _ _ _).2 ⟨hsmall', rfl, (Nat.zero_add _).symm⟩, hct,
      p.ciphertext, ⟨rest, budget⟩, (decodes_takeBytes _ _ _ _ _).2 ⟨rfl, rfl, (Nat.zero_add _).symm⟩, rfl⟩

theorem writeU16_of_lt {n : Nat} (h : n < 65536) : writeU16 n = .ok (toLE 2 n).reverse := if_neg (by omega)

theorem writeU16_of_not_lt {n : Nat} (h : ¬n < 65536) : writeU16 n = .error .u16Overflow := if_pos (by omega)

/-- What the encoder writes: a valid blob with its bytes. -/
theorem encodeWalletBlob_ok {f : WalletBlobFields} {bytes : Bytes} (h : encodeWalletBlob f = .ok bytes) :
    Format.walletBlob.valid ⟨f, blobVersion⟩ ∧ bytes = Format.walletBlob.encode ⟨f, blobVersion⟩ := by
  have hmax : maxCredentialIdBytes < 65536 := by decide
  unfold encodeWalletBlob at h
  split at h
  · cases h
  next hkey =>
  split at h
  · cases h
  next hsalt =>
  split at h
  · cases h
  next hiv =>
  split at h
  · cases h
  next hct =>
  split at h
  · cases h
  next hcred =>
  rw [not_or, not_lt, not_lt] at hcred
  rw [not_not] at hkey hsalt hiv hct
  have hct' : f.ciphertext.length < 65536 := hct ▸ (by decide)
  rw [writeU16_of_lt (by omega), writeU16_of_lt hct'] at h
  cases h
  exact ⟨⟨rfl, hkey, hcred, hsalt, hiv, hct⟩, rfl⟩

/-- The checks of the encoder are those of the format. -/
theorem encodeWalletBlob_eq_ok {f : WalletBlobFields} {bytes : Bytes} : encodeWalletBlob f = .ok bytes ↔
    Format.walletBlob.valid ⟨f, blobVersion⟩ ∧ bytes = Format.walletBlob.encode ⟨f, blobVersion⟩ := by
  refine ⟨encodeWalletBlob_ok, ?_⟩
  rintro ⟨⟨-, hkey, hcred, hsalt, hiv, hct⟩, rfl⟩
  have hmax : maxCredentialIdBytes < 65536 := by decide
  have hct' : f.ciphertext.length < 65536 := hct ▸ (by decide)
  have hcred' : ¬(f.credentialId.length < 1 ∨ maxCredentialIdBytes < f.credentialId.length) := by
    rw [not_or, not_lt, not_lt]
    exact hcred
  unfold encodeWalletBlob
  rw [if_neg (not_not.2 hkey), if_neg (not_not.2 hsalt), if_neg (not_not.2 hiv), if_neg (not_not.2 hct), if_neg hcred',
    writeU16_of_lt (Nat.lt_of_le_of_lt hcred.2 hmax), writeU16_of_lt hct']
  rfl

theorem length_walletBlob {p : ParsedWalletBlob} (h : Format.walletBlob.valid p) :
    (Format.walletBlob.encode p).length = 133 + p.credentialId.length := by
  obtain ⟨-, hkey, -, hsalt, hiv, hct⟩ := h
  simp only [Format.walletBlob, List.length_append, List.length_reverse, length_toLE, List.length_singleton]
  simp only [hkey, hsalt, hiv, hct]
  show 4 + 1 + 32 + 2 + _ + 32 + 12 + 2 + 48 = _
  omega

/-- **What the decoder accepts**: the whole string is the encoding of a valid blob. -/
theorem decodeWalletBlob_eq_ok {bytes : Bytes} {p : ParsedWalletBlob} : decodeWalletBlob bytes = .ok p ↔
    Format.walletBlob.valid p ∧ bytes = Format.walletBlob.encode p := by
  constructor
  · intro h
    unfold decodeWalletBlob at h
    split at h
    · cases h
    split at h
    · cases h
    cases hread : readWalletBlob ⟨bytes, 0⟩ with
    | error e =>
      rw [hread] at h
      cases h
    | ok r =>
      obtain ⟨parsed, rest⟩ := r
      rw [hread] at h
      change (if rest.input ≠ [] then Except.error BlobError.trailingBytes else .ok parsed) = .ok p at h
      split at h
      · cases h
      next hrest =>
      cases h
      obtain ⟨hvalid, hinput, -⟩ := (decodes_walletBlob _ _ _).1 hread
      rw [not_not] at hrest
      rw [hrest, List.append_nil] at hinput
      exact ⟨hvalid, hinput⟩
  · rintro ⟨hvalid, rfl⟩
    have hlen := length_walletBlob hvalid
    have hcred : 1 ≤ p.credentialId.length ∧ p.credentialId.length ≤ 256 := hvalid.2.2.1
    have hread := (decodes_walletBlob ⟨_, 0⟩ p ⟨[], 0⟩).2 ⟨hvalid, (List.append_nil _).symm, rfl⟩
    unfold decodeWalletBlob
    rw [hlen, if_neg (by show ¬_ < 134; omega), if_neg (by show ¬1024 < _; omega), hread]
    rfl

/-- **What was encoded is decoded.** -/
theorem decodeWalletBlob_encode {f : WalletBlobFields} {bytes : Bytes} (h : encodeWalletBlob f = .ok bytes) :
    decodeWalletBlob bytes = .ok ⟨f, blobVersion⟩ :=
  decodeWalletBlob_eq_ok.2 (encodeWalletBlob_eq_ok.1 h)

/-- What is decoded is encoded to the same bytes. -/
theorem encodeWalletBlob_decode {bytes : Bytes} {p : ParsedWalletBlob} (h : decodeWalletBlob bytes = .ok p) :
    encodeWalletBlob p.toWalletBlobFields = .ok bytes := by
  obtain ⟨hvalid, rfl⟩ := decodeWalletBlob_eq_ok.1 h
  obtain ⟨f, version⟩ := p
  obtain rfl : version = blobVersion := hvalid.1
  exact encodeWalletBlob_eq_ok.2 ⟨hvalid, rfl⟩

/-! ## The authenticated data -/

/-- The authenticated data binds the cleartext fields, the site and the purpose of the key. -/
def buildAad (header : ParsedWalletBlob) (rpId : String) : Except BlobError Bytes := do
  let rp := Utf8.utf8Bytes rpId
  let info := Utf8.utf8Bytes hkdfInfoLabel
  let credentialIdLength ← writeU16 header.credentialId.length
  let rpLength ← writeU16 rp.length
  let infoLength ← writeU16 info.length
  return blobMagic ++ [blobVersion] ++ header.publicKey ++ credentialIdLength ++ header.credentialId ++
    header.kdfSalt ++ rpLength ++ rp ++ infoLength ++ info

/-- A field after its length ends where its length says. -/
theorem lengthPrefixed_inj {a b rest rest' : Bytes} (ha : a.length < 65536) (hb : b.length < 65536)
    (h : (toLE 2 a.length).reverse ++ (a ++ rest) = (toLE 2 b.length).reverse ++ (b ++ rest')) :
    a = b ∧ rest = rest' := by
  obtain ⟨hsize, hrest⟩ := List.append_inj h (by simp only [List.length_reverse, length_toLE])
  exact List.append_inj hrest (toLE_inj ha hb (List.reverse_inj.1 hsize))

/-- The bytes of the authenticated data. -/
def aadBytes (publicKey credentialId kdfSalt rp : Bytes) : Bytes :=
  blobMagic ++ [blobVersion] ++ publicKey ++ (toLE 2 credentialId.length).reverse ++ credentialId ++ kdfSalt ++
    (toLE 2 rp.length).reverse ++ rp ++ (toLE 2 (Utf8.utf8Bytes hkdfInfoLabel).length).reverse ++
    Utf8.utf8Bytes hkdfInfoLabel

theorem buildAad_eq_ok {header : ParsedWalletBlob} {rpId : String} {aad : Bytes} : buildAad header rpId = .ok aad ↔
    header.credentialId.length < 65536 ∧ (Utf8.utf8Bytes rpId).length < 65536 ∧
      aad = aadBytes header.publicKey header.credentialId header.kdfSalt (Utf8.utf8Bytes rpId) := by
  have hinfo : (Utf8.utf8Bytes hkdfInfoLabel).length < 65536 := by decide +kernel
  unfold buildAad
  simp only [writeU16_of_lt hinfo]
  by_cases hcred : header.credentialId.length < 65536
  · by_cases hrp : (Utf8.utf8Bytes rpId).length < 65536
    · rw [writeU16_of_lt hcred, writeU16_of_lt hrp, ← and_assoc, and_iff_right ⟨hcred, hrp⟩, eq_comm (a := aad)]
      exact (Except.ok.injEq _ _).to_iff
    · rw [writeU16_of_lt hcred, writeU16_of_not_lt hrp]
      simp only [hrp, false_and, and_false, iff_false]
      exact fun h => nomatch h
  · rw [writeU16_of_not_lt hcred]
    simp only [hcred, false_and, iff_false]
    exact fun h => nomatch h

/-- The lengths keep every field in its place. -/
theorem aadBytes_inj {publicKey publicKey' credentialId credentialId' kdfSalt kdfSalt' rp rp' : Bytes}
    (hkey : publicKey.length = publicKey'.length) (hcred : credentialId.length < 65536)
    (hcred' : credentialId'.length < 65536) (hsalt : kdfSalt.length = kdfSalt'.length) (hrp : rp.length < 65536)
    (hrp' : rp'.length < 65536)
    (h : aadBytes publicKey credentialId kdfSalt rp = aadBytes publicKey' credentialId' kdfSalt' rp') :
    publicKey = publicKey' ∧ credentialId = credentialId' ∧ kdfSalt = kdfSalt' ∧ rp = rp' := by
  simp only [aadBytes, List.append_assoc] at h
  obtain ⟨-, hversion⟩ := List.append_inj h rfl
  obtain ⟨-, hfields⟩ := List.append_inj hversion rfl
  obtain ⟨hpk, hsized⟩ := List.append_inj hfields hkey
  obtain ⟨hid, hsalted⟩ := lengthPrefixed_inj hcred hcred' hsized
  obtain ⟨hs, hsite⟩ := List.append_inj hsalted hsalt
  obtain ⟨hrpId, -⟩ := lengthPrefixed_inj hrp hrp' hsite
  exact ⟨hpk, hid, hs, hrpId⟩

section Binding

variable {header header' : ParsedWalletBlob} {rpId rpId' : String} {aad aad' : Bytes}

/-- **The authenticated data is that of one wallet, credential, salt and site.** So a ciphertext that opens only under
the data it was sealed with does not open under the data of another. -/
theorem buildAad_inj (hkey : header.publicKey.length = ed25519PubkeyBytes)
    (hkey' : header'.publicKey.length = ed25519PubkeyBytes) (hsalt : header.kdfSalt.length = kdfSaltBytes)
    (hsalt' : header'.kdfSalt.length = kdfSaltBytes) (hok : buildAad header rpId = .ok aad)
    (hok' : buildAad header' rpId' = .ok aad') :
    (aad = aad' ↔ header.publicKey = header'.publicKey ∧ header.credentialId = header'.credentialId ∧
      header.kdfSalt = header'.kdfSalt ∧ rpId = rpId') ∧
    ∀ opens : Bytes → Prop, (∀ data, opens data → data = aad) → opens aad' →
      header.publicKey = header'.publicKey ∧ header.credentialId = header'.credentialId ∧
        header.kdfSalt = header'.kdfSalt ∧ rpId = rpId' := by
  obtain ⟨hcred, hrp, rfl⟩ := buildAad_eq_ok.1 hok
  obtain ⟨hcred', hrp', rfl⟩ := buildAad_eq_ok.1 hok'
  have hinj := aadBytes_inj (hkey.trans hkey'.symm) hcred hcred' (hsalt.trans hsalt'.symm) hrp hrp'
  rw [Utf8.utf8Bytes_inj] at hinj
  refine ⟨⟨hinj, ?_⟩, fun opens hopens hopened => hinj (hopens _ hopened).symm⟩
  rintro ⟨hpk, hid, hs, rfl⟩
  rw [hpk, hid, hs]

end Binding

/-- The two headers lay the same bytes down, were it not for the length: the second credential id has taken the first
byte of the salt. -/
def slidHeader (credentialId : Bytes) (kdfSalt : Bytes) : ParsedWalletBlob :=
  ⟨⟨List.replicate 32 9, credentialId, kdfSalt, [], []⟩, blobVersion⟩

theorem buildAad_inj_slid : ∃ aad aad', buildAad (slidHeader [1] (2 :: List.replicate 31 3)) "revibase.com" = .ok aad ∧
    buildAad (slidHeader [1, 2] (List.replicate 32 3)) "revibase.com" = .ok aad' ∧ aad ≠ aad' := by
  have hrp : (Utf8.utf8Bytes "revibase.com").length < 65536 := by decide +kernel
  have hok : buildAad (slidHeader [1] (2 :: List.replicate 31 3)) "revibase.com" = .ok _ :=
    buildAad_eq_ok.2 ⟨by decide, hrp, rfl⟩
  have hok' : buildAad (slidHeader [1, 2] (List.replicate 32 3)) "revibase.com" = .ok _ :=
    buildAad_eq_ok.2 ⟨by decide, hrp, rfl⟩
  refine ⟨_, _, hok, hok', fun h => ?_⟩
  obtain ⟨-, hid, -⟩ := (buildAad_inj rfl rfl rfl rfl hok hok').1.1 h
  exact absurd hid (by decide)

end PhygitalWallet.Secure
