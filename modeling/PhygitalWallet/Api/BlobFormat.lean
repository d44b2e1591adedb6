import Mathlib.Data.List.Basic
import Mathlib.Data.List.GetD
import PhygitalWallet.Secure.WalletFormat

/-!
# The header of a backed-up wallet blob (`owner-wallet/blob-format.ts`)

- `parseOwnerBlobHeader`: the reader of the API worker, at fixed offsets;
- `parseOwnerBlobHeader_eq_ok`: what it accepts, in terms of the format of the secure signer;
- `wallet_blob_codec`: the encoder and the two readers agree.
-/

namespace PhygitalWallet.Api

open ByteSeq ByteCodec
open PhygitalWallet.Secure (ParsedWalletBlob WalletBlobFields Format.walletBlob encodeWalletBlob decodeWalletBlob blobMagic
  blobVersion encodeWalletBlob_eq_ok decodeWalletBlob_eq_ok encodeWalletBlob_decode length_walletBlob)

/-! ## The reader -/

def maxOwnerBlobBytes : Nat := 1024

def maxCredentialIdBytes : Nat := 256

/-- `EXPECTED_CT`. -/
def expectedCt : Nat := 48

/-- `MAGIC`. -/
def magic : Bytes := [0x53, 0x53, 0x57, 0x31]

inductive OwnerBlobParseError
  | empty | badBase64 | tooLarge | size | magic | version | credLen | truncated | ciphertext
deriving DecidableEq, Repr

structure OwnerBlobHeader where
  version : UInt8
  publicKey : Bytes
  credentialId : Bytes
  raw : Bytes
deriving DecidableEq, Repr

/-- Big-endian; a byte past the end counts as 0. -/
def u16 (b : Bytes) (o : Nat) : Nat := ((b.getD o 0).toNat <<< 8) ||| (b.getD (o + 1) 0).toNat

def parseOwnerBlobHeader (raw : Bytes) : Except OwnerBlobParseError OwnerBlobHeader :=
  if raw.length < 4 + 1 + 32 + 2 + 1 + 32 + 12 + 2 + expectedCt ∨ maxOwnerBlobBytes < raw.length then .error .size
  else if raw.take 4 ≠ magic then .error .magic
  else
    let version := raw.getD 4 0
    if version ≠ 1 then .error .version
    else
      let publicKey := slice raw 5 37
      let credLen := u16 raw 37
      if credLen < 1 ∨ maxCredentialIdBytes < credLen then .error .credLen
      else
        let credentialId := slice raw 39 (39 + credLen)
        -- the salt and the nonce are skipped
        let o := 39 + credLen + 32 + 12
        if raw.length < o + 2 then .error .truncated
        else
          let ctLen := u16 raw o
          if ctLen ≠ expectedCt ∨ o + 2 + ctLen ≠ raw.length then .error .ciphertext
          else .ok { version, publicKey, credentialId, raw }

/-! ## Two bytes as a number -/

theorem u16_cons {pre post : Bytes} {o : Nat} (a b : UInt8) (ho : pre.length = o) :
    u16 (pre ++ a :: b :: post) o = ofLE [b, a] := by
  subst ho
  have hor := Nat.shiftLeft_add_eq_or_of_lt (a := a.toNat) (i := 8) (b := b.toNat) b.toNat_lt
  have ha : (pre ++ a :: b :: post).getD pre.length 0 = a := by simp [List.getD]
  have hb : (pre ++ a :: b :: post).getD (pre.length + 1) 0 = b := by simp [List.getD]
  rw [u16, ha, hb, ← hor, Nat.shiftLeft_eq]
  simp only [ofLE]
  omega

/-- A length is read where it was written. -/
theorem u16_eq {n o : Nat} (pre post : Bytes) (hn : n < 65536) (ho : pre.length = o) :
    u16 (pre ++ (toLE 2 n).reverse ++ post) o = n := by
  have hread := ofLE_toLE (w := 2) hn
  rw [List.append_assoc]
  exact (u16_cons _ _ ho).trans hread

/-- The two bytes of a length are those of the number read from them. -/
theorem slice_u16 {bs : Bytes} {o : Nat} (h : o + 2 ≤ bs.length) : slice bs o (o + 2) = (toLE 2 (u16 bs o)).reverse := by
  have hlen : (slice bs o (o + 2)).length = 2 := by rw [length_slice h, Nat.add_sub_cancel_left]
  have hcut : bs = _ := eq_slice (Nat.le_add_right o 2)
  obtain ⟨a, b, hab⟩ := List.length_eq_two.1 hlen
  have ho : (bs.take o).length = o := by
    rw [List.length_take]
    omega
  have hread : u16 bs o = ofLE [b, a] := by
    rw [hab, List.append_assoc] at hcut
    rw [hcut]
    exact u16_cons a b ho
  have hback := toLE_ofLE [b, a]
  rw [hread, hab]
  change toLE 2 (ofLE [b, a]) = [b, a] at hback
  rw [hback]
  rfl

theorem getD_slice {bs : Bytes} {o : Nat} (h : o < bs.length) : slice bs o (o + 1) = [bs.getD o 0] := by
  rw [slice, Nat.add_sub_cancel_left, List.drop_eq_getElem_cons h, List.getD_eq_getElem _ _ h]
  rfl

/-! ## What is accepted -/

/-- The blob that the header was cut from. -/
def fieldsOf (raw : Bytes) : ParsedWalletBlob :=
  let o := 39 + u16 raw 37
  { version := raw.getD 4 0, publicKey := slice raw 5 37, credentialId := slice raw 39 o,
    kdfSalt := slice raw o (o + 32), iv := slice raw (o + 32) (o + 44), ciphertext := slice raw (o + 46) (o + 94) }

/-- The header of a blob. -/
def headerOf (p : ParsedWalletBlob) : OwnerBlobHeader :=
  ⟨p.version, p.publicKey, p.credentialId, Format.walletBlob.encode p⟩

/-- What the reader has checked. -/
structure Checked (raw : Bytes) : Prop where
  magic_eq : raw.take 4 = magic
  version_eq : raw.getD 4 0 = 1
  credentialId : 1 ≤ u16 raw 37 ∧ u16 raw 37 ≤ 256
  ctLen : u16 raw (39 + u16 raw 37 + 44) = 48
  length_eq : raw.length = 39 + u16 raw 37 + 94

theorem parseOwnerBlobHeader_checked {raw : Bytes} {header : OwnerBlobHeader} (h : parseOwnerBlobHeader raw = .ok header) :
    Checked raw ∧ header = ⟨raw.getD 4 0, slice raw 5 37, slice raw 39 (39 + u16 raw 37), raw⟩ := by
  unfold parseOwnerBlobHeader at h
  simp only [ne_eq, ite_not] at h
  split at h
  · cases h
  split at h
  swap
  · cases h
  next hmagic =>
  split at h
  swap
  · cases h
  next hversion =>
  split at h
  · cases h
  next hcred =>
  split at h
  · cases h
  split at h
  · cases h
  next hct =>
  cases h
  rw [not_or, not_lt, not_lt] at hcred
  rw [not_or, not_not, not_not] at hct
  obtain ⟨hct, hend⟩ := hct
  change u16 raw (39 + u16 raw 37 + 44) = 48 at hct
  change 39 + u16 raw 37 + 32 + 12 + 2 + u16 raw (39 + u16 raw 37 + 44) = raw.length at hend
  exact ⟨⟨hmagic, hversion, hcred, hct, by omega⟩, rfl⟩

/-- The cuts of the reader are the fields of the format. -/
theorem Checked.encode_eq {raw : Bytes} (h : Checked raw) : raw = Format.walletBlob.encode (fieldsOf raw) := by
  have hlen := h.length_eq
  have hct := h.ctLen
  have hwhole : raw = raw.take (39 + u16 raw 37 + 94) := by rw [← hlen, List.take_length]
  have hid : (slice raw 39 (39 + u16 raw 37)).length = u16 raw 37 := by
    rw [length_slice (by omega), Nat.add_sub_cancel_left]
  have htext : (slice raw (39 + u16 raw 37 + 46) (39 + u16 raw 37 + 94)).length = u16 raw (39 + u16 raw 37 + 44) := by
    rw [length_slice (by omega)]
    omega
  have hcredBytes : slice raw 37 (37 + 2) = _ := slice_u16 (by omega)
  have hctBytes : slice raw (39 + u16 raw 37 + 44) (39 + u16 raw 37 + 44 + 2) = _ := slice_u16 (by omega)
  show raw = blobMagic ++ [raw.getD 4 0] ++ slice raw 5 37 ++
    (toLE 2 (slice raw 39 (39 + u16 raw 37)).length).reverse ++ slice raw 39 (39 + u16 raw 37) ++
    slice raw (39 + u16 raw 37) (39 + u16 raw 37 + 32) ++ slice raw (39 + u16 raw 37 + 32) (39 + u16 raw 37 + 44) ++
    (toLE 2 (slice raw (39 + u16 raw 37 + 46) (39 + u16 raw 37 + 94)).length).reverse ++
    slice raw (39 + u16 raw 37 + 46) (39 + u16 raw 37 + 94)
  rw [hid, htext, ← hcredBytes, ← hctBytes, ← getD_slice (by omega)]
  conv_lhs => rw [hwhole]
  rw [take_eq_slice (a := 39 + u16 raw 37 + 46) (by omega), take_eq_slice (a := 39 + u16 raw 37 + 44) (by omega),
    take_eq_slice (a := 39 + u16 raw 37 + 32) (by omega), take_eq_slice (a := 39 + u16 raw 37) (by omega),
    take_eq_slice (a := 39) (by omega), take_eq_slice (a := 37) (by omega), take_eq_slice (a := 5) (by omega),
    take_eq_slice (a := 4) (b := 5) (by omega), h.magic_eq]
  rfl

/-- The fields have the lengths of the format. -/
theorem Checked.valid {raw : Bytes} (h : Checked raw) : Format.walletBlob.valid (fieldsOf raw) := by
  have hlen := h.length_eq
  obtain ⟨hmin, hmax⟩ := h.credentialId
  refine ⟨h.version_eq, ?_, ⟨?_, ?_⟩, ?_, ?_, ?_⟩
  · exact length_slice (by omega)
  · show 1 ≤ (slice raw 39 (39 + u16 raw 37)).length
    rw [length_slice (by omega)]
    omega
  · show (slice raw 39 (39 + u16 raw 37)).length ≤ 256
    rw [length_slice (by omega)]
    omega
  · show (slice raw _ (_ + 32)).length = 32
    rw [length_slice (by omega), Nat.add_sub_cancel_left]
  · show (slice raw (_ + 32) (_ + 44)).length = 12
    rw [length_slice (by omega)]
    omega
  · show (slice raw (_ + 46) (_ + 94)).length = 48
    rw [length_slice (by omega)]
    omega

/-- A string that passes the checks is the encoding of its fields. -/
theorem parseOwnerBlobHeader_ok {raw : Bytes} {header : OwnerBlobHeader} (h : parseOwnerBlobHeader raw = .ok header) :
    Format.walletBlob.valid (fieldsOf raw) ∧ raw = Format.walletBlob.encode (fieldsOf raw) ∧
      header = headerOf (fieldsOf raw) := by
  obtain ⟨hchecked, rfl⟩ := parseOwnerBlobHeader_checked h
  refine ⟨hchecked.valid, hchecked.encode_eq, ?_⟩
  rw [headerOf, ← hchecked.encode_eq]
  rfl

/-- The encoding of a valid blob passes the checks. -/
theorem parseOwnerBlobHeader_encode {p : ParsedWalletBlob} (hvalid : Format.walletBlob.valid p) :
    parseOwnerBlobHeader (Format.walletBlob.encode p) = .ok (headerOf p) := by
  have hlen := length_walletBlob hvalid
  obtain ⟨hversion, hkey, hcred, hsalt, hiv, hct⟩ := hvalid
  change p.publicKey.length = 32 at hkey
  change 1 ≤ p.credentialId.length ∧ p.credentialId.length ≤ 256 at hcred
  change p.kdfSalt.length = 32 at hsalt
  change p.iv.length = 12 at hiv
  change p.ciphertext.length = 48 at hct
  set raw := Format.walletBlob.encode p with hraw
  simp only [Format.walletBlob, List.append_assoc] at hraw
  have hmagic : raw.take 4 = magic := by
    rw [hraw]
    rfl
  have hbyte : raw.getD 4 0 = p.version := by
    rw [hraw]
    rfl
  have hpk : slice raw 5 37 = p.publicKey := by
    refine slice_eq (blobMagic ++ [p.version]) ((toLE 2 p.credentialId.length).reverse ++ (p.credentialId ++
      (p.kdfSalt ++ (p.iv ++ ((toLE 2 p.ciphertext.length).reverse ++ p.ciphertext))))) ?_ rfl (by omega)
    rw [hraw]
    simp only [List.append_assoc]
  have hcredLen : u16 raw 37 = p.credentialId.length := by
    have hpre : (blobMagic ++ ([p.version] ++ p.publicKey)).length = 37 := by
      simp only [List.length_append, hkey]
      rfl
    have hu := u16_eq (blobMagic ++ ([p.version] ++ p.publicKey)) (p.credentialId ++ (p.kdfSalt ++ (p.iv ++
      ((toLE 2 p.ciphertext.length).reverse ++ p.ciphertext)))) (show p.credentialId.length < 65536 by omega) hpre
    rw [← hu, hraw]
    simp only [List.append_assoc]
  have hid : slice raw 39 (39 + p.credentialId.length) = p.credentialId := by
    refine slice_eq (blobMagic ++ ([p.version] ++ (p.publicKey ++ (toLE 2 p.credentialId.length).reverse)))
      (p.kdfSalt ++ (p.iv ++ ((toLE 2 p.ciphertext.length).reverse ++ p.ciphertext))) ?_ ?_ rfl
    · rw [hraw]
      simp only [List.append_assoc]
    · simp only [List.length_append, hkey, List.length_reverse, length_toLE]
      rfl
  have hctLen : u16 raw (39 + p.credentialId.length + 32 + 12) = 48 := by
    have hpre : (blobMagic ++ ([p.version] ++ (p.publicKey ++ ((toLE 2 p.credentialId.length).reverse ++ (p.credentialId ++
        (p.kdfSalt ++ p.iv)))))).length = 39 + p.credentialId.length + 32 + 12 := by
      simp only [List.length_append, hkey, hsalt, hiv, List.length_reverse, length_toLE]
      show 4 + (1 + (32 + (2 + (_ + (32 + 12))))) = _
      omega
    have hu := u16_eq _ p.ciphertext (show p.ciphertext.length < 65536 by omega) hpre
    rw [← hct, ← hu, hraw]
    simp only [List.append_assoc]
  unfold parseOwnerBlobHeader
  simp only [hcredLen, hctLen, hbyte, hpk, hid]
  have hcap : maxCredentialIdBytes = 256 := rfl
  have hexp : expectedCt = 48 := rfl
  have hmax : maxOwnerBlobBytes = 1024 := rfl
  rw [if_neg (by omega), if_neg (not_not.2 hmagic), if_neg (not_not.2 (show p.version = 1 from hversion)),
    if_neg (by omega), if_neg (by omega), if_neg (by omega)]
  rfl

/-- **What the reader accepts.** -/
theorem parseOwnerBlobHeader_eq_ok {raw : Bytes} {header : OwnerBlobHeader} : parseOwnerBlobHeader raw = .ok header ↔
    ∃ p, Format.walletBlob.valid p ∧ raw = Format.walletBlob.encode p ∧ header = headerOf p := by
  constructor
  · intro h
    exact ⟨fieldsOf raw, parseOwnerBlobHeader_ok h⟩
  · rintro ⟨p, hvalid, rfl, rfl⟩
    exact parseOwnerBlobHeader_encode hvalid

/-- The two readers accept the same strings, with the same key and credential. -/
theorem parsers_agree (raw : Bytes) :
    (parseOwnerBlobHeader raw).toOption.map (fun header => (header.publicKey, header.credentialId)) =
      (decodeWalletBlob raw).toOption.map (fun p => (p.publicKey, p.credentialId)) := by
  cases hd : decodeWalletBlob raw with
  | ok p =>
    obtain ⟨hvalid, rfl⟩ := decodeWalletBlob_eq_ok.1 hd
    rw [parseOwnerBlobHeader_encode hvalid]
    rfl
  | error e =>
    cases hp : parseOwnerBlobHeader raw with
    | error e' => rfl
    | ok header =>
      obtain ⟨p, hvalid, hraw, -⟩ := parseOwnerBlobHeader_eq_ok.1 hp
      rw [decodeWalletBlob_eq_ok.2 ⟨hvalid, hraw⟩] at hd
      cases hd

/-- **The wallet blob codec across both parsers.** What is encoded is decoded and what is decoded is encoded to the
same bytes; the worker accepts what the signer accepts, with the same key and credential. -/
theorem wallet_blob_codec (bytes : Bytes) :
    (∀ v : WalletBlobFields, encodeWalletBlob v = .ok bytes → decodeWalletBlob bytes = .ok ⟨v, blobVersion⟩) ∧
    (∀ p, decodeWalletBlob bytes = .ok p → encodeWalletBlob p.toWalletBlobFields = .ok bytes) ∧
    ((∃ header, parseOwnerBlobHeader bytes = .ok header) ↔ ∃ p, decodeWalletBlob bytes = .ok p) ∧
    (∀ header p, parseOwnerBlobHeader bytes = .ok header → decodeWalletBlob bytes = .ok p →
      header.publicKey = p.publicKey ∧ header.credentialId = p.credentialId) := by
  have hagree := parsers_agree bytes
  refine ⟨fun v h => decodeWalletBlob_eq_ok.2 (encodeWalletBlob_eq_ok.1 h), fun p h => encodeWalletBlob_decode h, ?_, ?_⟩
  · constructor
    · rintro ⟨header, hheader⟩
      obtain ⟨p, hvalid, hraw, -⟩ := parseOwnerBlobHeader_eq_ok.1 hheader
      exact ⟨p, decodeWalletBlob_eq_ok.2 ⟨hvalid, hraw⟩⟩
    · rintro ⟨p, hp⟩
      obtain ⟨hvalid, rfl⟩ := decodeWalletBlob_eq_ok.1 hp
      exact ⟨headerOf p, parseOwnerBlobHeader_encode hvalid⟩
  · intro header p hheader hp
    rw [hheader, hp] at hagree
    exact Prod.ext_iff.1 (Option.some.inj hagree)

/-- A blob with a credential of two bytes. -/
def exampleFields : WalletBlobFields :=
  ⟨List.replicate 32 7, [1, 2], List.replicate 32 9, List.replicate 12 5, List.replicate 48 3⟩

theorem wallet_blob_codec_example : encodeWalletBlob exampleFields = .ok (Format.walletBlob.encode ⟨exampleFields, 1⟩) ∧
    decodeWalletBlob (Format.walletBlob.encode ⟨exampleFields, 1⟩) = .ok ⟨exampleFields, 1⟩ := by
  have henc : encodeWalletBlob exampleFields = .ok (Format.walletBlob.encode ⟨exampleFields, 1⟩) := by decide +kernel
  exact ⟨henc, (wallet_blob_codec _).1 exampleFields henc⟩

end PhygitalWallet.Api
