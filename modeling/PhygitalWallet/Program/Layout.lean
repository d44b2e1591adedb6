import PhygitalWallet.Lib.ReprC
import PhygitalWallet.Program.Authority

/-!
# Two readings of the authority account (`state.rs`)

The program copies the memory of `repr(C)` structs at fixed offsets; Anchor's clients serialize the struct `Authority`
field by field.

- `AuthorityHeader.memory_eq`, `SpendCap.memory_eq`, `MintCap.memory_eq`: the memory of each struct is its serialization;
- `writePolicy_serialize`: the account that is written is the serialized `Authority`;
- `parseLayout_iff`: what `parse_layout` accepts.
-/

namespace PhygitalWallet

open ByteSeq ByteCodec Borsh

/-! ## Memory -/

/-- The fields of the structs, each with its alignment and bytes. -/
def pubkeyField (k : Pubkey) : ReprC.Field := ⟨1, k.bytes⟩
def u8Field (x : UInt8) : ReprC.Field := ⟨1, [x]⟩
def u64Field (x : UInt64) : ReprC.Field := ⟨8, toLE 8 x.toNat⟩
def i64Field (x : Int64) : ReprC.Field := u64Field x.toUInt64

/-- The `repr(C)` memory of the header; every field has alignment 1. -/
def AuthorityHeader.memory (h : AuthorityHeader) : Bytes :=
  ReprC.memory [pubkeyField h.authority, pubkeyField h.phygitalToken, pubkeyField h.payer, u8Field h.bump,
    u8Field h.walletBump, u8Field h.version, u8Field h.policyVersion, ⟨1, toLE 4 h.padding.toNat⟩]

/-- The `repr(C)` memory of a cap; every field has alignment 8. -/
def SpendCap.memory (c : SpendCap) : Bytes :=
  ReprC.memory [u64Field c.cap, u64Field c.remaining, i64Field c.lastReset, i64Field c.windowSeconds]

/-- The cap has the alignment of its own fields. -/
def MintCap.memory (m : MintCap) : Bytes := ReprC.memory [pubkeyField m.mint, ⟨8, m.cap.memory⟩]

/-! ## Serialization -/

/-- A length that is no `u32` is refused. -/
def serializeVec {α : Type} (serialize : α → Bytes) (as : List α) : Option Bytes :=
  if as.length < 2 ^ 32 then some (encodeVec serialize as) else none

/-- The Borsh encoding of the header, field by field. -/
def AuthorityHeader.serialize (h : AuthorityHeader) : Bytes :=
  encodePubkey h.authority ++ encodePubkey h.phygitalToken ++ encodePubkey h.payer ++ encodeU8 h.bump
    ++ encodeU8 h.walletBump ++ encodeU8 h.version ++ encodeU8 h.policyVersion ++ toLE 4 h.padding.toNat

/-- The Borsh encoding of a cap, field by field. -/
def SpendCap.serialize (c : SpendCap) : Bytes :=
  encodeU64 c.cap ++ encodeU64 c.remaining ++ encodeI64 c.lastReset ++ encodeI64 c.windowSeconds

/-- The Borsh encoding of a mint's cap, field by field. -/
def MintCap.serialize (m : MintCap) : Bytes := encodePubkey m.mint ++ m.cap.serialize

/-- The account as Anchor declares it. -/
structure Authority where
  header : AuthorityHeader
  solCap : SpendCap
  policyPadding : UInt32
  mintCaps : List MintCap
  programPermissions : List ProgramPermission
deriving DecidableEq, Repr

/-- The fields up to the permissions. -/
def Authority.serializeHead (a : Authority) : Option Bytes := do
  let mintCaps ← serializeVec MintCap.serialize a.mintCaps
  return a.header.serialize ++ a.solCap.serialize ++ encodeU32 a.policyPadding ++ mintCaps

/-- `AnchorSerialize` of the account, without its discriminator. -/
def Authority.serialize (a : Authority) : Option Bytes := do
  let head ← a.serializeHead
  let programPermissions ← serializeVec ProgramPermission.encode a.programPermissions
  return head ++ programPermissions

/-! ## The memory is the serialization -/

/-- A cap has no padding: its memory is its serialization. -/
theorem SpendCap.memory_eq (c : SpendCap) : c.memory = c.serialize := by
  have hpacked : ReprC.Packed 0 [u64Field c.cap, u64Field c.remaining, i64Field c.lastReset, i64Field c.windowSeconds] := by
    simp [ReprC.Packed, u64Field, i64Field]
  rw [SpendCap.memory, ReprC.memory_packed hpacked]
  · simp [u64Field, i64Field, SpendCap.serialize, encodeU64, encodeI64]
  · simp [ReprC.align, u64Field, i64Field]

/-- A cap takes 32 bytes. -/
@[simp] theorem SpendCap.length_serialize (c : SpendCap) : c.serialize.length = 32 := length_encodeSpendCap c

/-- The cap of a mint stands at a multiple of 8, so no padding comes before it. -/
theorem MintCap.memory_eq (m : MintCap) : m.memory = m.serialize := by
  have hpacked : ReprC.Packed 0 [pubkeyField m.mint, ⟨8, m.cap.memory⟩] := by
    simp [ReprC.Packed, pubkeyField, m.mint.length_eq]
  rw [MintCap.memory, ReprC.memory_packed hpacked]
  · simp [pubkeyField, MintCap.serialize, encodePubkey, SpendCap.memory_eq]
  · simp [ReprC.align, pubkeyField, m.mint.length_eq, SpendCap.memory_eq]

/-- The header has no padding: its memory is its serialization. -/
theorem AuthorityHeader.memory_eq (h : AuthorityHeader) : h.memory = h.serialize := by
  rw [AuthorityHeader.memory, ReprC.memory_packed]
  · simp [pubkeyField, u8Field, AuthorityHeader.serialize, encodePubkey, encodeU8]
  · simp [ReprC.Packed, pubkeyField, u8Field]
  · simp [ReprC.align, pubkeyField, u8Field]

/-! ## Every string of the right length is the memory of a value -/

/-- Eight bytes are those of a `u64`. -/
theorem exists_encodeU64 {bs : Bytes} (h : bs.length = 8) : ∃ x, encodeU64 x = bs := by
  have hlt := ofLE_lt bs
  have hbs := toLE_ofLE bs
  rw [h] at hlt hbs
  refine ⟨UInt64.ofNat (ofLE bs), ?_⟩
  rw [encodeU64, UInt64.toNat_ofNat_of_lt' hlt, hbs]

/-- Eight bytes are those of an `i64`. -/
theorem exists_encodeI64 {bs : Bytes} (h : bs.length = 8) : ∃ x, encodeI64 x = bs := by
  obtain ⟨x, rfl⟩ := exists_encodeU64 h
  exact ⟨x.toInt64, rfl⟩

/-- 32 bytes are those of a key. -/
theorem exists_pubkey {bs : Bytes} (h : bs.length = 32) : ∃ k, encodePubkey k = bs := ⟨⟨bs, h⟩, rfl⟩

/-- One byte is that of a `u8`. -/
theorem exists_encodeU8 {bs : Bytes} (h : bs.length = 1) : ∃ x, encodeU8 x = bs := by
  obtain ⟨x, rfl⟩ := List.length_eq_one_iff.1 h
  exact ⟨x, rfl⟩

/-- 32 bytes are those of a cap: four integers. -/
theorem exists_spendCap {bs : Bytes} (h : bs.length = spendCapSize) : ∃ c : SpendCap, encodeSpendCap c = bs := by
  obtain ⟨b₁, _, rfl, h₁, h⟩ := exists_append (m := 8) (n := 24) h
  obtain ⟨b₂, _, rfl, h₂, h⟩ := exists_append (m := 8) (n := 16) h
  obtain ⟨b₃, b₄, rfl, h₃, h₄⟩ := exists_append (m := 8) (n := 8) h
  obtain ⟨cap, rfl⟩ := exists_encodeU64 h₁
  obtain ⟨remaining, rfl⟩ := exists_encodeU64 h₂
  obtain ⟨lastReset, rfl⟩ := exists_encodeI64 h₃
  obtain ⟨windowSeconds, rfl⟩ := exists_encodeI64 h₄
  exact ⟨⟨cap, remaining, lastReset, windowSeconds⟩, by simp [encodeSpendCap]⟩

/-- 64 bytes are those of a mint and its cap. -/
theorem exists_mintCap {bs : Bytes} (h : bs.length = mintCapSize) : ∃ m : MintCap, encodeMintCap m = bs := by
  obtain ⟨b₁, b₂, rfl, h₁, h₂⟩ := exists_append (m := 32) (n := 32) h
  obtain ⟨mint, rfl⟩ := exists_pubkey h₁
  obtain ⟨cap, rfl⟩ := exists_spendCap h₂
  exact ⟨⟨mint, cap⟩, rfl⟩

/-- A multiple of 64 bytes is a list of mint caps. -/
theorem exists_mintCaps {count : Nat} {bs : Bytes} (h : bs.length = count * mintCapSize) :
    ∃ mints : List MintCap, mints.length = count ∧ mints.flatMap encodeMintCap = bs := by
  induction count generalizing bs with
  | zero =>
    rw [Nat.zero_mul, List.length_eq_zero_iff] at h
    exact ⟨[], rfl, h.symm⟩
  | succ count ih =>
    rw [Nat.succ_mul, Nat.add_comm] at h
    obtain ⟨b, bs, rfl, hb, hbs⟩ := exists_append h
    obtain ⟨m, rfl⟩ := exists_mintCap hb
    obtain ⟨mints, rfl, rfl⟩ := ih hbs
    exact ⟨m :: mints, rfl, rfl⟩

/-- The bytes of a header can be cut into its fields. -/
theorem exists_header {bs : Bytes} (h : bs.length = headerSize) : ∃ header : AuthorityHeader, encodeHeader header = bs := by
  obtain ⟨b₁, _, rfl, h₁, h⟩ := exists_append (m := 32) (n := 72) h
  obtain ⟨b₂, _, rfl, h₂, h⟩ := exists_append (m := 32) (n := 40) h
  obtain ⟨b₃, _, rfl, h₃, h⟩ := exists_append (m := 32) (n := 8) h
  obtain ⟨b₄, _, rfl, h₄, h⟩ := exists_append (m := 1) (n := 7) h
  obtain ⟨b₅, _, rfl, h₅, h⟩ := exists_append (m := 1) (n := 6) h
  obtain ⟨b₆, _, rfl, h₆, h⟩ := exists_append (m := 1) (n := 5) h
  obtain ⟨b₇, b₈, rfl, h₇, h₈⟩ := exists_append (m := 1) (n := 4) h
  obtain ⟨authority, rfl⟩ := exists_pubkey h₁
  obtain ⟨phygitalToken, rfl⟩ := exists_pubkey h₂
  obtain ⟨payer, rfl⟩ := exists_pubkey h₃
  obtain ⟨bump, rfl⟩ := exists_encodeU8 h₄
  obtain ⟨walletBump, rfl⟩ := exists_encodeU8 h₅
  obtain ⟨version, rfl⟩ := exists_encodeU8 h₆
  obtain ⟨policyVersion, rfl⟩ := exists_encodeU8 h₇
  have hlt := ofLE_lt b₈
  have hbytes := toLE_ofLE b₈
  rw [h₈] at hlt hbytes
  refine ⟨⟨authority, phygitalToken, payer, bump, walletBump, version, policyVersion, UInt32.ofNat (ofLE b₈)⟩, ?_⟩
  simp only [encodeHeader, encodeU32, UInt32.toNat_ofNat_of_lt' hlt, hbytes, List.append_assoc]

/-! ## The account -/

/-- A list is serialized when its length is a `u32`. -/
theorem serializeVec_eq_some {α : Type} {serialize : α → Bytes} {as : List α} {bs : Bytes} :
    serializeVec serialize as = some bs ↔ as.length < 2 ^ 32 ∧ bs = encodeVec serialize as := by
  unfold serializeVec
  split
  · next h => rw [Option.some.injEq, eq_comm, and_iff_right h]
  · next h => exact iff_of_false nofun fun hlen => h hlen.1

/-- The head is serialized when the number of mint caps is a `u32`. -/
theorem Authority.serializeHead_eq_some {a : Authority} {bs : Bytes} :
    a.serializeHead = some bs ↔ a.mintCaps.length < 2 ^ 32 ∧
      bs = a.header.serialize ++ a.solCap.serialize ++ encodeU32 a.policyPadding ++ encodeVec MintCap.serialize a.mintCaps := by
  simp only [Authority.serializeHead, Option.bind_eq_bind, Option.bind_eq_some_iff, serializeVec_eq_some]
  constructor
  · rintro ⟨_, ⟨hlen, rfl⟩, hbs⟩
    cases hbs
    exact ⟨hlen, rfl⟩
  · rintro ⟨hlen, rfl⟩
    exact ⟨_, ⟨hlen, rfl⟩, rfl⟩

/-- The account is its head and its permissions. -/
theorem Authority.serialize_eq_some {a : Authority} {bs : Bytes} :
    a.serialize = some bs ↔ ∃ head permissions, a.serializeHead = some head ∧
      serializeVec ProgramPermission.encode a.programPermissions = some permissions ∧ bs = head ++ permissions := by
  simp only [Authority.serialize, Option.bind_eq_bind, Option.bind_eq_some_iff]
  constructor
  · rintro ⟨head, hhead, permissions, hpermissions, hbs⟩
    cases hbs
    exact ⟨head, permissions, hhead, hpermissions, rfl⟩
  · rintro ⟨head, permissions, hhead, hpermissions, rfl⟩
    exact ⟨head, hhead, permissions, hpermissions, rfl⟩

/-- The layout of the program is the serialization of the struct, with no padding bytes set. -/
theorem policyBytes_eq_serialize {tag tail : Bytes} {header : AuthorityHeader} {sol : SpendCap} {mints : List MintCap} :
    policyBytes (tag ++ encodeHeader header) sol mints tail =
      tag ++ (header.serialize ++ sol.serialize ++ encodeU32 0 ++ encodeVec MintCap.serialize mints) ++ tail := by
  rw [policyBytes]
  simp only [List.append_assoc]
  rfl

/-- **The account that is written** is the discriminator and the serialized struct. -/
theorem writePolicy_serialize {header : AuthorityHeader} {sol : SpendCap} {mints : List MintCap}
    {programPermissions : List ProgramPermission} {bytes permissions rest : Bytes}
    (hbytes : Authority.serialize ⟨header, sol, 0, mints, programPermissions⟩ = some bytes)
    (hpermissions : serializeVec ProgramPermission.encode programPermissions = some permissions)
    (hlen : (discriminator ++ header.memory ++ rest).length = (discriminator ++ bytes).length) :
    writePolicy (discriminator ++ header.memory ++ rest) sol mints permissions = .ok (discriminator ++ bytes) := by
  obtain ⟨head, _, hhead, hperm, rfl⟩ := Authority.serialize_eq_some.1 hbytes
  obtain rfl := Option.some.inj (hperm.symm.trans hpermissions)
  obtain ⟨hcount, rfl⟩ := Authority.serializeHead_eq_some.1 hhead
  have hmemory : header.memory = encodeHeader header := header.memory_eq
  rw [hmemory] at hlen ⊢
  rw [← List.append_assoc discriminator, ← policyBytes_eq_serialize] at hlen ⊢
  refine writePolicy_layout (length_headBytes header) (hlen.trans ?_) hcount
  rw [policyBytes]
  simp only [List.length_append, length_encodeHeader, length_encodeSpendCap, length_toLE, length_flatMap_encodeMintCap]
  rfl

/-- The permissions start after the mint caps. -/
theorem Authority.length_serializeHead {header : AuthorityHeader} {sol : SpendCap} {mints : List MintCap} {tag : Bytes}
    (htag : tag.length = discriminatorLen) :
    (tag ++ (header.serialize ++ sol.serialize ++ encodeU32 0 ++ encodeVec MintCap.serialize mints)).length =
      mintsOffset + mints.length * mintCapSize := by
  have hmints : (mints.flatMap MintCap.serialize).length = mints.length * mintCapSize := length_flatMap_encodeMintCap mints
  have hheader : header.serialize.length = headerSize := length_encodeHeader header
  simp only [encodeVec, List.length_append, htag, hheader, SpendCap.length_serialize, hmints, length_toLE, encodeU32]
  rw [← Nat.add_assoc, ← Nat.add_assoc]
  rfl

/-- The layout that `parse_layout` has found. -/
theorem parseLayout_layout {data : Bytes} {tailStart : Nat} (h : parseLayout data = .ok tailStart) :
    ∃ tag header sol mints tail, tag.length = discriminatorLen ∧
      PolicyLayout data (tag ++ encodeHeader header) sol mints tail ∧ tailStart = mintsOffset + mints.length * mintCapSize := by
  obtain ⟨count, hcount, rfl, hlen, hcut⟩ := parseLayout_ok h
  have hoffset : mintsOffset = solCapOffset + 40 := rfl
  have hend : solCapEnd = solCapOffset + 32 := rfl
  have hsol : (slice data solCapOffset solCapEnd).length = spendCapSize := by
    rw [length_slice (by omega)]
    rfl
  have hmints : (slice data mintsOffset (mintsOffset + count * mintCapSize)).length = count * mintCapSize := by
    rw [length_slice (by omega)]
    omega
  have htake : (data.take solCapOffset).length = discriminatorLen + headerSize := by
    rw [List.length_take]
    show min solCapOffset _ = solCapOffset
    omega
  obtain ⟨tag, bytes, hhead, htag, hbytes⟩ := exists_append htake
  obtain ⟨header, rfl⟩ := exists_header hbytes
  obtain ⟨sol, hsol⟩ := exists_spendCap hsol
  obtain ⟨mints, rfl, hmints⟩ := exists_mintCaps hmints
  refine ⟨tag, header, sol, mints, sliceFrom data (mintsOffset + mints.length * mintCapSize), htag, ⟨?_, ?_, hcount, ?_⟩, rfl⟩
  · rw [policyBytes, ← hhead, hsol, hmints]
    exact hcut
  · rw [← hhead]
    exact htake
  · rw [sliceFrom, List.length_drop]
    omega

/-- **What `parse_layout` accepts**: any eight bytes, a struct up to its permissions, and four bytes or more. -/
theorem parseLayout_iff {data : Bytes} {tailStart : Nat} :
    parseLayout data = .ok tailStart ↔ ∃ tag header sol mints head tail,
      tag.length = discriminatorLen ∧ Authority.serializeHead ⟨header, sol, 0, mints, []⟩ = some head ∧
        data = tag ++ head ++ tail ∧ 4 ≤ tail.length ∧ tailStart = (tag ++ head).length := by
  constructor
  · intro h
    obtain ⟨tag, header, sol, mints, tail, htag, hl, rfl⟩ := parseLayout_layout h
    refine ⟨tag, header, sol, mints, _, tail, htag, Authority.serializeHead_eq_some.2 ⟨hl.mints_length, rfl⟩, ?_,
      hl.tail_length, (Authority.length_serializeHead htag).symm⟩
    rw [hl.eq, policyBytes_eq_serialize]
  · rintro ⟨tag, header, sol, mints, head, tail, htag, hhead, rfl, htail, rfl⟩
    obtain ⟨hcount, rfl⟩ := Authority.serializeHead_eq_some.1 hhead
    have hl : PolicyLayout (tag ++ (header.serialize ++ sol.serialize ++ encodeU32 0 ++ encodeVec MintCap.serialize mints)
        ++ tail) (tag ++ encodeHeader header) sol mints tail := by
      refine ⟨policyBytes_eq_serialize.symm, ?_, hcount, htail⟩
      rw [List.length_append, htag, length_encodeHeader]
      rfl
    rw [hl.parseLayout_eq, ← Authority.length_serializeHead htag]

end PhygitalWallet
