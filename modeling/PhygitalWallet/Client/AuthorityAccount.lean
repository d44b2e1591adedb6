import PhygitalWallet.Program.Layout

/-!
# The account as the clients decode it (`generated/accounts/authority.ts`)

The generated decoders are put together from the decoders of `@solana/kit`.

- `KitDecoders`, `KitDecoders.Documented`: kit's decoders and what they read;
- `getAuthorityDecoder`, `decodeAuthority`: the generated decoder of the account;
- `zero_copy_layout`: the program's layout, the serialized struct and the decoder agree.
-/

namespace PhygitalWallet.Client

open ByteSeq ByteCodec Borsh

/-! ## Kit's decoders -/

/-- A decoder reads at the head of the bytes and leaves the rest. -/
abbrev KitDecoder := StateT Bytes Option

structure KitDecoders where
  getU8Decoder : KitDecoder UInt8
  getU16Decoder : KitDecoder UInt16
  getU32Decoder : KitDecoder UInt32
  getU64Decoder : KitDecoder UInt64
  getI64Decoder : KitDecoder Int64
  getBooleanDecoder : KitDecoder Bool
  getAddressDecoder : KitDecoder Pubkey
  /-- `fixDecoderSize(getBytesDecoder(), size)`. -/
  fixedBytes : Nat → KitDecoder Bytes
  /-- `addDecoderSizePrefix(getBytesDecoder(), getU32Decoder())`. -/
  prefixedBytes : KitDecoder Bytes
  getEnumDecoder {α : Type} : List α → KitDecoder α
  getDiscriminatedUnionDecoder {α : Type} : List (KitDecoder α) → KitDecoder α
  getOptionDecoder {α : Type} : KitDecoder α → KitDecoder (Option α)
  getArrayDecoder {α : Type} : KitDecoder α → KitDecoder (List α)

section Reads

variable {α β : Type}

/-- The decoder reads these bytes as this value, whatever comes behind them. -/
def Reads (d : KitDecoder α) (bytes : Bytes) (a : α) : Prop := ∀ rest, d (bytes ++ rest) = some (a, rest)

theorem Reads.pure (a : α) : Reads (Pure.pure a) [] a := fun _ => rfl

theorem Reads.pure_of_eq {a b : α} (h : a = b) : Reads (Pure.pure a) [] b := h ▸ Reads.pure a

/-- One field after the other. -/
theorem Reads.bind {d : KitDecoder α} {f : α → KitDecoder β} {bytes bytes' : Bytes} {a : α} {b : β} (hd : Reads d bytes a)
    (hf : Reads (f a) bytes' b) : Reads (d >>= f) (bytes ++ bytes') b := by
  intro rest
  show (d (bytes ++ bytes' ++ rest)).bind (fun p => f p.1 p.2) = _
  rw [List.append_assoc, hd, Option.bind_some, hf]

theorem Reads.of_eq {d : KitDecoder α} {bytes bytes' : Bytes} {a : α} (hd : Reads d bytes a) (h : bytes' = bytes) :
    Reads d bytes' a := h ▸ hd

theorem Reads.of_value {d : KitDecoder α} {bytes : Bytes} {a b : α} (hd : Reads d bytes a) (h : a = b) : Reads d bytes b :=
  h ▸ hd

/-- A variant's field. -/
theorem Reads.map {d : KitDecoder α} {f : α → β} {bytes : Bytes} {a : α} (hd : Reads d bytes a) :
    Reads (f <$> d) bytes (f a) := by
  intro rest
  show (d (bytes ++ rest)).bind (fun p => some (f p.1, p.2)) = _
  rw [hd]
  rfl

end Reads

/-- What kit documents of its decoders, for bytes that its encoders give. -/
structure KitDecoders.Documented (kit : KitDecoders) : Prop where
  u8 : ∀ n, Reads kit.getU8Decoder (encodeU8 n) n
  u16 : ∀ n, Reads kit.getU16Decoder (encodeU16 n) n
  u32 : ∀ n, Reads kit.getU32Decoder (encodeU32 n) n
  u64 : ∀ n, Reads kit.getU64Decoder (encodeU64 n) n
  i64 : ∀ n, Reads kit.getI64Decoder (encodeI64 n) n
  boolean : ∀ b, Reads kit.getBooleanDecoder (encodeBool b) b
  address : ∀ key : Pubkey, Reads kit.getAddressDecoder key.bytes key
  fixed : ∀ bytes : Bytes, Reads (kit.fixedBytes bytes.length) bytes bytes
  prefixed : ∀ bytes : Bytes, bytes.length < 2 ^ 32 → Reads kit.prefixedBytes (toLE 4 bytes.length ++ bytes) bytes
  /-- The members are numbered in their order. -/
  enumeration : ∀ {α : Type} (members : List α) (i : UInt8) (a : α), members[i.toNat]? = some a →
    Reads (kit.getEnumDecoder members) [i] a
  union : ∀ {α : Type} (variants : List (KitDecoder α)) (i : UInt8) (d : KitDecoder α) (bytes : Bytes) (a : α),
    variants[i.toNat]? = some d → Reads d bytes a → Reads (kit.getDiscriminatedUnionDecoder variants) (i :: bytes) a
  optionNone : ∀ {α : Type} (d : KitDecoder α), Reads (kit.getOptionDecoder d) [0] none
  optionSome : ∀ {α : Type} (d : KitDecoder α) (bytes : Bytes) (a : α), Reads d bytes a →
    Reads (kit.getOptionDecoder d) (1 :: bytes) (some a)
  array : ∀ {α : Type} (d : KitDecoder α) (encode : α → Bytes) (as : List α), as.length < 2 ^ 32 →
    (∀ a ∈ as, Reads d (encode a) a) → Reads (kit.getArrayDecoder d) (encodeVec encode as) as

/-! ## The generated decoders -/

namespace KitDecoders

variable (kit : KitDecoders)

def getSpendCapDecoder : KitDecoder SpendCap := do
  let cap ← kit.getU64Decoder
  let remaining ← kit.getU64Decoder
  let lastReset ← kit.getI64Decoder
  let windowSeconds ← kit.getI64Decoder
  return { cap, remaining, lastReset, windowSeconds }

def getMintCapDecoder : KitDecoder MintCap := do
  let mint ← kit.getAddressDecoder
  let cap ← kit.getSpendCapDecoder
  return { mint, cap }

/-- The padding is the number that its four bytes spell. -/
def getAuthorityHeaderDecoder : KitDecoder AuthorityHeader := do
  let authority ← kit.getAddressDecoder
  let phygitalToken ← kit.getAddressDecoder
  let payer ← kit.getAddressDecoder
  let bump ← kit.getU8Decoder
  let walletBump ← kit.getU8Decoder
  let version ← kit.getU8Decoder
  let policyVersion ← kit.getU8Decoder
  let padding ← kit.fixedBytes 4
  return { authority, phygitalToken, payer, bump, walletBump, version, policyVersion,
           padding := UInt32.ofNat (ofLE padding) }

def getNumericWidthDecoder : KitDecoder NumericWidth := kit.getEnumDecoder [.u8, .u16, .u32, .u64]

def getComparisonDecoder : KitDecoder Comparison :=
  kit.getEnumDecoder [.equal, .notEqual, .lessThan, .lessThanOrEqual, .greaterThan, .greaterThanOrEqual]

def getDataPredicateDecoder : KitDecoder DataPredicate := kit.getDiscriminatedUnionDecoder [
  DataPredicate.bytesEqual <$> kit.prefixedBytes,
  do
    let width ← kit.getNumericWidthDecoder
    let comparison ← kit.getComparisonDecoder
    let value ← kit.getU64Decoder
    return .unsigned width comparison value]

def getDataConstraintDecoder : KitDecoder DataConstraint := do
  let offset ← kit.getU16Decoder
  let predicate ← kit.getDataPredicateDecoder
  return { offset, predicate }

def getAccountKeyConstraintDecoder : KitDecoder AccountKeyConstraint := kit.getDiscriminatedUnionDecoder [
  pure .any,
  AccountKeyConstraint.address <$> kit.getAddressDecoder,
  pure .wallet]

def getAccountConstraintDecoder : KitDecoder AccountConstraint := do
  let index ← kit.getU8Decoder
  let key ← kit.getAccountKeyConstraintDecoder
  let owner ← kit.getOptionDecoder kit.getAddressDecoder
  let isSigner ← kit.getOptionDecoder kit.getBooleanDecoder
  let isWritable ← kit.getOptionDecoder kit.getBooleanDecoder
  let data ← kit.getArrayDecoder kit.getDataConstraintDecoder
  return { index, key, owner, isSigner, isWritable, data }

def getInstructionRuleDecoder : KitDecoder InstructionRule := do
  let selector ← kit.prefixedBytes
  let dataLength ← kit.getOptionDecoder kit.getU16Decoder
  let accountCount ← kit.getOptionDecoder kit.getU8Decoder
  let accounts ← kit.getArrayDecoder kit.getAccountConstraintDecoder
  let arguments ← kit.getArrayDecoder kit.getDataConstraintDecoder
  return { selector, dataLength, accountCount, accounts, arguments }

def getProgramAccessDecoder : KitDecoder ProgramAccess := kit.getDiscriminatedUnionDecoder [
  pure .denied,
  pure .allInstructions,
  ProgramAccess.restricted <$> kit.getArrayDecoder kit.getInstructionRuleDecoder]

def getProgramPermissionDecoder : KitDecoder ProgramPermission := do
  let programId ← kit.getAddressDecoder
  let access ← kit.getProgramAccessDecoder
  return { programId, access }

end KitDecoders

/-- What a client gets for an account. -/
structure DecodedAuthority where
  discriminator : Bytes
  authority : Authority
deriving DecidableEq, Repr

def getAuthorityDecoder (kit : KitDecoders) : KitDecoder DecodedAuthority := do
  let discriminator ← kit.fixedBytes 8
  let header ← kit.getAuthorityHeaderDecoder
  let solCap ← kit.getSpendCapDecoder
  let policyPadding ← kit.getU32Decoder
  let mintCaps ← kit.getArrayDecoder kit.getMintCapDecoder
  let programPermissions ← kit.getArrayDecoder kit.getProgramPermissionDecoder
  return { discriminator, authority := { header, solCap, policyPadding, mintCaps, programPermissions } }

/-- `decode` drops what is behind the value. -/
def decodeAuthority (kit : KitDecoders) (data : Bytes) : Option DecodedAuthority :=
  (getAuthorityDecoder kit data).map Prod.fst

/-! ## What they read -/

namespace KitDecoders.Documented

variable {kit : KitDecoders} (h : kit.Documented)
include h

theorem option {α : Type} {d : KitDecoder α} {encode : α → Bytes} (hd : ∀ a, Reads d (encode a) a) (o : Option α) :
    Reads (kit.getOptionDecoder d) (encodeOption encode o) o := by
  cases o with
  | none => exact h.optionNone d
  | some a => exact h.optionSome d _ _ (hd a)

theorem spendCap (c : SpendCap) : Reads kit.getSpendCapDecoder c.serialize c := by
  refine Reads.of_eq (Reads.bind (h.u64 c.cap) (Reads.bind (h.u64 c.remaining) (Reads.bind (h.i64 c.lastReset)
    (Reads.bind (h.i64 c.windowSeconds) (Reads.pure _))))) ?_
  simp [SpendCap.serialize]

theorem mintCap (m : MintCap) : Reads kit.getMintCapDecoder m.serialize m := by
  refine Reads.of_eq (Reads.bind (h.address m.mint) (Reads.bind (h.spendCap m.cap) (Reads.pure _))) ?_
  simp [MintCap.serialize, encodePubkey]

theorem header (x : AuthorityHeader) : Reads kit.getAuthorityHeaderDecoder x.serialize x := by
  have hpadding : Reads (kit.fixedBytes 4) (toLE 4 x.padding.toNat) (toLE 4 x.padding.toNat) := by
    have hfixed := h.fixed (toLE 4 x.padding.toNat)
    rwa [length_toLE] at hfixed
  have hnumber : UInt32.ofNat (ofLE (toLE 4 x.padding.toNat)) = x.padding := by
    rw [ofLE_toLE (by simpa using x.padding.toNat_lt), UInt32.ofNat_toNat]
  have hlast : ({ x with padding := UInt32.ofNat (ofLE (toLE 4 x.padding.toNat)) } : AuthorityHeader) = x := by rw [hnumber]
  refine Reads.of_eq (Reads.bind (h.address x.authority) (Reads.bind (h.address x.phygitalToken) (Reads.bind (h.address x.payer)
    (Reads.bind (h.u8 x.bump) (Reads.bind (h.u8 x.walletBump) (Reads.bind (h.u8 x.version) (Reads.bind (h.u8 x.policyVersion)
    (Reads.bind hpadding (Reads.pure_of_eq hlast))))))))) ?_
  simp [AuthorityHeader.serialize, encodePubkey]

theorem numericWidth (w : NumericWidth) : Reads kit.getNumericWidthDecoder [w.tag] w :=
  h.enumeration _ w.tag w (by cases w <;> rfl)

theorem comparison (c : Comparison) : Reads kit.getComparisonDecoder [c.tag] c :=
  h.enumeration _ c.tag c (by cases c <;> rfl)

theorem bytes {bs : Bytes} (hbs : bs.length < 2 ^ 32) : Reads kit.prefixedBytes (encodeVec encodeU8 bs) bs := by
  refine Reads.of_eq (h.prefixed bs hbs) ?_
  have hflat : bs.flatMap encodeU8 = bs := List.flatMap_singleton' bs
  rw [encodeVec, hflat]

theorem dataPredicate {p : DataPredicate} (hp : p.matchBytes ≤ maxMatchBytes) :
    Reads kit.getDataPredicateDecoder (p.tag :: p.encodeFields) p := by
  cases p with
  | bytesEqual bs =>
    have hbs : bs.length < 2 ^ 32 := lt_of_le_of_lt hp (by decide)
    exact h.union _ 0 _ _ _ rfl (h.bytes hbs).map
  | unsigned width comparison value =>
    refine h.union _ 1 _ _ _ rfl (Reads.of_eq (Reads.bind (h.numericWidth width) (Reads.bind (h.comparison comparison)
      (Reads.bind (h.u64 value) (Reads.pure _)))) ?_)
    simp [DataPredicate.encodeFields]

theorem dataConstraint {c : DataConstraint} (hc : c.Readable) : Reads kit.getDataConstraintDecoder c.encode c := by
  refine Reads.of_eq (Reads.bind (h.u16 c.offset) (Reads.bind (h.dataPredicate hc) (Reads.pure _))) ?_
  simp [DataConstraint.encode]

theorem accountKeyConstraint (k : AccountKeyConstraint) : Reads kit.getAccountKeyConstraintDecoder k.encode k := by
  cases k with
  | any => exact h.union _ 0 _ _ _ rfl (Reads.pure _)
  | address key => exact h.union _ 1 _ _ _ rfl (h.address key).map
  | wallet => exact h.union _ 2 _ _ _ rfl (Reads.pure _)

/-- A vector within one of the reader's bounds. -/
theorem vec {α : Type} {d : KitDecoder α} {encode : α → Bytes} {as : List α} {max : Nat} (hmax : max < 2 ^ 32)
    (hlen : as.length ≤ max) (has : ∀ a ∈ as, Reads d (encode a) a) : Reads (kit.getArrayDecoder d) (encodeVec encode as) as :=
  h.array d encode as (lt_of_le_of_lt hlen hmax) has

theorem accountConstraint {a : AccountConstraint} (ha : a.Readable) :
    Reads kit.getAccountConstraintDecoder a.encode a := by
  refine Reads.of_eq (Reads.bind (h.u8 a.index) (Reads.bind (h.accountKeyConstraint a.key)
    (Reads.bind (h.option h.address a.owner) (Reads.bind (h.option h.boolean a.isSigner)
    (Reads.bind (h.option h.boolean a.isWritable)
    (Reads.bind (h.vec (by decide) ha.1 fun d hd => h.dataConstraint (ha.2 d hd)) (Reads.pure _))))))) ?_
  simp only [AccountConstraint.encode, List.append_assoc, List.append_nil]
  rfl

theorem instructionRule {r : InstructionRule} (hr : r.Readable) : Reads kit.getInstructionRuleDecoder r.encode r := by
  obtain ⟨hselector, ⟨haccounts, hreadable⟩, harguments, hreadable'⟩ := hr
  refine Reads.of_eq (Reads.bind (h.bytes (lt_of_le_of_lt hselector (by decide)))
    (Reads.bind (h.option h.u16 r.dataLength) (Reads.bind (h.option h.u8 r.accountCount)
    (Reads.bind (h.vec (by decide) haccounts fun a ha => h.accountConstraint (hreadable a ha))
    (Reads.bind (h.vec (by decide) harguments fun d hd => h.dataConstraint (hreadable' d hd)) (Reads.pure _)))))) ?_
  simp only [InstructionRule.encode, List.append_assoc, List.append_nil]

theorem programAccess {a : ProgramAccess} (ha : a.Readable) :
    Reads kit.getProgramAccessDecoder (a.tag :: a.encodeFields) a := by
  cases a with
  | denied => exact h.union _ 0 _ _ _ rfl (Reads.pure _)
  | allInstructions => exact h.union _ 1 _ _ _ rfl (Reads.pure _)
  | restricted rules =>
    exact h.union _ 2 _ _ _ rfl (h.vec (by decide) ha.1 fun r hr => h.instructionRule (ha.2 r hr)).map

theorem programPermission {p : ProgramPermission} (hp : p.access.Readable) :
    Reads kit.getProgramPermissionDecoder p.encode p := by
  refine Reads.of_eq (Reads.bind (h.address p.programId) (Reads.bind (h.programAccess hp) (Reads.pure _))) ?_
  simp [ProgramPermission.encode, encodePubkey]

/-- **The generated decoder** reads the serialized struct. -/
theorem authority {a : Authority} {tag bytes : Bytes} (htag : tag.length = 8) (hbytes : a.serialize = some bytes)
    (hreadable : ∀ p ∈ a.programPermissions, p.access.Readable) : Reads (getAuthorityDecoder kit) (tag ++ bytes) ⟨tag, a⟩ := by
  obtain ⟨head, permissions, hhead, hpermissions, rfl⟩ := Authority.serialize_eq_some.1 hbytes
  obtain ⟨hmints, rfl⟩ := Authority.serializeHead_eq_some.1 hhead
  obtain ⟨hcount, rfl⟩ := serializeVec_eq_some.1 hpermissions
  have hfixed : Reads (kit.fixedBytes 8) tag tag := htag ▸ h.fixed tag
  refine Reads.of_eq (Reads.bind hfixed (Reads.bind (h.header a.header) (Reads.bind (h.spendCap a.solCap)
    (Reads.bind (h.u32 a.policyPadding) (Reads.bind (h.array _ _ a.mintCaps hmints fun m _ => h.mintCap m)
    (Reads.bind (h.array _ _ a.programPermissions hcount fun p hp => h.programPermission (hreadable p hp))
    (Reads.pure _))))))) ?_
  simp only [List.append_assoc, List.append_nil]

end KitDecoders.Documented

/-! ## A kit -/

/-- The next `n` bytes. -/
def nextBytes (n : Nat) : KitDecoder Bytes := fun bytes =>
  if n ≤ bytes.length then some (bytes.take n, bytes.drop n) else none

/-- A little-endian number of `w` bytes. -/
def nextNumber (w : Nat) : KitDecoder Nat := ofLE <$> nextBytes w

/-- The decoder of an item, `n` times. -/
def nextItems {α : Type} (d : KitDecoder α) : Nat → KitDecoder (List α)
  | 0 => pure []
  | n + 1 => do
    let a ← d
    let as ← nextItems d n
    return a :: as

def kitDecoders : KitDecoders where
  getU8Decoder := UInt8.ofNat <$> nextNumber 1
  getU16Decoder := UInt16.ofNat <$> nextNumber 2
  getU32Decoder := UInt32.ofNat <$> nextNumber 4
  getU64Decoder := UInt64.ofNat <$> nextNumber 8
  getI64Decoder := (fun n => (UInt64.ofNat n).toInt64) <$> nextNumber 8
  getBooleanDecoder := (fun n => n == 1) <$> nextNumber 1
  getAddressDecoder := do
    let bytes ← nextBytes 32
    if h : bytes.length = 32 then pure ⟨bytes, h⟩ else failure
  fixedBytes := nextBytes
  prefixedBytes := do nextBytes (← nextNumber 4)
  getEnumDecoder members := do
    match members[← nextNumber 1]? with
    | some a => pure a
    | none => failure
  getDiscriminatedUnionDecoder variants := do
    match variants[← nextNumber 1]? with
    | some d => d
    | none => failure
  getOptionDecoder d := do
    if (← nextNumber 1) = 1 then some <$> d else pure none
  getArrayDecoder d := do nextItems d (← nextNumber 4)

theorem reads_nextBytes (bytes : Bytes) : Reads (nextBytes bytes.length) bytes bytes := by
  intro rest
  rw [nextBytes, if_pos (by simp), List.take_left, List.drop_left]

theorem reads_nextNumber {w n : Nat} (h : n < 256 ^ w) : Reads (nextNumber w) (toLE w n) n := by
  have hbytes := (reads_nextBytes (toLE w n)).map (f := ofLE)
  rwa [length_toLE, ofLE_toLE h] at hbytes

theorem reads_nextNumber_one (i : UInt8) : Reads (nextNumber 1) [i] i.toNat := by
  have hbyte : toLE 1 i.toNat = [i] := by simp [toLE]
  rw [← hbyte]
  exact reads_nextNumber i.toNat_lt

theorem reads_nextItems {α : Type} {d : KitDecoder α} {encode : α → Bytes} {as : List α}
    (h : ∀ a ∈ as, Reads d (encode a) a) : Reads (nextItems d as.length) (as.flatMap encode) as := by
  induction as with
  | nil => exact Reads.pure []
  | cons a as ih =>
    have has := ih fun b hb => h b (List.mem_cons_of_mem _ hb)
    exact Reads.of_eq (Reads.bind (h a List.mem_cons_self) (Reads.bind has (Reads.pure _))) (by simp)

theorem kitDecoders_documented : kitDecoders.Documented where
  u8 n := (Reads.map (reads_nextNumber_one n)).of_value (UInt8.ofNat_toNat)
  u16 n := (Reads.map (reads_nextNumber n.toNat_lt)).of_value UInt16.ofNat_toNat
  u32 n := (Reads.map (reads_nextNumber n.toNat_lt)).of_value UInt32.ofNat_toNat
  u64 n := (Reads.map (reads_nextNumber n.toNat_lt)).of_value UInt64.ofNat_toNat
  i64 n := (Reads.map (reads_nextNumber n.toUInt64.toNat_lt)).of_value (by rw [UInt64.ofNat_toNat]; rfl)
  boolean b := (Reads.map (reads_nextNumber_one (boolTag b))).of_value (by cases b <;> rfl)
  address key := by
    have hbytes := reads_nextBytes key.bytes
    rw [key.length_eq] at hbytes
    refine Reads.of_eq (Reads.bind hbytes ?_) (List.append_nil _).symm
    rw [dif_pos key.length_eq]
    exact Reads.pure _
  fixed := reads_nextBytes
  prefixed bytes h := Reads.bind (reads_nextNumber h) (reads_nextBytes bytes)
  enumeration members i a h := by
    refine Reads.of_eq (Reads.bind (reads_nextNumber_one i) ?_) (List.append_nil _).symm
    rw [h]
    exact Reads.pure _
  union variants i d bytes a h hd := by
    refine Reads.bind (reads_nextNumber_one i) ?_
    rw [h]
    exact hd
  optionNone d := Reads.of_eq (Reads.bind (reads_nextNumber_one 0) (Reads.pure _)) rfl
  optionSome d bytes a hd := Reads.bind (reads_nextNumber_one 1) hd.map
  array d encode as hlen h := Reads.bind (reads_nextNumber hlen) (reads_nextItems h)

/-! ## The two readings -/

/-- A client reads what the program reads. -/
theorem decodeAuthority_readPolicy [HeapSizes] {kit : KitDecoders} (hkit : kit.Documented) {data : Bytes}
    {header : AuthorityHeader} {sol : SpendCap} {mints : List MintCap} {permissions : List ProgramPermission}
    (hheader : readHeaderMut data = .ok header) (hpolicy : readPolicy data = .ok (sol, mints, permissions)) :
    decodeAuthority kit data = some ⟨discriminator, ⟨header, sol, 0, mints, permissions⟩⟩ := by
  obtain ⟨rest, hrest⟩ := readHeaderMut_iff.1 hheader
  obtain ⟨head, tail, hl, htail⟩ := readPolicy_iff.1 hpolicy
  obtain ⟨⟨hvalidate, hlen⟩, rfl⟩ := (decodePermissions_iff _ _).1 htail
  have hvalid := validatePermissions_iff.1 hvalidate
  have hhead : head = headBytes header := by
    have heq : head ++ policyBytes [] sol mints (encodePermissions permissions) = headBytes header ++ rest := by
      rw [← policyBytes_eq_append, ← hl.eq, hrest]
    exact (List.append_inj heq (by rw [hl.head_length, length_headBytes])).1
  have hbytes : Authority.serialize ⟨header, sol, 0, mints, permissions⟩ = some (header.serialize ++ sol.serialize
      ++ encodeU32 0 ++ encodeVec MintCap.serialize mints ++ encodePermissions permissions) := by
    refine Authority.serialize_eq_some.2 ⟨_, _, Authority.serializeHead_eq_some.2 ⟨hl.mints_length, rfl⟩,
      serializeVec_eq_some.2 ⟨?_, rfl⟩, rfl⟩
    exact lt_of_le_of_lt hvalid.length_le (by decide)
  have hreads := hkit.authority (show discriminator.length = 8 from rfl) hbytes fun p hp => (hvalid.valid p hp).readable
  have hdata : data = discriminator ++ (header.serialize ++ sol.serialize ++ encodeU32 0 ++ encodeVec MintCap.serialize mints
      ++ encodePermissions permissions) := by
    rw [hl.eq, hhead, headBytes, policyBytes_eq_serialize, List.append_assoc]
  rw [decodeAuthority, hdata, ← List.append_nil (discriminator ++ _), hreads]
  rfl

/-- **Zero-copy layout**: the memory of the structs is their serialization, the account that is written is the serialized
struct, a client reads what the program reads, and what `parse_layout` accepts. -/
theorem zero_copy_layout [HeapSizes] {kit : KitDecoders} (hkit : kit.Documented) :
    (∀ c : SpendCap, encodeSpendCap c = c.memory ∧ c.memory = c.serialize) ∧
    (∀ m : MintCap, encodeMintCap m = m.memory ∧ m.memory = m.serialize) ∧
    (∀ (header : AuthorityHeader) (sol : SpendCap) (mints : List MintCap) (programPermissions : List ProgramPermission)
      (bytes permissions rest : Bytes), Authority.serialize ⟨header, sol, 0, mints, programPermissions⟩ = some bytes →
      serializeVec ProgramPermission.encode programPermissions = some permissions →
      (discriminator ++ header.memory ++ rest).length = (discriminator ++ bytes).length →
      writePolicy (discriminator ++ header.memory ++ rest) sol mints permissions = .ok (discriminator ++ bytes)) ∧
    (∀ (data : Bytes) (header : AuthorityHeader) (sol : SpendCap) (mints : List MintCap)
      (permissions : List ProgramPermission), readHeaderMut data = .ok header →
      readPolicy data = .ok (sol, mints, permissions) →
      decodeAuthority kit data = some ⟨discriminator, ⟨header, sol, 0, mints, permissions⟩⟩) ∧
    (∀ (data : Bytes) (tailStart : Nat), parseLayout data = .ok tailStart ↔ ∃ tag header sol mints head tail,
      tag.length = discriminatorLen ∧ Authority.serializeHead ⟨header, sol, 0, mints, []⟩ = some head ∧
        data = tag ++ head ++ tail ∧ 4 ≤ tail.length ∧ tailStart = (tag ++ head).length) := by
  refine ⟨fun c => ⟨c.memory_eq.symm, c.memory_eq⟩, fun m => ⟨m.memory_eq.symm, m.memory_eq⟩, ?_, ?_, fun _ _ => parseLayout_iff⟩
  · intro header sol mints programPermissions bytes permissions rest hbytes hpermissions hlen
    exact writePolicy_serialize hbytes hpermissions hlen
  · intro data header sol mints permissions hheader hpolicy
    exact decodeAuthority_readPolicy hkit hheader hpolicy

/-- An account with one mint cap and one permission. -/
theorem zero_copy_layout_account :
    decodeAuthority kitDecoders (discriminator ++ encodeHeader ⟨.fill 1, .fill 2, .fill 3, 255, 254, 1, 8, 0⟩
        ++ encodeSpendCap ⟨10, 4, 100, 60⟩ ++ [0, 0, 0, 0] ++ [1, 0, 0, 0] ++ encodeMintCap ⟨.fill 5, 7, 7, 100, 3600⟩
        ++ [1, 0, 0, 0] ++ List.replicate 32 9 ++ [1]) =
      some ⟨discriminator, ⟨.fill 1, .fill 2, .fill 3, 255, 254, 1, 8, 0⟩, ⟨10, 4, 100, 60⟩, 0, [⟨.fill 5, 7, 7, 100, 3600⟩],
        [⟨.fill 9, .allInstructions⟩]⟩ :=
  (@zero_copy_layout ⟨56, 80, 96, 32⟩ kitDecoders kitDecoders_documented).2.2.2.1 _ ⟨.fill 1, .fill 2, .fill 3, 255, 254, 1, 8, 0⟩
    ⟨10, 4, 100, 60⟩ [⟨.fill 5, 7, 7, 100, 3600⟩] [⟨.fill 9, .allInstructions⟩] (by decide +kernel) (by decide +kernel)

/-- `parse_layout` leaves the discriminator to `read_header`. -/
theorem zero_copy_layout_untagged :
    parseLayout (List.replicate 156 0) = .ok 152 ∧
      ¬ ∃ header sol mints head tail, Authority.serializeHead ⟨header, sol, 0, mints, []⟩ = some head ∧
        List.replicate 156 0 = discriminator ++ head ++ tail := by
  refine ⟨by decide +kernel, ?_⟩
  rintro ⟨header, sol, mints, head, tail, -, h⟩
  have hfirst := congrArg List.head? h
  simp [discriminator] at hfirst

end PhygitalWallet.Client
