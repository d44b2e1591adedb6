import PhygitalWallet.Program.PermissionCodec
import PhygitalWallet.Program.SpendingLimit

/-!
# The authority account (`state.rs`)

The account is read and written in place: the discriminator and the fixed header, the SOL cap, four bytes of padding,
the mint caps behind a `u32` count, and the permission tail. Every slice of the source is a range that panics when it
is not inside the data.

- `readHeaderMut_iff`, `readHeader_iff`, `readPolicyMut_iff`, `readPolicy_iff`: a read succeeds exactly on the layout of what it returns;
- `setPolicyVersion_layout`, `storePolicyMut_layout`, `writePolicy_layout`: a write gives the layout of what it wrote;
- `Authority.read_present`, `Authority.read_absent`: what a stored policy, and a cleared one, read as.
-/

namespace PhygitalWallet

open ByteSeq ByteCodec Borsh

/-! ## Data -/

structure AuthorityHeader where
  authority : Pubkey
  phygitalToken : Pubkey
  payer : Pubkey
  bump : UInt8
  walletBump : UInt8
  version : UInt8
  policyVersion : UInt8
  /-- `_padding: [u8; 4]`, as the number the bytes spell. -/
  padding : UInt32
deriving DecidableEq, Repr

structure MintCap where
  mint : Pubkey
  cap : SpendCap
deriving DecidableEq, Repr

def authorityVersion : UInt8 := 1
def walletPolicyVersion : UInt8 := 8

/-- `Authority::DISCRIMINATOR`. -/
def discriminator : Bytes := [36, 108, 254, 18, 167, 144, 27, 36]

def discriminatorLen : Nat := 8
def headerSize : Nat := 104
def spendCapSize : Nat := 32
def mintCapSize : Nat := 64
def solCapOffset : Nat := discriminatorLen + headerSize
def solCapEnd : Nat := solCapOffset + spendCapSize
def paddingOffset : Nat := solCapEnd
def mintLenOffset : Nat := paddingOffset + 4
def mintsOffset : Nat := mintLenOffset + 4
def baseLen : Nat := mintsOffset + 4

/-! ## Bytes of the `Pod` types -/

def encodeHeader (h : AuthorityHeader) : Bytes :=
  encodePubkey h.authority ++ encodePubkey h.phygitalToken ++ encodePubkey h.payer ++ encodeU8 h.bump
    ++ encodeU8 h.walletBump ++ encodeU8 h.version ++ encodeU8 h.policyVersion ++ encodeU32 h.padding

def encodeSpendCap (c : SpendCap) : Bytes :=
  encodeU64 c.cap ++ encodeU64 c.remaining ++ encodeI64 c.lastReset ++ encodeI64 c.windowSeconds

def encodeMintCap (m : MintCap) : Bytes := encodePubkey m.mint ++ encodeSpendCap m.cap

def podHeader : Reader AuthorityHeader := do
  let authority ← readPubkey
  let phygitalToken ← readPubkey
  let payer ← readPubkey
  let bump ← u8 malformed
  let walletBump ← u8 malformed
  let version ← u8 malformed
  let policyVersion ← u8 malformed
  let padding ← u32 malformed
  pure { authority, phygitalToken, payer, bump, walletBump, version, policyVersion, padding }

def podSpendCap : Reader SpendCap := do
  let cap ← u64 malformed
  let remaining ← u64 malformed
  let lastReset ← i64 malformed
  let windowSeconds ← i64 malformed
  pure { cap, remaining, lastReset, windowSeconds }

def podMintCap : Reader MintCap := do
  let mint ← readPubkey
  let cap ← podSpendCap
  pure { mint, cap }

/-- `bytemuck::try_from_bytes::<AuthorityHeader>`; the type has alignment one. -/
def headerOfBytes (bs : Bytes) : Option AuthorityHeader := runAll podHeader bs

/-- `bytemuck::try_from_bytes::<SpendCap>`; the offset is a multiple of the alignment. -/
def spendCapOfBytes (bs : Bytes) : Option SpendCap := runAll podSpendCap bs

/-- `bytemuck::try_cast_slice::<u8, MintCap>`. -/
def mintCapsOfBytes (bs : Bytes) : Option (List MintCap) := runAll (repeatN podMintCap (bs.length / mintCapSize)) bs

/-! ## Reads -/

/-- A range that panics when it is not inside the data. -/
def rangeOf (data : Bytes) (a b : Nat) : Result Bytes := orPanic (getRange data a b)

/-- A `usize` that did not overflow. -/
def checkedUsize (n : Nat) : Option Nat := if n < 2 ^ 64 then some n else none

def withMintCount (mintCount : Nat) : Result Nat :=
  okOr ((checkedUsize (mintCount * mintCapSize)).bind fun bytes => checkedUsize (baseLen + bytes)) .invalidPolicyArgs

/-- The checks that `read_header` and `read_header_mut` share. -/
def readHeaderMut (data : Bytes) : Result AuthorityHeader := do
  require (solCapOffset ≤ data.length) .invalidAccountData
  let tag ← rangeOf data 0 discriminatorLen
  require (tag = discriminator) .invalidAccountData
  let bytes ← rangeOf data discriminatorLen solCapOffset
  okOr (headerOfBytes bytes) .invalidAccountData

def readHeader (data : Bytes) : Result AuthorityHeader := do
  let header ← readHeaderMut data
  require (header.version = authorityVersion) .unsupportedAuthorityVersion
  return header

/-- Locate the mint array and permission tail. -/
def parseLayout (data : Bytes) : Result Nat := do
  require (baseLen ≤ data.length) .invalidAccountData
  let padding ← rangeOf data paddingOffset mintLenOffset
  require (padding = [0, 0, 0, 0]) .invalidAccountData
  let count ← rangeOf data mintLenOffset mintsOffset
  let tailStart ← okOr ((checkedUsize (ofLE count * mintCapSize)).bind fun bytes => checkedUsize (mintsOffset + bytes))
    .invalidAccountData
  require (tailStart ≤ data.length ∧ 4 ≤ data.length - tailStart) .invalidAccountData
  return tailStart

/-- Header plus whether the inline policy is active. -/
def Authority.read (data : Bytes) : Result (AuthorityHeader × Bool) := do
  let header ← readHeader data
  if header.policyVersion = 0 then
    require (data.length = baseLen ∧ (sliceFrom data solCapOffset).all (· = 0) = true) .invalidAccountData
    return (header, false)
  else if header.policyVersion = walletPolicyVersion then
    let _ ← parseLayout data
    return (header, true)
  else err .unsupportedPolicyVersion

/-- The caps, as `read_policy_mut` borrows them. -/
def readPolicyMut (data : Bytes) : Result (SpendCap × List MintCap) := do
  let tailStart ← parseLayout data
  let solBytes ← rangeOf data solCapOffset solCapEnd
  let sol ← okOr (spendCapOfBytes solBytes) .invalidAccountData
  let mintBytes ← rangeOf data mintsOffset tailStart
  let mints ← okOr (mintCapsOfBytes mintBytes) .invalidAccountData
  return (sol, mints)

section Sizes

variable [HeapSizes]

def readPolicy (data : Bytes) : Result (SpendCap × List MintCap × List ProgramPermission) := do
  let tailStart ← parseLayout data
  let solBytes ← rangeOf data solCapOffset solCapEnd
  let sol ← okOr (spendCapOfBytes solBytes) .invalidAccountData
  let mintBytes ← rangeOf data mintsOffset tailStart
  let mints ← okOr (mintCapsOfBytes mintBytes) .invalidAccountData
  let permissions ← decodePermissions (sliceFrom data tailStart)
  return (sol, mints, permissions)

end Sizes

/-! ## Writes -/

/-- `read_header_mut(data)?.policy_version = version`. -/
def setPolicyVersion (data : Bytes) (version : UInt8) : Result Bytes := do
  let header ← readHeaderMut data
  return data.take discriminatorLen ++ encodeHeader { header with policyVersion := version } ++ data.drop solCapOffset

/-- The data after writing through the borrows of `read_policy_mut`. -/
def storePolicyMut (data : Bytes) (sol : SpendCap) (mints : List MintCap) : Bytes :=
  data.take solCapOffset ++ encodeSpendCap sol ++ slice data solCapEnd mintsOffset ++ mints.flatMap encodeMintCap
    ++ data.drop (mintsOffset + mints.length * mintCapSize)

/-- `data[a..b].copy_from_slice(src)`. -/
def overwrite (data : Bytes) (a b : Nat) (src : Bytes) : Result Bytes := orPanic (copyInto data a b src)

def writePolicy (data : Bytes) (sol : SpendCap) (mints : List MintCap) (permissions : Bytes) : Result Bytes := do
  let data ← overwrite data solCapOffset solCapEnd (encodeSpendCap sol)
  let data ← overwrite data paddingOffset mintLenOffset [0, 0, 0, 0]
  let data ← overwrite data mintLenOffset mintsOffset (encodeU32 (UInt32.ofNat mints.length))
  let tailStart := mintsOffset + mints.length * mintCapSize
  let data ← overwrite data mintsOffset tailStart (mints.flatMap encodeMintCap)
  overwrite data tailStart data.length permissions

/-! ## The pod readers are the inverses of the encoders -/

theorem decodes_podSpendCap : Decodes podSpendCap (Format.plain encodeSpendCap) := by
  refine ((decodes_u64 malformed).bind SpendCap.cap (fun _ =>
    (decodes_u64 malformed).bind SpendCap.remaining (fun _ =>
    (decodes_i64 malformed).bind SpendCap.lastReset (fun _ =>
    (decodes_i64 malformed).bind SpendCap.windowSeconds (fun _ =>
    Decodes.pure _) ?_) ?_) ?_) ?_).congr (fun c => ?_) (fun c _ => ?_)
  · intro _ c _ h
    exact congrArg SpendCap.windowSeconds h
  · intro _ c _ h
    exact congrArg SpendCap.lastReset h.2
  · intro _ c _ h
    exact congrArg SpendCap.remaining h.2.2
  · intro _ c _ h
    exact congrArg SpendCap.cap h.2.2.2
  · simp
  · simp [encodeSpendCap]

theorem decodes_podMintCap : Decodes podMintCap (Format.plain encodeMintCap) := by
  refine (decodes_readPubkey.bind MintCap.mint (fun _ =>
    decodes_podSpendCap.bind MintCap.cap (fun _ => Decodes.pure _) ?_) ?_).congr (fun m => ?_) (fun m _ => ?_)
  · intro _ m _ h
    exact congrArg MintCap.cap h
  · intro _ m _ h
    exact congrArg MintCap.mint h.2
  · simp
  · simp [encodeMintCap]

theorem decodes_podHeader : Decodes podHeader (Format.plain encodeHeader) := by
  refine (decodes_readPubkey.bind AuthorityHeader.authority (fun _ =>
    decodes_readPubkey.bind AuthorityHeader.phygitalToken (fun _ =>
    decodes_readPubkey.bind AuthorityHeader.payer (fun _ =>
    (decodes_u8 malformed).bind AuthorityHeader.bump (fun _ =>
    (decodes_u8 malformed).bind AuthorityHeader.walletBump (fun _ =>
    (decodes_u8 malformed).bind AuthorityHeader.version (fun _ =>
    (decodes_u8 malformed).bind AuthorityHeader.policyVersion (fun _ =>
    (decodes_u32 malformed).bind AuthorityHeader.padding (fun _ =>
    Decodes.pure _) ?_) ?_) ?_) ?_) ?_) ?_) ?_) ?_).congr (fun h => ?_) (fun h _ => ?_)
  · intro _ h _ hv
    exact congrArg AuthorityHeader.padding hv
  · intro _ h _ hv
    exact congrArg AuthorityHeader.policyVersion hv.2
  · intro _ h _ hv
    exact congrArg AuthorityHeader.version hv.2.2
  · intro _ h _ hv
    exact congrArg AuthorityHeader.walletBump hv.2.2.2
  · intro _ h _ hv
    exact congrArg AuthorityHeader.bump hv.2.2.2.2
  · intro _ h _ hv
    exact congrArg AuthorityHeader.payer hv.2.2.2.2.2
  · intro _ h _ hv
    exact congrArg AuthorityHeader.phygitalToken hv.2.2.2.2.2.2
  · intro _ h _ hv
    exact congrArg AuthorityHeader.authority hv.2.2.2.2.2.2.2
  · simp
  · simp [encodeHeader]

@[simp] theorem length_encodeSpendCap (c : SpendCap) : (encodeSpendCap c).length = spendCapSize := by
  simp [encodeSpendCap, encodeU64, encodeI64, spendCapSize]

@[simp] theorem length_encodeMintCap (m : MintCap) : (encodeMintCap m).length = mintCapSize := by
  simp [encodeMintCap, encodePubkey, m.mint.length_eq, spendCapSize, mintCapSize]

@[simp] theorem length_encodeHeader (h : AuthorityHeader) : (encodeHeader h).length = headerSize := by
  simp [encodeHeader, encodePubkey, h.authority.length_eq, h.phygitalToken.length_eq, h.payer.length_eq, encodeU8,
    encodeU32, headerSize]

@[simp] theorem length_flatMap_encodeMintCap (mints : List MintCap) :
    (mints.flatMap encodeMintCap).length = mints.length * mintCapSize := by
  induction mints with
  | nil => rfl
  | cons m mints ih =>
    simp only [List.flatMap_cons, List.length_append, length_encodeMintCap, ih, List.length_cons]
    rw [Nat.succ_mul, Nat.add_comm]

theorem spendCapOfBytes_eq_some {bs : Bytes} {c : SpendCap} : spendCapOfBytes bs = some c ↔ bs = encodeSpendCap c := by
  rw [spendCapOfBytes, runAll_eq decodes_podSpendCap fun _ _ => rfl]
  simp

theorem headerOfBytes_eq_some {bs : Bytes} {h : AuthorityHeader} : headerOfBytes bs = some h ↔ bs = encodeHeader h := by
  rw [headerOfBytes, runAll_eq decodes_podHeader fun _ _ => rfl]
  simp

theorem mintCapsOfBytes_eq_some {bs : Bytes} {mints : List MintCap} :
    mintCapsOfBytes bs = some mints ↔ bs = mints.flatMap encodeMintCap := by
  rw [mintCapsOfBytes, runAll_eq (decodes_repeat decodes_podMintCap _) fun as _ => by simp [Format.repeat, Format.plain]]
  constructor
  · exact fun h => h.2
  · rintro rfl
    refine ⟨⟨?_, fun _ _ => trivial⟩, rfl⟩
    rw [length_flatMap_encodeMintCap, Nat.mul_div_cancel _ (by decide)]

/-! ## Layouts -/

/-- The caps and the tail behind the first 112 bytes. -/
def policyBytes (head : Bytes) (sol : SpendCap) (mints : List MintCap) (tail : Bytes) : Bytes :=
  head ++ encodeSpendCap sol ++ [0, 0, 0, 0] ++ toLE 4 mints.length ++ mints.flatMap encodeMintCap ++ tail

/-- The data is laid out as these caps and this tail. -/
structure PolicyLayout (data head : Bytes) (sol : SpendCap) (mints : List MintCap) (tail : Bytes) : Prop where
  eq : data = policyBytes head sol mints tail
  head_length : head.length = solCapOffset
  mints_length : mints.length < 2 ^ 32
  tail_length : 4 ≤ tail.length

namespace PolicyLayout

variable {data head tail : Bytes} {sol : SpendCap} {mints : List MintCap}

theorem length_eq (h : PolicyLayout data head sol mints tail) :
    data.length = mintsOffset + mints.length * mintCapSize + tail.length := by
  rw [h.eq]
  simp only [policyBytes, List.length_append, h.head_length, length_encodeSpendCap, length_toLE,
    length_flatMap_encodeMintCap]
  rfl

theorem range_sol (h : PolicyLayout data head sol mints tail) :
    rangeOf data solCapOffset solCapEnd = .ok (encodeSpendCap sol) := by
  rw [rangeOf, orPanic_eq_ok]
  refine getRange_eq head ([0, 0, 0, 0] ++ toLE 4 mints.length ++ mints.flatMap encodeMintCap ++ tail)
    ?_ h.head_length ?_
  · rw [h.eq, policyBytes]
    simp only [List.append_assoc]
  · rw [length_encodeSpendCap]
    rfl

theorem range_padding (h : PolicyLayout data head sol mints tail) :
    rangeOf data paddingOffset mintLenOffset = .ok [0, 0, 0, 0] := by
  rw [rangeOf, orPanic_eq_ok]
  refine getRange_eq (head ++ encodeSpendCap sol) (toLE 4 mints.length ++ mints.flatMap encodeMintCap ++ tail)
    ?_ ?_ rfl
  · rw [h.eq, policyBytes]
    simp only [List.append_assoc]
  · rw [List.length_append, h.head_length, length_encodeSpendCap]
    rfl

theorem range_count (h : PolicyLayout data head sol mints tail) :
    rangeOf data mintLenOffset mintsOffset = .ok (toLE 4 mints.length) := by
  rw [rangeOf, orPanic_eq_ok]
  refine getRange_eq (head ++ encodeSpendCap sol ++ [0, 0, 0, 0]) (mints.flatMap encodeMintCap ++ tail)
    ?_ ?_ ?_
  · rw [h.eq, policyBytes]
    simp only [List.append_assoc]
  · rw [List.length_append, List.length_append, h.head_length, length_encodeSpendCap]
    rfl
  · rw [length_toLE]
    rfl

theorem range_mints (h : PolicyLayout data head sol mints tail) :
    rangeOf data mintsOffset (mintsOffset + mints.length * mintCapSize) = .ok (mints.flatMap encodeMintCap) := by
  rw [rangeOf, orPanic_eq_ok]
  refine getRange_eq (head ++ encodeSpendCap sol ++ [0, 0, 0, 0] ++ toLE 4 mints.length) tail ?_ ?_ ?_
  · rw [h.eq, policyBytes]
  · simp only [List.length_append, h.head_length, length_encodeSpendCap, length_toLE]
    rfl
  · rw [length_flatMap_encodeMintCap]

theorem tail_eq (h : PolicyLayout data head sol mints tail) :
    sliceFrom data (mintsOffset + mints.length * mintCapSize) = tail := by
  refine sliceFrom_eq (head ++ encodeSpendCap sol ++ [0, 0, 0, 0] ++ toLE 4 mints.length ++ mints.flatMap encodeMintCap)
    tail ?_ ?_
  · rw [h.eq, policyBytes]
  · simp only [List.length_append, h.head_length, length_encodeSpendCap, length_toLE, length_flatMap_encodeMintCap]
    rfl

theorem parseLayout_eq (h : PolicyLayout data head sol mints tail) :
    parseLayout data = .ok (mintsOffset + mints.length * mintCapSize) := by
  have hlen := h.length_eq
  have htail := h.tail_length
  have hcount := h.mints_length
  have hle : ofLE (toLE 4 mints.length) = mints.length := ofLE_toLE (by simpa using hcount)
  have hmul : mints.length * mintCapSize < 2 ^ 64 := by unfold mintCapSize; omega
  have hend : mintsOffset + mints.length * mintCapSize < 2 ^ 64 := by
    have : mintsOffset = 152 := rfl
    unfold mintCapSize
    omega
  simp only [parseLayout, bind_eq_ok, require_eq_ok, exists_const]
  refine ⟨?_, _, h.range_padding, rfl, _, h.range_count, mintsOffset + mints.length * mintCapSize, ?_, ?_⟩
  · have : baseLen = mintsOffset + 4 := rfl
    omega
  · rw [hle, checkedUsize, if_pos hmul, Option.bind_some, checkedUsize, if_pos hend]
    rfl
  · exact ⟨by omega, rfl⟩

end PolicyLayout

theorem checkedUsize_eq_some {n m : Nat} (h : checkedUsize n = some m) : m = n := by
  unfold checkedUsize at h
  split at h
  · cases h; rfl
  · cases h

theorem rangeOf_eq_ok {data out : Bytes} {a b : Nat} (h : rangeOf data a b = .ok out) :
    b ≤ data.length ∧ slice data a b = out := by
  rw [rangeOf, orPanic_eq_ok] at h
  exact (getRange_eq_some h).2

/-- What `parse_layout` has checked, with the data cut at the offsets. -/
theorem parseLayout_ok {data : Bytes} {tailStart : Nat} (h : parseLayout data = .ok tailStart) :
    ∃ count, count < 2 ^ 32 ∧ tailStart = mintsOffset + count * mintCapSize ∧ tailStart + 4 ≤ data.length ∧
      data = data.take solCapOffset ++ slice data solCapOffset solCapEnd ++ [0, 0, 0, 0] ++ toLE 4 count
        ++ slice data mintsOffset tailStart ++ sliceFrom data tailStart := by
  simp only [parseLayout, bind_eq_ok, require_eq_ok, exists_const, okOr_eq_ok, pure_eq_ok] at h
  obtain ⟨hbase, _, hpad, rfl, countBytes, hcount, e, he, ⟨hle, hfour⟩, rfl⟩ := h
  obtain ⟨-, hpad⟩ := rangeOf_eq_ok hpad
  obtain ⟨hmo, hcount⟩ := rangeOf_eq_ok hcount
  obtain ⟨n, hn, he⟩ := Option.bind_eq_some_iff.1 he
  obtain rfl := checkedUsize_eq_some hn
  obtain rfl := checkedUsize_eq_some he
  have hcl : countBytes.length = 4 := by
    rw [← hcount, length_slice hmo]
    rfl
  have hlt := ofLE_lt countBytes
  rw [hcl] at hlt
  refine ⟨ofLE countBytes, hlt, rfl, by omega, ?_⟩
  have hLE := toLE_ofLE countBytes
  rw [hcl] at hLE
  rw [hLE, ← hcount, ← hpad, ← take_eq_slice (b := solCapEnd) (by decide), show solCapEnd = paddingOffset from rfl,
    ← take_eq_slice (b := mintLenOffset) (by decide), ← take_eq_slice (b := mintsOffset) (by decide),
    ← take_eq_slice (Nat.le_add_right _ _), sliceFrom, List.take_append_drop]

/-- **The caps that a policy account holds.** -/
theorem readPolicyMut_iff {data : Bytes} {sol : SpendCap} {mints : List MintCap} :
    readPolicyMut data = .ok (sol, mints) ↔ ∃ head tail, PolicyLayout data head sol mints tail := by
  constructor
  · intro h
    simp only [readPolicyMut, bind_eq_ok, okOr_eq_ok, spendCapOfBytes_eq_some, mintCapsOfBytes_eq_some] at h
    obtain ⟨tailStart, hparse, solBytes, hsol, sol', hsolEq, mintBytes, hmints, mints', hmintsEq, hret⟩ := h
    cases hret
    obtain ⟨count, hcount, rfl, hlen, hcut⟩ := parseLayout_ok hparse
    obtain ⟨hsl, rfl⟩ := rangeOf_eq_ok hsol
    obtain ⟨-, rfl⟩ := rangeOf_eq_ok hmints
    have hmints_len : mints.length = count := by
      have h₁ := congrArg List.length hmintsEq
      rw [length_flatMap_encodeMintCap, length_slice (by omega)] at h₁
      unfold mintCapSize at h₁
      omega
    refine ⟨data.take solCapOffset, sliceFrom data (mintsOffset + count * mintCapSize), ?_, ?_, by omega, ?_⟩
    · rw [policyBytes, ← hsolEq, ← hmintsEq, hmints_len]
      exact hcut
    · rw [List.length_take]
      have : solCapEnd = solCapOffset + 32 := rfl
      omega
    · rw [sliceFrom, List.length_drop]
      omega
  · rintro ⟨head, tail, h⟩
    simp only [readPolicyMut, bind_eq_ok]
    exact ⟨_, h.parseLayout_eq, _, h.range_sol, _, by rw [okOr_eq_ok, spendCapOfBytes_eq_some], _, h.range_mints, _,
      by rw [okOr_eq_ok, mintCapsOfBytes_eq_some], rfl⟩

section Sizes

variable [HeapSizes]

/-- **The policy that a policy account holds.** -/
theorem readPolicy_iff {data : Bytes} {sol : SpendCap} {mints : List MintCap} {permissions : List ProgramPermission} :
    readPolicy data = .ok (sol, mints, permissions) ↔
      ∃ head tail, PolicyLayout data head sol mints tail ∧ decodePermissions tail = .ok permissions := by
  constructor
  · intro h
    simp only [readPolicy, bind_eq_ok] at h
    obtain ⟨tailStart, hparse, solBytes, hsol, sol', hsolEq, mintBytes, hmints, mints', hmintsEq, ps, hps, hret⟩ := h
    cases hret
    have hmut : readPolicyMut data = .ok (sol, mints) := by
      simp only [readPolicyMut, bind_eq_ok]
      exact ⟨_, hparse, _, hsol, _, hsolEq, _, hmints, _, hmintsEq, rfl⟩
    obtain ⟨head, tail, hl⟩ := readPolicyMut_iff.1 hmut
    have ht : tailStart = mintsOffset + mints.length * mintCapSize :=
      Except.ok.inj (hparse.symm.trans hl.parseLayout_eq)
    rw [ht, hl.tail_eq] at hps
    exact ⟨head, tail, hl, hps⟩
  · rintro ⟨head, tail, h, hps⟩
    simp only [readPolicy, bind_eq_ok]
    exact ⟨_, h.parseLayout_eq, _, h.range_sol, _, by rw [okOr_eq_ok, spendCapOfBytes_eq_some], _, h.range_mints, _,
      by rw [okOr_eq_ok, mintCapsOfBytes_eq_some], _, by rw [h.tail_eq, hps], rfl⟩

/-- `read_policy` and `read_policy_mut` see the same caps. -/
theorem readPolicyMut_of_readPolicy {data : Bytes} {sol : SpendCap} {mints : List MintCap}
    {permissions : List ProgramPermission} (h : readPolicy data = .ok (sol, mints, permissions)) :
    readPolicyMut data = .ok (sol, mints) := by
  obtain ⟨head, tail, hl, -⟩ := readPolicy_iff.1 h
  exact readPolicyMut_iff.2 ⟨head, tail, hl⟩

end Sizes

/-! ## What the writes leave -/

/-- Writing through the borrows replaces the caps and nothing else. -/
theorem storePolicyMut_layout {data head tail : Bytes} {sol sol' : SpendCap} {mints mints' : List MintCap}
    (h : PolicyLayout data head sol mints tail) (hlen : mints'.length = mints.length) :
    PolicyLayout (storePolicyMut data sol' mints') head sol' mints' tail := by
  refine ⟨?_, h.head_length, by rw [hlen]; exact h.mints_length, h.tail_length⟩
  have hhead : data.take solCapOffset = head := by
    rw [h.eq, policyBytes]
    simp only [List.append_assoc]
    rw [← h.head_length, List.take_left]
  have hmid : slice data solCapEnd mintsOffset = [0, 0, 0, 0] ++ toLE 4 mints.length := by
    refine slice_eq (head ++ encodeSpendCap sol) (mints.flatMap encodeMintCap ++ tail) ?_ ?_ ?_
    · rw [h.eq, policyBytes]
      simp only [List.append_assoc]
    · rw [List.length_append, h.head_length, length_encodeSpendCap]
      rfl
    · rw [List.length_append, length_toLE]
      rfl
  have htail : data.drop (mintsOffset + mints'.length * mintCapSize) = tail := by
    rw [hlen]
    exact h.tail_eq
  rw [storePolicyMut, hhead, hmid, htail, policyBytes, hlen]
  simp only [List.append_assoc]

/-- The caps read back are the caps written, and the permissions are untouched. -/
theorem readPolicy_storePolicyMut [HeapSizes] {data : Bytes} {sol sol' : SpendCap} {mints mints' : List MintCap}
    {permissions : List ProgramPermission} (h : readPolicy data = .ok (sol, mints, permissions))
    (hlen : mints'.length = mints.length) :
    readPolicy (storePolicyMut data sol' mints') = .ok (sol', mints', permissions) := by
  obtain ⟨head, tail, hl, hps⟩ := readPolicy_iff.1 h
  exact readPolicy_iff.2 ⟨head, tail, storePolicyMut_layout hl hlen, hps⟩

/-! ## The header -/

/-- The discriminator and the header. -/
def headBytes (h : AuthorityHeader) : Bytes := discriminator ++ encodeHeader h

@[simp] theorem length_headBytes (h : AuthorityHeader) : (headBytes h).length = solCapOffset := by
  rw [headBytes, List.length_append, length_encodeHeader]
  rfl

/-- **The header that an account holds.** -/
theorem readHeaderMut_iff {data : Bytes} {h : AuthorityHeader} :
    readHeaderMut data = .ok h ↔ ∃ rest, data = headBytes h ++ rest := by
  simp only [readHeaderMut, bind_eq_ok, require_eq_ok, exists_const, okOr_eq_ok, headerOfBytes_eq_some]
  constructor
  · rintro ⟨hlen, _, htag, rfl, bytes, hbytes, rfl⟩
    obtain ⟨htl, htag⟩ := rangeOf_eq_ok htag
    obtain ⟨-, hbytes⟩ := rangeOf_eq_ok hbytes
    refine ⟨data.drop solCapOffset, ?_⟩
    have hcut : data.take discriminatorLen ++ slice data discriminatorLen solCapOffset = data.take solCapOffset :=
      (take_eq_slice (by decide)).symm
    have hstart : slice data 0 discriminatorLen = data.take discriminatorLen := by simp [slice]
    rw [headBytes, ← hbytes, ← htag, hstart, hcut, List.take_append_drop]
  · rintro ⟨rest, rfl⟩
    refine ⟨?_, discriminator, ?_, rfl, encodeHeader h, ?_, rfl⟩
    · rw [List.length_append, length_headBytes]
      exact Nat.le_add_right _ _
    · exact orPanic_eq_ok.2 (getRange_eq [] (encodeHeader h ++ rest) (by simp [headBytes]) rfl rfl)
    · refine orPanic_eq_ok.2 (getRange_eq discriminator rest (by simp [headBytes]) rfl ?_)
      rw [length_encodeHeader]
      rfl

theorem readHeader_iff {data : Bytes} {h : AuthorityHeader} :
    readHeader data = .ok h ↔ (∃ rest, data = headBytes h ++ rest) ∧ h.version = authorityVersion := by
  simp only [readHeader, bind_eq_ok, readHeaderMut_iff, require_eq_ok, exists_const, pure_eq_ok]
  constructor
  · rintro ⟨h', hdata, hv, rfl⟩
    exact ⟨hdata, hv⟩
  · rintro ⟨hdata, hv⟩
    exact ⟨h, hdata, hv, rfl⟩

/-- The version is written in place. -/
theorem setPolicyVersion_layout (h : AuthorityHeader) (rest : Bytes) (version : UInt8) :
    setPolicyVersion (headBytes h ++ rest) version = .ok (headBytes { h with policyVersion := version } ++ rest) := by
  have htake : (headBytes h ++ rest).take discriminatorLen = discriminator := by
    rw [headBytes, List.append_assoc, show discriminatorLen = discriminator.length from rfl, List.take_left]
  have hdrop : (headBytes h ++ rest).drop solCapOffset = rest := by
    rw [← length_headBytes h, List.drop_left]
  rw [setPolicyVersion, readHeaderMut_iff.2 ⟨rest, rfl⟩, ok_bind, htake, hdrop]
  rfl

/-- Writing the policy into a tail of the right length. -/
theorem writePolicy_layout {head rest permissions : Bytes} {sol : SpendCap} {mints : List MintCap}
    (hhead : head.length = solCapOffset)
    (hlen : (head ++ rest).length = mintsOffset + mints.length * mintCapSize + permissions.length)
    (hcount : mints.length < 2 ^ 32) :
    writePolicy (head ++ rest) sol mints permissions = .ok (policyBytes head sol mints permissions) := by
  have hrest : rest.length = 32 + (4 + (4 + (mints.length * mintCapSize + permissions.length))) := by
    rw [List.length_append, hhead] at hlen
    have : mintsOffset = solCapOffset + 40 := rfl
    omega
  -- the old fields, one after another
  obtain ⟨sol₀, _, rfl, hsol, hrest⟩ := exists_append hrest
  obtain ⟨pad₀, _, rfl, hpad, hrest⟩ := exists_append hrest
  obtain ⟨len₀, _, rfl, hlen₀, hrest⟩ := exists_append hrest
  obtain ⟨mints₀, tail₀, rfl, hmints, htail⟩ := exists_append hrest
  have hfour : encodeU32 (UInt32.ofNat mints.length) = toLE 4 mints.length := by
    rw [encodeU32, UInt32.toNat_ofNat', Nat.mod_eq_of_lt hcount]
  have h₁ : overwrite (head ++ (sol₀ ++ (pad₀ ++ (len₀ ++ (mints₀ ++ tail₀))))) solCapOffset solCapEnd (encodeSpendCap sol)
      = .ok (head ++ encodeSpendCap sol ++ (pad₀ ++ (len₀ ++ (mints₀ ++ tail₀)))) :=
    orPanic_eq_ok.2 (copyInto_eq head sol₀ _ (by simp) hhead (by rw [hsol]; rfl) (by simp [hsol, spendCapSize]))
  have hhead₂ : (head ++ encodeSpendCap sol).length = paddingOffset := by
    rw [List.length_append, hhead, length_encodeSpendCap]
    rfl
  have h₂ : overwrite (head ++ encodeSpendCap sol ++ (pad₀ ++ (len₀ ++ (mints₀ ++ tail₀)))) paddingOffset mintLenOffset
      [0, 0, 0, 0] = .ok (head ++ encodeSpendCap sol ++ [0, 0, 0, 0] ++ (len₀ ++ (mints₀ ++ tail₀))) :=
    orPanic_eq_ok.2 (copyInto_eq _ pad₀ _ (by simp) hhead₂ (by rw [hpad]; rfl) (by simp [hpad]))
  have hhead₃ : (head ++ encodeSpendCap sol ++ [0, 0, 0, 0]).length = mintLenOffset := by
    rw [List.length_append, hhead₂]
    rfl
  have h₃ : overwrite (head ++ encodeSpendCap sol ++ [0, 0, 0, 0] ++ (len₀ ++ (mints₀ ++ tail₀))) mintLenOffset mintsOffset
      (toLE 4 mints.length)
      = .ok (head ++ encodeSpendCap sol ++ [0, 0, 0, 0] ++ toLE 4 mints.length ++ (mints₀ ++ tail₀)) :=
    orPanic_eq_ok.2 (copyInto_eq _ len₀ _ (by simp) hhead₃ (by rw [hlen₀]; rfl) (by simp [hlen₀]))
  have hhead₄ : (head ++ encodeSpendCap sol ++ [0, 0, 0, 0] ++ toLE 4 mints.length).length = mintsOffset := by
    rw [List.length_append, hhead₃, length_toLE]
    rfl
  have h₄ : overwrite (head ++ encodeSpendCap sol ++ [0, 0, 0, 0] ++ toLE 4 mints.length ++ (mints₀ ++ tail₀)) mintsOffset
      (mintsOffset + mints.length * mintCapSize) (mints.flatMap encodeMintCap)
      = .ok (head ++ encodeSpendCap sol ++ [0, 0, 0, 0] ++ toLE 4 mints.length ++ mints.flatMap encodeMintCap ++ tail₀) :=
    orPanic_eq_ok.2 (copyInto_eq _ mints₀ _ (by simp) hhead₄ (by rw [hmints]) (by simp [hmints]))
  have hhead₅ : (head ++ encodeSpendCap sol ++ [0, 0, 0, 0] ++ toLE 4 mints.length
      ++ mints.flatMap encodeMintCap).length = mintsOffset + mints.length * mintCapSize := by
    rw [List.length_append, hhead₄, length_flatMap_encodeMintCap]
  have h₅ : overwrite (head ++ encodeSpendCap sol ++ [0, 0, 0, 0] ++ toLE 4 mints.length ++ mints.flatMap encodeMintCap
      ++ tail₀) (mintsOffset + mints.length * mintCapSize) (mintsOffset + mints.length * mintCapSize + tail₀.length)
      permissions = .ok (policyBytes head sol mints permissions) :=
    orPanic_eq_ok.2 (by
      rw [copyInto_eq _ tail₀ [] (by simp) hhead₅ rfl htail.symm, List.append_nil]
      rfl)
  have htotal : (head ++ encodeSpendCap sol ++ [0, 0, 0, 0] ++ toLE 4 mints.length ++ mints.flatMap encodeMintCap
      ++ tail₀).length = mintsOffset + mints.length * mintCapSize + tail₀.length := by
    rw [List.length_append, hhead₅]
  simp only [writePolicy, hfour, h₁, h₂, h₃, h₄, ok_bind, htotal, h₅]

theorem policyBytes_eq_append {head tail : Bytes} {sol : SpendCap} {mints : List MintCap} :
    policyBytes head sol mints tail = head ++ policyBytes [] sol mints tail := by
  simp only [policyBytes, List.append_assoc, List.nil_append]

/-- An active policy is read by its header and its layout. -/
theorem Authority.read_present {data tail : Bytes} {h : AuthorityHeader} {sol : SpendCap} {mints : List MintCap}
    (hl : PolicyLayout data (headBytes h) sol mints tail) (hv : h.version = authorityVersion)
    (hp : h.policyVersion = walletPolicyVersion) : Authority.read data = .ok (h, true) := by
  have hheader : readHeader data = .ok h :=
    readHeader_iff.2 ⟨⟨_, hl.eq.trans policyBytes_eq_append⟩, hv⟩
  have hne : ¬h.policyVersion = 0 := by
    rw [hp]
    decide
  simp only [Authority.read, hheader, ok_bind, if_neg hne, if_pos hp, hl.parseLayout_eq]
  rfl

/-- The policy bytes of an account without policy. -/
theorem policyBytes_empty (head : Bytes) :
    policyBytes head .empty [] [0, 0, 0, 0] = head ++ List.replicate 44 0 := by
  simp only [policyBytes, List.append_assoc]
  rfl

/-- An absent policy is read by its header and its zero bytes. -/
theorem Authority.read_absent {h : AuthorityHeader} (hv : h.version = authorityVersion) (hp : h.policyVersion = 0) :
    Authority.read (policyBytes (headBytes h) .empty [] [0, 0, 0, 0]) = .ok (h, false) := by
  have hheader : readHeader (policyBytes (headBytes h) .empty [] [0, 0, 0, 0]) = .ok h := by
    rw [policyBytes_empty]
    exact readHeader_iff.2 ⟨⟨_, rfl⟩, hv⟩
  have hlen : (headBytes h ++ List.replicate 44 0).length = baseLen := by
    rw [List.length_append, length_headBytes, List.length_replicate]
    rfl
  have hzero : (sliceFrom (headBytes h ++ List.replicate 44 0) solCapOffset).all (· = 0) = true := by
    rw [sliceFrom, ← length_headBytes h, List.drop_left]
    rfl
  rw [policyBytes_empty] at hheader ⊢
  rw [Authority.read, hheader, ok_bind, if_pos hp, require_of (And.intro hlen hzero)]
  rfl

end PhygitalWallet
