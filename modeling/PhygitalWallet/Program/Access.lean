import PhygitalWallet.Program.Compact

/-!
# Who may call (`utils/policy.rs`, `utils/phygital_token.rs`, `utils/slot_hash.rs`)

The checks that every handler makes before it does anything: the stack height, the durable nonce, the token account, the
authority account and the slot hash.

- `searchSlot_fuel`: the binary search ends by itself;
- `fetchSlotHash_panic`: it never reads outside the sysvar, so only a count that overflows makes it panic.
-/

namespace PhygitalWallet

open ByteSeq

/-! ## Anchor's constraints -/

def constraintMut : Nat := 2000
def constraintRaw : Nat := 2003
def constraintOwner : Nat := 2004
def constraintSeeds : Nat := 2006
def constraintExecutable : Nat := 2007
def constraintAddress : Nat := 2012
def accountDidNotSerialize : Nat := 3004
def invalidProgramId : Nat := 3008
def invalidProgramExecutable : Nat := 3009
def accountNotSigner : Nat := 3010

/-- A constraint with Anchor's own error. -/
def anchorRequire (c : Prop) [Decidable c] (code : Nat) : Result Unit := if c then .ok () else .error (.external code)

@[simp] theorem anchorRequire_eq_ok {c : Prop} [Decidable c] {code : Nat} {u : Unit} :
    anchorRequire c code = .ok u ↔ c := by
  unfold anchorRequire
  split <;> simp_all

/-- `solana_sdk_ids::sysvar::slot_hashes::ID`. -/
def slotHashesSysvarId : Pubkey :=
  ⟨[6, 167, 213, 23, 25, 47, 10, 175, 198, 242, 101, 227, 251, 119, 204, 122,
    218, 130, 197, 41, 208, 190, 59, 19, 110, 45, 0, 85, 32, 0, 0, 0], rfl⟩

/-- `solana_sdk_ids::sysvar::instructions::ID`. -/
def instructionsSysvarId : Pubkey :=
  ⟨[6, 167, 213, 23, 24, 123, 209, 102, 53, 218, 212, 4, 85, 253, 194, 192,
    193, 36, 198, 143, 33, 86, 117, 165, 219, 186, 203, 95, 8, 0, 0, 0], rfl⟩

/-! ## The transaction -/

/-- Block invoking sensitive instructions via CPI wrappers. -/
def requireTopLevel (rt : Runtime) : Result Unit := require (rt.stackHeight = 1) .executeViaCpiNotAllowed

def sysAdvanceNonce : Nat := 4

/-- A transaction is durable-nonced only when its first instruction is System `AdvanceNonceAccount`. -/
def rejectDurableNonce (rt : Runtime) (instructionsSysvar : Bytes) : Result Unit := do
  let (programId, data) ← okOr (rt.firstInstruction instructionsSysvar) .invalidSysvarDataFormat
  require (¬(programId = systemProgramId ∧ 4 ≤ data.length ∧ ofLE (data.take 4) = sysAdvanceNonce))
    .durableNonceNotAllowed

/-! ## The token account -/

def phyOwnerOffset : Nat := 8
def phyTokenTypeOffset : Nat := 76
def phyIsLockedOffset : Nat := 77

/-- Lock and type of the token account. -/
def lockedControlled (rt : Runtime) (data : Bytes) : Bool :=
  if data.length < phyIsLockedOffset + 1 then false
  else if slice data 0 8 ≠ rt.phygitalTokenDiscriminator then false
  else data[phyTokenTypeOffset]? = some rt.controlledType ∧ data[phyIsLockedOffset]? = some 1

/-- The wallet is the owner that the token account names. -/
def walletMatchesOwner (rt : Runtime) (wallet : Pubkey) (data : Bytes) : Bool :=
  if data.length < phyOwnerOffset + 32 ∨ slice data 0 8 ≠ rt.phygitalTokenDiscriminator then false
  else wallet.bytes = slice data phyOwnerOffset (phyOwnerOffset + 32)

/-! ## The authority account -/

/-- The header without the policy tail. -/
def readAuthorityHeader (account : Account) : Result AuthorityHeader := do
  require (account.owner = crateId) .invalidAccountData
  readHeader account.data

/-- `key` is the canonical authority PDA for `header`. -/
def requireCanonicalAuthorityAddress (rt : Runtime) (key : Pubkey) (header : AuthorityHeader) (programId : Pubkey) :
    Result Unit := do
  let canonical ← okOr (rt.createProgramAddress [authoritySeed, header.phygitalToken.bytes, [header.bump]] programId)
    .authorityTokenMismatch
  require (key = canonical) .authorityTokenMismatch

def assertCanonicalAuthorityPda (rt : Runtime) (key : Pubkey) (account : Account) (programId : Pubkey) :
    Result AuthorityHeader := do
  let header ← readAuthorityHeader account
  requireCanonicalAuthorityAddress rt key header programId
  return header

/-- The account is the canonical authority PDA and the signer its authority. -/
def authorizeAuthoritySigner (rt : Runtime) (key : Pubkey) (account : Account) (signer programId : Pubkey) :
    Result AuthorityHeader := do
  let header ← assertCanonicalAuthorityPda rt key account programId
  require (header.authority = signer) .authorityMismatch
  return header

/-! ## The slot hash -/

def entryLen : Nat := 40

/-- `a + b` and `a * b` on `usize`, under overflow checks. -/
def checkedEnd (count : Nat) : Result Nat :=
  orPanic ((checkedUsize (count * entryLen)).bind fun bytes => checkedUsize (8 + bytes))

/-- The `while left < right` loop, on `fuel` turns at most. -/
def searchSlot (data : Bytes) (slotNumber : UInt64) : Nat → Nat → Nat → Result Bytes
  | 0, _, _ => err .invalidSlotHash
  | fuel + 1, left, right =>
    if left < right then do
      let mid := left + (right - left) / 2
      let pos := 8 + mid * entryLen
      let bytes ← rangeOf data pos (pos + 8)
      let slot := u64Of bytes
      if slot = slotNumber then rangeOf data (pos + 8) (pos + 40)
      else if slotNumber < slot then searchSlot data slotNumber fuel (mid + 1) right
      else searchSlot data slotNumber fuel left mid
    else err .invalidSlotHash

/-- The entries are sorted by slot, newest first. -/
def fetchSlotHash (data : Bytes) (slotNumber : UInt64) : Result Bytes := do
  require (8 ≤ data.length) .invalidSysvarDataFormat
  let countBytes ← rangeOf data 0 8
  let count := ofLE countBytes
  require (0 < count) .invalidSysvarDataFormat
  let last ← checkedEnd count
  require (last ≤ data.length) .invalidSysvarDataFormat
  searchSlot data slotNumber count 0 count

/-- More fuel than entries changes nothing. -/
theorem searchSlot_fuel {data : Bytes} {slotNumber : UInt64} {fuel left right : Nat} (h : right - left ≤ fuel) :
    searchSlot data slotNumber (fuel + 1) left right = searchSlot data slotNumber fuel left right := by
  induction fuel generalizing left right with
  | zero =>
    have hdone : ¬left < right := by omega
    simp [searchSlot, hdone]
  | succ fuel ih =>
    rw [searchSlot.eq_2 data slotNumber left right (fuel + 1), searchSlot.eq_2 data slotNumber left right fuel]
    split
    · have hright : right - (left + (right - left) / 2 + 1) ≤ fuel := by omega
      have hleft : left + (right - left) / 2 - left ≤ fuel := by omega
      simp only [ih hright, ih hleft]
    · rfl

/-- Inside the entries, every read of the search is inside the data. -/
theorem searchSlot_ne_panic {data : Bytes} {slotNumber : UInt64} {count fuel left right : Nat}
    (hlen : 8 + count * entryLen ≤ data.length) (hr : right ≤ count) :
    searchSlot data slotNumber fuel left right ≠ .error .panic := by
  induction fuel generalizing left right with
  | zero => simp [searchSlot, err]
  | succ fuel ih =>
    rw [searchSlot]
    split
    · next hlt =>
      have hmid : left + (right - left) / 2 < count := by omega
      unfold entryLen at hlen ⊢
      have hslot : ∃ bytes, rangeOf data (8 + (left + (right - left) / 2) * 40) (8 + (left + (right - left) / 2) * 40 + 8)
          = .ok bytes := ⟨_, orPanic_eq_ok.2 (getRange_of_le (by omega) (by omega))⟩
      have hhash : ∃ bytes, rangeOf data (8 + (left + (right - left) / 2) * 40 + 8)
          (8 + (left + (right - left) / 2) * 40 + 40) = .ok bytes :=
        ⟨_, orPanic_eq_ok.2 (getRange_of_le (by omega) (by omega))⟩
      obtain ⟨bytes, hslot⟩ := hslot
      obtain ⟨hash, hhash⟩ := hhash
      simp only [hslot, ok_bind]
      split
      · simp [hhash]
      · split
        · exact ih hr
        · exact ih (by omega)
    · simp [err]

theorem checkedEnd_cases (count : Nat) :
    checkedEnd count = .ok (8 + count * entryLen) ∨ 2 ^ 64 ≤ 8 + count * entryLen := by
  by_cases h : 8 + count * entryLen < 2 ^ 64
  · left
    have hmul : count * entryLen < 2 ^ 64 := by omega
    rw [checkedEnd, checkedUsize, if_pos hmul, Option.bind_some, checkedUsize, if_pos h]
    rfl
  · exact Or.inr (by omega)

/-- Only a count whose entries would not fit in the address space makes the read panic. -/
theorem fetchSlotHash_panic {data : Bytes} {slotNumber : UInt64} (h : fetchSlotHash data slotNumber = .error .panic) :
    2 ^ 64 ≤ 8 + ofLE (slice data 0 8) * entryLen := by
  unfold fetchSlotHash at h
  by_cases hlen : 8 ≤ data.length
  · have hcount : rangeOf data 0 8 = .ok (slice data 0 8) := orPanic_eq_ok.2 (getRange_of_le (by omega) hlen)
    simp only [require_of hlen, hcount, ok_bind] at h
    by_cases hpos : 0 < ofLE (slice data 0 8)
    · rw [require_of hpos, ok_bind] at h
      rcases checkedEnd_cases (ofLE (slice data 0 8)) with hend | hend
      · rw [hend, ok_bind] at h
        by_cases hle : 8 + ofLE (slice data 0 8) * entryLen ≤ data.length
        · rw [require_of hle, ok_bind] at h
          exact absurd h (searchSlot_ne_panic hle le_rfl)
        · rw [require_of_not hle] at h
          cases h
      · exact hend
    · rw [require_of_not hpos] at h
      cases h
  · rw [require_of_not hlen] at h
    cases h

end PhygitalWallet
