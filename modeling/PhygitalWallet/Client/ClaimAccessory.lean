import PhygitalWallet.Client.Wrap
import PhygitalWallet.Program.AuthorityRun
import PhygitalWallet.Program.Claim

/-!
# Claiming an accessory (`wallet/claim-accessory.ts`, `utils/challenges.ts`)

The app reads the newest slot hash, the accessory signs a challenge over the token and the owner, and one
`set_authority` is sent with the signature.

- `hashSetAuthorityChallenge_eq`: the client hashes what the program hashes;
- `fetchLatestSlotHash_nodeAt`: the slot that the client reads is the newest entry of the sysvar;
- `claimAccessory_call`: the call that the program makes of the message;
- `claim_accessory`: what the signature is good for.
-/

namespace PhygitalWallet.Client

open ByteCodec ByteSeq Borsh ByteBuffer

/-! ## The challenge -/

structure SlotChallenge where
  slotNumber : UInt64
  messageHash : Bytes
deriving DecidableEq, Repr

/-- `getAccountInfo` with a `dataSlice`: the part of the data that is there, or no `value`. -/
abbrev GetAccountInfo := Pubkey → Nat → Nat → Option Bytes

/-- The answer of a node at this bank. -/
def nodeAt (bank : Bank) : GetAccountInfo := fun key offset length => some (slice (bank key).data offset (offset + length))

def fetchLatestSlotHash (getAccountInfo : GetAccountInfo) : Outcome SlotEntry :=
  match getAccountInfo slotHashesSysvarId 8 40 with
  | none => throwText [.text "Unable to fetch SlotHashes sysvar"]
  | some bytes => do
    let slotNumber ← decodeFrom (u64 codecError) (slice bytes 0 8)
    return { slotNumber, slotHash := slice bytes 8 40 }

def hashSetAuthorityChallenge (sha256 : Bytes → Bytes) (slotHash : Bytes) (phygitalToken authority : Pubkey) :
    Outcome Bytes := do
  let tokenBytes := phygitalToken.bytes
  let authorityBytes := authority.bytes
  let preimage := alloc (setAuthorityChallengePrefix.length + 32 + tokenBytes.length + authorityBytes.length)
  let preimage ← preimage.set .rangeError setAuthorityChallengePrefix
  let preimage ← (preimage.skip setAuthorityChallengePrefix.length).set .rangeError slotHash
  let preimage ← (preimage.skip 32).set .rangeError tokenBytes
  let preimage ← (preimage.skip tokenBytes.length).set .rangeError authorityBytes
  return sha256 preimage.out

/-- `withSlotChallenge` with the hash of `set_authority`. -/
def buildSetAuthorityChallenge (sha256 : Bytes → Bytes) (getAccountInfo : GetAccountInfo)
    (phygitalToken authority : Pubkey) : Outcome SlotChallenge := do
  let slot ← fetchLatestSlotHash getAccountInfo
  let messageHash ← hashSetAuthorityChallenge sha256 slot.slotHash phygitalToken authority
  return { slotNumber := slot.slotNumber, messageHash }

/-! ## The instruction -/

/-- `getSetAuthorityInstructionDataEncoder`. -/
def setAuthorityData (authority : Pubkey) (secp256r1VerifyArgs : Secp256r1VerifyArgs) (slotNumber : UInt64) :
    Outcome Bytes := do
  let verifyArgs ← encodeSecp256r1VerifyArgs secp256r1VerifyArgs
  return PhygitalWalletInstruction.setAuthority.discriminator ++ encodePubkey authority ++ verifyArgs
    ++ encodeU64 slotNumber

structure SetAuthorityInput where
  payer : Pubkey
  phygitalToken : Pubkey
  authority : Pubkey
  secp256r1VerifyArgs : Secp256r1VerifyArgs
  slotNumber : UInt64

/-- The wallet and the authority account are derived from the token. -/
def getSetAuthorityInstructionAsync (findWalletPda findAuthorityAccountPda : Pubkey → Pubkey) (input : SetAuthorityInput) :
    Outcome Instruction := do
  let wallet := findWalletPda input.phygitalToken
  let authorityAccount := findAuthorityAccountPda input.phygitalToken
  let data ← setAuthorityData input.authority input.secp256r1VerifyArgs input.slotNumber
  return {
    programAddress := crateId
    accounts := some [⟨input.payer, .writableSigner⟩, ⟨input.phygitalToken, .writable⟩, ⟨wallet, .readonly⟩,
      ⟨authorityAccount, .writable⟩, ⟨slotHashesSysvarId, .readonly⟩, ⟨instructionsSysvarId, .readonly⟩,
      ⟨phygitalTokenId, .readonly⟩, ⟨systemProgramId, .readonly⟩]
    data := some data }

/-! ## The claim -/

structure PreparedClaim where
  phygitalToken : Pubkey
  owner : Pubkey
  slotNumber : UInt64
  messageHash : Bytes
deriving DecidableEq, Repr

def prepareClaimAccessory (sha256 : Bytes → Bytes) (getAccountInfo : GetAccountInfo) (phygitalToken owner : Pubkey) :
    Outcome PreparedClaim := do
  let challenge ← buildSetAuthorityChallenge sha256 getAccountInfo phygitalToken owner
  return { phygitalToken, owner, slotNumber := challenge.slotNumber, messageHash := challenge.messageHash }

/-- What `buildSecp256r1VerifyInstruction` makes of a tap, with the token that was tapped. -/
structure ClaimTap extends Secp256r1Verify where
  phygitalTokenPda : Pubkey
deriving DecidableEq, Repr

/-- The answers of the passkey and of the fee payer's service, and the derived addresses. -/
structure ClaimServices where
  authenticate : Bytes → Outcome ClaimTap
  createDefaultFeePayer : Outcome Pubkey
  findWalletPda : Pubkey → Pubkey
  findAuthorityAccountPda : Pubkey → Pubkey

/-- The message that is sent. -/
def claimAccessory (services : ClaimServices) (prepared : PreparedClaim) : Outcome Message := do
  let tap ← services.authenticate prepared.messageHash
  if tap.phygitalTokenPda ≠ prepared.phygitalToken then throwText [.text "The tapped accessory does not match this item"]
  else
    let feePayer ← services.createDefaultFeePayer
    let setAuthorityIx ← getSetAuthorityInstructionAsync services.findWalletPda services.findAuthorityAccountPda
      { payer := feePayer, phygitalToken := prepared.phygitalToken, authority := prepared.owner,
        secp256r1VerifyArgs := tap.secp256r1VerifyArgs, slotNumber := prepared.slotNumber }
    return { feePayer, instructions := [tap.secp256r1VerifyInstruction, setAuthorityIx] }

/-! ## Both sides -/

section Challenge

variable {slotHash : Bytes} {bank : Bank}

/-- **The client hashes what the program hashes.** -/
theorem hashSetAuthorityChallenge_eq {sha256 : Bytes → Bytes} (hs : slotHash.length = 32) (token authority : Pubkey) :
    hashSetAuthorityChallenge sha256 slotHash token authority =
      .ok (sha256 (setAuthorityPreimage slotHash token authority)) := by
  have hp : setAuthorityChallengePrefix.length = 32 := rfl
  have ht := token.length_eq
  have ha := authority.length_eq
  have hstart := filled_alloc (setAuthorityChallengePrefix.length + 32 + token.bytes.length + authority.bytes.length)
  obtain ⟨w₁, hset₁, h₁⟩ := hstart.set setAuthorityChallengePrefix (by rw [List.length_nil]; omega) JsError.rangeError
  obtain ⟨w₂, hset₂, h₂⟩ := h₁.set slotHash (by rw [List.length_append, List.length_nil]; omega) JsError.rangeError
  rw [hs] at h₂
  obtain ⟨w₃, hset₃, h₃⟩ := h₂.set token.bytes
    (by rw [List.length_append, List.length_append, List.length_nil]; omega) JsError.rangeError
  obtain ⟨w₄, hset₄, h₄⟩ := h₃.set authority.bytes
    (by rw [List.length_append, List.length_append, List.length_append, List.length_nil]; omega) JsError.rangeError
  have hfull := h₄.full (by simp only [List.length_append, List.length_nil]; omega)
  simp only [hashSetAuthorityChallenge, hset₁, hset₂, hset₃, hset₄, bind, Except.bind, pure, Except.pure]
  exact congrArg (fun bytes => Except.ok (sha256 bytes)) hfull

theorem decodeFrom_u64 {bytes : Bytes} (h : bytes.length = 8) : decodeFrom (u64 codecError) bytes = .ok (u64Of bytes) := by
  have hlt := ofLE_lt bytes
  rw [h] at hlt
  have hspelled : bytes = encodeU64 (u64Of bytes) ++ [] := by
    rw [List.append_nil, encodeU64, u64Of, UInt64.toNat_ofNat_of_lt' hlt, ← h, toLE_ofLE]
  have hread := (decodes_u64 codecError ⟨bytes, 0⟩ (u64Of bytes) ⟨[], 0⟩).2 ⟨trivial, hspelled, rfl⟩
  rw [decodeFrom, hread]
  rfl

/-- The part of the sysvar that the client asks for is its first entry. -/
theorem fetchLatestSlotHash_nodeAt (h : 48 ≤ (bank slotHashesSysvarId).data.length) :
    fetchLatestSlotHash (nodeAt bank) =
      .ok ⟨slotAt (bank slotHashesSysvarId).data 0, hashAt (bank slotHashesSysvarId).data 0⟩ := by
  have hslot : slice (slice (bank slotHashesSysvarId).data 8 (8 + 40)) 0 8 = slice (bank slotHashesSysvarId).data 8 16 :=
    slice_slice _ (by omega)
  have hhash : slice (slice (bank slotHashesSysvarId).data 8 (8 + 40)) 8 40 = hashAt (bank slotHashesSysvarId).data 0 :=
    slice_slice _ (by omega)
  have hlen : (slice (bank slotHashesSysvarId).data 8 16).length = 8 := length_slice (by omega)
  simp only [fetchLatestSlotHash, nodeAt, hslot, hhash, decodeFrom_u64 hlen]
  rfl

end Challenge

/-! ## The call -/

section Call

variable {services : ClaimServices} {prepared : PreparedClaim} {message : Message}

theorem setAuthorityData_ok {authority : Pubkey} {verifyArgs : Secp256r1VerifyArgs} {slotNumber : UInt64} {data : Bytes}
    (h : setAuthorityData authority verifyArgs slotNumber = .ok data) : verifyArgs.clientDataJson.length < 2 ^ 32 ∧
      data = PhygitalWalletInstruction.setAuthority.discriminator ++
        SetAuthorityArgs.encode ⟨authority, verifyArgs, slotNumber⟩ := by
  simp only [setAuthorityData, encodeSecp256r1VerifyArgs, outcome_bind_eq_ok, encodeSizedBytes_eq_ok,
    outcome_pure_eq_ok] at h
  obtain ⟨_, ⟨_, ⟨hjson, rfl⟩, rfl⟩, rfl⟩ := h
  refine ⟨hjson, ?_⟩
  simp only [SetAuthorityArgs.encode, Secp256r1VerifyArgs.encode, List.append_assoc]

/-- The accounts of the claim, with their flags in its message. -/
def claimAccounts (services : ClaimServices) (phygitalToken : Pubkey) (message : Message) : SetAuthority where
  payer := message.info message.feePayer
  phygitalToken := message.info phygitalToken
  wallet := message.info (services.findWalletPda phygitalToken)
  authorityAccount := message.info (services.findAuthorityAccountPda phygitalToken)
  slotHashes := message.info slotHashesSysvarId
  instructionsSysvar := message.info instructionsSysvarId
  phygitalTokenProgram := message.info phygitalTokenId
  systemProgram := message.info systemProgramId

/-- **The claim's message**: the signature, and one call of the program. -/
theorem claimAccessory_call (h : claimAccessory services prepared = .ok message) :
    ∃ tap ix, services.authenticate prepared.messageHash = .ok tap ∧ tap.phygitalTokenPda = prepared.phygitalToken ∧
      message.instructions = [tap.secp256r1VerifyInstruction, ix] ∧ ix.programAddress = crateId ∧
      decodeSetAuthority (message.infos ix) (ix.data.getD []) =
        some (.ok ⟨claimAccounts services prepared.phygitalToken message,
          ⟨prepared.owner, tap.secp256r1VerifyArgs, prepared.slotNumber⟩⟩) := by
  obtain ⟨tap, htap, h⟩ := outcome_bind_eq_ok.1 h
  split at h
  · cases h
  · next hsame =>
    simp only [getSetAuthorityInstructionAsync, outcome_bind_eq_ok, outcome_pure_eq_ok] at h
    obtain ⟨feePayer, -, _, ⟨data, hdata, rfl⟩, rfl⟩ := h
    obtain ⟨hjson, rfl⟩ := setAuthorityData_ok hdata
    exact ⟨tap, _, htap, not_not.1 hsame, rfl, rfl, decodeSetAuthority_encode hjson rfl⟩

end Call

/-! ## What the signature is good for -/

/-- Two byte strings with one hash. -/
def Collides (hash : Bytes → Bytes) (a b : Bytes) : Prop := a ≠ b ∧ hash a = hash b

/-- What a call of `set_authority` makes of a claim of the token for the owner, signed over the slot with this hash. -/
structure ClaimCall [HeapSizes] (rt : Runtime) (call : SetAuthorityCall) (token owner : Pubkey) (slotNumber : UInt64)
    (slotHash messageHash : Bytes) : Prop where
  forToken : call.accounts.phygitalToken.key = token
  forOwner : call.args.authority = owner
  verifies : ∀ {bank before}, call.accounts.validate rt bank = .ok before → SlotHashes (before slotHashesSysvarId).data →
    Lists (before slotHashesSysvarId).data slotNumber slotHash → call.messageHash rt bank = .ok messageHash
  expires : ∀ {bank before}, call.accounts.validate rt bank = .ok before → SlotHashes (before slotHashesSysvarId).data →
    (∀ hash, ¬Lists (before slotHashesSysvarId).data slotNumber hash) → ∀ bank', call.run rt bank ≠ .ok bank'
  sets : rt.Lawful → ∀ {bank bank'}, call.run rt bank = .ok bank' →
    ∃ header, Stored (bank' call.accounts.authorityAccount.key) ⟨header, some .initial⟩ ∧ header.phygitalToken = token ∧
      header.authority = owner

/-- What is prepared is the hash of the claim's message, over the newest entry of the sysvar. -/
theorem prepareClaimAccessory_ok {hash : Bytes → Bytes} {bank₀ : Bank} {token owner : Pubkey} {prepared : PreparedClaim}
    (hsysvar : SlotHashes (bank₀ slotHashesSysvarId).data) (hpos : 0 < slotCount (bank₀ slotHashesSysvarId).data)
    (h : prepareClaimAccessory hash (nodeAt bank₀) token owner = .ok prepared) :
    ∃ slotNumber slotHash, slotHash.length = 32 ∧ Lists (bank₀ slotHashesSysvarId).data slotNumber slotHash ∧
      prepared = ⟨token, owner, slotNumber, hash (setAuthorityPreimage slotHash token owner)⟩ := by
  have hlong : 48 ≤ (bank₀ slotHashesSysvarId).data.length := by
    have := hsysvar.fits
    have := Nat.mul_le_mul_right entryLen hpos
    unfold entryLen at *
    omega
  have hlists : Lists (bank₀ slotHashesSysvarId).data (slotAt (bank₀ slotHashesSysvarId).data 0)
      (hashAt (bank₀ slotHashesSysvarId).data 0) := ⟨0, hpos, rfl, rfl⟩
  generalize hslotHash : hashAt (bank₀ slotHashesSysvarId).data 0 = slotHash at hlists
  have hlen : slotHash.length = 32 := length_fetchSlotHash ((fetchSlotHash_iff hsysvar).2 hlists)
  simp only [prepareClaimAccessory, buildSetAuthorityChallenge, fetchLatestSlotHash_nodeAt hlong, hslotHash,
    hashSetAuthorityChallenge_eq hlen, bind, Except.bind, pure, Except.pure, Except.ok.injEq] at h
  exact ⟨_, slotHash, hlen, hlists, h.symm⟩

/-- A call is good for its own token and owner, while the sysvar lists its slot. -/
theorem claimCall [HeapSizes] (rt : Runtime) (call : SetAuthorityCall) (slotHash : Bytes)
    (hslotHashes : call.accounts.slotHashes.key = slotHashesSysvarId) :
    ClaimCall rt call call.accounts.phygitalToken.key call.args.authority call.args.slotNumber slotHash
      (rt.hash (setAuthorityPreimage slotHash call.accounts.phygitalToken.key call.args.authority)) := by
  refine ⟨rfl, rfl, fun hvalidate hs hlisted => ?_, fun hvalidate hs hgone bank' hrun => ?_,
    fun hrt bank bank' hrun => ?_⟩
  · refine SetAuthorityCall.messageHash_iff.2 ⟨_, slotHash, hvalidate, ?_, rfl⟩
    rw [hslotHashes]
    exact (fetchSlotHash_iff hs).2 hlisted
  · obtain ⟨messageHash, _, _, hmessage, -⟩ := SetAuthorityCall.run_messageHash hrun
    obtain ⟨before', hash, hvalidate', hfetch, -⟩ := SetAuthorityCall.messageHash_iff.1 hmessage
    obtain rfl := Except.ok.inj (hvalidate.symm.trans hvalidate')
    rw [hslotHashes] at hfetch
    exact hgone hash ((fetchSlotHash_iff hs).1 hfetch)
  · exact ⟨_, (setAuthority_stored hrt hrun).2, rfl, rfl⟩

section Other

variable {rt : Runtime} {bank : Bank} {token owner : Pubkey} {slotHash : Bytes}

/-- Another `set_authority` with the claim's hash is for the same token and owner, or the two messages collide. -/
theorem setAuthority_collides {other : SetAuthorityCall} (hlen : slotHash.length = 32)
    (h : other.messageHash rt bank = .ok (rt.hash (setAuthorityPreimage slotHash token owner))) :
    ∃ before hash, other.accounts.validate rt bank = .ok before ∧
      fetchSlotHash (before other.accounts.slotHashes.key).data other.args.slotNumber = .ok hash ∧
      ((other.accounts.phygitalToken.key = token ∧ other.args.authority = owner) ∨
        Collides rt.hash (setAuthorityPreimage hash other.accounts.phygitalToken.key other.args.authority)
          (setAuthorityPreimage slotHash token owner)) := by
  obtain ⟨before, hash, hvalidate, hfetch, heq⟩ := SetAuthorityCall.messageHash_iff.1 h
  refine ⟨before, hash, hvalidate, hfetch, ?_⟩
  by_cases hsame : setAuthorityPreimage hash other.accounts.phygitalToken.key other.args.authority =
      setAuthorityPreimage slotHash token owner
  · exact Or.inl (setAuthorityPreimage_inj ((length_fetchSlotHash hfetch).trans hlen.symm) hsame).2
  · exact Or.inr ⟨hsame, heq.symm⟩

/-- The messages of the two kinds have different prefixes, so an `execute` with the claim's hash is a collision. -/
theorem execute_collides {accounts : Execute} {remaining : List AccountInfo} {compacts : List CompactInstruction}
    {slotNumber : UInt64} (h : messageHashOf rt accounts remaining compacts slotNumber bank =
      .ok (rt.hash (setAuthorityPreimage slotHash token owner))) :
    ∃ hash instructionsHash accountsHash,
      fetchSlotHash (bank accounts.slotHashes.key).data slotNumber = .ok hash ∧
      hashCompactInstructions rt compacts = .ok instructionsHash ∧
      hashReferencedAccountsInfos rt remaining compacts = .ok accountsHash ∧
      Collides rt.hash (challengePreimage hash instructionsHash accountsHash)
        (setAuthorityPreimage slotHash token owner) := by
  obtain ⟨hash, hfetch, h⟩ := bind_eq_ok.1 h
  obtain ⟨instructionsHash, hinstructions, h⟩ := bind_eq_ok.1 h
  obtain ⟨accountsHash, haccounts, h⟩ := bind_eq_ok.1 h
  have heq := pure_eq_ok.1 h
  exact ⟨hash, instructionsHash, accountsHash, hfetch, hinstructions, haccounts, challengePreimage_ne _ _ _ _ _ _, heq⟩

end Other

/-- **A claim's signature** is good for one thing. The message has one call of the program, which names the token and the
owner; while the sysvar lists the slot that the client read, that call verifies the message that the accessory signed, and
once the sysvar has dropped the slot no run is accepted. Any other `set_authority` that verifies the message is for the
same token and owner, and no `execute` verifies it, unless the hash function gives two messages one hash: the claim's, and
the other call's, with the slot hash that it has fetched and its own hashes of instructions and accounts. -/
theorem claim_accessory [HeapSizes] {rt : Runtime} {services : ClaimServices} {bank₀ : Bank} {token owner : Pubkey}
    {prepared : PreparedClaim} {message : Message} (hsysvar : SlotHashes (bank₀ slotHashesSysvarId).data)
    (hpos : 0 < slotCount (bank₀ slotHashesSysvarId).data)
    (hverify : ∀ messageHash tap, services.authenticate messageHash = .ok tap →
      tap.secp256r1VerifyInstruction.programAddress = secp256r1ProgramId)
    (hprepared : prepareClaimAccessory rt.hash (nodeAt bank₀) token owner = .ok prepared)
    (hsent : claimAccessory services prepared = .ok message) :
    ∃ slotHash, Lists (bank₀ slotHashesSysvarId).data prepared.slotNumber slotHash ∧
      (∃ ix ∈ message.instructions, (∀ ix' ∈ message.instructions, ix'.programAddress = crateId → ix' = ix) ∧
        ∃ call, decodeSetAuthority (message.infos ix) (ix.data.getD []) = some (.ok call) ∧
          ClaimCall rt call token owner prepared.slotNumber slotHash prepared.messageHash) ∧
      (∀ (other : SetAuthorityCall) bank, other.messageHash rt bank = .ok prepared.messageHash →
        ∃ before hash, other.accounts.validate rt bank = .ok before ∧
          fetchSlotHash (before other.accounts.slotHashes.key).data other.args.slotNumber = .ok hash ∧
          ((other.accounts.phygitalToken.key = token ∧ other.args.authority = owner) ∨
            Collides rt.hash (setAuthorityPreimage hash other.accounts.phygitalToken.key other.args.authority)
              (setAuthorityPreimage slotHash token owner))) ∧
      ∀ accounts remaining compacts slotNumber bank,
        messageHashOf rt accounts remaining compacts slotNumber bank = .ok prepared.messageHash →
        ∃ hash instructionsHash accountsHash,
          fetchSlotHash (bank accounts.slotHashes.key).data slotNumber = .ok hash ∧
          hashCompactInstructions rt compacts = .ok instructionsHash ∧
          hashReferencedAccountsInfos rt remaining compacts = .ok accountsHash ∧
          Collides rt.hash (challengePreimage hash instructionsHash accountsHash)
            (setAuthorityPreimage slotHash token owner) := by
  obtain ⟨slotNumber, slotHash, hlen, hlists, rfl⟩ := prepareClaimAccessory_ok hsysvar hpos hprepared
  obtain ⟨tap, ix, htap, -, hinstructions, hcrate, hcall⟩ := claimAccessory_call hsent
  refine ⟨slotHash, hlists, ⟨ix, ?_, ?_, _, hcall, claimCall rt _ slotHash rfl⟩,
    fun _ _ => setAuthority_collides hlen, fun _ _ _ _ _ => execute_collides⟩
  · rw [hinstructions]
    exact List.mem_cons_of_mem _ List.mem_cons_self
  · -- the instruction of the precompile is not the program's
    rw [hinstructions]
    intro ix' hix' hcrate'
    rcases List.mem_cons.1 hix' with rfl | hix'
    · rw [hverify _ _ htap] at hcrate'
      exact absurd hcrate' (by decide +kernel)
    · exact List.mem_singleton.1 hix'

/-! ## An example -/

/-- `lifecycleRuntime` with SHA-256. -/
def claimRuntime : Runtime := { lifecycleRuntime with hash := Sha256.digest }

def claimServices : ClaimServices where
  authenticate _ := .ok { exampleVerify with phygitalTokenPda := .fill 8 }
  createDefaultFeePayer := .ok (.fill 5)
  findWalletPda _ := .fill 9
  findAuthorityAccountPda _ := .fill 7

theorem lifecycleBank_sysvar : SlotHashes (lifecycleBank slotHashesSysvarId).data where
  length_lt := by decide +kernel
  fits := by decide +kernel
  sorted := by
    have hone : slotCount (lifecycleBank slotHashesSysvarId).data = 1 := by decide +kernel
    intro i j hij hj
    omega

/-- A claim on a node that has one slot, in a bank at that slot. -/
theorem claim_accessory_listed : ∃ prepared message,
    prepareClaimAccessory claimRuntime.hash (nodeAt lifecycleBank) (.fill 8) (.fill 6) = .ok prepared ∧
    claimAccessory claimServices prepared = .ok message ∧
    ∃ ix ∈ message.instructions, ∃ call, decodeSetAuthority (message.infos ix) (ix.data.getD []) = some (.ok call) ∧
      call.args.authority = .fill 6 ∧ call.messageHash claimRuntime lifecycleBank = .ok prepared.messageHash := by
  let _ := targetHeapSizes
  have hcalls : (fun message =>
      message.instructions.map fun ix => decodeSetAuthority (message.infos ix) (ix.data.getD [])) <$>
      ((prepareClaimAccessory claimRuntime.hash (nodeAt lifecycleBank) (.fill 8) (.fill 6)).bind
        (claimAccessory claimServices)) = .ok [none, some (.ok ⟨lifecycleSetAuthority, .fill 6, ⟨-1, 0, []⟩, 3⟩)] := by
    decide +kernel
  obtain ⟨message, hrun, hcalls⟩ := outcome_map_eq_ok.1 hcalls
  obtain ⟨prepared, hprepared, hsent⟩ := outcome_bind_eq_ok.1 hrun
  obtain ⟨slotHash, hlists, ⟨ix, hix, -, call, hcall, hclaim⟩, -⟩ :=
    @claim_accessory targetHeapSizes claimRuntime _ _ _ _ _ _ lifecycleBank_sysvar (by decide +kernel)
      (fun _ _ h => by cases h; rfl) hprepared hsent
  refine ⟨prepared, message, hprepared, hsent, ix, hix, call, hcall, hclaim.forOwner, ?_⟩
  have hmem := List.mem_map_of_mem (f := fun ix => decodeSetAuthority (message.infos ix) (ix.data.getD [])) hix
  rw [hcalls] at hmem
  simp only [hcall, List.mem_cons, reduceCtorEq, Option.some.injEq, Except.ok.injEq, List.not_mem_nil, or_false,
    false_or] at hmem
  subst hmem
  have hvalid : lifecycleSetAuthority.validate claimRuntime lifecycleBank =
      .ok (bankOf (lifecycleSetAuthority.validate claimRuntime lifecycleBank)) := eq_ok_bankOf (by decide +kernel)
  have hsame : (bankOf (lifecycleSetAuthority.validate claimRuntime lifecycleBank) slotHashesSysvarId).data =
      (lifecycleBank slotHashesSysvarId).data := by decide +kernel
  exact hclaim.verifies hvalid (hsame ▸ lifecycleBank_sysvar) (hsame ▸ hlists)

end PhygitalWallet.Client
