import PhygitalWallet.Program.Access

/-!
# The execute handlers (`instructions/execute.rs`)

Three instructions run compact instructions as the wallet: by passkey, by the owner without policy, by the owner with
policy. The first and the last share what is between the snapshot and the charge, `executePolicied`. A handler returns
the bank it leaves and, for the record, what it charged.
-/

namespace PhygitalWallet

/-- The bank that an instruction leaves, and what it charged. -/
structure Executed where
  bank : Bank
  charges : Option Charges

/-- The account with new data. -/
def setData (bank : Bank) (key : Pubkey) (data : Bytes) : Bank := Function.update bank key { bank key with data }

/-- From the snapshot to the charge; the charge is `charge_policy_deltas`, with its measure kept. -/
def executePolicied [HeapSizes] (rt : Runtime) (token wallet authorityAccount : Pubkey) (walletBump : UInt8)
    (policyPresent : Bool) (remaining : List AccountInfo) (compactInstructions : List CompactInstruction)
    (bank : Bank) : Result Executed :=
  if policyPresent then do
    let snapshot ← checkPolicyAndSnapshot (bank authorityAccount).data wallet bank remaining
    let bank ← executeCompactInstructions rt crateId wallet walletBump token [token, authorityAccount] remaining
      compactInstructions (some snapshot.programPermissions) bank
    let charges ← measureDeltas wallet bank remaining snapshot
    let policyData ← applyCharges (bank authorityAccount).data snapshot charges rt.unixTimestamp
    return { bank := setData bank authorityAccount policyData, charges := some charges }
  else do
    let bank ← executeCompactInstructions rt crateId wallet walletBump token [token, authorityAccount] remaining
      compactInstructions none bank
    return { bank, charges := none }

/-! ## By passkey -/

/-- The accounts of `execute`. -/
structure Execute where
  phygitalToken : AccountInfo
  wallet : AccountInfo
  authorityAccount : AccountInfo
  slotHashes : AccountInfo
  instructionsSysvar : AccountInfo
  phygitalTokenProgram : AccountInfo
deriving DecidableEq, Repr

/-- The constraints on the accounts. -/
def Execute.validate (rt : Runtime) (accounts : Execute) (bank : Bank) : Result Unit := do
  let tokenData := (bank accounts.phygitalToken.key).data
  anchorRequire (accounts.phygitalToken.isWritable = true) constraintMut
  require (lockedControlled rt tokenData = true) .tokenIsCurrentlyUnLocked
  anchorRequire ((bank accounts.phygitalToken.key).owner = phygitalTokenId) constraintOwner
  anchorRequire (accounts.wallet.isWritable = true) constraintMut
  require (walletMatchesOwner rt accounts.wallet.key tokenData = true) .walletOwnerMismatch
  anchorRequire (accounts.authorityAccount.isWritable = true) constraintMut
  require ((bank accounts.authorityAccount.key).owner = crateId) .accessoryDisabled
  anchorRequire (accounts.slotHashes.key = slotHashesSysvarId) constraintAddress
  anchorRequire (accounts.instructionsSysvar.key = instructionsSysvarId) constraintAddress
  anchorRequire (rt.executable accounts.phygitalTokenProgram.key = true) constraintExecutable
  anchorRequire (accounts.phygitalTokenProgram.key = phygitalTokenId) constraintAddress

/-- The handler up to the `Verify` CPI: the header, whether a policy is present, the bank after the CPI. -/
def verifyExecute (rt : Runtime) (accounts : Execute) (remaining : List AccountInfo)
    (compactInstructions : List CompactInstruction) (secp256r1VerifyArgs : Secp256r1VerifyArgs) (slotNumber : UInt64)
    (bank : Bank) : Result (AuthorityHeader × Bool × Bank) := do
  accounts.validate rt bank
  requireTopLevel rt
  let tokenKey := accounts.phygitalToken.key
  let (header, policyPresent) ← Authority.read (bank accounts.authorityAccount.key).data
  requireCanonicalAuthorityAddress rt accounts.authorityAccount.key header crateId
  require (header.phygitalToken = tokenKey) .authorityTokenMismatch
  let slotHash ← fetchSlotHash (bank accounts.slotHashes.key).data slotNumber
  let messageHash ← executeMessageHash rt slotHash remaining compactInstructions
  let bank ← rt.verify tokenKey secp256r1VerifyArgs messageHash bank
  return (header, policyPresent, bank)

def execute [HeapSizes] (rt : Runtime) (accounts : Execute) (remaining : List AccountInfo)
    (compactInstructions : List CompactInstruction) (secp256r1VerifyArgs : Secp256r1VerifyArgs) (slotNumber : UInt64)
    (bank : Bank) : Result Executed := do
  let (header, policyPresent, bank) ← verifyExecute rt accounts remaining compactInstructions secp256r1VerifyArgs
    slotNumber bank
  executePolicied rt accounts.phygitalToken.key accounts.wallet.key accounts.authorityAccount.key header.walletBump
    policyPresent remaining compactInstructions bank

/-! ## By the owner -/

/-- The accounts of `execute_with_authority` and `execute_with_authority_using_policies`. -/
structure ExecuteWithAuthority where
  authority : AccountInfo
  phygitalToken : AccountInfo
  authorityAccount : AccountInfo
  wallet : AccountInfo
  instructionsSysvar : AccountInfo
deriving DecidableEq, Repr

/-- The constraints on the accounts; only the policied instruction needs a writable authority account. -/
def ExecuteWithAuthority.validate (rt : Runtime) (usingPolicies : Bool) (accounts : ExecuteWithAuthority)
    (bank : Bank) : Result Unit := do
  let tokenData := (bank accounts.phygitalToken.key).data
  anchorRequire (accounts.authority.isSigner = true) accountNotSigner
  require (lockedControlled rt tokenData = true) .tokenIsCurrentlyUnLocked
  anchorRequire ((bank accounts.phygitalToken.key).owner = phygitalTokenId) constraintOwner
  anchorRequire (usingPolicies = true → accounts.authorityAccount.isWritable = true) constraintMut
  anchorRequire (accounts.wallet.isWritable = true) constraintMut
  require (walletMatchesOwner rt accounts.wallet.key tokenData = true) .walletOwnerMismatch
  anchorRequire (accounts.instructionsSysvar.key = instructionsSysvarId) constraintAddress

/-- Owner execution bypasses policy; structural guards still apply. -/
def executeWithAuthority (rt : Runtime) (accounts : ExecuteWithAuthority) (remaining : List AccountInfo)
    (compactInstructions : List CompactInstruction) (bank : Bank) : Result Executed := do
  accounts.validate rt false bank
  requireTopLevel rt
  rejectDurableNonce rt (bank accounts.instructionsSysvar.key).data
  let tokenKey := accounts.phygitalToken.key
  let header ← authorizeAuthoritySigner rt accounts.authorityAccount.key (bank accounts.authorityAccount.key)
    accounts.authority.key crateId
  require (header.phygitalToken = tokenKey) .authorityTokenMismatch
  let bank ← executeCompactInstructions rt crateId accounts.wallet.key header.walletBump tokenKey
    [tokenKey, accounts.authorityAccount.key] remaining compactInstructions none bank
  return { bank, charges := none }

def executeWithAuthorityUsingPolicies [HeapSizes] (rt : Runtime) (accounts : ExecuteWithAuthority)
    (remaining : List AccountInfo) (compactInstructions : List CompactInstruction) (bank : Bank) : Result Executed := do
  accounts.validate rt true bank
  requireTopLevel rt
  rejectDurableNonce rt (bank accounts.instructionsSysvar.key).data
  let tokenKey := accounts.phygitalToken.key
  let (header, policyPresent) ← Authority.read (bank accounts.authorityAccount.key).data
  requireCanonicalAuthorityAddress rt accounts.authorityAccount.key header crateId
  require (header.authority = accounts.authority.key) .authorityMismatch
  require (header.phygitalToken = tokenKey) .authorityTokenMismatch
  executePolicied rt tokenKey accounts.wallet.key accounts.authorityAccount.key header.walletBump policyPresent
    remaining compactInstructions bank

end PhygitalWallet
