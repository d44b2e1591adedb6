import PhygitalWallet.Program.Execute

/-!
# Setting and clearing the authority (`instructions/authority.rs`)

`set_authority` creates the authority account of a token, with an active empty policy; Anchor allocates the account
before the handler runs and serializes it afterwards. `clear_authority` closes it.
-/

namespace PhygitalWallet

open ByteSeq Borsh

/-! ## Set -/

/-- `b"phygital_wallet:set_authority:v1"`. -/
def setAuthorityChallengePrefix : Bytes :=
  [112, 104, 121, 103, 105, 116, 97, 108, 95, 119, 97, 108, 108, 101, 116, 58, 115, 101, 116, 95, 97, 117, 116, 104,
    111, 114, 105, 116, 121, 58, 118, 49]

def buildSetAuthorityChallenge (rt : Runtime) (slotHash : Bytes) (phygitalToken authority : Pubkey) : Bytes :=
  rt.hash (setAuthorityChallengePrefix ++ slotHash ++ phygitalToken.bytes ++ authority.bytes)

structure SetAuthority where
  payer : AccountInfo
  phygitalToken : AccountInfo
  wallet : AccountInfo
  authorityAccount : AccountInfo
  slotHashes : AccountInfo
  instructionsSysvar : AccountInfo
  phygitalTokenProgram : AccountInfo
  systemProgram : AccountInfo
deriving DecidableEq, Repr

/-- The canonical wallet and authority addresses, with their bumps. -/
def SetAuthority.walletPda (rt : Runtime) (accounts : SetAuthority) : Pubkey × UInt8 :=
  rt.findProgramAddress [programWalletSeed, accounts.phygitalToken.key.bytes] crateId

def SetAuthority.authorityPda (rt : Runtime) (accounts : SetAuthority) : Pubkey × UInt8 :=
  rt.findProgramAddress [authoritySeed, accounts.phygitalToken.key.bytes] crateId

/-- The constraints on the accounts; `init` leaves a new bank. -/
def SetAuthority.validate (rt : Runtime) (accounts : SetAuthority) (bank : Bank) : Result Bank := do
  let tokenData := (bank accounts.phygitalToken.key).data
  anchorRequire (accounts.payer.isSigner = true) accountNotSigner
  anchorRequire (accounts.systemProgram.key = systemProgramId) invalidProgramId
  anchorRequire (rt.executable accounts.systemProgram.key = true) invalidProgramExecutable
  anchorRequire (accounts.authorityAccount.key = (accounts.authorityPda rt).1) constraintSeeds
  let bank ← rt.createAccount accounts.payer.key accounts.authorityAccount.key baseLen bank
  anchorRequire (accounts.payer.isWritable = true ∧ accounts.authorityAccount.isWritable = true) constraintMut
  anchorRequire (accounts.phygitalToken.isWritable = true) constraintMut
  require (lockedControlled rt tokenData = true) .tokenIsCurrentlyUnLocked
  anchorRequire ((bank accounts.phygitalToken.key).owner = phygitalTokenId) constraintOwner
  anchorRequire (accounts.wallet.key = (accounts.walletPda rt).1) constraintSeeds
  require (walletMatchesOwner rt accounts.wallet.key tokenData = true) .walletOwnerMismatch
  anchorRequire (accounts.slotHashes.key = slotHashesSysvarId) constraintAddress
  anchorRequire (accounts.instructionsSysvar.key = instructionsSysvarId) constraintAddress
  anchorRequire (rt.executable accounts.phygitalTokenProgram.key = true) constraintExecutable
  anchorRequire (accounts.phygitalTokenProgram.key = phygitalTokenId) constraintAddress
  return bank

/-- The header that `set_authority` writes. -/
def SetAuthority.header (rt : Runtime) (accounts : SetAuthority) (authority : Pubkey) : AuthorityHeader where
  authority := authority
  phygitalToken := accounts.phygitalToken.key
  payer := accounts.payer.key
  bump := (accounts.authorityPda rt).2
  walletBump := (accounts.walletPda rt).2
  version := authorityVersion
  policyVersion := walletPolicyVersion
  padding := 0

/-- `Authority::try_serialize`: the discriminator and the derived Borsh encoding. -/
def serializeAuthority (header : AuthorityHeader) (sol : SpendCap) (policyPadding : UInt32) (mints : List MintCap)
    (permissions : List ProgramPermission) : Bytes :=
  discriminator ++ encodeHeader header ++ encodeSpendCap sol ++ encodeU32 policyPadding ++ encodeVec encodeMintCap mints
    ++ encodePermissions permissions

/-- Anchor's exit: the serialized account over the start of the data. -/
def exitAccount (data serialized : Bytes) : Result Bytes := do
  anchorRequire (serialized.length ≤ data.length) accountDidNotSerialize
  return serialized ++ data.drop serialized.length

def setAuthority (rt : Runtime) (accounts : SetAuthority) (authority : Pubkey)
    (secp256r1VerifyArgs : Secp256r1VerifyArgs) (slotNumber : UInt64) (bank : Bank) : Result Bank := do
  let bank ← accounts.validate rt bank
  requireTopLevel rt
  require (authority ≠ systemProgramId) .invalidAuthority
  let tokenKey := accounts.phygitalToken.key
  let slotHash ← fetchSlotHash (bank accounts.slotHashes.key).data slotNumber
  let messageHash := buildSetAuthorityChallenge rt slotHash tokenKey authority
  let bank ← rt.verify tokenKey secp256r1VerifyArgs messageHash bank
  let data ← exitAccount (bank accounts.authorityAccount.key).data
    (serializeAuthority (accounts.header rt authority) .empty 0 [] [])
  return setData bank accounts.authorityAccount.key data

/-! ## Clear -/

structure ClearAuthority where
  authority : AccountInfo
  phygitalToken : AccountInfo
  rentReceiver : AccountInfo
  authorityAccount : AccountInfo
  instructionsSysvar : AccountInfo
deriving DecidableEq, Repr

/-- The constraints that the owner's instructions share on the token and on the receiver of the rent. -/
def validateOwnerAccounts (rt : Runtime) (phygitalToken rentReceiver authorityAccount : AccountInfo) (bank : Bank) :
    Result Unit := do
  anchorRequire (rentReceiver.isWritable = true) constraintMut
  require (rentReceiver.key ≠ authorityAccount.key) .invalidAccountData
  let header ← readAuthorityHeader (bank authorityAccount.key)
  require (rentReceiver.key = header.payer) .authorityPayerMismatch
  require (lockedControlled rt (bank phygitalToken.key).data = true) .tokenIsCurrentlyUnLocked
  anchorRequire (header.phygitalToken = phygitalToken.key) constraintRaw
  anchorRequire ((bank phygitalToken.key).owner = phygitalTokenId) constraintOwner
  anchorRequire (authorityAccount.isWritable = true) constraintMut

def ClearAuthority.validate (rt : Runtime) (accounts : ClearAuthority) (bank : Bank) : Result Unit := do
  anchorRequire (accounts.authority.isSigner = true) accountNotSigner
  validateOwnerAccounts rt accounts.phygitalToken accounts.rentReceiver accounts.authorityAccount bank
  anchorRequire (accounts.instructionsSysvar.key = instructionsSysvarId) constraintAddress

/-- The account with other lamports. -/
def setLamports (bank : Bank) (key : Pubkey) (lamports : UInt64) : Bank :=
  Function.update bank key { bank key with lamports }

def clearAuthority (rt : Runtime) (accounts : ClearAuthority) (bank : Bank) : Result Bank := do
  accounts.validate rt bank
  requireTopLevel rt
  rejectDurableNonce rt (bank accounts.instructionsSysvar.key).data
  let key := accounts.authorityAccount.key
  let receiver := accounts.rentReceiver.key
  let _ ← authorizeAuthoritySigner rt key (bank key) accounts.authority.key crateId
  let receiverBalance ← okOr (checkedAddU64 (bank receiver).lamports (bank key).lamports) .invalidAccountData
  let bank := setLamports (setLamports bank key 0) receiver receiverBalance
  return Function.update bank key { bank key with owner := systemProgramId, data := [] }

end PhygitalWallet
