import PhygitalWallet.Program.SetAuthority

/-!
# Saving and clearing the policy (`instructions/wallet_policy.rs`)

Both handlers resize the authority account before they rewrite its tail, and settle the rent between the payer, the
account and the receiver of the rent.
-/

namespace PhygitalWallet

open ByteSeq Borsh ListLoop

/-! ## Save -/

structure SolCapArg where
  cap : UInt64
  windowSeconds : Int64
deriving DecidableEq, Repr

structure MintCapArg where
  mint : Pubkey
  cap : UInt64
  windowSeconds : Int64
deriving DecidableEq, Repr

structure WalletPolicyArgs where
  solCap : Option SolCapArg
  mintCaps : List MintCapArg
  programPermissions : List ProgramPermission
deriving DecidableEq, Repr

structure SetWalletPolicy where
  authority : AccountInfo
  payer : AccountInfo
  rentReceiver : AccountInfo
  phygitalToken : AccountInfo
  authorityAccount : AccountInfo
  instructionsSysvar : AccountInfo
  systemProgram : AccountInfo
deriving DecidableEq, Repr

def SetWalletPolicy.validate (rt : Runtime) (accounts : SetWalletPolicy) (bank : Bank) : Result Unit := do
  anchorRequire (accounts.authority.isSigner = true) accountNotSigner
  anchorRequire (accounts.payer.isSigner = true) accountNotSigner
  anchorRequire (accounts.systemProgram.key = systemProgramId) invalidProgramId
  anchorRequire (rt.executable accounts.systemProgram.key = true) invalidProgramExecutable
  anchorRequire (accounts.payer.isWritable = true) constraintMut
  validateOwnerAccounts rt accounts.phygitalToken accounts.rentReceiver accounts.authorityAccount bank
  anchorRequire (accounts.instructionsSysvar.key = instructionsSysvarId) constraintAddress

/-- One turn of the loop over the mint caps. -/
def checkMintCap (mintCaps : List MintCapArg) (entry : MintCapArg × Nat) : Result Unit := do
  let (cap, i) := entry
  -- WSOL is governed by `sol_cap`, not as a standalone mint cap.
  require (cap.mint ≠ systemProgramId ∧ isWsolMint cap.mint = false) .invalidPolicyArgs
  require (¬isDup MintCapArg.mint mintCaps cap i = true) .invalidPolicyArgs

/-- The caps that the account holds before the save. -/
def storedCaps [HeapSizes] (data : Bytes) : Result (Option SpendCap × List MintCap) := do
  let (_, policyPresent) ← Authority.read data
  if policyPresent then do
    let (sol, mints, _) ← readPolicy data
    return (some sol, mints)
  else return (none, [])

/-- `old_sol.filter(SpendCap::is_active)`. -/
def saveSolCap (solCap : Option SolCapArg) (oldSol : Option SpendCap) (now : Int64) : Result SpendCap :=
  match solCap with
  | some s => do
    let fresh ← newSpendCap s.cap s.windowSeconds now
    return preserveSpendCap fresh (oldSol.filter SpendCap.isActive)
  | none => return .empty

def saveMintCap (oldMints : List MintCap) (now : Int64) (c : MintCapArg) : Result MintCap := do
  let fresh ← newSpendCap c.cap c.windowSeconds now
  let previous := (oldMints.find? fun m => m.mint = c.mint).map MintCap.cap
  return { mint := c.mint, cap := preserveSpendCap fresh previous }

/-- `a - b` on `usize`, under overflow checks. -/
def subUsize (a b : Nat) : Result Nat := if b ≤ a then .ok (a - b) else .error .panic

/-- `ProgramError::InvalidRealloc`. -/
def invalidRealloc : Nat := 10

def maxPermittedDataIncrease : Nat := 10240
def maxPermittedDataLength : Nat := 10485760

/-- `AccountInfo::resize`, with the runtime's limit on the length of an account: new bytes are zero. -/
def resize (data : Bytes) (newLen : Nat) : Result Bytes := do
  anchorRequire (newLen ≤ data.length + maxPermittedDataIncrease ∧ newLen ≤ maxPermittedDataLength) invalidRealloc
  return data.take newLen ++ List.replicate (newLen - data.length) 0

/-- A shrunk account keeps the minimum and returns the rest. -/
def refundRent (bank : Bank) (key receiver : Pubkey) (minimum : UInt64) : Result Bank := do
  let refund ← okOr (checkedSubU64 (bank key).lamports minimum) .invalidAccountData
  let balance ← okOr (checkedAddU64 (bank receiver).lamports refund) .invalidAccountData
  return setLamports (setLamports bank key minimum) receiver balance

def refundIfShrunk (bank : Bank) (key receiver : Pubkey) (minimum : UInt64) (newLen oldLen : Nat) : Result Bank :=
  if newLen < oldLen then refundRent bank key receiver minimum else .ok bank

def resizeIfChanged (bank : Bank) (key : Pubkey) (newLen oldLen : Nat) : Result Bank :=
  if newLen ≠ oldLen then setData bank key <$> resize (bank key).data newLen else .ok bank

/-- The rent is topped up by the payer. -/
def topUpRent (rt : Runtime) (bank : Bank) (payer key : Pubkey) (minimum : UInt64) : Result Bank :=
  let topUp := saturatingSub minimum (bank key).lamports
  if 0 < topUp then rt.transfer payer key topUp bank else .ok bank

def setWalletPolicy [HeapSizes] (rt : Runtime) (accounts : SetWalletPolicy) (args : WalletPolicyArgs) (bank : Bank) :
    Result Bank := do
  accounts.validate rt bank
  requireTopLevel rt
  rejectDurableNonce rt (bank accounts.instructionsSysvar.key).data
  args.mintCaps.zipIdx.foldlM (fun _ entry => checkMintCap args.mintCaps entry) ()
  validatePermissions args.programPermissions
  let permissionBytes := encodePermissions args.programPermissions
  require (permissionBytes.length ≤ maxPermissionBytes) .invalidPolicyArgs
  let key := accounts.authorityAccount.key
  let receiver := accounts.rentReceiver.key
  let _ ← authorizeAuthoritySigner rt key (bank key) accounts.authority.key crateId
  let (oldSol, oldMints) ← storedCaps (bank key).data
  let now := rt.unixTimestamp
  let solCap ← saveSolCap args.solCap oldSol now
  let mintCaps ← args.mintCaps.mapM (saveMintCap oldMints now)
  let capsLen ← withMintCount mintCaps.length
  let extra ← subUsize permissionBytes.length 4
  let newLen ← okOr (checkedUsize (capsLen + extra)) .invalidPolicyArgs
  let oldLen := (bank key).data.length
  let minimum := rt.minimumBalance newLen
  let bank ← topUpRent rt bank accounts.payer.key key minimum
  let bank ← resizeIfChanged bank key newLen oldLen
  let bank ← refundIfShrunk bank key receiver minimum newLen oldLen
  let data ← setPolicyVersion (bank key).data walletPolicyVersion
  let data ← writePolicy data solCap mintCaps permissionBytes
  return setData bank key data

/-! ## Clear -/

structure ClearWalletPolicy where
  authority : AccountInfo
  rentReceiver : AccountInfo
  phygitalToken : AccountInfo
  authorityAccount : AccountInfo
  instructionsSysvar : AccountInfo
deriving DecidableEq, Repr

def ClearWalletPolicy.validate (rt : Runtime) (accounts : ClearWalletPolicy) (bank : Bank) : Result Unit := do
  anchorRequire (accounts.authority.isSigner = true) accountNotSigner
  validateOwnerAccounts rt accounts.phygitalToken accounts.rentReceiver accounts.authorityAccount bank
  anchorRequire (accounts.instructionsSysvar.key = instructionsSysvarId) constraintAddress

def clearWalletPolicy (rt : Runtime) (accounts : ClearWalletPolicy) (bank : Bank) : Result Bank := do
  accounts.validate rt bank
  requireTopLevel rt
  rejectDurableNonce rt (bank accounts.instructionsSysvar.key).data
  let key := accounts.authorityAccount.key
  let receiver := accounts.rentReceiver.key
  let header ← authorizeAuthoritySigner rt key (bank key) accounts.authority.key crateId
  let alreadyAbsent := header.policyVersion = 0 ∧ (bank key).data.length = baseLen ∧
    (sliceFrom (bank key).data solCapOffset).all (· = 0) = true
  require (¬alreadyAbsent) .invalidAccountData
  let minimum := rt.minimumBalance baseLen
  let refund ← okOr (checkedSubU64 (bank key).lamports minimum) .invalidAccountData
  let receiverBalance ← okOr (checkedAddU64 (bank receiver).lamports refund) .invalidAccountData
  let data ← resize (bank key).data baseLen
  let data ← setPolicyVersion data 0
  -- Zero the SOL cap and both (now empty) Vec length prefixes.
  let data ← writePolicy data .empty [] [0, 0, 0, 0]
  return setLamports (setLamports (setData bank key data) key minimum) receiver receiverBalance

end PhygitalWallet
