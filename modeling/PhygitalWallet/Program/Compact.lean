import PhygitalWallet.Program.Policy

/-!
# Compact instructions (`utils/compact.rs`)

The bytes that the execute challenge covers, and the loop that turns each compact instruction into a CPI. The loop is
told as a function from the bank to what it issued and how it ended: `issued` lists every instruction handed to
`invoke_signed` with the bank it was issued in, also when a later one fails.
-/

namespace PhygitalWallet

open ByteSeq

/-- `Secp256r1VerifyArgs`, passed through to the phygital-token program. -/
structure Secp256r1VerifyArgs where
  verifyArgsRelativeIndex : Int64
  signedMessageIndex : UInt8
  clientDataJson : Bytes
deriving DecidableEq, Repr

/-- What the program takes from outside: the hash, address derivation, the phygital-token program's account format and
`Verify` instruction, the runtime's CPIs and sysvars. -/
structure Runtime where
  hash : Bytes → Bytes
  createProgramAddress : List Bytes → Pubkey → Option Pubkey
  findProgramAddress : List Bytes → Pubkey → Pubkey × UInt8
  /-- `PHYGITAL_TOKEN_DISCRIMINATOR`. -/
  phygitalTokenDiscriminator : Bytes
  /-- `PhygitalTokenType::Controlled as u8`. -/
  controlledType : UInt8
  /-- The `Verify` CPI on a token account, with its arguments and the message hash. -/
  verify : Pubkey → Secp256r1VerifyArgs → Bytes → Bank → Result Bank
  /-- `invoke_signed(ix, remaining_accounts, &[seeds])`. -/
  invokeSigned : Instruction → List Bytes → Bank → Result Bank
  /-- What Anchor's `init` asks the System program for: payer, new account, space. -/
  createAccount : Pubkey → Pubkey → Nat → Bank → Result Bank
  /-- The System program's transfer: from, to, lamports. -/
  transfer : Pubkey → Pubkey → UInt64 → Bank → Result Bank
  /-- `load_instruction_at_checked(0, instructions_sysvar)`: program and data. -/
  firstInstruction : Bytes → Option (Pubkey × Bytes)
  /-- `get_stack_height()`; `TRANSACTION_LEVEL_STACK_HEIGHT` is one. -/
  stackHeight : Nat
  /-- `AccountInfo::executable`. -/
  executable : Pubkey → Bool
  /-- `Clock::get()?.unix_timestamp`. -/
  unixTimestamp : Int64
  /-- `Rent::get()?.minimum_balance(len)`. -/
  minimumBalance : Nat → UInt64

/-- `b"program_wallet"`. -/
def programWalletSeed : Bytes := [112, 114, 111, 103, 114, 97, 109, 95, 119, 97, 108, 108, 101, 116]

/-- `b"authority:v1"`. -/
def authoritySeed : Bytes := [97, 117, 116, 104, 111, 114, 105, 116, 121, 58, 118, 49]

/-- `b"phygital_wallet:execute:v3"`. -/
def executeChallengePrefix : Bytes :=
  [112, 104, 121, 103, 105, 116, 97, 108, 95, 119, 97, 108, 108, 101, 116, 58, 101, 120, 101, 99, 117, 116, 101, 58,
    118, 51]

/-! ## The challenge -/

def packCompactInstruction (ix : CompactInstruction) : Bytes :=
  [ix.programIdIndex] ++ [UInt8.ofNat ix.accountIndexes.length] ++ ix.accountIndexes
    ++ Borsh.encodeU16 (UInt16.ofNat ix.data.length) ++ ix.data

/-- One turn of the loop that checks the lengths. -/
def checkPackable (ix : CompactInstruction) : Result Unit := do
  require (ix.accountIndexes.length ≤ 255) .invalidAccountData
  require (ix.data.length ≤ 65535) .invalidAccountData

def packCompactInstructions (instructions : List CompactInstruction) : Result Bytes := do
  require (instructions.length ≤ 255) .invalidAccountData
  instructions.foldlM (fun _ ix => checkPackable ix) ()
  return [UInt8.ofNat instructions.length] ++ instructions.flatMap packCompactInstruction

def hashCompactInstructions (rt : Runtime) (instructions : List CompactInstruction) : Result Bytes := do
  let bytes ← packCompactInstructions instructions
  return rt.hash bytes

/-- Outer execute challenge. -/
def hashExecuteChallenge (rt : Runtime) (slotHash instructionsHash accountsHash : Bytes) : Bytes :=
  rt.hash (executeChallengePrefix ++ slotHash ++ instructionsHash ++ accountsHash)

/-- Privilege flags packed into `accounts_hash`: bit0 = signer, bit1 = writable. -/
def accountPrivilegeByte (isSigner isWritable : Bool) : UInt8 :=
  (if isSigner then (1 : UInt8) else 0) ||| ((if isWritable then (1 : UInt8) else 0) <<< 1)

/-- The account at an index, as the hash covers it. -/
def referencedAccount (remaining : List AccountInfo) (index : UInt8) : Result Bytes := do
  let ai ← okOr remaining[index.toNat]? .invalidAccountIndex
  return ai.key.bytes ++ [accountPrivilegeByte ai.isSigner ai.isWritable]

/-- One turn of the loop over the instructions. -/
def referencedAccounts (remaining : List AccountInfo) (parts : Bytes) (ix : CompactInstruction) : Result Bytes :=
  (ix.programIdIndex :: ix.accountIndexes).foldlM (fun parts index => do
    let part ← referencedAccount remaining index
    return parts ++ part) parts

def hashReferencedAccountsInfos (rt : Runtime) (remaining : List AccountInfo) (instructions : List CompactInstruction) :
    Result Bytes := do
  let parts ← instructions.foldlM (referencedAccounts remaining) []
  return rt.hash parts

/-- What the passkey signs for an execute. -/
def executeMessageHash (rt : Runtime) (slotHash : Bytes) (remaining : List AccountInfo)
    (instructions : List CompactInstruction) : Result Bytes := do
  let instructionsHash ← hashCompactInstructions rt instructions
  let accountsHash ← hashReferencedAccountsInfos rt remaining instructions
  return hashExecuteChallenge rt slotHash instructionsHash accountsHash

/-! ## The CPIs -/

/-- One turn of the loop over the account indexes. -/
def pushMeta (wallet : Pubkey) (protectedAccounts : List Pubkey) (remaining : List AccountInfo)
    (metas : List AccountMeta) (index : UInt8) : Result (List AccountMeta) := do
  let ai ← okOr remaining[index.toNat]? .invalidAccountIndex
  if protectedAccounts.any (fun k => ai.key = k) then
    require (ai.isSigner = false ∧ ai.isWritable = false) .protectedAccountPrivilege
  return metas ++ [{ pubkey := ai.key, isSigner := ai.isSigner || ai.key = wallet, isWritable := ai.isWritable }]

/-- `if let Some(permissions) = program_permissions { check_instruction(..)?; }`. -/
def checkProgramPermissions (programPermissions : Option (List ProgramPermission)) (program : Pubkey)
    (compact : CompactInstruction) (bank : Bank) (remaining : List AccountInfo) (wallet : Pubkey) : Result Unit :=
  match programPermissions with
  | some permissions => checkInstruction permissions program compact bank remaining wallet
  | none => .ok ()

/-- Everything before the CPI of one compact instruction. -/
def prepareInstruction (programId wallet : Pubkey) (protectedAccounts : List Pubkey) (remaining : List AccountInfo)
    (programPermissions : Option (List ProgramPermission)) (bank : Bank) (compact : CompactInstruction) :
    Result Instruction := do
  let programAi ← okOr remaining[compact.programIdIndex.toNat]? .invalidAccountIndex
  let targetProgram := programAi.key
  require (targetProgram ≠ programId) .selfReentrancyNotAllowed
  require (targetProgram ≠ phygitalTokenId) .phygitalTokenCpiNotAllowed
  checkProgramPermissions programPermissions targetProgram compact bank remaining wallet
  let metas ← compact.accountIndexes.foldlM (pushMeta wallet protectedAccounts remaining) []
  return { programId := targetProgram, accounts := metas, data := compact.data }

/-- What the loop has handed to `invoke_signed`, and how it ended. -/
structure Issued where
  issued : List (Bank × Instruction)
  result : Result Bank

/-- The loop over the compact instructions. -/
def issueInstructions (rt : Runtime) (seeds : List Bytes)
    (prepare : Bank → CompactInstruction → Result Instruction) : Bank → List CompactInstruction → Issued
  | bank, [] => ⟨[], .ok bank⟩
  | bank, compact :: rest =>
    match prepare bank compact with
    | .error e => ⟨[], .error e⟩
    | .ok ix =>
      match rt.invokeSigned ix seeds bank with
      | .error e => ⟨[(bank, ix)], .error e⟩
      | .ok bank' =>
        let tail := issueInstructions rt seeds prepare bank' rest
        ⟨(bank, ix) :: tail.issued, tail.result⟩

/-- The instructions that `execute_compact_instructions` issues. -/
def issueCompactInstructions (rt : Runtime) (programId wallet : Pubkey) (walletBump : UInt8) (phygitalTokenKey : Pubkey)
    (protectedAccounts : List Pubkey) (remaining : List AccountInfo) (compactInstructions : List CompactInstruction)
    (programPermissions : Option (List ProgramPermission)) (bank : Bank) : Issued :=
  issueInstructions rt [programWalletSeed, phygitalTokenKey.bytes, [walletBump]]
    (prepareInstruction programId wallet protectedAccounts remaining programPermissions) bank compactInstructions

/-- `None` is the explicit authority/no-policy bypass. `Some(empty)` is baseline. -/
def executeCompactInstructions (rt : Runtime) (programId wallet : Pubkey) (walletBump : UInt8)
    (phygitalTokenKey : Pubkey) (protectedAccounts : List Pubkey) (remaining : List AccountInfo)
    (compactInstructions : List CompactInstruction) (programPermissions : Option (List ProgramPermission))
    (bank : Bank) : Result Bank := do
  let bank' ← (issueCompactInstructions rt programId wallet walletBump phygitalTokenKey protectedAccounts remaining
    compactInstructions programPermissions bank).result
  require ((bank' wallet).owner = (bank wallet).owner ∧ (bank' wallet).data.length = (bank wallet).data.length)
    .walletInvariantViolated
  return bank'

end PhygitalWallet
