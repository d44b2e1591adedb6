import PhygitalWallet.Client.Instructions

/-!
# What the signer accepts (`transactions/decode-tx.ts`)

The decoders of kit and the codec of one instruction's arguments are parameters.

- `decodeWireTransaction`: the message, its fee payer, the token, and whether the transaction is a top-up;
- `exampleDecoders`: the decoders on the bytes of one transaction.
-/

namespace PhygitalWallet.Signer

open Client

/-! ## Kit's decoders -/

/-- A transaction's message and its signatures, the fee payer's first. -/
structure WireTransaction where
  messageBytes : Bytes
  signatures : List Bytes
deriving DecidableEq, Repr

structure Decoders where
  base64Encoder : String → Outcome Bytes
  txDecoder : Bytes → Outcome WireTransaction
  messageDecoder : Bytes → Outcome CompiledMessage
  setWalletPolicyData : Bytes → Outcome Unit

/-! ## Checks -/

def topLevelOk : List Pubkey := [secp256r1ProgramId, crateId]

/-- Top-level programs allowed on `/sign` wire txs (no durable nonce). -/
def assertTopLevelInstructionAllowed (ix : Client.Instruction) : Outcome Unit :=
  if ix.programAddress ∉ topLevelOk then
    throwCoded [.text "Unexpected top-level program ", .address ix.programAddress] "unexpected_instruction"
  else .ok ()

/-- An instruction of the program, with its accounts and data. -/
structure WalletIx where
  accounts : List Client.AccountMeta
  data : Bytes
deriving DecidableEq, Repr

def asWalletInstruction (ix : Client.Instruction) : Outcome WalletIx :=
  match ix.data.getD [] with
  | [] => throwCoded [.text "Phygital-wallet instruction missing data"] "invalid_transaction"
  | data =>
    match ix.accounts with
    | none => throwCoded [.text "Phygital-wallet instruction missing accounts"] "invalid_transaction"
    | some accounts => .ok { accounts, data }

/-! ## Top-ups -/

/-- An inner instruction with its addresses. -/
structure InnerInstruction where
  programAddress : Pubkey
  accounts : List Pubkey
  data : Bytes
deriving DecidableEq, Repr

/-- One instruction of a top-up: System Transfer has discriminator 2 and its destination second. -/
def isTopUpTransfer (accumulator : String) (ix : InnerInstruction) : Bool :=
  ix.programAddress = systemProgramId && ix.data.head? = some 2 &&
    match ix.accounts[1]? with
    | some dest => dest.text = accumulator
    | none => false

def isFeeBalanceTopUpIntent (instructions : List InnerInstruction) (accumulator : String) : Bool :=
  if accumulator = "" ∨ instructions = [] then false else instructions.all (isTopUpTransfer accumulator)

/-- Flatten an execute variant's compact CPI payload for the top-up scan. -/
def expandCompactInstructions (compactInstructions : List CompactInstruction) (remainingAddresses : List Pubkey) :
    Outcome (List InnerInstruction) :=
  compactInstructions.mapM fun ci => do
    let programAddress ← match remainingAddresses[ci.programIdIndex.toNat]? with
      | some address => Except.ok address
      | none => throwCoded [.text "Compact instruction program index out of range"] "invalid_transaction"
    let accounts ← ci.accountIndexes.mapM fun idx =>
      match remainingAddresses[idx.toNat]? with
      | some address => Except.ok address
      | none => throwCoded [.text "Compact instruction account index out of range"] "invalid_transaction"
    return { programAddress, accounts, data := ci.data }

/-! ## Decoding -/

structure ResolvedInstruction where
  phygitalToken : Pubkey
  isFeePayingInstruction : Bool
deriving DecidableEq, Repr

/-- The token of an execute variant, and whether it is a top-up. -/
def resolveExecute (kind : PhygitalWalletInstruction) (parsed : ParsedExecute) (walletIx : WalletIx) (accumulator : String) :
    Outcome ResolvedInstruction := do
  let remaining ← sliceExecuteRemainingAccounts kind walletIx.accounts
  let inner ← expandCompactInstructions parsed.compactInstructions (remaining.map Client.AccountMeta.address)
  return { phygitalToken := parsed.phygitalToken.address
           isFeePayingInstruction := isFeeBalanceTopUpIntent inner accumulator }

def resolveWalletInstruction (d : Decoders) (walletIx : WalletIx) (ixType : PhygitalWalletInstruction)
    (accumulator : String) : Outcome ResolvedInstruction :=
  match ixType with
  | .execute => do
    let parsed ← parseExecuteInstruction walletIx.accounts walletIx.data
    resolveExecute .execute parsed walletIx accumulator
  | .executeWithAuthority => do
    let parsed ← parseExecuteWithAuthorityInstruction walletIx.accounts walletIx.data
    resolveExecute .executeWithAuthority parsed walletIx accumulator
  | .setAuthority => do
    let phygitalToken ← parseSetAuthorityInstruction walletIx.accounts walletIx.data
    return ⟨phygitalToken.address, false⟩
  | .setWalletPolicy => do
    let phygitalToken ← parseSetWalletPolicyInstruction d.setWalletPolicyData walletIx.accounts walletIx.data
    return ⟨phygitalToken.address, false⟩
  | .clearAuthority => do
    let phygitalToken ← parseClearAuthorityInstruction walletIx.accounts walletIx.data
    return ⟨phygitalToken.address, false⟩
  | .clearWalletPolicy => do
    let phygitalToken ← parseClearWalletPolicyInstruction walletIx.accounts walletIx.data
    return ⟨phygitalToken.address, false⟩
  | .executeWithAuthorityUsingPolicies =>
    throwCoded [.text "executeWithAuthorityUsingPolicies is not fee-sponsored"] "unexpected_instruction"

structure DecodedSignTx where
  messageBytes : Bytes
  feePayer : Pubkey
  phygitalToken : Pubkey
  isFeePayingInstruction : Bool
deriving DecidableEq, Repr

/-- One turn of the loop over the top-level instructions. -/
def resolveTopLevel (d : Decoders) (accumulator : String) (resolved : Option ResolvedInstruction) (ix : Client.Instruction) :
    Outcome (Option ResolvedInstruction) := do
  assertTopLevelInstructionAllowed ix
  if ix.programAddress ≠ crateId then
    return resolved
  else if resolved.isSome then
    throwCoded [.text "Transaction mixes multiple phygital-wallet instructions"] "unexpected_instruction"
  else do
    let walletIx ← asWalletInstruction ix
    let ixType ← identifyPhygitalWalletInstruction walletIx.data
    some <$> resolveWalletInstruction d walletIx ixType accumulator

def decodeWireTransaction (d : Decoders) (base64Tx accumulator : String) : Outcome DecodedSignTx := do
  let bytes ← d.base64Encoder base64Tx
  let tx ← d.txDecoder bytes
  let compiled ← d.messageDecoder tx.messageBytes
  match compiled.accountKeys.head? with
  | none => throwCoded [.text "Transaction has no fee payer"] "invalid_transaction"
  | some feePayer => do
    let resolved ← compiled.instructions.foldlM (resolveTopLevel d accumulator) none
    match resolved with
    | none => throwCoded [.text "Transaction missing a phygital-wallet instruction"] "unexpected_instruction"
    | some resolved =>
      return { messageBytes := tx.messageBytes, feePayer, phygitalToken := resolved.phygitalToken
               isFeePayingInstruction := resolved.isFeePayingInstruction }

/-! ## An example -/

/-- `9hSR..`, the public key of the seed of 32 bytes 2. -/
def examplePayer : Pubkey :=
  ⟨[129, 57, 119, 14, 168, 125, 23, 95, 86, 163, 84, 102, 195, 76, 126, 204,
    203, 141, 138, 145, 180, 238, 55, 162, 93, 246, 15, 91, 143, 201, 179, 148], rfl⟩

/-- 30 lamports from the fee payer, as an inner instruction of `execute_with_authority`. -/
def exampleData : Bytes :=
  PhygitalWalletInstruction.executeWithAuthority.discriminator ++
    Borsh.encodeVec CompactInstruction.encode [⟨0, [1, 2], [2, 0, 0, 0, 30, 0, 0, 0, 0, 0, 0, 0]⟩]

/-- The keys of the message: two signers, two writable accounts, five readonly ones. -/
def exampleKeys : List Pubkey :=
  [examplePayer, .fill 6, .fill 9, .fill 1, .fill 8, .fill 7, systemProgramId, instructionsSysvarId, crateId]

def exampleMetas : List Client.AccountMeta :=
  [⟨.fill 6, .readonlySigner⟩, ⟨.fill 8, .readonly⟩, ⟨.fill 7, .readonly⟩, ⟨.fill 9, .writable⟩,
    ⟨instructionsSysvarId, .readonly⟩, ⟨systemProgramId, .readonly⟩, ⟨examplePayer, .writableSigner⟩,
    ⟨.fill 1, .writable⟩]

def exampleMessage : CompiledMessage where
  accountKeys := exampleKeys
  instructions := [⟨crateId, some exampleMetas, some exampleData⟩]
  length_le := by decide
  mem := by decide +kernel
  feePayer_role := by decide +kernel
  coherent := by decide +kernel

/-- The message as bytes: header, keys, blockhash, instructions. -/
def exampleMessageBytes : Bytes :=
  [2, 1, 5, 9] ++ exampleKeys.flatMap Pubkey.bytes ++ List.replicate 32 3 ++ [1, 8, 8, 1, 4, 5, 2, 7, 6, 0, 3, 35] ++
    exampleData

/-- Two signatures are still missing. -/
def exampleTransaction : Bytes := [2] ++ List.replicate 128 0 ++ exampleMessageBytes

def exampleWire : String := BaseText.base64Of exampleTransaction

/-- What kit's decoders make of the transaction, and of the empty text; no other text is given to them. -/
def exampleDecoders : Decoders where
  base64Encoder wire := if wire = "" then .ok [] else .ok exampleTransaction
  txDecoder bytes :=
    if bytes = exampleTransaction then .ok ⟨exampleMessageBytes, List.replicate 2 (List.replicate 64 0)⟩
    else .error codecError
  messageDecoder bytes := if bytes = exampleMessageBytes then .ok exampleMessage else .error codecError
  setWalletPolicyData _ := .error codecError

example : decodeWireTransaction exampleDecoders exampleWire "" =
    .ok ⟨exampleMessageBytes, examplePayer, .fill 8, false⟩ := by decide +kernel

end PhygitalWallet.Signer
