import PhygitalWallet.Secure.Parser
import PhygitalWallet.Secure.Protocol

/-!
# What the owner may sign (`tx/decode-v1.ts`, `tx/policy.ts`)

Kit's decoders are parameters.

- `decodeV1Transaction`: the message bytes, as they are, with what kit reads in them;
- `previewPolicy`, `evaluatePolicy`: the summary of a transaction, or why it is rejected.
-/

namespace PhygitalWallet.Secure

open Client

/-! ## Decoding -/

inductive TransactionVersion
  | legacy | v0 | v1
deriving DecidableEq, Repr

/-- What is read of `V1TransactionConfig`. -/
structure TransactionConfig where
  priorityFeeLamports : Option Nat
  computeUnitLimit : Option Nat
deriving DecidableEq, Repr

/-- A message as kit decodes it. The first addresses are the signers; the signatures of a transaction are kept under them. -/
structure DecodedMessage where
  version : TransactionVersion
  signers : List Pubkey
  compiled : CompiledMessage
  config : Option TransactionConfig
  signer_role : ∀ ix ∈ compiled.instructions, ∀ m ∈ ix.metas, (isSignerRole m.role = true ↔ m.address ∈ signers)

/-- Kit's decoders: the message bytes of a transaction, and a message with the offset where it ends. -/
structure KitDecoders where
  txDecoder : Bytes → Outcome Bytes
  messageDecoder : Bytes → Outcome (DecodedMessage × Nat)
  policyData : Bytes → Outcome WalletPolicyData

structure DecodedV1Transaction where
  messageBytes : Bytes
  message : DecodedMessage

def maxTxBytes : Nat := 4096

/-- `TxError`. -/
def txError (text : String) : JsError := .error [.text text]

/-- Decode + require v1. -/
def decodeV1Transaction (d : KitDecoders) (bytes : Bytes) : Outcome DecodedV1Transaction :=
  if bytes.length < 1 then .error (txError "empty")
  else if maxTxBytes < bytes.length then .error (txError "too large")
  else do
    let messageBytes ← d.txDecoder bytes
    let (message, ending) ← d.messageDecoder messageBytes
    if ending ≠ messageBytes.length then .error (txError "trailing bytes")
    else if message.version ≠ .v1 then .error (txError "not a v1 transaction")
    else return { messageBytes, message }

/-! ## The policy -/

structure TransactionSummary where
  walletAddress : String
  instructions : List ParsedInstructionSummary
  config : TransactionConfig
deriving DecidableEq, Repr

abbrev PolicyResult := Except ErrorCode TransactionSummary

/-- One turn of the loop over the instructions. -/
def previewInstruction (policyData : Bytes → Outcome WalletPolicyData) (ix : Client.Instruction) :
    Except ErrorCode ParsedInstructionSummary :=
  match parseInstruction policyData ix with
  | .error _ => .error .policyRejected
  | .ok summary => if summary.kind = .setAuthority then .error .policyRejected else .ok summary

/-- Allowlist + decode for confirm UI before the owner pubkey is known. -/
def previewPolicy (policyData : Bytes → Outcome WalletPolicyData) (tx : DecodedV1Transaction) : PolicyResult :=
  let instructions := tx.message.compiled.instructions
  if instructions.isEmpty then .error .policyRejected
  else if instructions.any fun ix => ix.programAddress ≠ crateId then .error .policyRejected
  else do
    let summaries ← instructions.mapM (previewInstruction policyData)
    return { walletAddress := ((summaries.findSome? ParsedInstructionSummary.authority).map Pubkey.text).getD ""
             instructions := summaries
             config := tx.message.config.getD ⟨none, none⟩ }

def evaluatePolicy (policyData : Bytes → Outcome WalletPolicyData) (tx : DecodedV1Transaction) (owner : Pubkey) :
    PolicyResult := do
  let preview ← previewPolicy policyData tx
  if owner ∉ tx.message.signers then .error .walletMismatch
  else if preview.instructions.any fun summary => summary.authority.isSome && summary.authority != some owner then
    .error .policyRejected
  else return { preview with walletAddress := owner.text }

end PhygitalWallet.Secure
