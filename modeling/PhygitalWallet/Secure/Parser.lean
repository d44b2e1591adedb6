import PhygitalWallet.Client.Instructions
import PhygitalWallet.Secure.ClearSign

/-!
# Instruction summaries (`tx/parser.ts`)

The codec of the policy arguments is a parameter.

- `parsePhygitalWalletInstruction`: what the generated parsers read;
- `summarizeInner`, `parseInstruction`: the summary that is shown.
-/

namespace PhygitalWallet.Secure

open Client

/-! ## The generated parsers -/

/-- What the parser of an instruction returns of the instruction's accounts and arguments. -/
structure ParsedWalletInstruction where
  kind : PhygitalWalletInstruction
  authority : Option Client.AccountMeta
  phygitalToken : Client.AccountMeta
  compactInstructions : List CompactInstruction
  policy : Option WalletPolicyData
deriving DecidableEq, Repr

def parsePhygitalWalletInstruction (policyData : Bytes → Outcome WalletPolicyData) (accounts : List Client.AccountMeta)
    (data : Bytes) : Outcome ParsedWalletInstruction := do
  let kind ← identifyPhygitalWalletInstruction data
  match kind with
  | .clearAuthority => do
    let phygitalToken ← parseClearAuthorityInstruction accounts data
    let authority ← accountAt accounts 5 0
    return { kind, authority := some authority, phygitalToken, compactInstructions := [], policy := none }
  | .clearWalletPolicy => do
    let phygitalToken ← parseClearWalletPolicyInstruction accounts data
    let authority ← accountAt accounts 5 0
    return { kind, authority := some authority, phygitalToken, compactInstructions := [], policy := none }
  | .execute => do
    let parsed ← parseExecuteInstruction accounts data
    return { kind, authority := none, phygitalToken := parsed.phygitalToken,
             compactInstructions := parsed.compactInstructions, policy := none }
  | .executeWithAuthority | .executeWithAuthorityUsingPolicies => do
    let parsed ← parseExecuteWithAuthorityInstruction accounts data
    let authority ← accountAt accounts 5 0
    return { kind, authority := some authority, phygitalToken := parsed.phygitalToken,
             compactInstructions := parsed.compactInstructions, policy := none }
  | .setAuthority => do
    let phygitalToken ← parseSetAuthorityInstruction accounts data
    return { kind, authority := none, phygitalToken, compactInstructions := [], policy := none }
  | .setWalletPolicy => do
    let phygitalToken ← parseSetWalletPolicyInstruction (fun data => (fun _ => ()) <$> policyData data) accounts data
    let policy ← policyData data
    let authority ← accountAt accounts 7 0
    return { kind, authority := some authority, phygitalToken, compactInstructions := [], policy := some policy }

/-! ## Summaries -/

structure InnerInstructionSummary where
  programAddress : Pubkey
  accounts : List Pubkey
  dataLength : Nat
  title : String
  details : List DetailRow
deriving DecidableEq, Repr

structure ParsedInstructionSummary where
  kind : PhygitalWalletInstruction
  authority : Option Pubkey
  phygitalToken : Option Pubkey
  inner : Option (List InnerInstructionSummary)
  details : List DetailRow
deriving DecidableEq, Repr

/-- What is shown of an inner instruction. -/
def innerSummary (programAddress : Pubkey) (accounts : List Pubkey) (data : Bytes) : InnerInstructionSummary :=
  let cleared := describeInnerInstruction programAddress.text (accounts.map Pubkey.text) data
  { programAddress, accounts, dataLength := data.length, title := cleared.title, details := cleared.details }

/-- One turn of the loop over the account indexes. -/
def innerAccount (remaining : List Client.AccountMeta) (ai : UInt8) : Outcome Pubkey :=
  match remaining[ai.toNat]? with
  | some m => .ok m.address
  | none => throwText [.text "inner account index out of range"]

/-- Compact indices are relative to remaining only. -/
def summarizeInner (compactInstructions : List CompactInstruction) (remaining : List Client.AccountMeta) :
    Outcome (List InnerInstructionSummary) :=
  compactInstructions.mapM fun ci =>
    match remaining[ci.programIdIndex.toNat]? with
    | none => throwText [.text "inner program index out of range"]
    | some prog => do
      let accounts ← ci.accountIndexes.mapM (innerAccount remaining)
      return innerSummary prog.address accounts ci.data

/-- Parse a single kit instruction into a trusted display summary. -/
def parseInstruction (policyData : Bytes → Outcome WalletPolicyData) (ix : Client.Instruction) :
    Outcome ParsedInstructionSummary := do
  let parsed ← parsePhygitalWalletInstruction policyData ix.metas (ix.data.getD [])
  let summary (inner : Option (List InnerInstructionSummary)) (details : List DetailRow) : ParsedInstructionSummary :=
    { kind := parsed.kind, authority := parsed.authority.map Client.AccountMeta.address,
      phygitalToken := some parsed.phygitalToken.address, inner, details }
  match parsed.kind with
  | .executeWithAuthority => do
    let remaining ← sliceExecuteRemainingAccounts parsed.kind ix.metas
    let inner ← summarizeInner parsed.compactInstructions remaining
    return summary (some inner) []
  | .executeWithAuthorityUsingPolicies => do
    let remaining ← sliceExecuteRemainingAccounts parsed.kind ix.metas
    let inner ← summarizeInner parsed.compactInstructions remaining
    return summary (some inner) [⟨"Note", "Owner spend with on-chain wallet policies applied"⟩]
  | .clearAuthority => return summary none [⟨"Effect", "Removes the owner key from this accessory"⟩]
  | .setWalletPolicy => return summary none ((parsed.policy.map describeWalletPolicy).getD [])
  | .clearWalletPolicy => return summary none [⟨"Effect", "Deletes spend caps and program permission overrides"⟩]
  | .setAuthority | .execute => return summary none []

end PhygitalWallet.Secure
