import PhygitalWallet.Api.ActivityRows
import PhygitalWallet.Api.Session
import PhygitalWallet.Client.Instructions
import PhygitalWallet.Signer.TokenStore

/-!
# The fee events of a confirmed transaction (`fees/subscribe-fee-tx.ts`)

A top-up is credited to the token of the transaction's execute instruction by what the accumulator gained; what a default
fee payer spent on an execute instruction is debited. Kit's text codecs are parameters.

- `resolveAccountKeys`, `nativeChange`: the accounts of the balances, and what one of them gained;
- `findExecuteAccounts`: the token, from the first execute instruction that is read;
- `feeEvents`: the events of a transaction; `feeEvents_kind`, `feeEvents_pos`.
-/

namespace PhygitalWallet.Api

open Client
open Signer (FeeEvent FeeKind)
open ByteSeq (Bytes)

/-! ## The configuration -/

/-- `TOP_UP_ACCUMULATOR` without white space at its ends, the default fee payers, kit's encoders and its address check. -/
structure FeeConfig where
  accumulator : String
  feePayerSet : Outcome (List String)
  base58 : String → Option Bytes
  base64 : String → Option Bytes
  isAddress : String → Bool

namespace FeeConfig

variable (config : FeeConfig)

def isDefaultFeePayer (feePayer : String) : Outcome Bool := do
  let feePayers ← config.feePayerSet
  return decide (feePayer ∈ feePayers)

/-- `tryParseAddress(text)`, where it is not null. -/
def parsesAddress (text : String) : Bool := trimText text ≠ "" && config.isAddress (trimText text)

end FeeConfig

/-! ## Keys and balances -/

/-- Static keys + v0 loaded addresses (writable then readonly). -/
def resolveAccountKeys (confirmed : ConfirmedTransaction) : List String :=
  let staticKeys := confirmed.accountKeys.filterMap fun key => truthy (accountPubkey (some key))
  let loaded := confirmed.txMeta.bind FullTxMeta.loadedAddresses
  let writable := (loaded.elim [] LoadedAddresses.writable).filter fun key => key ≠ ""
  let readonly := (loaded.elim [] LoadedAddresses.readonly).filter fun key => key ≠ ""
  staticKeys ++ writable ++ readonly

/-- The lamports that an account gained. -/
def nativeChange (keys : List String) (confirmed : ConfirmedTransaction) (account : String) : ℤ :=
  match keys.findIdx? fun key => key = account with
  | none => 0
  | some i =>
    match confirmed.preBalances[i]?, confirmed.postBalances[i]? with
    | some pre, some post => (post : ℤ) - pre
    | _, _ => 0

/-! ## Instructions -/

/-- An instruction with its addresses. -/
structure KitIx where
  programAddress : String
  accounts : List String
  data : Bytes
deriving DecidableEq, Repr

namespace FeeConfig

variable (config : FeeConfig)

def decodeIxData (raw : Option String) : Option Bytes :=
  (truthy (raw.map trimText)).bind fun text => (config.base58 text).or (config.base64 text)

/-- An index that is out of range, or of an empty key, is left out. -/
def compiledToKitIx (ix : CompiledIx) (keys : List String) : Option KitIx := do
  let programIdIndex ← ix.programIdIndex
  let programAddress ← truthy keys[programIdIndex]?
  let data ← config.decodeIxData ix.data
  return { programAddress, data, accounts := (ix.accounts.getD []).filterMap fun i => truthy keys[i]? }

end FeeConfig

/-- The instructions of the message, then those of the calls. -/
def allCompiledIxs (confirmed : ConfirmedTransaction) : List CompiledIx :=
  let top := ((confirmed.transaction.bind ConfirmedBody.message).bind ConfirmedMessage.instructions).getD []
  let inner := ((confirmed.txMeta.bind FullTxMeta.innerInstructions).getD []).flatMap fun group => group.getD []
  top ++ inner

/-- `parsed.accounts.phygitalToken`, where the parser of an execute variant does not throw. -/
def parsedToken (ix : KitIx) : Option String :=
  match instructionOf ix.data with
  | some .execute =>
    if ix.accounts.length < 6 then none
    else if (decodeFrom executeInstructionData ix.data).isOk then ix.accounts[0]? else none
  | some .executeWithAuthority =>
    if ix.accounts.length < 5 then none
    else if (decodeFrom executeWithAuthorityInstructionData ix.data).isOk then ix.accounts[1]? else none
  | _ => none

namespace FeeConfig

variable (config : FeeConfig)

/-- The token of an instruction that is credited or debited. -/
def executeToken (keys : List String) (ix : CompiledIx) : Option String := do
  let kitIx ← config.compiledToKitIx ix keys
  if kitIx.programAddress ≠ crateId.text then none
  else (parsedToken kitIx).filter config.parsesAddress

/-- Token PDA from `execute` (sponsored debit) or `executeWithAuthority` (top-up credit). -/
def findExecuteAccounts (confirmed : ConfirmedTransaction) (keys : List String) : Option String :=
  (allCompiledIxs confirmed).findSome? (config.executeToken keys)

/-! ## Events -/

/-- The credit of a top-up. -/
def creditOf (confirmed : ConfirmedTransaction) (keys : List String) (execute : Option String) (signature : String) :
    List (String × FeeEvent) :=
  if config.accumulator = "" then []
  else
    let change := nativeChange keys confirmed config.accumulator
    match execute with
    | some token => if 0 < change then [(token, ⟨signature ++ ":credit", .credit, change⟩)] else []
    | none => []

/-- The debit of a default fee payer. -/
def debitOf (confirmed : ConfirmedTransaction) (keys : List String) (feePayer : String) (execute : Option String)
    (signature : String) : Outcome (List (String × FeeEvent)) :=
  match execute with
  | none => .ok []
  | some token => do
    let isDefault ← config.isDefaultFeePayer feePayer
    let change := nativeChange keys confirmed feePayer
    return if isDefault && change < 0 then [(token, ⟨signature ++ ":debit", .debit, -change⟩)] else []

/-- The events that `processSubscribeFeeTx` collects, each with its token. -/
def feeEvents (result : SubscribeTxResult) : Outcome (List (String × FeeEvent)) :=
  match result.transaction with
  | none => .ok []
  | some confirmed =>
    let signature := signatureOf result confirmed
    if confirmed.failed then .ok []
    else if signature = "" then .ok []
    else
      let keys := resolveAccountKeys confirmed
      match keys.head? with
      | none => .ok []
      | some feePayer => do
        let execute := config.findExecuteAccounts confirmed keys
        let credit := config.creditOf confirmed keys execute signature
        let debit ← config.debitOf confirmed keys feePayer execute signature
        return credit ++ debit

/-! ## What the events are -/

variable {config}

/-- The events of a transaction that has some: its credit, then its debit, of one token. -/
theorem feeEvents_ok {result : SubscribeTxResult} {events : List (String × FeeEvent)}
    (h : config.feeEvents result = .ok events) : events = [] ∨ ∃ confirmed feePayer debit,
      result.transaction = some confirmed ∧ confirmed.failed = false ∧ signatureOf result confirmed ≠ "" ∧
      (resolveAccountKeys confirmed).head? = some feePayer ∧
      config.debitOf confirmed (resolveAccountKeys confirmed) feePayer
        (config.findExecuteAccounts confirmed (resolveAccountKeys confirmed)) (signatureOf result confirmed) = .ok debit ∧
      events = config.creditOf confirmed (resolveAccountKeys confirmed)
        (config.findExecuteAccounts confirmed (resolveAccountKeys confirmed)) (signatureOf result confirmed) ++ debit := by
  unfold feeEvents at h
  split at h
  · exact Or.inl (Except.ok.inj h).symm
  · next confirmed htx =>
    simp only at h
    split at h
    · exact Or.inl (Except.ok.inj h).symm
    · next hfailed =>
      split at h
      · exact Or.inl (Except.ok.inj h).symm
      · next hsignature =>
        split at h
        · exact Or.inl (Except.ok.inj h).symm
        · next feePayer hpayer =>
          obtain ⟨debit, hdebit, hevents⟩ := outcome_bind_eq_ok.1 h
          exact Or.inr ⟨confirmed, feePayer, debit, htx, Bool.eq_false_iff.2 hfailed, hsignature, hpayer, hdebit,
            (outcome_pure_eq_ok.1 hevents).symm⟩

theorem mem_creditOf {confirmed : ConfirmedTransaction} {keys : List String} {execute : Option String} {signature : String}
    {fee : String × FeeEvent} : fee ∈ config.creditOf confirmed keys execute signature ↔
      config.accumulator ≠ "" ∧ 0 < nativeChange keys confirmed config.accumulator ∧ execute = some fee.1 ∧
        fee.2 = ⟨signature ++ ":credit", .credit, nativeChange keys confirmed config.accumulator⟩ := by
  obtain ⟨token, event⟩ := fee
  unfold creditOf
  by_cases hempty : config.accumulator = ""
  · simp [hempty]
  · cases execute with
    | none => simp [hempty]
    | some token' =>
      by_cases hpos : 0 < nativeChange keys confirmed config.accumulator
      · simp [hempty, hpos, eq_comm]
      · simp [hempty, hpos]

theorem mem_debitOf {confirmed : ConfirmedTransaction} {keys : List String} {feePayer : String} {execute : Option String}
    {signature : String} {debit : List (String × FeeEvent)}
    (h : config.debitOf confirmed keys feePayer execute signature = .ok debit) {fee : String × FeeEvent} (hfee : fee ∈ debit) :
    nativeChange keys confirmed feePayer < 0 ∧ execute = some fee.1 ∧
      fee.2 = ⟨signature ++ ":debit", .debit, -nativeChange keys confirmed feePayer⟩ := by
  unfold debitOf at h
  cases execute with
  | none =>
    cases h
    cases hfee
  | some token =>
    obtain ⟨isDefault, -, hdebit⟩ := outcome_bind_eq_ok.1 h
    have hdebit := outcome_pure_eq_ok.1 hdebit
    subst hdebit
    split at hfee
    · next hcond =>
      rw [Bool.and_eq_true, decide_eq_true_eq] at hcond
      rw [List.mem_singleton.1 hfee]
      exact ⟨hcond.2, rfl, rfl⟩
    · cases hfee

/-- Every event moves lamports. -/
theorem feeEvents_pos {result : SubscribeTxResult} {events : List (String × FeeEvent)}
    (h : config.feeEvents result = .ok events) {fee : String × FeeEvent} (hfee : fee ∈ events) : 0 < fee.2.lamports := by
  rcases feeEvents_ok h with rfl | ⟨confirmed, feePayer, debit, -, -, -, -, hdebit, rfl⟩
  · cases hfee
  · rcases List.mem_append.1 hfee with hcredit | hmem
    · obtain ⟨-, hpos, -, heq⟩ := mem_creditOf.1 hcredit
      rw [heq]
      exact hpos
    · obtain ⟨hneg, -, heq⟩ := mem_debitOf hdebit hmem
      rw [heq]
      show 0 < -nativeChange _ _ _
      omega

end FeeConfig

end PhygitalWallet.Api
