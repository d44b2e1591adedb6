import PhygitalWallet.Api.SubscribeFeeTx
import PhygitalWallet.Lib.Requests
import PhygitalWallet.Signer.Ledger

/-!
# The queue of wallet transactions (`webhooks/wallet-tx-queue.ts`, `webhooks/wallet-activity-store.ts`)

A batch of messages is parsed, its activity rows are inserted and its fee events are applied; then the batch is
acknowledged, or redelivered where something failed.

- `processWalletTxBatch`: the consumer; `storeWalletActivities`, `processSubscribeFeeTx`: its two effects;
- `TxStores`, `execTx`: the table of rows and the objects of the tokens, and what a call does to them;
- `txService`: deliveries of any batches, at any time and in any number.
-/

namespace PhygitalWallet.Api

open Async Prog SqlTable OrderedMap
open Client (JsError Outcome throwText)
open Signer (FeeEvent FeeKind StoreRecord StoreStep TokenTables starterFeeBalanceLamports)
open Signer.TokenTables (nextBalance)

/-! ## Messages -/

/-- A message has no object as its `result`, one that the parser throws on, or a transaction. -/
inductive MessageBody
  | malformed
  | unparseable
  | tx (receivedAt : Option ℚ) (result : SubscribeTxResult)
deriving DecidableEq, Repr

structure QueueMessage where
  id : String
  body : MessageBody
deriving DecidableEq, Repr

/-- A delivery, with `Date.now() / 1000` as it is parsed. -/
structure MessageBatch where
  messages : List QueueMessage
  now : ℚ
deriving DecidableEq, Repr

inductive BatchVerdict
  | ackAll | retryAll
deriving DecidableEq, Repr

/-- The messages that were acknowledged one by one, and what becomes of the others. -/
structure Settlement where
  acked : List QueueMessage
  verdict : BatchVerdict
deriving DecidableEq, Repr

/-- The messages of a batch that a settlement acknowledges. -/
def Settlement.acknowledges (settlement : Settlement) (batch : MessageBatch) (message : QueueMessage) : Prop :=
  message ∈ settlement.acked ∨ settlement.verdict = .ackAll ∧ message ∈ batch.messages

/-! ## Parsing -/

structure ParsedBatch where
  rows : List WalletActivityRow
  feeResults : List SubscribeTxResult
  acked : List QueueMessage
deriving DecidableEq, Repr

/-- One turn of the loop over the messages. -/
def parseMessage (now : ℚ) (parsed : ParsedBatch) (message : QueueMessage) : ParsedBatch :=
  match message.body with
  | .malformed | .unparseable => { parsed with acked := parsed.acked ++ [message] }
  | .tx receivedAt result =>
    { parsed with
      rows := parsed.rows ++ activityRowsFromResult result (receivedAt.getD now)
      feeResults := parsed.feeResults ++ [result] }

def parseMessages (batch : MessageBatch) : ParsedBatch := batch.messages.foldl (parseMessage batch.now) ⟨[], [], []⟩

/-! ## The consumer -/

/-- `db.batch` of inserts, and the call on the object of a token. -/
inductive TxCall
  | insertRows (rows : List WalletActivityRow)
  | applyFeeEvents (token : String) (events : List FeeEvent)
deriving DecidableEq, Repr

def TxCall.Reply : TxCall → Type
  | .insertRows _ => Unit
  | .applyFeeEvents _ _ => List String

abbrev TxProg (α : Type) := Prog Unit JsError TxCall TxCall.Reply α

def dbBatch (rows : List WalletActivityRow) : TxProg Unit := awaitOk (TxCall.insertRows rows)
def rpcApplyFeeEvents (token : String) (events : List FeeEvent) : TxProg (List String) :=
  awaitOk (TxCall.applyFeeEvents token events)

def D1_BATCH_CHUNK : ℕ := 100

/-- `statements.slice(i, i + D1_BATCH_CHUNK)` for each `i` of the loop. -/
def rowChunks (rows : List WalletActivityRow) : List (List WalletActivityRow) :=
  (List.range ((rows.length + D1_BATCH_CHUNK - 1) / D1_BATCH_CHUNK)).map fun i =>
    (rows.drop (i * D1_BATCH_CHUNK)).take D1_BATCH_CHUNK

def storeWalletActivities (rows : List WalletActivityRow) : TxProg Unit :=
  (rowChunks rows).foldlM (fun _ chunk => dbBatch chunk) ()

/-- `byToken`. -/
def groupByToken (events : List (String × FeeEvent)) : List (String × List FeeEvent) := groups events

structure FeeTxProcessResult where
  credited : Bool
  debited : Bool
deriving DecidableEq, Repr

/-- What an event of the batch makes of the result, where its signature is among the applied ones. -/
def FeeTxProcessResult.note (appliedSignatures : List String) (result : FeeTxProcessResult) (ev : FeeEvent) :
    FeeTxProcessResult :=
  if ev.signature ∉ appliedSignatures then result
  else
    match ev.kind with
    | .credit => { result with credited := true }
    | .debit => { result with debited := true }

/-- One turn of the loop over the tokens, with `tokenSigner`. -/
def applyToken (result : FeeTxProcessResult) (entry : String × List FeeEvent) : TxProg FeeTxProcessResult :=
  if trimText entry.1 = "" then Prog.throw (.error [.text "phygitalToken required"])
  else do
    let appliedSignatures ← rpcApplyFeeEvents (trimText entry.1) entry.2
    return entry.2.foldl (FeeTxProcessResult.note appliedSignatures) result

/-- Process one subscribe tx: credit top-ups, debit default fee-payer execute fees. -/
def processSubscribeFeeTx (config : FeeConfig) (result : SubscribeTxResult) : TxProg FeeTxProcessResult := do
  let events ← ofOutcome (config.feeEvents result)
  (groupByToken events).foldlM applyToken ⟨false, false⟩

def processWalletTxBatch (config : FeeConfig) (batch : MessageBatch) : TxProg Settlement :=
  let parsed := parseMessages batch
  if parsed.rows = [] ∧ parsed.feeResults = [] then pure ⟨parsed.acked, .ackAll⟩
  else
    tryCatch (do
      storeWalletActivities parsed.rows
      parsed.feeResults.foldlM (fun _ result => do
        let _ ← processSubscribeFeeTx config result
        return ()) ()
      return ⟨parsed.acked, .ackAll⟩)
      fun _ => pure ⟨parsed.acked, .retryAll⟩

/-! ## The stores -/

/-- The unique index `wallet_activity_wallet_sig`. -/
def rowKey (row : WalletActivityRow) : String × String := (row.walletAddress, row.signature)

/-- Why a balance changed. -/
inductive Cause
  | starter
  | fee (event : FeeEvent)
deriving DecidableEq, Repr

namespace Cause

/-- The balance after a change. -/
def next (balance : Int) : Cause → Int
  | starter => starterFeeBalanceLamports
  | fee event => nextBalance balance event

def event : Cause → Option FeeEvent
  | starter => none
  | fee event => some event

end Cause

/-- The object of a token, with the changes of its balance in order; only the theorems read these. -/
structure TokenObject where
  tables : TokenTables
  storeCreated : Bool
  history : List Cause

structure TxStores where
  activity : Table rowKey
  tokens : String → TokenObject
  now : Int

/-- Nothing was recorded yet. -/
def TxStores.empty : TxStores := ⟨.empty _, fun _ => ⟨.init, false, []⟩, 0⟩

/-- `INSERT OR IGNORE`. -/
def insertOrIgnore (activity : Table rowKey) (row : WalletActivityRow) : Table rowKey :=
  (activity.insert row).getD activity

/-- The loop of `applyFeeEvents`: the applied signatures, the events that they stand for, the tables. -/
def applyFeeEvents (now : Int) : List FeeEvent → TokenTables → Outcome (List String) × List FeeEvent × TokenTables
  | [], tables => (.ok [], [], tables)
  | ev :: events, tables =>
    match tables.settleDebit ev now with
    | (.error e, after) => (.error e, [], after)
    | (.ok false, after) => applyFeeEvents now events after
    | (.ok true, after) =>
      let (out, applied, last) := applyFeeEvents now events after
      (out.map fun signatures => ev.signature :: signatures, ev :: applied, last)

/-- `#getStore`, where the object was not used yet. -/
def TokenObject.open (object : TokenObject) (token : String) : Outcome Unit × TokenTables :=
  if object.storeCreated then (.ok (), object.tables) else object.tables.ensureToken token

def TokenObject.applyFeeEvents (object : TokenObject) (token : String) (now : Int) (events : List FeeEvent) :
    Outcome (List String) × TokenObject :=
  match object.open token with
  | (.error e, tables) => (.error e, ⟨tables, true, object.history⟩)
  | (.ok _, tables) =>
    let (out, applied, last) := PhygitalWallet.Api.applyFeeEvents now events tables
    (out, ⟨last, true, object.history ++ applied.map .fee⟩)

def execTx : (c : TxCall) → TxStores → Except JsError c.Reply × TxStores
  | .insertRows rows, s => (.ok (), { s with activity := rows.foldl insertOrIgnore s.activity })
  | .applyFeeEvents token events, s =>
    let (out, object) := (s.tokens token).applyFeeEvents token s.now events
    (out, { s with tokens := Function.update s.tokens token object })

/-- Another call on the store of an object, which applies no fee event; the object may be started anew. -/
def OtherCall (object object' : TokenObject) : Prop :=
  ∃ l : StoreRecord, StoreStep l object.tables object'.tables ∧ l.applied = none ∧
    object'.history = object.history ++ if l.starter then [.starter] else []

/-- Time passes, and other calls are made on the objects of the tokens. -/
inductive OtherCalls (s : TxStores) : TxStores → Prop
  | clock (now : Int) : OtherCalls s { s with now }
  | call (token : String) (object : TokenObject) (h : OtherCall (s.tokens token) object) :
    OtherCalls s { s with tokens := Function.update s.tokens token object }

/-- Batches are delivered at any time, with any messages. -/
def txService (config : FeeConfig) : Service TxStores MessageBatch JsError TxCall TxCall.Reply Settlement where
  handler := processWalletTxBatch config
  exec := execTx
  drift := OtherCalls

abbrev TxEvent := Event MessageBatch JsError TxCall TxCall.Reply Settlement

/-- A message was acknowledged. -/
def Acknowledged (events : List TxEvent) (message : QueueMessage) : Prop :=
  ∃ event ∈ events, ∃ batch settlement, Settlement.acknowledges settlement batch message ∧
    (event = .arrive batch (some (.ok settlement)) ∨ ∃ c r, event = .reply batch c r (some (.ok settlement)))

/-- A message was delivered. -/
def Delivered (events : List TxEvent) (message : QueueMessage) : Prop :=
  ∃ batch out, .arrive batch out ∈ events ∧ message ∈ batch.messages

end PhygitalWallet.Api
