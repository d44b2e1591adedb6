import PhygitalWallet.Lib.FixedPoint
import PhygitalWallet.Lib.JsText
import PhygitalWallet.Lib.Loops
import PhygitalWallet.Lib.OrderedMap
import Mathlib.Data.Rat.Floor

/-!
# The activity rows of a transaction (`webhooks/wallet-activity.ts`)

A confirmed transaction is mapped to one row per wallet that it touches.

- `affectedWallets`: the owners of token balances and the static account keys whose balance changed;
- `mapWalletActivity`: the row of one of them;
- `activityRowsFromResult`: the rows.
-/

namespace PhygitalWallet.Api

open ListLoop OrderedMap JsText

/-! ## The payload -/

inductive AccountKey
  | text (key : String)
  | parsed (pubkey : Option String)
deriving DecidableEq, Repr

structure UiTokenAmount where
  uiAmount : Option ℚ := none
  uiAmountString : Option String := none
  decimals : Option ℕ := none
  amount : Option String := none
deriving DecidableEq, Repr

structure TokenBalanceEntry where
  mint : Option String
  owner : Option String
  uiTokenAmount : Option UiTokenAmount
deriving DecidableEq, Repr

/-- `meta.err`, where it is neither null nor missing. -/
inductive TxErr
  | false | other
deriving DecidableEq, Repr

structure LoadedAddresses where
  writable : List String
  readonly : List String
deriving DecidableEq, Repr

/-- An instruction by the indexes of its accounts; `data` is text. -/
structure CompiledIx where
  programIdIndex : Option ℕ := none
  accounts : Option (List ℕ) := none
  data : Option String := none
deriving DecidableEq, Repr

/-- The addresses from lookup tables and the instructions are in the payload; `fees/subscribe-fee-tx.ts` reads them. -/
structure FullTxMeta where
  err : Option TxErr := none
  fee : Option ℕ := none
  preBalances : Option (List ℕ) := none
  postBalances : Option (List ℕ) := none
  preTokenBalances : Option (List TokenBalanceEntry) := none
  postTokenBalances : Option (List TokenBalanceEntry) := none
  loadedAddresses : Option LoadedAddresses := none
  innerInstructions : Option (List (Option (List CompiledIx))) := none
deriving DecidableEq, Repr

structure ConfirmedMessage where
  accountKeys : Option (List AccountKey)
  instructions : Option (List CompiledIx) := none
deriving DecidableEq, Repr

structure ConfirmedBody where
  signatures : Option (List String)
  message : Option ConfirmedMessage
deriving DecidableEq, Repr

structure ConfirmedTransaction where
  txMeta : Option FullTxMeta
  transaction : Option ConfirmedBody
deriving DecidableEq, Repr

structure SubscribeTxResult where
  signature : Option String
  slot : Option ℤ
  blockTime : Option ℚ
  transaction : Option ConfirmedTransaction
deriving DecidableEq, Repr

/-! ## Rows -/

/-- So11111111111111111111111111111111111111112 — wrapped-SOL / native sentinel. -/
def NATIVE_SOL_MINT : String := "So11111111111111111111111111111111111111112"

inductive WalletActivityKind
  | sent | received | approved | topUp | failed | other
deriving DecidableEq, Repr

inductive WalletActivityDeltaDirection
  | incoming | outgoing
deriving DecidableEq, Repr

structure WalletActivityDelta where
  mint : String
  direction : WalletActivityDeltaDirection
  amountUi : String
deriving DecidableEq, Repr

def WALLET_ACTIVITY_PARSER_VERSION : ℕ := 1

structure WalletActivityDetail where
  feeLamports : ℕ
deriving DecidableEq, Repr

structure WalletActivityRow where
  walletAddress : String
  signature : String
  slot : Option ℤ
  blockTime : ℚ
  kind : WalletActivityKind
  title : String
  amountLabel : Option String
  statusLabel : Option String
  mint : Option String
  balanceDeltas : List WalletActivityDelta
  failed : Bool
  detail : Option WalletActivityDetail
  parserVersion : ℕ
deriving DecidableEq, Repr

/-! ## Reading the payload -/

/-- A text that is not empty. -/
def truthy (text : Option String) : Option String := text.filter fun text => text ≠ ""

def accountPubkey : Option AccountKey → Option String
  | some (.text key) => some key
  | some (.parsed pubkey) => pubkey
  | none => none

/-- `abs.toFixed(6)`, without zeros at the end (for amounts below `10 ^ 21`). -/
def formatUiAmount (amount : ℚ) : String := String.ofList (fixedText ⌊|amount| * 10 ^ 6 + 1 / 2⌋₊ 6)

/-- Mints are base58, with one unit a character. -/
def symbolForMint (mint : String) : String :=
  if mint = NATIVE_SOL_MINT then "SOL"
  else if mint.length ≤ 8 then mint
  else String.ofList (mint.toList.take 4 ++ '…' :: mint.toList.drop (mint.length - 4))

/-- The first of the three ways to write the amount that can be read. -/
def uiAmountFromToken (entry : TokenBalanceEntry) : ℚ :=
  let amount := entry.uiTokenAmount
  match amount.bind UiTokenAmount.uiAmount with
  | some ui => ui
  | none =>
    match (truthy (amount.bind UiTokenAmount.uiAmountString)).bind fun raw => JsText.number raw.toList with
    | some n => n
    | none =>
      match truthy (amount.bind UiTokenAmount.amount), amount.bind UiTokenAmount.decimals with
      | some raw, some decimals =>
        match JsText.number raw.toList with
        | some n => n / 10 ^ decimals
        | none => 0
      | _, _ => 0

/-- The mint and the amount of an entry that the wallet owns. -/
def ownedAmount (walletAddress : String) (entry : TokenBalanceEntry) : Option (String × ℚ) :=
  if entry.owner ≠ some walletAddress then none
  else (truthy entry.mint).map fun mint => (mint, uiAmountFromToken entry)

def tokenAmountsByMint (entries : Option (List TokenBalanceEntry)) (walletAddress : String) : List (String × ℚ) :=
  totals ((entries.getD []).filterMap (ownedAmount walletAddress))

def deltaOf (mint : String) (signedUi : ℚ) : WalletActivityDelta where
  mint := mint
  direction := if 0 < signedUi then .incoming else .outgoing
  amountUi := formatUiAmount signedUi

def pushDelta (deltas : List WalletActivityDelta) (mint : String) (signedUi : ℚ) : List WalletActivityDelta :=
  if signedUi = 0 then deltas else deltas ++ [deltaOf mint signedUi]

namespace ConfirmedTransaction

variable (confirmed : ConfirmedTransaction)

def accountKeys : List AccountKey :=
  ((confirmed.transaction.bind ConfirmedBody.message).bind ConfirmedMessage.accountKeys).getD []

def preBalances : List ℕ := (confirmed.txMeta.bind FullTxMeta.preBalances).getD []

def postBalances : List ℕ := (confirmed.txMeta.bind FullTxMeta.postBalances).getD []

def preTokens : Option (List TokenBalanceEntry) := confirmed.txMeta.bind FullTxMeta.preTokenBalances

def postTokens : Option (List TokenBalanceEntry) := confirmed.txMeta.bind FullTxMeta.postTokenBalances

def feePayer : Option String := accountPubkey confirmed.accountKeys[0]?

def fee : ℕ := (confirmed.txMeta.bind FullTxMeta.fee).getD 0

def failed : Bool := (confirmed.txMeta.bind FullTxMeta.err).any fun err => err ≠ .false

end ConfirmedTransaction

/-! ## The rows of the source -/

/-- Wallets the tx affects: token-balance owners + SOL-balance-changed keys. -/
def affectedWallets (confirmed : ConfirmedTransaction) : List String :=
  let owners entries := (Option.getD entries []).filterMap fun entry : TokenBalanceEntry => truthy entry.owner
  let changed := (List.range confirmed.accountKeys.length).filterMap fun i =>
    if confirmed.preBalances[i]? ≠ confirmed.postBalances[i]? then truthy (accountPubkey confirmed.accountKeys[i]?)
    else none
  pushAll [] (owners confirmed.preTokens ++ owners confirmed.postTokens ++ changed)

/-- The lamports of the account at an index, without the fee where the wallet paid it. -/
def lamportsAt (confirmed : ConfirmedTransaction) (walletAddress : String) (i : ℕ) : ℤ :=
  match confirmed.preBalances[i]?, confirmed.postBalances[i]? with
  | some pre, some post =>
    if confirmed.feePayer = some walletAddress then (post : ℤ) - pre + confirmed.fee else (post : ℤ) - pre
  | _, _ => 0

/-- `postTokens.get(mint) - preTokens.get(mint)`, without an entry 0. -/
def mintChange (walletAddress : String) (confirmed : ConfirmedTransaction) (mint : String) : ℚ :=
  (get (tokenAmountsByMint confirmed.postTokens walletAddress) mint).getD 0 -
    (get (tokenAmountsByMint confirmed.preTokens walletAddress) mint).getD 0

/-- Token deltas for ATAs owned by the wallet. -/
def tokenDeltas (walletAddress : String) (confirmed : ConfirmedTransaction) : List WalletActivityDelta :=
  let mints := pushAll [] (keys (tokenAmountsByMint confirmed.preTokens walletAddress) ++
    keys (tokenAmountsByMint confirmed.postTokens walletAddress))
  mints.foldl (fun deltas mint => pushDelta deltas mint (mintChange walletAddress confirmed mint)) []

/-- Tokens first, then SOL. -/
def balanceDeltas (walletAddress : String) (confirmed : ConfirmedTransaction) : List WalletActivityDelta :=
  let deltas := tokenDeltas walletAddress confirmed
  match confirmed.accountKeys.findIdx? fun k => accountPubkey (some k) = some walletAddress with
  | some walletIndex => pushDelta deltas NATIVE_SOL_MINT ((lamportsAt confirmed walletAddress walletIndex : ℚ) / 10 ^ 9)
  | none => deltas

def activityKind (failed : Bool) (deltas : List WalletActivityDelta) : WalletActivityKind :=
  let hasIn := deltas.any fun d => d.direction = .incoming
  let hasOut := deltas.any fun d => d.direction = .outgoing
  if failed then .failed else if hasOut && !hasIn then .sent else if hasIn && !hasOut then .received else .other

def activityTitle (kind : WalletActivityKind) (primary : Option WalletActivityDelta) : String :=
  let asset := truthy (primary.map fun d => symbolForMint d.mint)
  match kind with
  | .failed => "Failed"
  | .sent => asset.elim "Sent" fun asset => "Sent " ++ asset
  | .received => asset.elim "Received" fun asset => "Received " ++ asset
  | _ => "Transaction"

/-- Derive a single wallet's activity row from a confirmed tx, or null. -/
def mapWalletActivity (walletAddress : String) (confirmed : ConfirmedTransaction) (signature : String) (slot : Option ℤ)
    (blockTime : ℚ) : Option WalletActivityRow :=
  let deltas := balanceDeltas walletAddress confirmed
  let failed := confirmed.failed
  if deltas = [] ∧ ¬(failed = true ∧ confirmed.feePayer = some walletAddress) then none
  else
    let kind := activityKind failed deltas
    let primary := deltas.head?
    let feeLamports := if confirmed.feePayer = some walletAddress then confirmed.txMeta.bind FullTxMeta.fee else none
    some {
      walletAddress, signature, slot, blockTime, kind, failed
      title := activityTitle kind primary
      amountLabel := primary.map fun d => (if d.direction = .incoming then "+" else "-") ++ d.amountUi
      statusLabel := if failed then some "Failed" else none
      mint := primary.map WalletActivityDelta.mint
      balanceDeltas := deltas
      detail := feeLamports.map fun fee => ⟨fee⟩
      parserVersion := WALLET_ACTIVITY_PARSER_VERSION }

/-- The signature of the notification, or the first one of the transaction. -/
def signatureOf (result : SubscribeTxResult) (confirmed : ConfirmedTransaction) : String :=
  let trimmed (text : Option String) := truthy (text.map fun text => String.ofList (JsText.trim text.toList))
  let first := ((confirmed.transaction.bind ConfirmedBody.signatures).getD [])[0]?
  ((trimmed result.signature).or (trimmed first)).getD ""

def activityRowsFromResult (result : SubscribeTxResult) (receivedAt : ℚ) : List WalletActivityRow :=
  match result.transaction with
  | none => []
  | some confirmed =>
    let signature := signatureOf result confirmed
    if signature = "" then []
    else
      let blockTime := result.blockTime.getD ⌊receivedAt⌋
      (affectedWallets confirmed).filterMap fun wallet =>
        mapWalletActivity wallet confirmed signature result.slot blockTime

end PhygitalWallet.Api
