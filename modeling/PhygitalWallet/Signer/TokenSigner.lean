import PhygitalWallet.Lib.Async
import PhygitalWallet.Lib.Sha256
import PhygitalWallet.Signer.DecodeTx
import PhygitalWallet.Signer.TokenStore

/-!
# Co-signing (`token-signer.ts`, `backend/secrets.ts`)

One call of `signTransactions` on a named durable object. Between its awaits other calls change the tables; the state keeps
what they have changed, so that a result can tell a call's own changes from theirs.

- `signTransactions`: the call with its rollback;
- `wp_getStore`, `wp_bindToken`: the steps that leave the reserves alone;
- `exampleRun`: the call on one transaction.
-/

namespace PhygitalWallet.Signer

open Client Async Prog BaseText TokenTables

/-! ## Errors (`shared/errors.ts`) -/

/-- The text of an error: the one it was built with, or the one that the runtime gives it. -/
inductive ErrorText
  | parts (message : List ErrorPart)
  | message (e : JsError)
deriving DecidableEq, Repr

def statusForCode (code : String) (fallbackStatus : Nat) : Nat :=
  if code = "signer_misconfigured" ∨ code = "fee_misconfigured" then 500
  else if code = "fee_payer_mismatch" ∨ code = "insufficient_fee_balance" then 403
  else if code = "invalid_transaction" ∨ code = "unexpected_instruction" ∨ code = "token_mismatch" then 400
  else fallbackStatus

/-- The body and the status of a response that is not ok. -/
structure Refusal where
  status : Nat
  error : ErrorText
  code : String
  details : Option (List (String × ErrorDetail))
  soft : Option Bool
deriving DecidableEq, Repr

/-- Map any thrown value into the canonical error shape. -/
def normalizeError (err : JsError) (fallbackCode : String) (fallbackStatus : Nat) : Refusal :=
  match err with
  | .coded e =>
    { status := e.status.getD (statusForCode e.code fallbackStatus), error := .parts e.message, code := e.code
      details := e.details, soft := e.soft }
  | .error message =>
    { status := statusForCode fallbackCode fallbackStatus, error := .parts message, code := fallbackCode
      details := none, soft := none }
  | err =>
    { status := statusForCode fallbackCode fallbackStatus, error := .message err, code := fallbackCode
      details := none, soft := none }

/-! ## The fee payers' keys -/

structure FeePayerSigner where
  byPubkey : List (Pubkey × Bytes)
deriving DecidableEq, Repr

def FeePayerSigner.seed (backend : FeePayerSigner) (feePayer : Pubkey) : Option Bytes :=
  (backend.byPubkey.find? fun entry => entry.1 = feePayer).map Prod.snd

def FeePayerSigner.canSign (backend : FeePayerSigner) (feePayer : Pubkey) : Bool := (backend.seed feePayer).isSome

/-- What the call runs with: kit's decoders, Ed25519, and the object's configuration. -/
structure SignerEnv where
  decoders : Decoders
  ed25519 : Bytes → Bytes → Bytes
  backend : Outcome FeePayerSigner
  accumulator : String
  token : String

/-- `FeePayerSigner.sign`: the signature as base64 text. -/
def FeePayerSigner.sign (env : SignerEnv) (backend : FeePayerSigner) (feePayer : Pubkey) (messageBytes : Bytes) :
    Outcome String :=
  match backend.seed feePayer with
  | none => .error (.coded {
      message := [.text "Transaction fee payer does not match this signing service"], code := "fee_payer_mismatch"
      status := none
      details := some [("expected", .addresses (backend.byPubkey.map Prod.fst)), ("got", .address feePayer)], soft := none })
  | some seed => .ok (base64Of (env.ed25519 messageBytes seed))

/-! ## The call -/

/-- Where the call waits. -/
inductive SignAwait
  | digest
  | sign
  | setAlarm (time : Int)
deriving DecidableEq, Repr

/-- The clock, the object, the variables of the call, and the changes of the tables by others while it waited. -/
structure SignState where
  now : Int
  tables : TokenTables
  storeCreated : Bool
  reservedIds : List String
  signatures : List String
  feePayerSeen : Option Pubkey
  others : List (TokenTables × TokenTables)

abbrev SignProg := Prog SignState JsError SignAwait fun _ => Unit

/-- A call on the store. -/
def store {α : Type} (f : TokenTables → Int → Outcome α × TokenTables) : SignProg α :=
  call fun s => ((f s.tables s.now).1, { s with tables := (f s.tables s.now).2 })

def getStore (env : SignerEnv) : SignProg Unit := do
  let s ← getState
  if s.storeCreated then return ()
  else do
    modify fun s => { s with storeCreated := true }
    store fun t _ => t.ensureToken env.token

def bindToken (env : SignerEnv) (token : String) : SignProg Unit := do
  if env.token ≠ token then ofOutcome (throwCoded [.text "TokenSigner DO token mismatch"] "token_mismatch")
  else do
    getStore env
    store fun t _ => t.ensureToken token

/-- Rows are deleted one by one. -/
def releaseAll (t : TokenTables) (ids : List String) : TokenTables := ids.foldl (fun t id => (t.release id).2) t

def releaseReserves : SignProg Unit := modify fun s => { s with tables := releaseAll s.tables s.reservedIds }

/-- Sign the transaction at hand and keep the signature. -/
def cosign (env : SignerEnv) (backend : FeePayerSigner) (decoded : DecodedSignTx) : SignProg String := do
  let signature ← ofOutcome (backend.sign env decoded.feePayer decoded.messageBytes)
  awaitOk .sign
  return signature

def messageReserveId (messageBytes : Bytes) : String := hexOf (Sha256.digest messageBytes)

/-- Reserve, sign, and bind the reserve to the signature. -/
def signReserved (env : SignerEnv) (backend : FeePayerSigner) (decoded : DecodedSignTx) : SignProg (Option Refusal) := do
  awaitOk .digest
  let reserveId := messageReserveId decoded.messageBytes
  let reserved ← store fun t now => t.reserve reserveId minAttemptFeeLamports feeReserveTtlMs now
  if !reserved then do
    releaseReserves
    let s ← getState
    return some {
      status := 403, error := .parts [.text "Fee balance is too low for this transaction"]
      code := "insufficient_fee_balance"
      details := some [("availableLamports", .number (s.tables.getAvailableLamports s.now)),
        ("requiredLamports", .number minAttemptFeeLamports), ("phygitalToken", .address decoded.phygitalToken)]
      soft := none }
  else do
    modify fun s => { s with reservedIds := s.reservedIds ++ [reserveId] }
    let signature ← cosign env backend decoded
    let _ ← store fun t now => t.rebindReserve reserveId signature now
    modify fun s => { s with reservedIds := s.reservedIds.dropLast ++ [signature], signatures := s.signatures ++ [signature] }
    return none

/-- One turn of the loop; a refusal ends the call. -/
def signWire (env : SignerEnv) (backend : FeePayerSigner) (wire : String) : SignProg (Option Refusal) := do
  let decoded ← ofOutcome (decodeWireTransaction env.decoders wire env.accumulator)
  bindToken env decoded.phygitalToken.text
  modify fun s => { s with feePayerSeen := some decoded.feePayer }
  if !backend.canSign decoded.feePayer then do
    releaseReserves
    return some {
      status := 403, error := .parts [.text "Transaction fee payer is not sponsored by this service"]
      code := "fee_payer_mismatch"
      details := some [("got", .address decoded.feePayer), ("phygitalToken", .address decoded.phygitalToken)]
      soft := none }
  else if !decoded.isFeePayingInstruction then signReserved env backend decoded
  else do
    let signature ← cosign env backend decoded
    modify fun s => { s with signatures := s.signatures ++ [signature] }
    return none

def signWires (env : SignerEnv) (backend : FeePayerSigner) : List String → SignProg (Option Refusal)
  | [] => return none
  | wire :: wires => do
    match ← signWire env backend wire with
    | some refusal => return some refusal
    | none => signWires env backend wires

/-- The earliest expiry of an open reserve. -/
def nextReserveExpiry (t : TokenTables) (now : Int) : Option Int :=
  ((t.feeReserves.rows.filter (TokenTables.isOpen now)).map FeeReserve.expiresAt).min?

def scheduleReserveAlarm (env : SignerEnv) : SignProg Unit := do
  getStore env
  let s ← getState
  match nextReserveExpiry s.tables s.now with
  | some next => awaitOk (.setAlarm next)
  | none => return ()

structure SignAudit where
  feePayer : Pubkey
  signatureCount : Nat
  reserved : Nat
deriving DecidableEq, Repr

inductive SignTransactionsResult
  | ok (signatures : List String) (audit : Option SignAudit)
  | refused (refusal : Refusal)
deriving DecidableEq, Repr

/-- What the call does inside its `try`. -/
def signAll (env : SignerEnv) (wires : List String) : SignProg SignTransactionsResult := do
  if wires = [] then
    return .refused {
      status := 400, error := .parts [.text "transactions required"], code := "invalid_transaction", details := none
      soft := some false }
  else do
    let backend ← ofOutcome env.backend
    getStore env
    store fun t now => (.ok (), t.expireReserves now)
    match ← signWires env backend wires with
    | some refusal => return .refused refusal
    | none => do
      scheduleReserveAlarm env
      let s ← getState
      return .ok s.signatures (s.feePayerSeen.map fun feePayer =>
        { feePayer, signatureCount := s.signatures.length, reserved := s.reservedIds.length })

/-- Validate transaction shape, reserve prepaid fee (unless top-up), and sign as a configured fee payer. -/
def signTransactions (env : SignerEnv) (wires : List String) : SignProg SignTransactionsResult :=
  (signAll env wires).tryCatch fun err => do
    getStore env
    releaseReserves
    return .refused (normalizeError err "signer_error" 500)

/-! ## Other calls -/

/-- While the call waits, time passes and other calls change the tables and create the store. -/
def othersRun : Env SignState JsError SignAwait (fun _ => Unit) := fun _ _ s s' =>
  ∃ now tables storeCreated, s.now ≤ now ∧ (s.storeCreated = true → storeCreated = true) ∧
    s' = { s with now, tables, storeCreated, others := s.others ++ [(s.tables, tables)] }

/-- Nobody does anything while the call waits. -/
def SignState.wait (s : SignState) : SignState := { s with others := s.others ++ [(s.tables, s.tables)] }

theorem othersRun_wait (c : SignAwait) (r : Except JsError Unit) (s : SignState) : othersRun c r s s.wait :=
  ⟨s.now, s.tables, s.storeCreated, le_rfl, id, rfl⟩

/-- A call that starts. -/
def SignState.start (now : Int) (tables : TokenTables) (storeCreated : Bool) : SignState :=
  { now, tables, storeCreated, reservedIds := [], signatures := [], feePayerSeen := none, others := [] }

/-! ## The steps of the call -/

section Steps

variable {E : Env SignState JsError SignAwait fun _ => Unit} {env : SignerEnv} {s : SignState}

/-- The store is created without a change of the reserves. -/
theorem wp_getStore {Q : Except JsError Unit → SignState → Prop} (h : ∀ out t, t.feeReserves = s.tables.feeReserves →
    Q out { s with tables := t, storeCreated := true }) : (getStore env).wp E (fun _ _ => True) Q s := by
  unfold getStore store
  rw [wp_bind, wp_getState, follows_ok]
  split
  · next hcreated =>
    have hs : s = { s with tables := s.tables, storeCreated := true } := by rw [← hcreated]
    rw [wp_pure, hs]
    exact h _ _ rfl
  · rw [wp_bind, wp_modify, follows_ok, wp_call]
    exact h _ _ (ensureToken_reserves _ _)

theorem wp_getStore_created {Q : Except JsError Unit → SignState → Prop} (hcreated : s.storeCreated = true)
    (h : Q (.ok ()) s) : (getStore env).wp E (fun _ _ => True) Q s := by
  unfold getStore
  rw [wp_bind, wp_getState, follows_ok, if_pos hcreated]
  exact h

theorem wp_bindToken_any {token : String} {Q : Except JsError Unit → SignState → Prop}
    (h : ∀ out t created, Q out { s with tables := t, storeCreated := created }) :
    (bindToken env token).wp E (fun _ _ => True) Q s := by
  unfold bindToken store
  split
  · rw [wp_ofOutcome]
    exact h _ s.tables s.storeCreated
  · refine wp_bind.2 (wp_getStore fun out t _ => ?_)
    cases out with
    | error e => exact h _ _ _
    | ok =>
      rw [follows_ok, wp_call]
      exact h _ _ _

theorem wp_bindToken {token : String} {Q : Except JsError Unit → SignState → Prop} (hcreated : s.storeCreated = true)
    (h : ∀ out t, t.feeReserves = s.tables.feeReserves → Q out { s with tables := t }) :
    (bindToken env token).wp E (fun _ _ => True) Q s := by
  unfold bindToken store
  split
  · rw [wp_ofOutcome]
    exact h _ s.tables rfl
  · refine wp_bind.2 (wp_getStore_created hcreated ?_)
    rw [follows_ok, wp_call]
    exact h _ _ (ensureToken_reserves _ _)

end Steps

/-! ## An example -/

def exampleSeed : Bytes := List.replicate 32 2

/-- The Ed25519 signature of the example's message. -/
def exampleSignature : Bytes :=
  [223, 49, 40, 104, 60, 179, 86, 164, 227, 45, 160, 55, 247, 95, 156, 234,
    2, 199, 175, 29, 243, 209, 227, 228, 34, 76, 73, 192, 192, 24, 74, 125,
    227, 219, 130, 136, 117, 203, 230, 27, 142, 52, 157, 221, 175, 21, 37, 17,
    106, 143, 30, 49, 34, 215, 220, 61, 251, 108, 149, 197, 143, 28, 248, 7]

/-- The object of the example's token, with one key. -/
def exampleEnv : SignerEnv where
  decoders := exampleDecoders
  ed25519 message seed :=
    if message = exampleMessageBytes ∧ seed = exampleSeed then exampleSignature else List.replicate 64 0
  backend := .ok ⟨[(examplePayer, exampleSeed)]⟩
  accumulator := (Pubkey.fill 4).text
  token := (Pubkey.fill 8).text

theorem length_exampleEd25519 (message seed : Bytes) : (exampleEnv.ed25519 message seed).length = 64 := by
  unfold exampleEnv
  dsimp only
  split <;> rfl

theorem example_ed25519 : exampleEnv.ed25519 exampleMessageBytes exampleSeed = exampleSignature := by
  simp only [exampleEnv, and_self, if_true]

/-- The tables of a new token that has its starter. -/
def exampleTables : TokenTables :=
  ((TokenTables.init.ensureToken (Pubkey.fill 8).text).2.grantStarterIfNeeded).2

/-- The call on these tables, with nobody else there. -/
def exampleRun (wires : List String) (now : Int) (tables : TokenTables) :
    Except JsError SignTransactionsResult × SignState :=
  (signTransactions exampleEnv wires).alone (fun _ => .ok ()) SignState.wait (.start now tables false)

/-- The tables after the example was signed. -/
def exampleSigned : TokenTables := (exampleRun [exampleWire] 0 exampleTables).2.tables

def exampleReserve : FeeReserve := ⟨base64Of exampleSignature, 100000, 0, 90000⟩

theorem exampleRun_signed : (exampleRun [exampleWire] 0 exampleTables).1 =
      .ok (.ok [base64Of exampleSignature] (some ⟨examplePayer, 1, 1⟩)) ∧
    exampleSigned.feeReserves.rows = [exampleReserve] := by decide +kernel

theorem runs_signed : Runs othersRun (signTransactions exampleEnv [exampleWire]) (.start 0 exampleTables false)
    (.ok (.ok [base64Of exampleSignature] (some ⟨examplePayer, 1, 1⟩))) (exampleRun [exampleWire] 0 exampleTables).2 := by
  rw [← exampleRun_signed.1]
  exact runs_alone (fun c s => othersRun_wait c (.ok ()) s) _ _

end PhygitalWallet.Signer
