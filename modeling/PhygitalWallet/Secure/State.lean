import Mathlib.Data.Finset.Basic
import PhygitalWallet.Secure.Protocol

/-!
# The state of the signer (`state.ts`)

`SignerState` in its two parts: the requests that were seen, and the operation that is active.

- `checkFreshnessAndReplay`, `remember`: which requests are accepted;
- `ActiveOperation.begin`, `endOperation`, `authorize`, `consumeAuthorization`.
-/

namespace PhygitalWallet.Secure

/-! ## Requests that were seen -/

/-- Requests older than this are rejected as stale. -/
def requestFreshnessWindowMs : ℚ := 60000

/-- Remembered request ids for duplicate detection. -/
def seenRequestIdsLimit : Nat := 512

structure SeenRequests where
  seen : Finset String
  seenOrder : List String

def SeenRequests.empty : SeenRequests := ⟨∅, []⟩

/-- Reject stale or duplicate requests. -/
def SeenRequests.checkFreshnessAndReplay (s : SeenRequests) (now : ℚ) (requestId : String) (timestamp : ℚ) :
    Option ErrorCode :=
  if requestId ∈ s.seen then some .replayRejected
  else if requestFreshnessWindowMs < |now - timestamp| then some .replayRejected
  else none

/-- Record a request id as seen. -/
def SeenRequests.remember (s : SeenRequests) (requestId : String) : SeenRequests :=
  if requestId ∈ s.seen then s
  else
    let seen := insert requestId s.seen
    match s.seenOrder ++ [requestId] with
    | evicted :: rest =>
      if seenRequestIdsLimit < (evicted :: rest).length then ⟨seen.erase evicted, rest⟩ else ⟨seen, evicted :: rest⟩
    | [] => ⟨seen, []⟩

/-! ## The active operation -/

inductive OperationState
  | idle | signPending | privateExportPending | authPending
deriving DecidableEq, Repr

/-- `opFor`. -/
def RequestBody.operation : RequestBody → OperationState
  | .authStart _ _ _ => .authPending
  | .signTransaction _ => .signPending
  | .exportPrivateKey => .privateExportPending

structure Authorization where
  operation : OperationState
  requestId : String
  walletPublicKey : List UInt8
  messageDigest : String
deriving DecidableEq, Repr

structure ActiveOperation where
  state : OperationState
  activeRequestId : Option String
  authorization : Option Authorization
deriving DecidableEq, Repr

def ActiveOperation.idle : ActiveOperation := ⟨.idle, none, none⟩

/-- Begin an operation; `none` if another sensitive flow is active. -/
def ActiveOperation.begin (s : ActiveOperation) (op : OperationState) (requestId : String) : Option ActiveOperation :=
  if s.state ≠ .idle then none else some { s with state := op, activeRequestId := some requestId }

/-- An operation begins where none is active. -/
theorem ActiveOperation.begin_eq_some {s t : ActiveOperation} {op : OperationState} {requestId : String} :
    s.begin op requestId = some t ↔ s.state = .idle ∧ t = { s with state := op, activeRequestId := some requestId } := by
  unfold ActiveOperation.begin
  by_cases hidle : s.state = .idle
  · simp [hidle, eq_comm]
  · simp [hidle]

/-- `end`: the operation and any authorization are cleared. -/
def ActiveOperation.endOperation (_ : ActiveOperation) : ActiveOperation := .idle

def ActiveOperation.authorize (s : ActiveOperation) (auth : Authorization) : ActiveOperation :=
  { s with authorization := some auth }

/-- The authorization is consumed by any call, and returned if it matches. -/
def ActiveOperation.consumeAuthorization (s : ActiveOperation) (operation : OperationState) (requestId : String)
    (messageDigest : String) : Option Authorization × ActiveOperation :=
  (s.authorization.filter fun a =>
      a.operation = operation && (a.requestId = requestId && a.messageDigest = messageDigest),
    { s with authorization := none })

end PhygitalWallet.Secure
