import PhygitalWallet.Lib.Async
import PhygitalWallet.Secure.Policy
import PhygitalWallet.Secure.State
import PhygitalWallet.Secure.WalletFormat

/-!
# What a handler touches (`main.ts`, `ui/ui.ts`, `blob-store.ts`)

A handler waits at a `Site`. Between an await and its reply the busy screen may be dismissed, other messages may arrive and
other windows may change the local storage.

- `Site`, `Call.Reply`: where a handler waits, and for what;
- `Desk`: the screen, the local storage, the active operation, and a log of what was posted and of the replies;
- `Desk.dismiss`: a tap on the close button.
-/

namespace PhygitalWallet.Secure

open Async

/-! ## Errors -/

/-- What is thrown. -/
inductive Thrown
  | service (code : ErrorCode)
  | webAuthnUnsupported
  | domException (name : String)
  | other
deriving DecidableEq, Repr

def codeOf : Thrown → ErrorCode
  | .service code => code
  | .webAuthnUnsupported => .unsupportedCredential
  | .domException name => if name = "NotAllowedError" ∨ name = "AbortError" then .userCancelled else .internalError
  | .other => .internalError

/-! ## Awaits -/

structure Challenge where
  challengeId : String
  challenge : String
deriving DecidableEq, Repr

/-- What is sent of a WebAuthn assertion. -/
structure Assertion where
  rawId : Bytes
  response : String
deriving DecidableEq, Repr

/-- What `getDiscoverable` returns. -/
structure Discovered where
  credentialId : Bytes
  prfOutput : Bytes
  response : String
deriving DecidableEq, Repr

def Discovered.assertion (disc : Discovered) : Assertion := ⟨disc.credentialId, disc.response⟩

structure BackupParams where
  encryptedWalletBlob : String
  publicKey : String
  challengeId : String
  signature : String
  webauthnAttestationObject : Option String
deriving DecidableEq, Repr

inductive Again
  | retry | cancel
deriving DecidableEq, Repr

/-- The function that waits. -/
inductive Scope
  | create | localUnlock | remoteUnlock | restoreWalletSeed | sign | exportPrivateKey
deriving DecidableEq, Repr

/-- What it waits for. -/
inductive Call
  | confirmFinishCreate
  | confirmImport
  | confirmSignTransaction (summary : TransactionSummary)
  | confirmExportPrivateKey
  | showRecoverable
  | showSuccess (publicKey : String) (created : Bool)
  | showExportedSecret (secretBase58 publicKey : String)
  | issueBackupChallenge
  | issueRestoreChallenge
  | issueBothChallenges
  | prfGet (credentialId : Bytes)
  | getDiscoverable (challenge : Bytes)
  | deriveWrappingKey (prfOutput salt : Bytes)
  | aesGcmEncrypt (key iv plaintext aad : Bytes)
  | aesGcmDecrypt (key : Bytes) (parsed : ParsedWalletBlob) (aad : Bytes)
  | restoreOwnerWalletBlob (challengeId : String) (assertion : Assertion)
  | backupOwnerWalletBlob (params : BackupParams)
  | digestHex (bytes : Bytes)

/-- Keys, plaintexts and ciphertexts are bytes; a blob that is restored may be missing. -/
def Call.Reply : Call → Type
  | .confirmFinishCreate | .confirmImport | .confirmSignTransaction _ | .confirmExportPrivateKey => Bool
  | .showRecoverable => Again
  | .showSuccess _ _ | .showExportedSecret _ _ | .digestHex _ => Unit
  | .issueBackupChallenge | .issueRestoreChallenge => Challenge
  | .issueBothChallenges => Challenge × Challenge
  | .prfGet _ | .deriveWrappingKey _ _ | .aesGcmEncrypt _ _ _ _ | .aesGcmDecrypt _ _ _ => Bytes
  | .getDiscoverable _ => Discovered
  | .restoreOwnerWalletBlob _ _ => Option String
  | .backupOwnerWalletBlob _ => Nat

structure Site where
  scope : Scope
  call : Call

abbrev Site.Reply (site : Site) : Type := site.call.Reply

/-! ## The local storage -/

inductive SetItem
  | stores | drops | throws
deriving DecidableEq, Repr

/-- `localStorage` under `LOCAL_BLOB_KEY`: what it holds, and what its functions do today. -/
structure LocalStore where
  available : Bool
  readable : Bool
  setItem : SetItem
  item : Option (List Nat)
deriving DecidableEq, Repr

def bytesToBinary (bytes : Bytes) : List Nat := bytes.map UInt8.toNat

/-- `charCodeAt(i) & 0xff`. -/
def binaryToBytes (units : List Nat) : Bytes := units.map UInt8.ofNat

def parseBlob (blob : Bytes) : Except Thrown ParsedWalletBlob :=
  match decodeWalletBlob blob with
  | .ok parsed => .ok parsed
  | .error _ => .error (.service .invalidWalletBlob)

def readLocalBlob (store : LocalStore) : Option (Bytes × ParsedWalletBlob) :=
  if store.available && store.readable then
    match store.item with
    | none | some [] => none
    | some rawStr =>
      let raw := binaryToBytes rawStr
      if maxBlobBytes < raw.length then none
      else match parseBlob raw with
        | .ok parsed => some (raw, parsed)
        | .error _ => none
  else none

/-- Whether it was written; what was dropped is noticed. -/
def writeLocalBlob (raw : Bytes) (store : LocalStore) : Bool × LocalStore :=
  if store.available then
    match parseBlob raw with
    | .error _ => (false, store)
    | .ok _ =>
      let encoded := bytesToBinary raw
      match store.setItem with
      | .throws => (false, store)
      | .stores => (store.readable, { store with item := some encoded })
      | .drops => (store.readable && store.item = some encoded, store)
  else (false, store)

/-! ## The desk -/

inductive Screen
  | idle | busy | sheet
deriving DecidableEq, Repr

/-- The closure that `beginBusy` registers, for the handling of one message. -/
structure Busy where
  id : Nat
  ticket : Nat
  requestId : String
deriving DecidableEq, Repr

/-- What happened in the handling of a message. -/
inductive Entry
  | posted (message : Outgoing)
  | answered (site : Site) (reply : Except Thrown site.Reply)

/-- Each message has a ticket, which the entries of its handling have. -/
structure Desk where
  op : ActiveOperation
  screen : Screen
  busyDismiss : Option Busy
  busies : Nat
  dismissed : List Nat
  store : LocalStore
  draws : Nat
  log : List (Nat × Entry)

def Desk.add (s : Desk) (ticket : Nat) (entry : Entry) : Desk := { s with log := s.log ++ [(ticket, entry)] }

/-- The busy screen's `onDismiss`. -/
def Desk.dismiss (s : Desk) : Desk :=
  match s.screen, s.busyDismiss with
  | .busy, some busy =>
    if busy.id ∈ s.dismissed then { s with busyDismiss := none }
    else Desk.add { s with busyDismiss := none, dismissed := busy.id :: s.dismissed } busy.ticket
      (.posted (.error (some busy.requestId) .userCancelled))
  | _, _ => s

/-- `renderIdle`. -/
def Desk.renderIdle (s : Desk) : Desk := { s with busyDismiss := none, screen := .idle }

end PhygitalWallet.Secure
