import PhygitalWallet.Lib.Sha256
import PhygitalWallet.Secure.Desk
import PhygitalWallet.Secure.Encoding

/-!
# The handlers (`main.ts`, `wallet-service.ts`)

The browser, the API and the user answer at the awaits; Ed25519, randomness and kit's decoders are parameters.

- `decryptWallet`, `unwrapWallet`, `enrollExistingCredential`: the wallet service;
- `handleCreate`, `handleLocalUnlock`, `handleRemoteUnlock`, `restoreWalletSeed`, `handleSign`, `handleExportPrivateKey`;
- `Route.prog`: the handler that a request gets.
-/

namespace PhygitalWallet.Secure

open Async Prog

/-! ## Parameters -/

/-- The site's id, kit's decoders, `ed25519.getPublicKey` and `ed25519.sign`, and the bytes of a draw by its number and
length. -/
structure SignerEnv where
  rpId : String
  kit : KitDecoders
  getPublicKey : Bytes → Except Thrown Bytes
  ed25519Sign : Bytes → Bytes → Except Thrown Bytes
  randomBytes : Nat → Nat → Bytes

/-- Derive the public key from a seed. -/
def SignerEnv.ed25519PublicKey (env : SignerEnv) (seed : Bytes) : Except Thrown Bytes :=
  match env.getPublicKey seed with
  | .error e => .error e
  | .ok pub => if pub.length ≠ ed25519PubkeyBytes then .error .other else .ok pub

theorem length_ed25519PublicKey {env : SignerEnv} {seed pub : Bytes} (h : env.ed25519PublicKey seed = .ok pub) :
    pub.length = 32 := by
  unfold SignerEnv.ed25519PublicKey at h
  split at h
  · cases h
  · split at h
    · cases h
    · next hlen =>
      cases h
      exact not_not.1 hlen

abbrev Handler (α : Type) := Prog Desk Thrown Site Site.Reply α

/-- The message whose handling it is. -/
structure Handling where
  ticket : Nat
  requestId : String
deriving DecidableEq, Repr

/-- How a handler ends: `again` is the tail call that starts it anew. -/
inductive Flow
  | done | again
deriving DecidableEq, Repr

/-! ## Posts and screens -/

def post (h : Handling) (message : Outgoing) : Handler Unit := modify fun s => s.add h.ticket (.posted message)

def fail (h : Handling) (code : ErrorCode) : Handler Unit := post h (.error (some h.requestId) code)

/-- `return fail(requestId, code)`. -/
def failDone (h : Handling) (code : ErrorCode) : Handler Flow := do
  fail h code
  return .done

/-- A screen that replaces what is shown, and its answer. -/
def ask (scope : Scope) (call : Call) : Handler call.Reply := do
  modify fun s => { s with screen := .sheet }
  awaitOk (⟨scope, call⟩ : Site)

/-- A request to the browser or the API. -/
def request (scope : Scope) (call : Call) : Handler call.Reply := awaitOk (⟨scope, call⟩ : Site)

/-- The closure's number. -/
def beginBusy (h : Handling) : Handler Nat :=
  call fun s => (.ok s.busies,
    { s with busyDismiss := some ⟨s.busies, h.ticket, h.requestId⟩, busies := s.busies + 1, screen := .busy })

def wasDismissed (busy : Nat) : Handler Bool := call fun s => (.ok (decide (busy ∈ s.dismissed)), s)

/-- `busy.clear()`. -/
def clearBusy : Handler Unit := modify fun s => { s with busyDismiss := none }

def readLocal : Handler (Option (Bytes × ParsedWalletBlob)) := call fun s => (.ok (readLocalBlob s.store), s)

def writeLocal (raw : Bytes) : Handler Bool :=
  call fun s => (.ok (writeLocalBlob raw s.store).1, { s with store := (writeLocalBlob raw s.store).2 })

/-! ## Keys and challenges -/

def decodeText (text : String) (maxBytes : Nat) (variant : Variant) : Handler Bytes :=
  ofOutcome ((base64ToBytes text maxBytes variant).mapError fun _ => .other)

/-- `getAddressDecoder().decode(bytes)`. -/
def decodeAddress (bytes : Bytes) : Except Thrown Pubkey :=
  if h : bytes.length < 32 then .error .other
  else .ok ⟨bytes.take 32, by rw [List.length_take]; omega⟩

theorem decodeAddress_bytes {bytes : Bytes} {key : Pubkey} (h : decodeAddress bytes = .ok key)
    (hlen : bytes.length = 32) : key.bytes = bytes := by
  unfold decodeAddress at h
  split at h
  · cases h
  · cases h
    exact List.take_of_length_le hlen.le

def toBase58Pubkey (bytes : Bytes) : Handler String := ofOutcome (Pubkey.text <$> decodeAddress bytes)

def putChallengePrefix : String := "revibase.owner-wallet.put.v1"

def prefixedChallengeMessage (pre : String) (challengeBytes : Bytes) : Bytes := Utf8.utf8Bytes pre ++ challengeBytes

/-- `undefined` where there is no challenge, or it cannot be decoded or signed. -/
def signChallenge (env : SignerEnv) (challengeB64 : String) (seed : Bytes) (pre : String) : Option String :=
  if challengeB64 = "" then none
  else match base64ToBytes challengeB64 64 .url with
    | .error _ => none
    | .ok challengeBytes =>
      match env.ed25519Sign (prefixedChallengeMessage pre challengeBytes) seed with
      | .error _ => none
      | .ok sig => some (bytesToBase64 sig .url)

def digestHex (bytes : Bytes) : Handler String := do
  request .sign (.digestHex bytes)
  return BaseText.hexOf (Sha256.digest bytes)

/-! ## The wallet service -/

def parseBlobOrThrow (blob : Bytes) : Handler ParsedWalletBlob := ofOutcome (parseBlob blob)

/-- A `BlobError`. -/
def orThrow {α : Type} (result : Except BlobError α) : Handler α := ofOutcome (result.mapError fun _ => .other)

/-- Unwrap with an already-evaluated PRF. -/
def unwrapWallet (env : SignerEnv) (scope : Scope) (prfOutput : Bytes) (parsed : ParsedWalletBlob) :
    Handler (Bytes × Bytes) := do
  let key ← request scope (.deriveWrappingKey prfOutput parsed.kdfSalt)
  let aad ← orThrow (buildAad parsed env.rpId)
  let seed ← Prog.tryCatch (request scope (.aesGcmDecrypt key parsed aad)) fun _ => .throw (.service .decryptionFailed)
  let publicKey ← (ofOutcome (env.ed25519PublicKey seed) : Handler Bytes)
  if publicKey ≠ parsed.publicKey then .throw (.service .walletMismatch) else return (seed, publicKey)

/-- The seed and the public key of a wallet. -/
def decryptWallet (env : SignerEnv) (scope : Scope) (parsed : ParsedWalletBlob) : Handler (Bytes × Bytes) := do
  let prfOutput ← Prog.tryCatch (request scope (.prfGet parsed.credentialId)) fun _ =>
    .throw (.service .authenticationFailed)
  unwrapWallet env scope prfOutput parsed

structure CreatedWallet where
  publicKey : Bytes
  blob : Bytes
  signature : Option Bytes
deriving DecidableEq, Repr

def drawBytes (env : SignerEnv) (n : Nat) : Handler Bytes :=
  call fun s => (.ok (env.randomBytes s.draws n), { s with draws := s.draws + 1 })

/-- What is signed, if anything is to be. -/
def signMessage (env : SignerEnv) (seed : Bytes) : Option Bytes → Handler (Option Bytes)
  | none => return none
  | some message => some <$> (ofOutcome (env.ed25519Sign message seed) : Handler Bytes)

def wrapNewSeed (env : SignerEnv) (prfOutput credentialId : Bytes) (messageToSign : Option Bytes) :
    Handler CreatedWallet := do
  let seed ← drawBytes env 32
  let publicKey ← (ofOutcome (env.ed25519PublicKey seed) : Handler Bytes)
  let kdfSalt ← drawBytes env kdfSaltBytes
  let iv ← drawBytes env aesGcmIvBytes
  let key ← request .create (.deriveWrappingKey prfOutput kdfSalt)
  let aad ← orThrow (buildAad ⟨⟨publicKey, credentialId, kdfSalt, [], []⟩, blobVersion⟩ env.rpId)
  let ciphertext ← request .create (.aesGcmEncrypt key iv seed aad)
  let blob ← orThrow (encodeWalletBlob { publicKey, credentialId, kdfSalt, iv, ciphertext })
  let signature ← signMessage env seed messageToSign
  return { publicKey, blob, signature }

/-- Parent already created the passkey. -/
def enrollExistingCredential (env : SignerEnv) (credentialId : Bytes) (messageToSign : Option Bytes) :
    Handler CreatedWallet := do
  let prfOutput ← request .create (.prfGet credentialId)
  wrapNewSeed env prfOutput credentialId messageToSign

def mintBackupChallenge (scope : Scope) : Handler Challenge :=
  Prog.tryCatch (request scope .issueBackupChallenge) fun _ => .throw (.service .blobUnavailable)

/-! ## Create -/

/-- The `try` block. -/
def createBody (env : SignerEnv) (h : Handling) (credentialIdB64 webauthnAttestationObject : String) (busy : Nat) :
    Handler Flow := do
  let minted ← mintBackupChallenge .create
  match base64ToBytes minted.challenge 64 .url with
  | .error _ => failDone h .invalidMessage
  | .ok challengeBytes => do
    let messageToSign := prefixedChallengeMessage putChallengePrefix challengeBytes
    let credentialId ← decodeText credentialIdB64 maxCredentialIdBytes .url
    let created ← enrollExistingCredential env credentialId (some messageToSign)
    let dismissed ← wasDismissed busy
    if dismissed then return .done
    else match created.signature with
      | none => failDone h .internalError
      | some signature => do
        let pk ← toBase58Pubkey created.publicKey
        let pushed ← attempt (request .create (.backupOwnerWalletBlob
          { encryptedWalletBlob := bytesToBase64 created.blob .url, publicKey := pk, challengeId := minted.challengeId,
            signature := bytesToBase64 signature .url,
            webauthnAttestationObject := some webauthnAttestationObject }))
        match pushed with
        | .error _ => failDone h .blobUnavailable
        | .ok expiresAt => do
          let written ← writeLocal created.blob
          if written then do
            ask .create (.showSuccess pk true)
            let dismissed ← wasDismissed busy
            if dismissed then return .done
            else do
              post h (.authComplete h.requestId pk true expiresAt)
              return .done
          else failDone h .internalError

/-- The `catch` block. -/
def createCatch (h : Handling) (busy : Nat) (e : Thrown) : Handler Flow := do
  let dismissed ← wasDismissed busy
  if dismissed then return .done
  else if codeOf e = .authenticationFailed ∨ codeOf e = .unsupportedCredential then do
    let again : Again ← ask .create .showRecoverable
    match again with
    | .retry => do
      clearBusy
      return .again
    | .cancel => failDone h .userCancelled
  else .throw e

/-- Create: parent registered passkey → enroll here → backup with attestation. In `return handleCreate(opts)` the outer
`finally` runs while the inner call waits for its confirmation. -/
def handleCreate (env : SignerEnv) (h : Handling) (credentialIdB64 webauthnAttestationObject : String) :
    Handler Flow := do
  let confirmed : Bool ← ask .create .confirmFinishCreate
  if confirmed then do
    let busy ← beginBusy h
    finallyDo (Prog.tryCatch (createBody env h credentialIdB64 webauthnAttestationObject busy) (createCatch h busy))
      clearBusy
  else failDone h .userCancelled

/-! ## Local unlock -/

def localUnlockBody (env : SignerEnv) (h : Handling) (raw : Bytes) (parsed : ParsedWalletBlob) (busy : Nat) :
    Handler Flow := do
  let minted ← mintBackupChallenge .localUnlock
  let (seed, publicKey) ← decryptWallet env .localUnlock parsed
  let dismissed ← wasDismissed busy
  if dismissed then return .done
  else match signChallenge env minted.challenge seed putChallengePrefix with
    | none => failDone h .internalError
    | some putSignature => do
      let pk ← toBase58Pubkey publicKey
      let pushed ← attempt (request .localUnlock (.backupOwnerWalletBlob
        { encryptedWalletBlob := bytesToBase64 raw .url, publicKey := pk, challengeId := minted.challengeId,
          signature := putSignature, webauthnAttestationObject := none }))
      match pushed with
      | .error _ => failDone h .blobUnavailable
      | .ok expiresAt => do
        let written ← writeLocal raw
        if written then do
          ask .localUnlock (.showSuccess pk false)
          let dismissed ← wasDismissed busy
          if dismissed then return .done
          else do
            post h (.authComplete h.requestId pk false expiresAt)
            return .done
        else failDone h .internalError

def localUnlockCatch (h : Handling) (busy : Nat) (e : Thrown) : Handler Flow := do
  let dismissed ← wasDismissed busy
  if dismissed then return .done
  else if codeOf e = .authenticationFailed ∨ codeOf e = .decryptionFailed then do
    let again : Again ← ask .localUnlock .showRecoverable
    match again with
    | .retry => return .again
    | .cancel => failDone h .authenticationFailed
  else .throw e

/-- Unlock with signer-local ciphertext. -/
def handleLocalUnlock (env : SignerEnv) (h : Handling) (raw : Bytes) (parsed : ParsedWalletBlob) : Handler Flow := do
  let confirmed : Bool ← ask .localUnlock .confirmImport
  if confirmed then do
    let busy ← beginBusy h
    finallyDo (Prog.tryCatch (localUnlockBody env h raw parsed busy) (localUnlockCatch h busy)) clearBusy
  else failDone h .userCancelled

/-! ## Remote unlock -/

/-- The last `try` block. -/
def remoteUnlockBody (env : SignerEnv) (h : Handling) (backup : Challenge) (disc : Discovered) (blob : String)
    (busy : Nat) : Handler Flow := do
  let raw ← decodeText blob 1024 .url
  let parsed ← parseBlobOrThrow raw
  if parsed.credentialId ≠ disc.credentialId then failDone h .walletMismatch
  else do
    let (seed, publicKey) ← unwrapWallet env .remoteUnlock disc.prfOutput parsed
    let dismissed ← wasDismissed busy
    if dismissed then return .done
    else do
      let written ← writeLocal raw
      if written then
        match signChallenge env backup.challenge seed putChallengePrefix with
        | none => failDone h .internalError
        | some putSignature => do
          let pk ← toBase58Pubkey publicKey
          let pushed ← attempt (request .remoteUnlock (.backupOwnerWalletBlob
            { encryptedWalletBlob := bytesToBase64 raw .url, publicKey := pk, challengeId := backup.challengeId,
              signature := putSignature, webauthnAttestationObject := none }))
          match pushed with
          | .error _ => failDone h .blobUnavailable
          | .ok expiresAt => do
            clearBusy
            ask .remoteUnlock (.showSuccess pk false)
            post h (.authComplete h.requestId pk false expiresAt)
            return .done
      else failDone h .internalError

/-- The last `catch` block. -/
def remoteUnlockCatch (busy : Nat) (e : Thrown) : Handler Flow := do
  let dismissed ← wasDismissed busy
  if dismissed then return .done else .throw e

/-- A recoverable failure. -/
def retryOr (h : Handling) (code : ErrorCode) : Handler Flow := do
  let again : Again ← ask .remoteUnlock .showRecoverable
  match again with
  | .retry => return .again
  | .cancel => failDone h code

/-- From the assertion on. -/
def remoteRestore (env : SignerEnv) (h : Handling) (restore backup : Challenge) (disc : Discovered) : Handler Flow := do
  clearBusy
  let busy ← beginBusy h
  let restored ← attempt (request .remoteUnlock (.restoreOwnerWalletBlob restore.challengeId disc.assertion))
  match restored with
  | .error _ => do
    clearBusy
    failDone h .blobUnavailable
  | .ok none => do
    clearBusy
    retryOr h .blobUnavailable
  | .ok (some blob) =>
    finallyDo (Prog.tryCatch (remoteUnlockBody env h backup disc blob busy) (remoteUnlockCatch busy)) clearBusy

/-- The assertion, unless the screen was dismissed meanwhile. -/
def discover (scope : Scope) (challenge : Bytes) (busy : Nat) : Handler (Option Discovered) := do
  let disc ← request scope (.getDiscoverable challenge)
  let dismissed ← wasDismissed busy
  return if dismissed then none else some disc

/-- Unlock via discoverable WebAuthn + remote restore. -/
def handleRemoteUnlock (env : SignerEnv) (h : Handling) : Handler Flow := do
  let confirmed : Bool ← ask .remoteUnlock .confirmImport
  if confirmed then do
    let minted ← attempt (request .remoteUnlock .issueBothChallenges)
    match minted with
    | .error _ => failDone h .blobUnavailable
    | .ok (restore, backup) =>
      match base64ToBytes restore.challenge 64 .url with
      | .error _ => failDone h .invalidMessage
      | .ok fetchChallengeBytes => do
        let busy ← beginBusy h
        let found ← attempt (discover .remoteUnlock fetchChallengeBytes busy)
        match found with
        | .ok none => return .done
        | .ok (some disc) => remoteRestore env h restore backup disc
        | .error _ => do
          clearBusy
          let dismissed ← wasDismissed busy
          if dismissed then return .done else retryOr h .blobUnavailable
  else failDone h .userCancelled

/-! ## The cold start -/

inductive Restored
  | failed | dismissed
  | wallet (seed publicKey : Bytes)
deriving DecidableEq, Repr

def failRestore (h : Handling) (code : ErrorCode) : Handler Restored := do
  fail h code
  return .failed

def restoreBody (env : SignerEnv) (h : Handling) (restore : Challenge) (fetchChallengeBytes : Bytes) (busy : Nat) :
    Handler Restored := do
  let found ← discover .restoreWalletSeed fetchChallengeBytes busy
  match found with
  | none => return .dismissed
  | some disc => do
    let restored ← attempt (request .restoreWalletSeed (.restoreOwnerWalletBlob restore.challengeId disc.assertion))
    match restored with
    | .error _ | .ok none => failRestore h .blobUnavailable
    | .ok (some blob) => do
      let raw ← decodeText blob 1024 .url
      let parsed ← parseBlobOrThrow raw
      if parsed.credentialId ≠ disc.credentialId then failRestore h .walletMismatch
      else do
        let (seed, publicKey) ← unwrapWallet env .restoreWalletSeed disc.prfOutput parsed
        let written ← writeLocal raw
        if written then return .wallet seed publicKey else failRestore h .internalError

def restoreCatch (h : Handling) (busy : Nat) (e : Thrown) : Handler Restored := do
  let dismissed ← wasDismissed busy
  if dismissed then return .dismissed
  else match e with
    | .service code => failRestore h code
    | _ => .throw e

/-- Sign / export: one WebAuthn restores from D1 then continues. -/
def restoreWalletSeed (env : SignerEnv) (h : Handling) : Handler Restored := do
  let minted ← attempt (request .restoreWalletSeed .issueRestoreChallenge)
  match minted with
  | .error _ => failRestore h .blobUnavailable
  | .ok restore =>
    match base64ToBytes restore.challenge 64 .url with
    | .error _ => failRestore h .invalidMessage
    | .ok fetchChallengeBytes => do
      let busy ← beginBusy h
      finallyDo (Prog.tryCatch (restoreBody env h restore fetchChallengeBytes busy) (restoreCatch h busy)) clearBusy

/-! ## Sign and export -/

/-- The seed and public key of the local wallet, unless the screen was dismissed meanwhile. -/
def unlockLocal (env : SignerEnv) (h : Handling) (scope : Scope) (parsed : ParsedWalletBlob) :
    Handler (Option (Bytes × Bytes)) := do
  let busy ← beginBusy h
  finallyDo
    (Prog.tryCatch (do
      let unlocked ← decryptWallet env scope parsed
      let dismissed ← wasDismissed busy
      return if dismissed then none else some unlocked) fun e => do
        let dismissed ← wasDismissed busy
        if dismissed then return none else .throw e)
    clearBusy

def authorize (h : Handling) (walletPublicKey : Bytes) (messageDigest : String) : Handler Unit :=
  modify fun s => { s with op := s.op.authorize ⟨.signPending, h.requestId, walletPublicKey, messageDigest⟩ }

def consumeAuthorization (h : Handling) (messageDigest : String) : Handler (Option Authorization) :=
  call fun s => (.ok (s.op.consumeAuthorization .signPending h.requestId messageDigest).1,
    { s with op := (s.op.consumeAuthorization .signPending h.requestId messageDigest).2 })

/-- The last `try` block. -/
def signFrozen (env : SignerEnv) (h : Handling) (frozen seed publicKey : Bytes) : Handler Flow := do
  let messageDigest ← digestHex frozen
  let auth ← consumeAuthorization h messageDigest
  match auth with
  | none => failDone h .internalError
  | some _ => do
    let signature ← (ofOutcome (env.ed25519Sign frozen seed) : Handler Bytes)
    let pk ← toBase58Pubkey publicKey
    post h (.signResult h.requestId (bytesToBase64 signature .std) pk)
    return .done

/-- The branch with a local blob. -/
def signLocal (env : SignerEnv) (h : Handling) (tx : DecodedV1Transaction) (digest : String) (parsed : ParsedWalletBlob) :
    Handler Flow := do
  let owner ← (ofOutcome (decodeAddress parsed.publicKey) : Handler Pubkey)
  match evaluatePolicy env.kit.policyData tx owner with
  | .error code => failDone h code
  | .ok summary => do
    let confirmed : Bool ← ask .sign (.confirmSignTransaction summary)
    if confirmed then do
      authorize h parsed.publicKey digest
      let unlocked ← unlockLocal env h .sign parsed
      match unlocked with
      | none => return .done
      | some (seed, publicKey) => signFrozen env h tx.messageBytes seed publicKey
    else failDone h .userCancelled

/-- Cold start / empty local storage. -/
def signCold (env : SignerEnv) (h : Handling) (tx : DecodedV1Transaction) (digest : String) : Handler Flow :=
  match previewPolicy env.kit.policyData tx with
  | .error code => failDone h code
  | .ok preview => do
    let confirmed : Bool ← ask .sign (.confirmSignTransaction preview)
    if confirmed then do
      let restored ← restoreWalletSeed env h
      match restored with
      | .failed | .dismissed => return .done
      | .wallet seed publicKey => do
        let owner ← (ofOutcome (decodeAddress publicKey) : Handler Pubkey)
        match evaluatePolicy env.kit.policyData tx owner with
        | .error code => failDone h code
        | .ok _ => do
          authorize h publicKey digest
          signFrozen env h tx.messageBytes seed publicKey
    else failDone h .userCancelled

/-- From the decoded transaction on. -/
def signDecoded (env : SignerEnv) (h : Handling) (tx : DecodedV1Transaction) : Handler Flow := do
  let digest ← digestHex tx.messageBytes
  let stored ← readLocal
  match stored with
  | some (_, parsed) => signLocal env h tx digest parsed
  | none => signCold env h tx digest

def handleSign (env : SignerEnv) (h : Handling) (txB64 : String) : Handler Flow := do
  let txBytes ← decodeText txB64 maxTxBytes .std
  match decodeV1Transaction env.kit txBytes with
  | .error _ => failDone h .malformedTransaction
  | .ok tx => signDecoded env h tx

/-- The secret is shown in the iframe only. -/
def exportSecret (h : Handling) (seed publicKey : Bytes) : Handler Flow := do
  let pk ← toBase58Pubkey publicKey
  ask .exportPrivateKey (.showExportedSecret (BaseText.base58Of (seed ++ publicKey)) pk)
  post h (.exportResult h.requestId true)
  return .done

def handleExportPrivateKey (env : SignerEnv) (h : Handling) : Handler Flow := do
  let confirmed : Bool ← ask .exportPrivateKey .confirmExportPrivateKey
  if confirmed then do
    let stored ← readLocal
    match stored with
    | some (_, parsed) => do
      let unlocked ← unlockLocal env h .exportPrivateKey parsed
      match unlocked with
      | none => return .done
      | some (seed, publicKey) => exportSecret h seed publicKey
    | none => do
      let restored ← restoreWalletSeed env h
      match restored with
      | .failed | .dismissed => return .done
      | .wallet seed publicKey => exportSecret h seed publicKey
  else failDone h .userCancelled

/-! ## Routes -/

/-- What `handle` and `handleAuth` choose before their first await. -/
inductive Route
  | create (credentialIdB64 webauthnAttestationObject : String)
  | incomplete
  | localUnlock (raw : Bytes) (parsed : ParsedWalletBlob)
  | remoteUnlock
  | sign (txB64 : String)
  | exportPrivateKey

def routeOf (store : LocalStore) : RequestBody → Route
  | .authStart (some .create) credentialId webauthnAttestationObject =>
    match credentialId.filter (· ≠ ""), webauthnAttestationObject.filter (· ≠ "") with
    | some credentialIdB64, some webauthnAttestationObject => .create credentialIdB64 webauthnAttestationObject
    | _, _ => .incomplete
  | .authStart _ _ _ =>
    match readLocalBlob store with
    | some (raw, parsed) => .localUnlock raw parsed
    | none => .remoteUnlock
  | .signTransaction transaction => .sign transaction
  | .exportPrivateKey => .exportPrivateKey

def Route.prog (env : SignerEnv) (h : Handling) : Route → Handler Flow
  | .create credentialIdB64 webauthnAttestationObject => handleCreate env h credentialIdB64 webauthnAttestationObject
  | .incomplete => failDone h .invalidMessage
  | .localUnlock raw parsed => handleLocalUnlock env h raw parsed
  | .remoteUnlock => handleRemoteUnlock env h
  | .sign txB64 => handleSign env h txB64
  | .exportPrivateKey => handleExportPrivateKey env h

end PhygitalWallet.Secure
