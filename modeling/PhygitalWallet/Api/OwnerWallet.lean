import PhygitalWallet.Api.BlobFormat
import PhygitalWallet.Api.KvChallenge
import PhygitalWallet.Client.Kit
import PhygitalWallet.Lib.JsText
import PhygitalWallet.Lib.Sha256
import PhygitalWallet.Lib.Table

/-!
# Backups of owner wallets (`PUT /owner-wallet/blob`, `owner-wallet/blob-store.ts`, `auth/possession-proof.ts`)

A row belongs to a passkey credential. It is created with the passkey's public key (COSE) out of an attestation, and
later backups refresh its ciphertext.

- `extractCredentialFromAttestationObject`, `verifyConsumedChallengeProof`: the two proofs;
- `checkPut`, `putOwnerWalletBlob`, `putBlob`: the route;
- `ownerService`: the route over the table and the challenges;
- `owner_identity`: a row with a COSE key keeps its keys, and came out of both proofs.
-/

namespace PhygitalWallet.Api

open ByteSeq Async Runs SqlTable
open Secure (ParsedWalletBlob Format.walletBlob length_walletBlob)

/-! ## The attestation -/

/-- What `parseAuthenticatorData` reads. -/
structure AuthenticatorData where
  credentialPublicKey : Option Bytes
  credentialID : Option Bytes
  rpIdHash : Bytes
  flagUp : Bool
  flagAt : Bool
deriving DecidableEq, Repr

/-- The platform and the libraries; `none` is what they throw at. -/
structure OwnerWalletEnv where
  base64Encoder : Base64Encoder
  /-- `new URL(origin).hostname`. -/
  hostname : String → Option String
  /-- Whether Kit's `address` accepts a text. -/
  isAddress : String → Bool
  /-- `isoBase64URL.toBuffer`, `decodeAttestationObject` and `parseAuthenticatorData` in a row. -/
  authenticatorData : String → Option AuthenticatorData
  sha256 : Bytes → Bytes
  /-- `ed25519.verify` of a signature, a message and a key. -/
  ed25519Verify : Bytes → Bytes → Bytes → Option Bool

/-- Mirror app `resolveWebAuthnRpId`: hostname heuristics for RP ID. -/
def resolveWebAuthnRpId (hostname : String) : String :=
  if hostname = "localhost" ∨ hostname = "127.0.0.1" then "localhost"
  else if hostname = "revibase.com" ∨ ".revibase.com".toList <:+ hostname.toList then "revibase.com"
  else hostname

structure AttestationCredential where
  publicKey : Bytes
  credentialId : Bytes
deriving DecidableEq, Repr

def extractCredentialFromAttestationObject (env : OwnerWalletEnv) (attestationObjectB64url expectedRpId : String) :
    Except String AttestationCredential :=
  match env.authenticatorData attestationObjectB64url with
  | none => .error "attestationObject"
  | some authData =>
    match authData.credentialPublicKey, authData.credentialID with
    | none, _ => .error "attestationObject missing credentialPublicKey"
    | some _, none => .error "attestationObject missing credentialID"
    | some publicKey, some credentialId =>
      if credentialId = [] then .error "attestationObject missing credentialID"
      else if authData.rpIdHash ≠ env.sha256 (Utf8.utf8Bytes expectedRpId) then
        .error "attestationObject rpIdHash mismatch"
      else if authData.flagUp = false ∨ authData.flagAt = false then .error "attestationObject missing UP or AT flags"
      else .ok { publicKey, credentialId }

/-! ## The possession proof -/

inductive PossessionProof
  | ok
  | failure (status : Nat) (error code : String)
deriving DecidableEq, Repr

/-- What follows the consumed challenge; where the message cannot be built, it throws. -/
def checkPossession (env : OwnerWalletEnv) (signatureB64 : String) (publicKeyBytes : Bytes)
    (buildMessage : Bytes → Except KvError Bytes) (expectedChallenge : String) : Except KvError PossessionProof :=
  match base64UrlToBytes env.base64Encoder expectedChallenge, base64UrlToBytes env.base64Encoder signatureB64 with
  | some challengeBytes, some signature =>
    if signature.length ≠ 64 ∨ publicKeyBytes.length ≠ 32 then
      .ok (.failure 400 "Invalid signature" "invalid_proof")
    else do
      let message ← buildMessage challengeBytes
      return if env.ed25519Verify signature message publicKeyBytes = some true then .ok
        else .failure 403 "Wallet proof failed" "invalid_proof"
  | _, _ => .ok (.failure 400 "Invalid proof" "invalid_proof")

/-! ## The calls -/

/-- A row of `owner_wallet_blob`. -/
structure DbRow where
  credentialIdHash : String
  publicKey : String
  encryptedBlob : String
  blobVersion : Nat
  updatedAt : Nat
  webauthnPublicKey : Option String
deriving DecidableEq, Repr

inductive OwnerCall
  | kv (c : KvCall)
  | selectBlob (credentialIdHash : String)
  | updateBlob (encryptedBlob : String) (blobVersion updatedAt : Nat) (credentialIdHash : String)
  | deleteIncomplete (credentialIdHash : String)
  | insertBlob (row : DbRow)
  | issueOwnerSessionCookie (publicKey : String)
deriving DecidableEq, Repr

def OwnerCall.Reply : OwnerCall → Type
  | .kv c => c.Reply
  | .selectBlob _ => Option DbRow
  | .updateBlob _ _ _ _ => Unit
  | .deleteIncomplete _ => Unit
  | .insertBlob _ => Unit
  | .issueOwnerSessionCookie _ => Nat

/-- What is thrown carries a message. -/
abbrev OwnerProg (α : Type) := Prog Unit KvError OwnerCall OwnerCall.Reply α

def ownerCall (c : OwnerCall) : OwnerProg c.Reply := Prog.awaitOk c

def selectBlob (credentialIdHash : String) : OwnerProg (Option DbRow) := ownerCall (.selectBlob credentialIdHash)

def updateBlob (encryptedBlob : String) (blobVersion updatedAt : Nat) (credentialIdHash : String) : OwnerProg Unit :=
  ownerCall (.updateBlob encryptedBlob blobVersion updatedAt credentialIdHash)

def deleteIncomplete (credentialIdHash : String) : OwnerProg Unit := ownerCall (.deleteIncomplete credentialIdHash)

def insertBlob (row : DbRow) : OwnerProg Unit := ownerCall (.insertBlob row)

def issueOwnerSessionCookie (publicKey : String) : OwnerProg Nat := ownerCall (.issueOwnerSessionCookie publicKey)

/-- `consume` of the challenges, among the calls of this route. -/
def consumeBackupChallenge (challengeId : String) : OwnerProg (Option String) :=
  (consume .backup challengeId).via fun c => ownerCall (.kv c)

/-- Consume a single-use challenge and verify ed25519(sig, message(challenge), pubkey). -/
def verifyConsumedChallengeProof (env : OwnerWalletEnv) (challengeId signatureB64 : String) (publicKeyBytes : Bytes)
    (consume : String → OwnerProg (Option String)) (buildMessage : Bytes → Except KvError Bytes) (expiredError : String) :
    OwnerProg PossessionProof := do
  let expectedChallenge ← consume challengeId
  match expectedChallenge with
  | none => return .failure 409 expiredError "challenge_invalid"
  | some expectedChallenge =>
    if expectedChallenge = "" then return .failure 409 expiredError "challenge_invalid"
    else Prog.ofOutcome (checkPossession env signatureB64 publicKeyBytes buildMessage expectedChallenge)

/-! ## The rows -/

structure OwnerWalletBlobRow where
  credentialIdHash : String
  publicKey : String
  encryptedBlob : String
  blobVersion : Nat
  updatedAt : Nat
  webauthnPublicKey : String
deriving DecidableEq, Repr

def trimmed (text : String) : String := String.ofList (JsText.trim text.toList)

/-- The COSE key of a row. -/
def DbRow.cose (r : DbRow) : Option String :=
  match r.webauthnPublicKey.map trimmed with
  | none => none
  | some key => if key = "" then none else some key

def mapRow (r : DbRow) : Option OwnerWalletBlobRow := do
  let webauthnPublicKey ← r.cose
  return { credentialIdHash := r.credentialIdHash, publicKey := r.publicKey, encryptedBlob := r.encryptedBlob,
           blobVersion := r.blobVersion, updatedAt := r.updatedAt, webauthnPublicKey }

def getOwnerWalletBlob (credentialIdHash : String) : OwnerProg (Option OwnerWalletBlobRow) := do
  let row ← selectBlob credentialIdHash
  return row.bind mapRow

inductive PutResult
  | created | updated | conflict | webauthnRequired
deriving DecidableEq, Repr

structure PutParams where
  credentialIdHash : String
  publicKey : String
  encryptedBlob : String
  blobVersion : Nat
  webauthnPublicKey : Option String
deriving DecidableEq, Repr

/-- The key of the parameters, if it is some text. -/
def PutParams.incomingKey (params : PutParams) : Option String :=
  match params.webauthnPublicKey.map trimmed with
  | none => none
  | some key => if key = "" then none else some key

/-- Insert or refresh ciphertext. -/
def putOwnerWalletBlob (params : PutParams) (now : Nat) : OwnerProg PutResult := do
  let existing ← getOwnerWalletBlob params.credentialIdHash
  match existing with
  | some existing =>
    if existing.publicKey ≠ params.publicKey then return .conflict
    else if existing.encryptedBlob = params.encryptedBlob ∧
        (params.incomingKey = none ∨ some existing.webauthnPublicKey = params.incomingKey) then
      return .updated
    else
      updateBlob params.encryptedBlob params.blobVersion now params.credentialIdHash
      return .updated
  | none =>
    -- rows without COSE make room for a create
    deleteIncomplete params.credentialIdHash
    match params.incomingKey with
    | none => return .webauthnRequired
    | some incomingKey =>
      insertBlob { credentialIdHash := params.credentialIdHash, publicKey := params.publicKey,
                   encryptedBlob := params.encryptedBlob, blobVersion := params.blobVersion, updatedAt := now,
                   webauthnPublicKey := some incomingKey }
      return .created

/-! ## The route -/

/-- The JSON of a request; a field is `none` where it is no string. -/
inductive PutBody
  | invalid
  | notObject
  | record (encryptedWalletBlob publicKey challengeId signature webauthnAttestationObject : Option String)
deriving DecidableEq, Repr

/-- The `Origin` header, the body, and the clock. -/
structure PutRequest where
  origin : Option String
  body : PutBody
  now : Nat
deriving DecidableEq, Repr

structure PutResponse where
  status : Nat
  error : Option String := none
  code : Option String := none
  credentialIdHash : Option String := none
  created : Option Bool := none
  expiresAt : Option Nat := none
deriving DecidableEq, Repr

def refused (status : Nat) (error : String) (code : Option String) : PutResponse := { status, error := some error, code }

/-- `APP_BROWSER_HOSTS`. -/
def appBrowserHosts : List String := ["localhost", "127.0.0.1", "app.revibase.com", "signer.revibase.com"]

def isAppBrowserOrigin (env : OwnerWalletEnv) (origin : String) : Bool :=
  match env.hostname origin with
  | none => false
  | some hostname => decide (String.ofList (hostname.toList.map Char.toLower) ∈ appBrowserHosts)

/-- The origin of the app, and its host. -/
def requireAppOrigin (env : OwnerWalletEnv) (header : Option String) : Except PutResponse String :=
  let origin := trimmed (header.getD "")
  if origin = "" ∨ isAppBrowserOrigin env origin = false then
    .error (refused 403 "App origin required" (some "origin_required"))
  else
    match env.hostname origin with
    | none => .error (refused 403 "App origin required" (some "origin_required"))
    | some hostname => .ok hostname

/-- `tryParseAddress`, as a test. -/
def parsesAddress (env : OwnerWalletEnv) (value : String) : Bool :=
  decide (trimmed value ≠ "") && env.isAddress (trimmed value)

/-- COSE from registration attestation (required on first backup). -/
def resolvePutWebauthnKey (env : OwnerWalletEnv) (webauthnAttestationObject : Option String) (expectedRpId : String) :
    Except PutResponse (Option AttestationCredential) :=
  let attestation := trimmed (webauthnAttestationObject.getD "")
  if attestation = "" then .ok none
  else
    match extractCredentialFromAttestationObject env attestation expectedRpId with
    | .ok cred => .ok (some cred)
    | .error _ => .error (refused 400 "Invalid webauthnAttestationObject" (some "invalid_webauthn_key"))

/-- `base64UrlToBytes` with a hard size cap. -/
def cappedBase64UrlToBytes (env : OwnerWalletEnv) (input : String) (maxBytes : Nat) : Except OwnerBlobParseError Bytes :=
  if input = "" then .error .empty
  else
    match base64UrlToBytes env.base64Encoder input with
    | none => .error .badBase64
    | some bytes => if maxBytes < bytes.length then .error .tooLarge else .ok bytes

/-- What the checks before the first await hand on. -/
structure CheckedPut where
  challengeId : String
  signatureB64 : String
  publicKey : String
  attestation : Option AttestationCredential
  header : OwnerBlobHeader
deriving DecidableEq, Repr

/-- The credential of an attestation, if there is one, is that of the blob. -/
def sameCredential (attestation : Option AttestationCredential) (header : OwnerBlobHeader) : Bool :=
  match attestation with
  | none => true
  | some cred => decide (cred.credentialId = header.credentialId)

/-- The checks before the first await. -/
def checkPut (env : OwnerWalletEnv) (request : PutRequest) : Except PutResponse CheckedPut := do
  let hostname ← requireAppOrigin env request.origin
  let expectedRpId := resolveWebAuthnRpId hostname
  match request.body with
  | .invalid => .error (refused 400 "Invalid JSON body" none)
  | .notObject => .error (refused 400 "Invalid JSON body" none)
  | .record encryptedWalletBlob publicKeyRaw challengeIdRaw signature webauthnAttestationObject =>
    let challengeId := trimmed (challengeIdRaw.getD "")
    let signatureB64 := trimmed (signature.getD "")
    if challengeId = "" ∨ signatureB64 = "" then
      .error (refused 401 "challengeId and signature are required" (some "proof_required"))
    else if encryptedWalletBlob.getD "" = "" then
      .error (refused 400 "encryptedWalletBlob is required" (some "invalid_wallet_blob"))
    else if parsesAddress env (publicKeyRaw.getD "") = false then
      .error (refused 400 "publicKey must be a valid Solana address" (some "invalid_public_key"))
    else
      let publicKey := trimmed (publicKeyRaw.getD "")
      let attestation ← resolvePutWebauthnKey env webauthnAttestationObject expectedRpId
      match (do
        let raw ← cappedBase64UrlToBytes env (encryptedWalletBlob.getD "") maxOwnerBlobBytes
        parseOwnerBlobHeader raw) with
      | .error _ => .error (refused 400 "Invalid encrypted wallet blob or proof" (some "invalid_wallet_blob"))
      | .ok header =>
        if BaseText.base58Of header.publicKey ≠ publicKey then
          .error (refused 400 "publicKey does not match the wallet blob" (some "wallet_mismatch"))
        else if sameCredential attestation header = false then
          .error (refused 400 "WebAuthn credential does not match the wallet blob" (some "webauthn_credential_mismatch"))
        else .ok { challengeId, signatureB64, publicKey, attestation, header }

def sha256Hex (env : OwnerWalletEnv) (bytes : Bytes) : String := BaseText.hexOf (env.sha256 bytes)

def CheckedPut.params (env : OwnerWalletEnv) (checked : CheckedPut) : PutParams where
  credentialIdHash := sha256Hex env checked.header.credentialId
  publicKey := checked.publicKey
  encryptedBlob := bytesToBase64Url checked.header.raw
  blobVersion := checked.header.version.toNat
  webauthnPublicKey := checked.attestation.map fun cred => bytesToBase64Url cred.publicKey

/-- What follows the possession proof; `try` ends here. -/
def storeBackup (env : OwnerWalletEnv) (checked : CheckedPut) (now : Nat) : OwnerProg PutResponse := do
  let result ← putOwnerWalletBlob (checked.params env) now
  match result with
  | .conflict =>
    return refused 409 "A different wallet is already stored for this passkey" (some "wallet_conflict")
  | .webauthnRequired =>
    return refused 400 "webauthnAttestationObject is required on first backup" (some "webauthn_required")
  | result =>
    let expiresAt ← issueOwnerSessionCookie checked.publicKey
    return { status := 200, credentialIdHash := some (checked.params env).credentialIdHash,
             created := some (decide (result = .created)), expiresAt := some expiresAt }

/-- `PUT /owner-wallet/blob`. -/
def putBlob (env : OwnerWalletEnv) (request : PutRequest) : OwnerProg PutResponse :=
  match checkPut env request with
  | .error response => return response
  | .ok checked => do
    let proof ← verifyConsumedChallengeProof env checked.challengeId checked.signatureB64 checked.header.publicKey
      consumeBackupChallenge (challengeMessage .backup) "This backup request expired. Try again."
    match proof with
    | .failure status error code => return refused status error (some code)
    | .ok =>
      (storeBackup env checked request.now).tryCatch fun message =>
        return refused 502 (if message = "" then "Failed to store wallet backup" else message) none

/-! ## The service -/

structure OwnerStore where
  kv : KvStore
  ownerWalletBlob : Table DbRow.credentialIdHash
  cookie : String → Except KvError Nat

/-- `webauthn_public_key IS NULL OR TRIM(webauthn_public_key) = ''`; SQL trims spaces only. -/
def DbRow.incomplete (r : DbRow) : Bool :=
  match r.webauthnPublicKey with
  | none => true
  | some key => key.toList.all (· = ' ')

def execOwner : (c : OwnerCall) → OwnerStore → Except KvError c.Reply × OwnerStore
  | .kv c, s => ((execKv c s.kv).1, { s with kv := (execKv c s.kv).2 })
  | .selectBlob credentialIdHash, s => (.ok (s.ownerWalletBlob.find credentialIdHash), s)
  | .updateBlob encryptedBlob blobVersion updatedAt credentialIdHash, s =>
    let refresh (r : DbRow) : DbRow := { r with encryptedBlob, blobVersion, updatedAt }
    (.ok (), { s with ownerWalletBlob := s.ownerWalletBlob.update credentialIdHash refresh fun _ => rfl })
  | .deleteIncomplete credentialIdHash, s =>
    let isIncomplete (r : DbRow) : Bool := decide (r.credentialIdHash = credentialIdHash) && r.incomplete
    (.ok (), { s with ownerWalletBlob := s.ownerWalletBlob.deleteWhere isIncomplete })
  | .insertBlob row, s =>
    match s.ownerWalletBlob.insert row with
    | some ownerWalletBlob => (.ok (), { s with ownerWalletBlob })
    | none => (.error "UNIQUE constraint failed: owner_wallet_blob.credential_id_hash", s)
  | .issueOwnerSessionCookie publicKey, s => (s.cookie publicKey, s)

/-- The route over the table; a request has a number, and the challenges change by themselves. -/
def ownerService (env : OwnerWalletEnv) :
    Service OwnerStore (Nat × PutRequest) KvError OwnerCall OwnerCall.Reply PutResponse where
  handler tag := putBlob env tag.2
  exec := execOwner
  drift s s' := s'.ownerWalletBlob = s.ownerWalletBlob

abbrev OwnerEvent := Event (Nat × PutRequest) KvError OwnerCall OwnerCall.Reply PutResponse

abbrev OwnerServer := Server OwnerStore (Nat × PutRequest) KvError OwnerCall OwnerCall.Reply PutResponse

/-! ## Rows keep their keys -/

/-- What identifies a row: the credential, the wallet's key and the passkey's. -/
def DbRow.identity (r : DbRow) : String × String × Option String := (r.credentialIdHash, r.publicKey, r.webauthnPublicKey)

/-- The rows with a COSE key are there with the same keys. -/
def KeepsKeys (t t' : Table DbRow.credentialIdHash) : Prop :=
  ∀ row ∈ t.rows, row.cose ≠ none → ∃ row' ∈ t'.rows, row'.identity = row.identity

theorem cose_of_identity {r r' : DbRow} (h : r'.identity = r.identity) : r'.cose = r.cose := by
  have hkey : r'.webauthnPublicKey = r.webauthnPublicKey := congrArg (fun i => i.2.2) h
  rw [DbRow.cose, DbRow.cose, hkey]

theorem KeepsKeys.refl (t : Table DbRow.credentialIdHash) : KeepsKeys t t := fun row hrow _ => ⟨row, hrow, rfl⟩

theorem KeepsKeys.trans {t t' t'' : Table DbRow.credentialIdHash} (h : KeepsKeys t t') (h' : KeepsKeys t' t'') :
    KeepsKeys t t'' := by
  intro row hrow hcose
  obtain ⟨row', hrow', hsame⟩ := h row hrow hcose
  obtain ⟨row'', hrow'', hsame'⟩ := h' row' hrow' (by rwa [cose_of_identity hsame])
  exact ⟨row'', hrow'', hsame'.trans hsame⟩

/-- Spaces are no COSE key. -/
theorem cose_of_incomplete {r : DbRow} (h : r.incomplete = true) : r.cose = none := by
  unfold DbRow.incomplete at h
  unfold DbRow.cose
  split at h
  · next hkey => rw [hkey, Option.map_none]
  · next key hkey =>
    have hspace : ∀ c ∈ key.toList, JsText.isSpace c = true := by
      intro c hc
      rw [of_decide_eq_true (List.all_eq_true.1 h c hc)]
      decide
    have htrim : trimmed key = "" := by
      rw [trimmed, JsText.trim_of_all hspace, String.ofList_nil]
    rw [hkey]
    simp [htrim]

/-- No statement touches the keys of a row with a COSE key. -/
theorem keepsKeys_execOwner (c : OwnerCall) (s : OwnerStore) :
    KeepsKeys s.ownerWalletBlob (execOwner c s).2.ownerWalletBlob := by
  cases c with
  | kv c => exact .refl _
  | selectBlob credentialIdHash => exact .refl _
  | updateBlob encryptedBlob blobVersion updatedAt credentialIdHash =>
    intro row hrow _
    refine ⟨if row.credentialIdHash = credentialIdHash then { row with encryptedBlob, blobVersion, updatedAt } else row,
      List.mem_map_of_mem hrow, ?_⟩
    split <;> rfl
  | deleteIncomplete credentialIdHash =>
    intro row hrow hcose
    refine ⟨row, Table.mem_deleteWhere.2 ⟨hrow, ?_⟩, rfl⟩
    have hcomplete : row.incomplete = false := by
      by_contra hincomplete
      exact hcose (cose_of_incomplete (Bool.of_not_eq_false hincomplete))
    simp [hcomplete]
  | insertBlob new =>
    intro row hrow _
    cases hinsert : s.ownerWalletBlob.insert new with
    | none => exact ⟨row, by simpa only [execOwner, hinsert] using hrow, rfl⟩
    | some t => exact ⟨row, by simpa only [execOwner, hinsert] using (Table.mem_insert hinsert).2 (Or.inl hrow), rfl⟩
  | issueOwnerSessionCookie publicKey => exact .refl _

section Service

variable {env : OwnerWalletEnv}

theorem keepsKeys_takes {c : OwnerCall} {s s' : OwnerStore} {r : Except KvError c.Reply}
    (h : (ownerService env).Takes c s r s') : KeepsKeys s.ownerWalletBlob s'.ownerWalletBlob := by
  have hexec : KeepsKeys s.ownerWalletBlob ((ownerService env).exec c s).2.ownerWalletBlob := keepsKeys_execOwner c s
  rcases h with h | ⟨e, -, rfl | rfl⟩
  · rw [← h] at hexec
    exact hexec
  · exact .refl _
  · exact hexec

theorem keepsKeys_step {event : OwnerEvent} {server server' : OwnerServer}
    (h : (ownerService env).Step event server server') :
    KeepsKeys server.store.ownerWalletBlob server'.store.ownerWalletBlob := by
  rcases h.store with hsame | ⟨c, r, htakes⟩ | hdrift
  · rw [hsame]
    exact .refl _
  · exact keepsKeys_takes htakes
  · rw [show server'.store.ownerWalletBlob = server.store.ownerWalletBlob from hdrift]
    exact .refl _

/-- From any state on, a row with a COSE key keeps its keys. -/
theorem keepsKeys_run {events : List OwnerEvent} {server server' : OwnerServer}
    (hrun : Run (ownerService env).Step server events server') :
    KeepsKeys server.store.ownerWalletBlob server'.store.ownerWalletBlob :=
  hrun.tracked (I := fun _ s => KeepsKeys server.store.ownerWalletBlob s.store.ownerWalletBlob) (.refl _)
    fun _ _ _ _ _ hkept hstep => hkept.trans (keepsKeys_step hstep)

end Service

/-! ## Where rows come from -/

/-- A request, with the challenge it got, proves the keys of a row: an attestation of the row's credential that holds the
row's passkey key, and a signature by the row's wallet key over the challenge. -/
def Proves (env : OwnerWalletEnv) (request : PutRequest) (challenge : String) (row : DbRow) : Prop :=
  ∃ (blob publicKeyRaw challengeId signatureRaw attestationRaw : Option String) (hostname : String) (raw : Bytes)
    (header : OwnerBlobHeader) (cred : AttestationCredential) (signature challengeBytes : Bytes),
    request.body = .record blob publicKeyRaw challengeId signatureRaw attestationRaw ∧
    requireAppOrigin env request.origin = .ok hostname ∧
    cappedBase64UrlToBytes env (blob.getD "") maxOwnerBlobBytes = .ok raw ∧ parseOwnerBlobHeader raw = .ok header ∧
    extractCredentialFromAttestationObject env (trimmed (attestationRaw.getD "")) (resolveWebAuthnRpId hostname) =
      .ok cred ∧
    cred.credentialId = header.credentialId ∧
    row.identity = (sha256Hex env cred.credentialId, BaseText.base58Of header.publicKey,
      some (bytesToBase64Url cred.publicKey)) ∧
    base64UrlToBytes env.base64Encoder (trimmed (signatureRaw.getD "")) = some signature ∧
    base64UrlToBytes env.base64Encoder challenge = some challengeBytes ∧
    env.ed25519Verify signature (Utf8.utf8Bytes "revibase.owner-wallet.put.v1" ++ challengeBytes) header.publicKey =
      some true

section Origin

variable {env : OwnerWalletEnv}

/-- The challenge makes the request's possession proof hold. -/
def passes (env : OwnerWalletEnv) (request : PutRequest) (challenge : String) : Bool :=
  match checkPut env request with
  | .error _ => false
  | .ok checked =>
    match checkPossession env checked.signatureB64 checked.header.publicKey (challengeMessage .backup) challenge with
    | .ok .ok => true
    | _ => false

def isInsert : OwnerCall → Bool
  | .insertBlob _ => true
  | _ => false

/-- A get found a value that passes a test. -/
def gotValue (test : String → Bool) : (c : KvCall) → Except KvError c.Reply → Bool
  | .get _, .ok stored => (show Option String from stored).any test
  | _, _ => false

/-- The request got a challenge that it signed. -/
def gotSigned (env : OwnerWalletEnv) (tag : Nat × PutRequest) : (c : OwnerCall) → Except KvError c.Reply → Bool
  | .kv c, r => gotValue (passes env tag.2) c r
  | _, _ => false

/-- What is consumed was read before. -/
theorem consume_until (test : String → Bool) (kind : ChallengeKind) (challengeId : String) :
    (consume kind challengeId).Until (fun _ => True) (gotValue test) fun out =>
      ∀ challenge, out = .ok (some challenge) → test challenge = false := by
  refine ⟨trivial, fun r => ?_⟩
  rcases r with e | stored
  · exact Or.inr fun challenge h => nomatch h
  · rcases stored with _ | value
    · exact Or.inr fun challenge h => nomatch h
    · cases htest : test value with
      | true => exact Or.inl htest
      | false =>
        refine Or.inr ?_
        show (if value = "" then (pure none : KvProg (Option String)) else do
          kvDelete (challengeKey kind challengeId)
          return some value).Until _ _ _
        split
        · exact fun challenge h => nomatch h
        · refine ⟨trivial, fun r => Or.inr ?_⟩
          cases r with
          | error e => exact fun challenge h => nomatch h
          | ok _ =>
            intro challenge h
            cases h
            exact htest

/-- The possession proof holds once the request got a challenge that it signed. -/
theorem verifyConsumedChallengeProof_until {P : OwnerCall → Prop} {good : (c : OwnerCall) → Except KvError c.Reply → Bool}
    (test : String → Bool) (hkv : ∀ c, P (.kv c)) {challengeId signatureB64 expiredError : String} {publicKeyBytes : Bytes}
    {buildMessage : Bytes → Except KvError Bytes}
    (hgood : ∀ c r, gotValue test c r = true → good (.kv c) r = true)
    (htest : ∀ challenge, checkPossession env signatureB64 publicKeyBytes buildMessage challenge = .ok .ok →
      test challenge = true) :
    (verifyConsumedChallengeProof env challengeId signatureB64 publicKeyBytes consumeBackupChallenge buildMessage
      expiredError).Until P good fun out => out ≠ .ok .ok := by
  have hcall : ∀ c, True → (ownerCall (.kv c)).Until P good fun r => gotValue test c r = false := by
    refine fun c _ => ⟨hkv c, fun r => ?_⟩
    cases hgot : gotValue test c r with
    | true => exact Or.inl (hgood c r hgot)
    | false => exact Or.inr (Prog.until_ofOutcome hgot)
  refine Prog.until_bind (Prog.until_via hcall (consume_until test .backup challengeId)) (fun stored hstored => ?_)
    fun e _ h => nomatch h
  split
  · exact fun h => nomatch h
  · next challenge =>
    split
    · exact fun h => nomatch h
    · refine Prog.until_ofOutcome fun hok => ?_
      have hfalse := hstored challenge rfl
      rw [htest challenge hok] at hfalse
      cases hfalse

theorem handler_ownerService (tag : Nat × PutRequest) : (ownerService env).handler tag = putBlob env tag.2 := by
  simp only [ownerService]

/-- A request inserts nothing before it got a challenge that it signed. -/
theorem handler_signed (tag : Nat × PutRequest) : ((ownerService env).handler tag).Until (fun c => isInsert c = false)
    (gotSigned env tag) fun _ => True := by
  rw [handler_ownerService, putBlob]
  split
  · trivial
  · next checked hchecked =>
    refine Prog.until_bind (verifyConsumedChallengeProof_until (passes env tag.2) (fun _ => rfl) (fun _ _ h => h) ?_)
      (fun proof hproof => ?_) fun _ _ => trivial
    · intro challenge hok
      simp [passes, hchecked, hok]
    · split
      · trivial
      · exact absurd rfl hproof

/-- A row is inserted with what the checks handed on. -/
theorem putOwnerWalletBlob_until {P : OwnerCall → Prop} (hselect : ∀ h, P (.selectBlob h))
    (hupdate : ∀ blob version now h, P (.updateBlob blob version now h)) (hdelete : ∀ h, P (.deleteIncomplete h))
    {params : PutParams} (hinsert : ∀ row key, params.incomingKey = some key →
      row.identity = (params.credentialIdHash, params.publicKey, some key) → P (.insertBlob row)) (now : Nat) :
    (putOwnerWalletBlob params now).Until P (fun _ _ => false) fun _ => True := by
  have hok : ∀ {c : OwnerCall}, P c → (ownerCall c).Until P (fun _ _ => false) fun _ => True :=
    fun h => ⟨h, fun r => Or.inr (Prog.until_ofOutcome trivial)⟩
  have hexisting : (getOwnerWalletBlob params.credentialIdHash).Until P (fun _ _ => false) fun _ => True :=
    Prog.until_bind (hok (hselect _)) (fun _ _ => trivial) fun _ _ => trivial
  refine Prog.until_bind hexisting (fun existing _ => ?_) fun _ _ => trivial
  cases existing with
  | some existing =>
    simp only
    split
    · trivial
    · split
      · trivial
      · exact Prog.until_bind (hok (hupdate _ _ _ _)) (fun _ _ => trivial) fun _ _ => trivial
  | none =>
    refine Prog.until_bind (hok (hdelete _)) (fun _ _ => ?_) fun _ _ => trivial
    split
    · trivial
    · next key hkey =>
      exact Prog.until_bind (hok (hinsert _ key hkey rfl)) (fun _ _ => trivial) fun _ _ => trivial

/-- The call inserts only what the request's checks handed on. -/
def InsertsChecked (env : OwnerWalletEnv) (request : PutRequest) (c : OwnerCall) : Prop :=
  ∀ row, c = .insertBlob row → ∃ checked key, checkPut env request = .ok checked ∧
    (checked.params env).incomingKey = some key ∧
    row.identity = ((checked.params env).credentialIdHash, checked.publicKey, some key)

theorem handler_checked (tag : Nat × PutRequest) : ((ownerService env).handler tag).Until (InsertsChecked env tag.2)
    (fun _ _ => false) fun _ => True := by
  have hno : ∀ {c : OwnerCall}, isInsert c = false → InsertsChecked env tag.2 c := by
    rintro c hc row rfl
    cases hc
  rw [handler_ownerService, putBlob]
  split
  · trivial
  · next checked hchecked =>
    have hcall : ∀ {c : OwnerCall}, isInsert c = false →
        (ownerCall c).Until (InsertsChecked env tag.2) (fun _ _ => false) fun _ => True :=
      fun h => ⟨hno h, fun r => Or.inr (Prog.until_ofOutcome trivial)⟩
    have hkv : ∀ c, True → (ownerCall (.kv c)).Until (InsertsChecked env tag.2) (fun _ _ => false) fun _ => false = false :=
      fun c _ => ⟨hno rfl, fun r => Or.inr (Prog.until_ofOutcome rfl)⟩
    have hconsume : (consumeBackupChallenge checked.challengeId).Until (InsertsChecked env tag.2) (fun _ _ => false)
        fun _ => True :=
      Prog.until_via hkv (Prog.until_trivial (fun _ => trivial) (fun _ => trivial) _)
    have hproof : (verifyConsumedChallengeProof env checked.challengeId checked.signatureB64 checked.header.publicKey
        consumeBackupChallenge (challengeMessage .backup) "This backup request expired. Try again.").Until
          (InsertsChecked env tag.2) (fun _ _ => false) fun _ => True := by
      refine Prog.until_bind hconsume (fun stored _ => ?_) fun _ _ => trivial
      split
      · trivial
      · split
        · trivial
        · exact Prog.until_ofOutcome trivial
    have hput : (putOwnerWalletBlob (checked.params env) tag.2.now).Until (InsertsChecked env tag.2) (fun _ _ => false)
        fun _ => True := by
      refine putOwnerWalletBlob_until (fun _ => hno rfl) (fun _ _ _ _ => hno rfl) (fun _ => hno rfl) ?_ _
      rintro row key hkey hidentity row' hrow'
      cases hrow'
      exact ⟨checked, key, hchecked, hkey, hidentity⟩
    refine Prog.until_bind hproof (fun proof _ => ?_) fun _ _ => trivial
    split
    · trivial
    · refine Prog.until_tryCatch (Q := fun _ => True) ?_ (fun _ _ => trivial) fun _ _ => trivial
      refine Prog.until_bind hput (fun result _ => ?_) fun _ _ => trivial
      split
      · trivial
      · trivial
      · exact Prog.until_bind (hcall rfl) (fun _ _ => trivial) fun _ _ => trivial

/-- What the checks before the first await hand on. -/
theorem checkPut_eq_ok {request : PutRequest} {checked : CheckedPut} (h : checkPut env request = .ok checked) :
    ∃ (blob publicKeyRaw challengeId signatureRaw attestationRaw : Option String) (hostname : String) (raw : Bytes),
      request.body = .record blob publicKeyRaw challengeId signatureRaw attestationRaw ∧
      requireAppOrigin env request.origin = .ok hostname ∧
      cappedBase64UrlToBytes env (blob.getD "") maxOwnerBlobBytes = .ok raw ∧
      parseOwnerBlobHeader raw = .ok checked.header ∧
      resolvePutWebauthnKey env attestationRaw (resolveWebAuthnRpId hostname) = .ok checked.attestation ∧
      checked.signatureB64 = trimmed (signatureRaw.getD "") ∧
      checked.publicKey = BaseText.base58Of checked.header.publicKey ∧
      sameCredential checked.attestation checked.header = true := by
  unfold checkPut at h
  obtain ⟨hostname, horigin, h⟩ := Client.outcome_bind_eq_ok.1 h
  split at h
  · cases h
  · cases h
  · next blob publicKeyRaw challengeId signatureRaw attestationRaw hbody =>
    simp only at h
    split at h
    · cases h
    split at h
    · cases h
    split at h
    · cases h
    obtain ⟨attestation, hattestation, h⟩ := Client.outcome_bind_eq_ok.1 h
    split at h
    · cases h
    · next header hheader =>
      obtain ⟨raw, hraw, hparse⟩ := Client.outcome_bind_eq_ok.1 hheader
      split at h
      · cases h
      · next hkey =>
        split at h
        · cases h
        · next hsame =>
          cases h
          refine ⟨blob, publicKeyRaw, challengeId, signatureRaw, attestationRaw, hostname, raw, hbody, horigin, hraw, hparse,
            hattestation, rfl, (not_not.1 hkey).symm, Bool.of_not_eq_false hsame⟩

theorem resolvePutWebauthnKey_eq_ok {attestationRaw : Option String} {rpId : String} {cred : AttestationCredential}
    (h : resolvePutWebauthnKey env attestationRaw rpId = .ok (some cred)) :
    extractCredentialFromAttestationObject env (trimmed (attestationRaw.getD "")) rpId = .ok cred := by
  unfold resolvePutWebauthnKey at h
  simp only at h
  split at h
  · cases h
  · split at h
    · next hcred =>
      cases h
      exact hcred
    · cases h

theorem checkPossession_eq_ok {signatureB64 challenge : String} {publicKeyBytes : Bytes}
    (h : checkPossession env signatureB64 publicKeyBytes (challengeMessage .backup) challenge = .ok .ok) :
    ∃ challengeBytes signature, base64UrlToBytes env.base64Encoder challenge = some challengeBytes ∧
      base64UrlToBytes env.base64Encoder signatureB64 = some signature ∧
      env.ed25519Verify signature (Utf8.utf8Bytes "revibase.owner-wallet.put.v1" ++ challengeBytes) publicKeyBytes =
        some true := by
  unfold checkPossession at h
  split at h
  · next challengeBytes signature hchallenge hsignature =>
    split at h
    · cases h
    · obtain ⟨message, hmessage, h⟩ := Client.outcome_bind_eq_ok.1 h
      cases hmessage
      have hpossession := Client.outcome_pure_eq_ok.1 h
      split at hpossession
      · next hverify => exact ⟨challengeBytes, signature, hchallenge, hsignature, hverify⟩
      · cases hpossession
  · cases h

theorem trimmed_ofList {cs : List Char} (h : ∀ c ∈ cs, JsText.isSpace c = false) :
    trimmed (String.ofList cs) = String.ofList cs := by
  rw [trimmed, String.toList_ofList, JsText.trim_eq_self h]

/-- Text of the URL form holds no space. -/
theorem trimmed_bytesToBase64Url (bytes : Bytes) : trimmed (bytesToBase64Url bytes) = bytesToBase64Url bytes := by
  obtain ⟨body, k, hurl, -, -, -, hmem, -⟩ := bytesToBase64Url_eq bytes
  have hall : ∀ c ∈ BaseText.base64Alphabet, 0x20 < (toUrl c).toNat ∧ (toUrl c).toNat < 0x7f := by
    rw [← List.forall_iff_forall_mem]
    decide +kernel
  rw [hurl]
  refine trimmed_ofList fun c hc => ?_
  obtain ⟨d, hd, rfl⟩ := List.mem_map.1 hc
  exact JsText.isSpace_of_visible (hall d (hmem d hd))

/-- What is inserted is proved by the request and a challenge that it signed. -/
theorem proves_of_inserts {request : PutRequest} {row : DbRow} {challenge : String}
    (hinserts : InsertsChecked env request (.insertBlob row)) (hpasses : passes env request challenge = true) :
    Proves env request challenge row := by
  obtain ⟨checked, key, hchecked, hkey, hidentity⟩ := hinserts row rfl
  obtain ⟨blob, publicKeyRaw, challengeId, signatureRaw, attestationRaw, hostname, raw, hbody, horigin, hraw, hparse,
    hattestation, hsignatureRaw, hpublicKey, hsame⟩ := checkPut_eq_ok hchecked
  have hpossession : checkPossession env checked.signatureB64 checked.header.publicKey (challengeMessage .backup) challenge =
      .ok .ok := by
    simp only [passes, hchecked] at hpasses
    split at hpasses
    · assumption
    · cases hpasses
  obtain ⟨challengeBytes, signature, hchallenge, hsignature, hverify⟩ := checkPossession_eq_ok hpossession
  cases hcred : checked.attestation with
  | none =>
    simp [PutParams.incomingKey, CheckedPut.params, hcred] at hkey
  | some cred =>
    rw [hcred] at hattestation hsame
    have hcredentialId : cred.credentialId = checked.header.credentialId := of_decide_eq_true hsame
    have hkeyText : key = bytesToBase64Url cred.publicKey := by
      simp only [PutParams.incomingKey, CheckedPut.params, hcred, Option.map_some, trimmed_bytesToBase64Url] at hkey
      split at hkey
      · cases hkey
      · exact (Option.some.inj hkey).symm
    refine ⟨blob, publicKeyRaw, challengeId, signatureRaw, attestationRaw, hostname, raw, checked.header, cred, signature,
      challengeBytes, hbody, horigin, hraw, hparse, resolvePutWebauthnKey_eq_ok hattestation, hcredentialId, ?_, ?_,
      hchallenge, hverify⟩
    · rw [hidentity, hkeyText, hpublicKey, hcredentialId]
      rfl
    · rw [← hsignatureRaw]
      exact hsignature

/-- The rows after a call. -/
theorem rows_execOwner {c : OwnerCall} {s : OwnerStore} {row : DbRow}
    (h : row ∈ (execOwner c s).2.ownerWalletBlob.rows) :
    (∃ old ∈ s.ownerWalletBlob.rows, old.identity = row.identity) ∨ c = .insertBlob row := by
  cases c with
  | kv c => exact Or.inl ⟨row, h, rfl⟩
  | selectBlob credentialIdHash => exact Or.inl ⟨row, h, rfl⟩
  | updateBlob encryptedBlob blobVersion updatedAt credentialIdHash =>
    obtain ⟨old, hold, rfl⟩ := List.mem_map.1 h
    refine Or.inl ⟨old, hold, ?_⟩
    split <;> rfl
  | deleteIncomplete credentialIdHash => exact Or.inl ⟨row, (Table.mem_deleteWhere.1 h).1, rfl⟩
  | insertBlob new =>
    cases hinsert : s.ownerWalletBlob.insert new with
    | none => exact Or.inl ⟨row, by simpa only [execOwner, hinsert] using h, rfl⟩
    | some t =>
      simp only [execOwner, hinsert] at h
      rcases (Table.mem_insert hinsert).1 h with hold | rfl
      · exact Or.inl ⟨row, hold, rfl⟩
      · exact Or.inr rfl
  | issueOwnerSessionCookie publicKey => exact Or.inl ⟨row, h, rfl⟩

theorem rows_takes {c : OwnerCall} {s s' : OwnerStore} {r : Except KvError c.Reply}
    (htakes : (ownerService env).Takes c s r s') {row : DbRow} (h : row ∈ s'.ownerWalletBlob.rows) :
    (∃ old ∈ s.ownerWalletBlob.rows, old.identity = row.identity) ∨ c = .insertBlob row := by
  rcases htakes with htakes | ⟨e, -, rfl | rfl⟩
  · have hs : s' = (execOwner c s).2 := congrArg Prod.snd htakes
    exact rows_execOwner (hs ▸ h)
  · exact Or.inl ⟨row, h, rfl⟩
  · exact rows_execOwner h

/-- A row with a COSE key that was there from the start, or that a request proves. -/
def Accounted (env : OwnerWalletEnv) (s₀ : OwnerStore) (events : List OwnerEvent) (row : DbRow) : Prop :=
  (∃ old ∈ s₀.ownerWalletBlob.rows, old.identity = row.identity) ∨
    ∃ tag key challenge out, Event.reply tag (.kv (.get key)) (.ok (some challenge : Option String)) out ∈ events ∧
      Proves env tag.2 challenge row

theorem Accounted.mono {s₀ : OwnerStore} {events : List OwnerEvent} {row row' : DbRow}
    (h : Accounted env s₀ events row) (hidentity : row.identity = row'.identity) (event : OwnerEvent) :
    Accounted env s₀ (events ++ [event]) row' := by
  rcases h with ⟨old, hold, hsame⟩ | ⟨tag, key, challenge, out, hmem, hproves⟩
  · exact Or.inl ⟨old, hold, hsame.trans hidentity⟩
  · refine Or.inr ⟨tag, key, challenge, out, List.mem_append_left _ hmem, ?_⟩
    unfold Proves at hproves ⊢
    rwa [← hidentity]

theorem gotSigned_get (tag : Nat × PutRequest) (key challenge : String) :
    gotSigned env tag (.kv (.get key)) (.ok (some challenge : Option String)) = passes env tag.2 challenge := by
  simp only [gotSigned, gotValue, Option.any_some]

/-- A reply is good when it is a challenge that the request signed. -/
theorem get_of_gotSigned {tag : Nat × PutRequest} {c : OwnerCall} {r : Except KvError c.Reply}
    (h : gotSigned env tag c r = true) (out : Option (Except KvError PutResponse)) :
    ∃ key challenge, (Event.reply tag c r out : OwnerEvent) =
        .reply tag (.kv (.get key)) (.ok (some challenge : Option String)) out ∧
      passes env tag.2 challenge = true := by
  cases c with
  | kv c =>
    cases c with
    | get key =>
      rcases r with e | stored
      · cases h
      · rcases stored with _ | challenge
        · cases h
        · refine ⟨key, challenge, rfl, ?_⟩
          rw [← gotSigned_get tag key challenge]
          exact h
    | put key value expirationTtl => cases h
    | delete key => cases h
  | selectBlob credentialIdHash => cases h
  | updateBlob encryptedBlob blobVersion updatedAt credentialIdHash => cases h
  | deleteIncomplete credentialIdHash => cases h
  | insertBlob row => cases h
  | issueOwnerSessionCookie publicKey => cases h

theorem waits_checked {s₀ : OwnerStore} {events : List OwnerEvent} {server : OwnerServer}
    (hbefore : (ownerService env).Runs s₀ events server)
    {request : Request (Nat × PutRequest) KvError OwnerCall OwnerCall.Reply PutResponse} (hrequest : request ∈ server.pool) :
    InsertsChecked env request.tag.2 request.waiting.site := by
  have hwaits := @Service.Run.waits _ _ _ _ _ _ (ownerService env) (fun tag => InsertsChecked env tag.2)
    (fun _ _ _ => false) (fun _ _ => True) handler_checked _ _ _ hbefore request hrequest
  rcases hwaits with hwaits | ⟨_, _, _, _, hno⟩
  · exact hwaits.1
  · exact absurd hno Bool.false_ne_true

theorem waits_signed {s₀ : OwnerStore} {events : List OwnerEvent} {server : OwnerServer}
    (hbefore : (ownerService env).Runs s₀ events server)
    {request : Request (Nat × PutRequest) KvError OwnerCall OwnerCall.Reply PutResponse} (hrequest : request ∈ server.pool) :
    isInsert request.waiting.site = false ∨ Service.GoodReply (gotSigned env) events request.tag := by
  have hwaits := @Service.Run.waits _ _ _ _ _ _ (ownerService env) (fun _ c => isInsert c = false)
    (gotSigned env) (fun _ _ => True) handler_signed _ _ _ hbefore request hrequest
  exact hwaits.imp_left fun h => h.1

/-- A request that waits at an insert has proved the row. -/
theorem accounted_of_insert {s₀ : OwnerStore} {events : List OwnerEvent} {server : OwnerServer}
    (hbefore : (ownerService env).Runs s₀ events server)
    {request : Request (Nat × PutRequest) KvError OwnerCall OwnerCall.Reply PutResponse} (hrequest : request ∈ server.pool)
    {row : DbRow} (hinsert : request.waiting.site = .insertBlob row) : Accounted env s₀ events row := by
  have hchecked := waits_checked hbefore hrequest
  have hsigned := waits_signed hbefore hrequest
  rw [hinsert] at hchecked hsigned
  rcases hsigned with hno | ⟨c, r, out, hmem, hgood⟩
  · cases hno
  · obtain ⟨key, challenge, hevent, hpasses⟩ := get_of_gotSigned hgood out
    rw [hevent] at hmem
    exact Or.inr ⟨request.tag, key, challenge, out, hmem, proves_of_inserts hchecked hpasses⟩

end Origin

/-! ## Runs -/

/-- **Owners.** However the requests interleave: a row that holds a COSE key keeps its wallet key and its passkey key from
then on; and a row that was not there at the start came with a request that proved both keys, with a challenge it got. -/
theorem owner_identity (env : OwnerWalletEnv) {s₀ : OwnerStore} {past events : List OwnerEvent}
    {server server' : OwnerServer} (hpast : (ownerService env).Runs s₀ past server)
    (hrun : Run (ownerService env).Step server events server') :
    (∀ row ∈ server.store.ownerWalletBlob.rows, row.cose ≠ none →
      ∃ row' ∈ server'.store.ownerWalletBlob.rows, row'.identity = row.identity) ∧
    ∀ row ∈ server'.store.ownerWalletBlob.rows, Accounted env s₀ (past ++ events) row := by
  refine ⟨keepsKeys_run hrun, ?_⟩
  have hall : Run (fun event server server' => (ownerService env).Step event server server' ∧ (fun _ _ => True) event server)
      ⟨s₀, []⟩ (past ++ events) server' := (hpast.append hrun).mono fun _ _ _ h => ⟨h, trivial⟩
  let I (events : List OwnerEvent) (s : OwnerStore) : Prop := ∀ row ∈ s.ownerWalletBlob.rows, Accounted env s₀ events row
  have h₀ : I [] s₀ := fun row hrow => Or.inl ⟨row, hrow, rfl⟩
  refine Service.Run.store h₀ (fun events tag out s h row hrow => (h row hrow).mono rfl _) ?_ ?_ hall
  · intro events server hbefore request hrequest r out s' _ htakes h row hrow
    rcases rows_takes htakes hrow with ⟨old, hold, hsame⟩ | hinsert
    · exact (h old hold).mono hsame _
    · exact (accounted_of_insert hbefore hrequest hinsert).mono rfl _
  · intro events s s' hdrift h row hrow
    rw [show s'.ownerWalletBlob = s.ownerWalletBlob from hdrift] at hrow
    exact (h row hrow).mono rfl _

/-! ## A first backup -/

/-- A wallet's key, and its signature over 32 times the byte 7. -/
def exampleWalletKey : Bytes :=
  [3, 117, 159, 237, 7, 40, 121, 109, 208, 134, 249, 36, 231, 162, 159, 52, 186, 34, 63, 206, 92, 135, 31, 125, 183, 130,
   167, 55, 170, 102, 118, 216]

def exampleWalletSignature : Bytes :=
  [122, 254, 68, 10, 182, 17, 192, 47, 73, 140, 225, 83, 106, 90, 67, 7, 232, 39, 12, 73, 40, 52, 185, 208, 226, 213, 227,
   46, 221, 254, 149, 101, 189, 21, 45, 17, 210, 229, 47, 93, 10, 84, 111, 143, 104, 26, 150, 90, 222, 91, 136, 138, 47,
   165, 218, 141, 220, 70, 250, 205, 113, 148, 24, 9]

/-- A passkey: its COSE key and its credential. -/
def examplePasskey : AttestationCredential where
  publicKey := [0xa5, 1, 2, 3, 0x26, 0x20, 1, 0x21, 0x58, 32] ++
    [60, 221, 139, 207, 91, 115, 77, 166, 119, 20, 241, 74, 142, 237, 3, 199, 102, 175, 117, 229, 208, 250, 241, 186, 4, 178,
     236, 163, 189, 220, 212, 122] ++ [0x22, 0x58, 32] ++
    [58, 4, 131, 139, 252, 158, 28, 230, 247, 246, 199, 32, 156, 237, 217, 245, 42, 58, 32, 190, 81, 224, 102, 213, 200, 12,
     112, 100, 28, 107, 165, 84]
  credentialId := List.range 16 |>.map UInt8.ofNat

def exampleAuthenticatorData : AuthenticatorData where
  credentialPublicKey := some examplePasskey.publicKey
  credentialID := some examplePasskey.credentialId
  rpIdHash := Sha256.digest (Utf8.utf8Bytes "revibase.com")
  flagUp := true
  flagAt := true

/-- The attestation without a statement, as CBOR. -/
def exampleAttestation : Bytes :=
  [0xa3, 0x63] ++ Utf8.utf8Bytes "fmt" ++ [0x64] ++ Utf8.utf8Bytes "none" ++ [0x67] ++ Utf8.utf8Bytes "attStmt" ++
    [0xa0, 0x68] ++ Utf8.utf8Bytes "authData" ++ [0x58, 148] ++ exampleAuthenticatorData.rpIdHash ++ [0x45] ++
    List.replicate 20 0 ++ [0, 16] ++ examplePasskey.credentialId ++ examplePasskey.publicKey

/-- The libraries, where they are asked about this one backup. -/
def exampleOwnerEnv : OwnerWalletEnv where
  base64Encoder text := BaseText.base64Decode text.toList
  hostname origin := if origin = "https://app.revibase.com" then some "app.revibase.com" else none
  isAddress text := decide (text = BaseText.base58Of exampleWalletKey)
  authenticatorData text := if text = bytesToBase64Url exampleAttestation then some exampleAuthenticatorData else none
  sha256 := Sha256.digest
  ed25519Verify signature message key :=
    some (decide (signature = exampleWalletSignature ∧
      message = Utf8.utf8Bytes "revibase.owner-wallet.put.v1" ++ exampleDraw.bytes ∧ key = exampleWalletKey))

def exampleBlob : ParsedWalletBlob :=
  ⟨⟨exampleWalletKey, examplePasskey.credentialId, List.replicate 32 9, List.replicate 12 5, List.replicate 48 3⟩, 1⟩

/-- The backup that the wallet signs. -/
def exampleBackup : PutRequest where
  origin := some "https://app.revibase.com"
  body := .record (some (bytesToBase64Url (Format.walletBlob.encode exampleBlob)))
    (some (BaseText.base58Of exampleWalletKey)) (some exampleDraw.challengeId) (some (bytesToBase64Url exampleWalletSignature))
    (some (bytesToBase64Url exampleAttestation))
  now := 1700000000000

def exampleChecked : CheckedPut where
  challengeId := exampleDraw.challengeId
  signatureB64 := bytesToBase64Url exampleWalletSignature
  publicKey := BaseText.base58Of exampleWalletKey
  attestation := some examplePasskey
  header := headerOf exampleBlob

/-- What a first backup inserts. -/
def CheckedPut.row (env : OwnerWalletEnv) (checked : CheckedPut) (key : String) (now : Nat) : DbRow where
  credentialIdHash := (checked.params env).credentialIdHash
  publicKey := checked.publicKey
  encryptedBlob := (checked.params env).encryptedBlob
  blobVersion := (checked.params env).blobVersion
  updatedAt := now
  webauthnPublicKey := some key

def exampleRow : DbRow := exampleChecked.row exampleOwnerEnv (bytesToBase64Url examplePasskey.publicKey) exampleBackup.now

/-- No backup, and the challenge. -/
def exampleOwnerStore : OwnerStore where
  kv key := if key = challengeKey .backup exampleDraw.challengeId then some exampleDraw.challenge else none
  ownerWalletBlob := .empty _
  cookie _ := .ok 1700000900

theorem bytesToBase64Url_ne {bytes : Bytes} (h : bytes ≠ []) : bytesToBase64Url bytes ≠ "" := by
  intro htext
  exact (bytesToBase64Url_plain h).1 (by rw [htext]; rfl)

/-- A body whose parts pass the checks. -/
theorem checkPut_ok {env : OwnerWalletEnv} {request : PutRequest} {hostname blob publicKey challengeId signature : String}
    {attestationRaw : Option String} {attestation : Option AttestationCredential} {raw : Bytes} {header : OwnerBlobHeader}
    (horigin : requireAppOrigin env request.origin = .ok hostname)
    (hbody : request.body = .record (some blob) (some publicKey) (some challengeId) (some signature) attestationRaw)
    (hid : trimmed challengeId = challengeId) (hidne : challengeId ≠ "") (htext : trimmed signature = signature)
    (hsignature : signature ≠ "") (hblob : blob ≠ "") (hparses : parsesAddress env publicKey = true)
    (haddress : trimmed publicKey = publicKey)
    (hattestation : resolvePutWebauthnKey env attestationRaw (resolveWebAuthnRpId hostname) = .ok attestation)
    (hcapped : cappedBase64UrlToBytes env blob maxOwnerBlobBytes = .ok raw) (hheader : parseOwnerBlobHeader raw = .ok header)
    (hkey : BaseText.base58Of header.publicKey = publicKey) (hsame : sameCredential attestation header = true) :
    checkPut env request = .ok ⟨challengeId, signature, publicKey, attestation, header⟩ := by
  have hno : ¬(challengeId = "" ∨ signature = "") := not_or.2 ⟨hidne, hsignature⟩
  simp only [checkPut, horigin, hbody, Option.getD_some, hid, htext, if_neg hno, if_neg hblob, hparses, hattestation, haddress,
    hcapped,
    hheader, hkey, hsame, bind, Except.bind, ne_eq, not_true, if_false, Bool.true_eq_false]

theorem checkPut_exampleBackup : checkPut exampleOwnerEnv exampleBackup = .ok exampleChecked := by
  have hread : ∀ bytes, base64UrlToBytes exampleOwnerEnv.base64Encoder (bytesToBase64Url bytes) = some bytes :=
    base64UrlToBytes_bytesToBase64Url readsBack_base64Decode
  have htrim : trimmed "https://app.revibase.com" = "https://app.revibase.com" := by
    refine trimmed_ofList ?_
    rw [← List.forall_iff_forall_mem]
    decide +kernel
  have hhost : exampleOwnerEnv.hostname "https://app.revibase.com" = some "app.revibase.com" := by
    simp only [exampleOwnerEnv, if_true]
  have horigin : requireAppOrigin exampleOwnerEnv exampleBackup.origin = .ok "app.revibase.com" := by
    have happ : isAppBrowserOrigin exampleOwnerEnv "https://app.revibase.com" = true := by
      rw [isAppBrowserOrigin, hhost]
      decide
    simp [requireAppOrigin, exampleBackup, htrim, happ, hhost]
  have hrp : resolveWebAuthnRpId "app.revibase.com" = "revibase.com" := by decide +kernel
  have hid : trimmed exampleDraw.challengeId = exampleDraw.challengeId := by decide +kernel
  have hidne : exampleDraw.challengeId ≠ "" := by decide +kernel
  have haddress : trimmed (BaseText.base58Of exampleWalletKey) = BaseText.base58Of exampleWalletKey := by decide +kernel
  have hparses : parsesAddress exampleOwnerEnv (BaseText.base58Of exampleWalletKey) = true := by
    rw [parsesAddress, haddress]
    decide +kernel
  have hattestation : resolvePutWebauthnKey exampleOwnerEnv (some (bytesToBase64Url exampleAttestation)) "revibase.com" =
      .ok (some examplePasskey) := by
    have hne : bytesToBase64Url exampleAttestation ≠ "" := bytesToBase64Url_ne (by simp [exampleAttestation])
    have hdata : exampleOwnerEnv.authenticatorData (bytesToBase64Url exampleAttestation) = some exampleAuthenticatorData :=
      if_pos rfl
    have hcred : extractCredentialFromAttestationObject exampleOwnerEnv (bytesToBase64Url exampleAttestation) "revibase.com" =
        .ok examplePasskey := by
      rw [extractCredentialFromAttestationObject, hdata]
      simp [exampleAuthenticatorData, exampleOwnerEnv, examplePasskey]
    simp only [resolvePutWebauthnKey, Option.getD_some, trimmed_bytesToBase64Url, if_neg hne, hcred]
  have hvalid : Format.walletBlob.valid exampleBlob := ⟨rfl, rfl, ⟨by decide, by decide⟩, rfl, rfl, rfl⟩
  have hlength : (Format.walletBlob.encode exampleBlob).length = 149 := length_walletBlob hvalid
  have hblobne : bytesToBase64Url (Format.walletBlob.encode exampleBlob) ≠ "" := by
    refine bytesToBase64Url_ne fun hnil => ?_
    rw [hnil] at hlength
    cases hlength
  have hsignature : bytesToBase64Url exampleWalletSignature ≠ "" := bytesToBase64Url_ne (by decide)
  have hcapped : cappedBase64UrlToBytes exampleOwnerEnv (bytesToBase64Url (Format.walletBlob.encode exampleBlob))
      maxOwnerBlobBytes = .ok (Format.walletBlob.encode exampleBlob) := by
    have hmax : ¬maxOwnerBlobBytes < (Format.walletBlob.encode exampleBlob).length := by
      rw [hlength]
      decide
    simp only [cappedBase64UrlToBytes, if_neg hblobne, hread, if_neg hmax]
  have hsame : sameCredential (some examplePasskey) (headerOf exampleBlob) = true := by decide
  exact checkPut_ok horigin rfl hid hidne (trimmed_bytesToBase64Url _) hsignature hblobne hparses haddress
    (hrp.symm ▸ hattestation) hcapped (parseOwnerBlobHeader_encode hvalid) rfl hsame

section Create

variable {env : OwnerWalletEnv} {request : PutRequest} {checked : CheckedPut} {challenge key : String} {store : OwnerStore}
  {t : Table DbRow.credentialIdHash}

theorem solo_consume (hget : store.kv (challengeKey .backup checked.challengeId) = some challenge) (hne : challenge ≠ "") :
    (ownerService env).solo (consumeBackupChallenge checked.challengeId) store = (.ok (some challenge),
      { store with kv := Function.update store.kv (challengeKey .backup checked.challengeId) none }) := by
  simp [consumeBackupChallenge, consume, kvGet, kvDelete, kvCall, ownerCall, Prog.awaitOk, bind, Prog.bind, Prog.andThen,
    Prog.via, Prog.ofOutcome, Service.solo, ownerService, execOwner, execKv, hget, hne, pure]

theorem solo_putOwnerWalletBlob (hkey : (checked.params env).incomingKey = some key) (hempty : store.ownerWalletBlob = .empty _)
    {now : Nat} (hinsert : store.ownerWalletBlob.insert (checked.row env key now) = some t) :
    (ownerService env).solo (putOwnerWalletBlob (checked.params env) now) store =
      (.ok .created, { store with ownerWalletBlob := t }) := by
  have hselect : (ownerService env).solo (getOwnerWalletBlob (checked.params env).credentialIdHash) store =
      (.ok none, store) := by
    have hcall := @Service.solo_awaitOk _ _ _ _ _ _ (ownerService env)
      (.selectBlob (checked.params env).credentialIdHash) store
    have hnone : execOwner (.selectBlob (checked.params env).credentialIdHash) store = (.ok none, store) := by
      simp only [execOwner, hempty]
      rfl
    exact Service.solo_bind (hcall.trans hnone) _
  have hdelete : (ownerService env).solo (deleteIncomplete (checked.params env).credentialIdHash) store =
      (.ok (), store) := by
    refine (Service.solo_awaitOk _ store).trans ?_
    obtain ⟨kv, table, cookie⟩ := store
    cases hempty
    rfl
  have hinserted : (ownerService env).solo (insertBlob (checked.row env key now)) store =
      (.ok (), { store with ownerWalletBlob := t }) := by
    refine (Service.solo_awaitOk _ store).trans ?_
    simp only [ownerService, execOwner, hinsert]
    rfl
  rw [putOwnerWalletBlob, Service.solo_bind hselect]
  simp only
  rw [Service.solo_bind hdelete, hkey]
  exact Service.solo_bind hinserted _

/-- A first backup makes a row. -/
theorem runs_putBlob (hchecked : checkPut env request = .ok checked)
    (hget : store.kv (challengeKey .backup checked.challengeId) = some challenge) (hne : challenge ≠ "")
    (hproof : checkPossession env checked.signatureB64 checked.header.publicKey (challengeMessage .backup) challenge = .ok .ok)
    (hkey : (checked.params env).incomingKey = some key) (hempty : store.ownerWalletBlob = .empty _)
    (hinsert : store.ownerWalletBlob.insert (checked.row env key request.now) = some t) {expiresAt : Nat}
    (hcookie : store.cookie checked.publicKey = .ok expiresAt) (n : Nat) :
    ∃ events server, (ownerService env).Runs store events server ∧ server.store.ownerWalletBlob = t := by
  have hverify : (ownerService env).solo (verifyConsumedChallengeProof env checked.challengeId checked.signatureB64
      checked.header.publicKey consumeBackupChallenge (challengeMessage .backup)
      "This backup request expired. Try again.") store = (.ok .ok,
        { store with kv := Function.update store.kv (challengeKey .backup checked.challengeId) none }) := by
    rw [verifyConsumedChallengeProof, Service.solo_bind (solo_consume hget hne)]
    simp only [if_neg hne, hproof]
    rfl
  obtain ⟨events, hrun⟩ := @Service.run_solo _ _ _ _ _ _ (ownerService env) (n, request) store
  refine ⟨events, _, hrun, ?_⟩
  rw [handler_ownerService, putBlob, hchecked]
  simp only
  rw [Service.solo_bind hverify]
  let consumed : OwnerStore :=
    { store with kv := Function.update store.kv (challengeKey .backup checked.challengeId) none }
  have hissue : (ownerService env).solo (issueOwnerSessionCookie checked.publicKey) { consumed with ownerWalletBlob := t } =
      (.ok expiresAt, { consumed with ownerWalletBlob := t }) := by
    refine (Service.solo_awaitOk _ _).trans ?_
    show (store.cookie checked.publicKey, _) = _
    rw [hcookie]
  obtain ⟨response, hstore⟩ : ∃ response, (ownerService env).solo (storeBackup env checked request.now) consumed =
      (.ok response, { consumed with ownerWalletBlob := t }) := by
    refine ⟨{ status := 200, credentialIdHash := some (checked.params env).credentialIdHash, created := some true,
              expiresAt := some expiresAt }, ?_⟩
    rw [storeBackup, Service.solo_bind (@solo_putOwnerWalletBlob env checked key consumed t hkey hempty request.now hinsert)]
    exact Service.solo_bind hissue _
  exact congrArg (fun done => done.2.ownerWalletBlob) (Service.solo_tryCatch hstore _)

end Create

theorem checkPossession_ok {env : OwnerWalletEnv} {signatureB64 challenge : String} {publicKeyBytes challengeBytes signature : Bytes}
    (hchallenge : base64UrlToBytes env.base64Encoder challenge = some challengeBytes)
    (hsignature : base64UrlToBytes env.base64Encoder signatureB64 = some signature)
    (hlength : signature.length = 64 ∧ publicKeyBytes.length = 32)
    (hverify : env.ed25519Verify signature (Utf8.utf8Bytes "revibase.owner-wallet.put.v1" ++ challengeBytes) publicKeyBytes =
      some true) :
    checkPossession env signatureB64 publicKeyBytes (challengeMessage .backup) challenge = .ok .ok := by
  rw [checkPossession, hchallenge, hsignature]
  show (if signature.length ≠ 64 ∨ publicKeyBytes.length ≠ 32 then _ else Except.ok _) = _
  rw [if_neg (by omega), hverify]
  rfl

theorem checkPossession_example : checkPossession exampleOwnerEnv exampleChecked.signatureB64 exampleChecked.header.publicKey
    (challengeMessage .backup) exampleDraw.challenge = .ok .ok := by
  have hread : ∀ bytes, base64UrlToBytes exampleOwnerEnv.base64Encoder (bytesToBase64Url bytes) = some bytes :=
    base64UrlToBytes_bytesToBase64Url readsBack_base64Decode
  refine checkPossession_ok (hread exampleDraw.bytes) (hread exampleWalletSignature) ⟨by decide, by decide⟩ ?_
  exact congrArg some (decide_eq_true ⟨rfl, rfl, rfl⟩)

theorem incomingKey_example :
    (exampleChecked.params exampleOwnerEnv).incomingKey = some (bytesToBase64Url examplePasskey.publicKey) := by
  have hkeyne : bytesToBase64Url examplePasskey.publicKey ≠ "" := bytesToBase64Url_ne (by decide)
  simp only [PutParams.incomingKey, CheckedPut.params, exampleChecked, Option.map_some, trimmed_bytesToBase64Url, if_neg hkeyne]

theorem runs_exampleBackup : ∃ past store, ∃ pool, (ownerService exampleOwnerEnv).Runs exampleOwnerStore past ⟨store, pool⟩ ∧
    store.ownerWalletBlob.rows = [exampleRow] := by
  obtain ⟨t, hinsert⟩ := Table.insert_of_find (t := exampleOwnerStore.ownerWalletBlob) (r := exampleRow) rfl
  have hget : exampleOwnerStore.kv (challengeKey .backup exampleChecked.challengeId) = some exampleDraw.challenge := by
    simp only [exampleOwnerStore, exampleChecked, if_true]
  obtain ⟨past, ⟨store, pool⟩, hpast, hmade⟩ := @runs_putBlob exampleOwnerEnv exampleBackup exampleChecked
    exampleDraw.challenge _ exampleOwnerStore t checkPut_exampleBackup hget (bytesToBase64Url_ne (by decide))
    checkPossession_example incomingKey_example rfl hinsert 1700000900 rfl 0
  refine ⟨past, store, pool, hpast, ?_⟩
  rw [show store.ownerWalletBlob = t from hmade, Table.rows_insert hinsert]
  rfl

/-- The row is made, and stays when the request comes again. -/
theorem owner_identity_backup : ∃ past server events server',
    (ownerService exampleOwnerEnv).Runs exampleOwnerStore past server ∧
    server.store.ownerWalletBlob.rows = [exampleRow] ∧
    Run (ownerService exampleOwnerEnv).Step server events server' ∧
    (∃ row ∈ server'.store.ownerWalletBlob.rows, row.identity = exampleRow.identity) ∧
    ∀ row ∈ server'.store.ownerWalletBlob.rows, Accounted exampleOwnerEnv exampleOwnerStore (past ++ events) row := by
  obtain ⟨past, store, pool, hpast, hrows⟩ := runs_exampleBackup
  have hnext : Run (ownerService exampleOwnerEnv).Step ⟨store, pool⟩ _ _ := Run.nil.snoc (.arrive (1, exampleBackup))
  obtain ⟨hkept, haccounted⟩ := owner_identity exampleOwnerEnv hpast hnext
  refine ⟨past, _, _, _, hpast, hrows, hnext, ?_, haccounted⟩
  have hcose : exampleRow.cose ≠ none := by
    have hkeyne : bytesToBase64Url examplePasskey.publicKey ≠ "" := bytesToBase64Url_ne (by decide)
    simp [exampleRow, CheckedPut.row, DbRow.cose, trimmed_bytesToBase64Url, hkeyne]
  exact hkept exampleRow (by rw [hrows]; exact List.mem_singleton_self _) hcose

end PhygitalWallet.Api
