import PhygitalWallet.Lib.OrderedMap
import PhygitalWallet.Lib.Utf8
import PhygitalWallet.Secure.Policy
import PhygitalWallet.Secure.Protocol
import PhygitalWallet.Secure.WalletFormat

/-!
# The schema of inbound messages (`protocol.ts`)

What arrives by `postMessage` is any JavaScript value. The length of its JSON text is a parameter.

- `validateInbound`: the checks in their order;
- `InboundRequest.fields`: the message that stands for a request;
- `validateObject_ok`: an object is accepted as a request exactly when it is, key for key, that message;
- `inbound_schema`: this, and what a rejection says.
-/

namespace PhygitalWallet.Secure

/-! ## Values -/

/-- A value that the browser can clone. A number that is not finite has no value. -/
inductive JsValue
  | undefined
  | null
  | bool (b : Bool)
  | number (n : Option ℚ)
  | string (s : String)
  | array (items : List JsValue)
  | object (fields : List (String × JsValue))

/-- `data[key]` of an object, and of what has no such property. -/
def JsValue.get (v : JsValue) (key : String) : JsValue :=
  match v with
  | .object fields => (OrderedMap.get fields key).getD .undefined
  | _ => .undefined

/-! ## The schema -/

def protocolVersion : ℚ := 1

/-- Max total size of an inbound message. -/
def maxMessageBytes : Nat := 16 * 1024

inductive RequestType
  | signTransaction | exportPrivateKey | authStart
deriving DecidableEq, Repr

def RequestType.text : RequestType → String
  | .signTransaction => "SIGN_TRANSACTION"
  | .exportPrivateKey => "EXPORT_PRIVATE_KEY"
  | .authStart => "AUTH_START"

/-- `RESULT_TYPE`. -/
def RequestType.resultType : RequestType → String
  | .signTransaction => "SIGN_TRANSACTION_RESULT"
  | .exportPrivateKey => "EXPORT_PRIVATE_KEY_RESULT"
  | .authStart => "AUTH_COMPLETE"

def requestTypes : List RequestType := [.signTransaction, .exportPrivateKey, .authStart]

/-- `REQUEST_TYPES.includes(type)`. -/
def requestTypeOf (text : String) : Option RequestType := requestTypes.find? fun type => type.text = text

/-- `ALLOWED_KEYS`. -/
def allowedKeys : RequestType → List String
  | .signTransaction => ["type", "protocolVersion", "requestId", "timestamp", "transaction"]
  | .exportPrivateKey => ["type", "protocolVersion", "requestId", "timestamp"]
  | .authStart =>
    ["type", "protocolVersion", "requestId", "timestamp", "authMode", "credentialId", "webauthnAttestationObject"]

/-- `/^[A-Za-z0-9_-]{8,128}$/`. -/
def isRequestId (s : String) : Bool :=
  8 ≤ s.length && (s.length ≤ 128 && s.toList.all fun c => c.isAlphanum || (c = '_' || c = '-'))

/-- `Math.ceil((bytes * 4) / 3) + 4`. -/
def b64Cap (bytes : Nat) : Nat := (bytes * 4 + 2) / 3 + 4

def validString (s : String) (maxLen : Nat) : Bool :=
  0 < Utf8.utf16Length s.toList && Utf8.utf16Length s.toList ≤ maxLen

/-- The value of an optional text, where the check passes. -/
def optionalString (v : JsValue) (maxLen : Nat) : Option (Option String) :=
  match v with
  | .undefined => some none
  | .string s => if validString s maxLen then some (some s) else none
  | _ => none

/-- The value of `authMode`, where the check passes. -/
def authModeOf (v : JsValue) : Option (Option AuthMode) :=
  match v with
  | .undefined => some none
  | .string s => if s = "create" then some (some .create) else if s = "unlock" then some (some .unlock) else none
  | _ => none

/-- The last `switch`, where its checks pass. -/
def bodyOf (data : JsValue) : RequestType → Option RequestBody
  | .authStart => do
    let authMode ← authModeOf (data.get "authMode")
    let credentialId ← optionalString (data.get "credentialId") (b64Cap maxCredentialIdBytes)
    let webauthnAttestationObject ← optionalString (data.get "webauthnAttestationObject") (b64Cap maxBlobBytes)
    return .authStart authMode credentialId webauthnAttestationObject
  | .signTransaction =>
    match data.get "transaction" with
    | .string tx => if validString tx (b64Cap maxTxBytes) then some (.signTransaction tx) else none
    | _ => none
  | .exportPrivateKey => some .exportPrivateKey

/-- `rid`. -/
def requestIdOf (data : JsValue) : Option String :=
  match data.get "requestId" with
  | .string requestId => if isRequestId requestId then some requestId else none
  | _ => none

def isVersion (v : JsValue) : Bool :=
  match v with
  | .number (some n) => n = protocolVersion
  | _ => false

/-- The checks from the protocol version on. -/
def validateObject (fields : List (String × JsValue)) : ValidationResult :=
  let data := JsValue.object fields
  let rid := requestIdOf data
  if !isVersion (data.get "protocolVersion") then .rejected .unsupportedProtocol rid
  else match data.get "type" with
    | .string type =>
      match requestTypeOf type with
      | none => .rejected .invalidMessage rid
      | some rtype =>
        match rid with
        | none => .rejected .invalidMessage none
        | some requestId =>
          if (OrderedMap.keys fields).any fun key => key ∉ allowedKeys rtype then
            .rejected .invalidMessage (some requestId)
          else match data.get "timestamp" with
            | .number (some timestamp) =>
              match bodyOf data rtype with
              | some body => .ok { requestId, timestamp, body }
              | none => .rejected .invalidMessage (some requestId)
            | _ => .rejected .invalidMessage (some requestId)
    | _ => .rejected .invalidMessage rid

def validateInbound (messageByteLength : JsValue → Option Nat) (data : JsValue) : ValidationResult :=
  match messageByteLength data with
  | none => .rejected .invalidMessage none
  | some size =>
    if maxMessageBytes < size then .rejected .invalidMessage none
    else match data with
      | .object fields => validateObject fields
      | _ => .rejected .invalidMessage none

/-! ## The message of a request -/

def AuthMode.text : AuthMode → String
  | .create => "create"
  | .unlock => "unlock"

def RequestBody.type : RequestBody → RequestType
  | .signTransaction _ => .signTransaction
  | .exportPrivateKey => .exportPrivateKey
  | .authStart _ _ _ => .authStart

/-- A key with a text, where there is one. -/
def optionalField (key : String) (value : Option String) : List (String × JsValue) :=
  (value.map fun s => (key, JsValue.string s)).toList

def RequestBody.fields : RequestBody → List (String × JsValue)
  | .signTransaction transaction => [("transaction", .string transaction)]
  | .exportPrivateKey => []
  | .authStart authMode credentialId webauthnAttestationObject =>
    optionalField "authMode" (authMode.map AuthMode.text) ++ optionalField "credentialId" credentialId ++
      optionalField "webauthnAttestationObject" webauthnAttestationObject

def InboundRequest.fields (r : InboundRequest) : List (String × JsValue) :=
  [("type", .string r.body.type.text), ("protocolVersion", .number (some protocolVersion)),
    ("requestId", .string r.requestId), ("timestamp", .number (some r.timestamp))] ++ r.body.fields

/-! ## Answers -/

def ErrorCode.text : ErrorCode → String
  | .invalidMessage => "INVALID_MESSAGE"
  | .unsupportedProtocol => "UNSUPPORTED_PROTOCOL"
  | .unsupportedVersion => "UNSUPPORTED_VERSION"
  | .malformedTransaction => "MALFORMED_TRANSACTION"
  | .invalidWalletBlob => "INVALID_WALLET_BLOB"
  | .unsupportedCredential => "UNSUPPORTED_CREDENTIAL"
  | .policyRejected => "POLICY_REJECTED"
  | .userCancelled => "USER_CANCELLED"
  | .authenticationFailed => "AUTHENTICATION_FAILED"
  | .decryptionFailed => "DECRYPTION_FAILED"
  | .walletMismatch => "WALLET_MISMATCH"
  | .replayRejected => "REPLAY_REJECTED"
  | .internalError => "INTERNAL_ERROR"
  | .blobUnavailable => "BLOB_UNAVAILABLE"

def errorResponse (requestId : Option String) (code : ErrorCode) : JsValue :=
  .object ([("type", .string "ERROR"), ("protocolVersion", .number (some protocolVersion))] ++
    optionalField "requestId" (requestId.filter (· ≠ "")) ++ [("code", .string code.text)])

/-- What `fail` and `ok` post. -/
def Outgoing.data : Outgoing → JsValue
  | .error requestId code => errorResponse requestId code
  | .authComplete requestId publicKey created expiresAt =>
    .object [("type", .string RequestType.authStart.resultType), ("requestId", .string requestId),
      ("publicKey", .string publicKey), ("created", .bool created), ("expiresAt", .number (some expiresAt))]
  | .signResult requestId signature publicKey =>
    .object [("type", .string RequestType.signTransaction.resultType), ("requestId", .string requestId),
      ("signature", .string signature), ("publicKey", .string publicKey)]
  | .exportResult requestId completed =>
    .object [("type", .string RequestType.exportPrivateKey.resultType), ("requestId", .string requestId),
      ("completed", .bool completed)]

/-- Posted once the page listens. -/
def signerReady : JsValue := .object [("type", .string "SIGNER_READY"), ("protocolVersion", .number (some 1))]

/-! ## The schema as a relation -/

/-- The texts of a request have lengths that the check lets pass. -/
def RequestBody.Valid : RequestBody → Prop
  | .signTransaction transaction => validString transaction (b64Cap maxTxBytes) = true
  | .exportPrivateKey => True
  | .authStart _ credentialId webauthnAttestationObject =>
    (∀ s, credentialId = some s → validString s (b64Cap maxCredentialIdBytes) = true) ∧
      ∀ s, webauthnAttestationObject = some s → validString s (b64Cap maxBlobBytes) = true

/-- An object is the message of a request: it has its values, and no other keys. -/
structure Stands (fields : List (String × JsValue)) (r : InboundRequest) : Prop where
  requestId : isRequestId r.requestId = true
  body : r.body.Valid
  keys : ∀ key ∈ OrderedMap.keys fields, key ∈ allowedKeys r.body.type
  values : ∀ key ∈ allowedKeys r.body.type, (JsValue.object fields).get key = (JsValue.object r.fields).get key

section Schema

variable {fields : List (String × JsValue)} {r : InboundRequest} {data : JsValue}

theorem requestTypeOf_eq_some {text : String} {type : RequestType} : requestTypeOf text = some type ↔ type.text = text := by
  constructor
  · intro h
    simpa using List.find?_some h
  · rintro rfl
    cases type <;> decide

theorem isVersion_iff {v : JsValue} : isVersion v = true ↔ v = .number (some protocolVersion) := by
  unfold isVersion
  split
  · simp
  · next h => exact ⟨fun hno => (nomatch hno), fun heq => absurd heq (h _)⟩

theorem requestIdOf_eq_some {requestId : String} : requestIdOf data = some requestId ↔
    data.get "requestId" = .string requestId ∧ isRequestId requestId = true := by
  unfold requestIdOf
  split
  · next s heq =>
    rw [heq]
    simp only [Option.ite_none_right_eq_some, Option.some.injEq, JsValue.string.injEq]
    constructor
    · rintro ⟨h, rfl⟩
      exact ⟨rfl, h⟩
    · rintro ⟨rfl, h⟩
      exact ⟨h, rfl⟩
  · next h => exact ⟨fun hno => (nomatch hno), fun ⟨heq, _⟩ => absurd heq (h _)⟩

theorem optionalString_eq_some {v : JsValue} {maxLen : Nat} {value : Option String} :
    optionalString v maxLen = some value ↔ v = (value.map JsValue.string).getD .undefined ∧
      ∀ s, value = some s → validString s maxLen = true := by
  unfold optionalString
  split
  · cases value <;> simp
  · next s =>
    cases value with
    | none => simp
    | some t =>
      simp only [Option.ite_none_right_eq_some, Option.some.injEq, Option.map_some, Option.getD_some,
        JsValue.string.injEq, forall_eq']
      constructor
      · rintro ⟨h, rfl⟩
        exact ⟨rfl, h⟩
      · rintro ⟨rfl, h⟩
        exact ⟨h, rfl⟩
  · next hundefined hstring =>
    refine ⟨fun hno => (nomatch hno), fun ⟨heq, _⟩ => ?_⟩
    cases value with
    | none => exact absurd heq hundefined
    | some s => exact absurd heq (hstring s)

theorem authModeOf_eq_some {v : JsValue} {authMode : Option AuthMode} :
    authModeOf v = some authMode ↔ v = ((authMode.map AuthMode.text).map JsValue.string).getD .undefined := by
  unfold authModeOf
  split
  · cases authMode <;> simp
  · next s =>
    split
    · next h =>
      subst h
      rcases authMode with _ | _ | _ <;> simp [AuthMode.text]
    · next hcreate =>
      split
      · next h =>
        subst h
        rcases authMode with _ | _ | _ <;> simp [AuthMode.text]
      · next hunlock => rcases authMode with _ | _ | _ <;> simp [AuthMode.text, hcreate, hunlock]
  · next hundefined hstring =>
    refine ⟨fun hno => (nomatch hno), fun heq => ?_⟩
    cases authMode with
    | none => exact absurd heq hundefined
    | some mode => exact absurd heq (hstring _)

/-- The keys of a type beside the common ones. -/
def bodyKeys : RequestType → List String
  | .signTransaction => ["transaction"]
  | .exportPrivateKey => []
  | .authStart => ["authMode", "credentialId", "webauthnAttestationObject"]

theorem allowedKeys_eq (type : RequestType) :
    allowedKeys type = ["type", "protocolVersion", "requestId", "timestamp"] ++ bodyKeys type := by
  cases type <;> rfl

theorem get_authFields {authMode : Option AuthMode} {credentialId attestation : Option String} :
    (JsValue.object (RequestBody.authStart authMode credentialId attestation).fields).get "authMode" =
        ((authMode.map AuthMode.text).map JsValue.string).getD .undefined ∧
      (JsValue.object (RequestBody.authStart authMode credentialId attestation).fields).get "credentialId" =
        (credentialId.map JsValue.string).getD .undefined ∧
      (JsValue.object (RequestBody.authStart authMode credentialId attestation).fields).get "webauthnAttestationObject" =
        (attestation.map JsValue.string).getD .undefined := by
  rcases authMode with _ | _ <;> rcases credentialId with _ | _ <;> rcases attestation with _ | _ <;> exact ⟨rfl, rfl, rfl⟩

/-- **The last checks** of a message. -/
theorem bodyOf_eq_some {type : RequestType} {body : RequestBody} : bodyOf data type = some body ↔
    body.type = type ∧ body.Valid ∧ ∀ key ∈ bodyKeys type, data.get key = (JsValue.object body.fields).get key := by
  cases type with
  | exportPrivateKey => cases body <;> simp [bodyOf, bodyKeys, RequestBody.type, RequestBody.Valid]
  | signTransaction =>
    constructor
    · intro h
      unfold bodyOf at h
      dsimp only at h
      split at h
      · next tx heq =>
        split at h
        · next hvalid =>
          cases h
          refine ⟨rfl, hvalid, fun key hkey => ?_⟩
          rw [List.mem_singleton.1 hkey]
          exact heq
        · cases h
      · cases h
    · rintro ⟨htype, hvalid, hvalues⟩
      cases body with
      | signTransaction tx =>
        have htx : data.get "transaction" = .string tx := hvalues "transaction" List.mem_cons_self
        unfold bodyOf
        dsimp only
        rw [htx]
        exact if_pos hvalid
      | exportPrivateKey => cases htype
      | authStart => cases htype
  | authStart =>
    simp only [bodyOf, Option.bind_eq_bind, Option.bind_eq_some_iff, authModeOf_eq_some, optionalString_eq_some,
      Option.pure_def, Option.some.injEq]
    constructor
    · rintro ⟨authMode, hmode, credentialId, ⟨hid, hidValid⟩, attestation, ⟨hattestation, hattestationValid⟩, rfl⟩
      obtain ⟨h₁, h₂, h₃⟩ := @get_authFields authMode credentialId attestation
      refine ⟨rfl, ⟨hidValid, hattestationValid⟩, fun key hkey => ?_⟩
      simp only [bodyKeys, List.mem_cons, List.not_mem_nil, or_false] at hkey
      rcases hkey with rfl | rfl | rfl
      · rw [h₁, hmode]
      · rw [h₂, hid]
      · rw [h₃, hattestation]
    · rintro ⟨htype, hvalid, hvalues⟩
      cases body with
      | authStart authMode credentialId attestation =>
        obtain ⟨h₁, h₂, h₃⟩ := @get_authFields authMode credentialId attestation
        refine ⟨authMode, ?_, credentialId, ⟨?_, hvalid.1⟩, attestation, ⟨?_, hvalid.2⟩, rfl⟩
        · exact (hvalues "authMode" (by simp [bodyKeys])).trans h₁
        · exact (hvalues "credentialId" (by simp [bodyKeys])).trans h₂
        · exact (hvalues "webauthnAttestationObject" (by simp [bodyKeys])).trans h₃
      | exportPrivateKey => cases htype
      | signTransaction => cases htype

theorem get_fields_common (r : InboundRequest) : (JsValue.object r.fields).get "type" = .string r.body.type.text ∧
    (JsValue.object r.fields).get "protocolVersion" = .number (some protocolVersion) ∧
    (JsValue.object r.fields).get "requestId" = .string r.requestId ∧
    (JsValue.object r.fields).get "timestamp" = .number (some r.timestamp) := ⟨rfl, rfl, rfl, rfl⟩

/-- Past the common keys, a request's message has the keys of its body. -/
theorem get_fields_body (r : InboundRequest) : ∀ key ∈ bodyKeys r.body.type,
    (JsValue.object r.fields).get key = (JsValue.object r.body.fields).get key := by
  intro key hkey
  have hne : ∀ common ∈ ["type", "protocolVersion", "requestId", "timestamp"], key ≠ common := by
    revert hkey
    cases r.body.type <;> revert key <;> decide
  simp only [List.mem_cons, List.not_mem_nil, or_false, forall_eq_or_imp, forall_eq] at hne
  obtain ⟨htype, hversion, hid, htime⟩ := hne
  simp only [InboundRequest.fields, JsValue.get, List.cons_append, List.nil_append, OrderedMap.get, if_neg htype,
    if_neg hversion, if_neg hid, if_neg htime]

/-- The values of the common keys, and those of the body. -/
theorem values_iff {r : InboundRequest} {data : JsValue} :
    (∀ key ∈ allowedKeys r.body.type, data.get key = (JsValue.object r.fields).get key) ↔
      (data.get "type" = .string r.body.type.text ∧ data.get "protocolVersion" = .number (some protocolVersion) ∧
        data.get "requestId" = .string r.requestId ∧ data.get "timestamp" = .number (some r.timestamp)) ∧
      ∀ key ∈ bodyKeys r.body.type, data.get key = (JsValue.object r.body.fields).get key := by
  obtain ⟨htype, hversion, hid, htime⟩ := get_fields_common r
  rw [allowedKeys_eq, List.forall_mem_append]
  refine and_congr ?_ (forall₂_congr fun key hkey => by rw [get_fields_body r key hkey])
  simp only [List.mem_cons, List.not_mem_nil, or_false, forall_eq_or_imp, forall_eq, htype, hversion, hid, htime]

/-- What is accepted stands for the request. -/
theorem validateObject_stands (h : validateObject fields = .ok r) : Stands fields r := by
  unfold validateObject at h
  dsimp only at h
  split at h
  · cases h
  next hv =>
  have hv := isVersion_iff.1 (by simpa using hv)
  split at h
  · next type heq =>
    split at h
    · cases h
    next rtype hrtype =>
    have hrtype := requestTypeOf_eq_some.1 hrtype
    split at h
    · cases h
    next requestId hrid =>
    obtain ⟨hrid, hmatch⟩ := requestIdOf_eq_some.1 hrid
    split at h
    · cases h
    next hkeys =>
    split at h
    · next timestamp htimestamp =>
      split at h
      · next body hbody =>
        obtain ⟨rfl, hvalid, hvalues⟩ := bodyOf_eq_some.1 hbody
        cases h
        refine ⟨hmatch, hvalid, fun key hkey => ?_, values_iff.2 ⟨⟨?_, hv, hrid, htimestamp⟩, hvalues⟩⟩
        · by_contra hno
          exact hkeys (List.any_eq_true.2 ⟨key, hkey, decide_eq_true hno⟩)
        · rw [heq, hrtype]
      · cases h
    · cases h
  · cases h

/-- **What is accepted**: exactly the messages of requests. -/
theorem validateObject_ok : validateObject fields = .ok r ↔ Stands fields r := by
  constructor
  · exact validateObject_stands
  · intro h
    obtain ⟨⟨htype, hversion, hid, htime⟩, hvalues⟩ := values_iff.1 h.values
    have hbody : bodyOf (.object fields) r.body.type = some r.body := bodyOf_eq_some.2 ⟨rfl, h.body, hvalues⟩
    have hrid : requestIdOf (.object fields) = some r.requestId := requestIdOf_eq_some.2 ⟨hid, h.requestId⟩
    have hv : isVersion ((JsValue.object fields).get "protocolVersion") = true := isVersion_iff.2 hversion
    have hkeys : ((OrderedMap.keys fields).any fun key => key ∉ allowedKeys r.body.type) = false := by
      rw [List.any_eq_false]
      intro key hkey
      simpa using h.keys key hkey
    unfold validateObject
    simp only [hv, hrid, htype, htime, hkeys, requestTypeOf_eq_some.2 rfl, hbody, Bool.not_true, Bool.false_eq_true,
      if_false]

/-- A rejection of an object names the request where its id is one. -/
theorem validateObject_rejected {code : ErrorCode} {rid : Option String} (h : validateObject fields = .rejected code rid) :
    rid = requestIdOf (.object fields) ∧ (code = .unsupportedProtocol ∨ code = .invalidMessage) ∧
      (code = .unsupportedProtocol ↔ (JsValue.object fields).get "protocolVersion" ≠ .number (some protocolVersion)) := by
  unfold validateObject at h
  dsimp only at h
  split at h
  · next hv =>
    cases h
    have hne : (JsValue.object fields).get "protocolVersion" ≠ .number (some protocolVersion) := fun heq => by
      rw [isVersion_iff.2 heq] at hv
      cases hv
    exact ⟨rfl, .inl rfl, fun _ => hne, fun _ => rfl⟩
  next hv =>
  have hv := isVersion_iff.1 (by simpa using hv)
  have hinvalid : (.invalidMessage = ErrorCode.unsupportedProtocol) ↔
      (JsValue.object fields).get "protocolVersion" ≠ .number (some protocolVersion) :=
    ⟨fun hno => (nomatch hno), fun hne => absurd hv hne⟩
  split at h
  · split at h
    · cases h
      exact ⟨rfl, .inr rfl, hinvalid⟩
    split at h
    · next hrid =>
      cases h
      exact ⟨hrid.symm, .inr rfl, hinvalid⟩
    next hrid =>
    split at h
    · cases h
      exact ⟨hrid.symm, .inr rfl, hinvalid⟩
    split at h
    · split at h
      · cases h
      · cases h
        exact ⟨hrid.symm, .inr rfl, hinvalid⟩
    · cases h
      exact ⟨hrid.symm, .inr rfl, hinvalid⟩
  · cases h
    exact ⟨rfl, .inr rfl, hinvalid⟩

theorem eq_of_mem_optionalField {key q : String} {value : Option String}
    (h : q ∈ (optionalField key value).map Prod.fst) : q = key := by
  cases value with
  | none => cases h
  | some s => exact List.mem_singleton.1 h

theorem keys_fields (r : InboundRequest) : ∀ key ∈ OrderedMap.keys r.fields, key ∈ allowedKeys r.body.type := by
  intro key hkey
  rw [OrderedMap.keys, InboundRequest.fields, List.map_append] at hkey
  rw [allowedKeys_eq]
  refine List.mem_append.2 ((List.mem_append.1 hkey).imp id fun hkey => ?_)
  generalize r.body = body at hkey ⊢
  cases body with
  | signTransaction => exact hkey
  | exportPrivateKey => exact hkey
  | authStart authMode credentialId attestation =>
    simp only [RequestBody.fields, List.map_append, List.mem_append] at hkey
    show key ∈ bodyKeys .authStart
    rcases hkey with (hkey | hkey) | hkey
    · rw [eq_of_mem_optionalField hkey]
      decide
    · rw [eq_of_mem_optionalField hkey]
      decide
    · rw [eq_of_mem_optionalField hkey]
      decide

/-- The message of a request stands for it. -/
theorem stands_fields (hid : isRequestId r.requestId = true) (hbody : r.body.Valid) : Stands r.fields r :=
  ⟨hid, hbody, keys_fields r, fun _ _ => rfl⟩

theorem optional_inj {a b : Option String}
    (h : ((a.map JsValue.string).getD .undefined) = ((b.map JsValue.string).getD .undefined)) : a = b := by
  cases a <;> cases b <;> simp_all

/-- A message is the message of one request. -/
theorem fields_inj {r' : InboundRequest}
    (h : ∀ key ∈ allowedKeys r'.body.type, (JsValue.object r.fields).get key = (JsValue.object r'.fields).get key) :
    r = r' := by
  obtain ⟨requestId, timestamp, body⟩ := r
  obtain ⟨requestId', timestamp', body'⟩ := r'
  have hcommon : ∀ key ∈ ["type", "protocolVersion", "requestId", "timestamp"], key ∈ allowedKeys body'.type := by
    rw [allowedKeys_eq]
    exact fun key hkey => List.mem_append_left _ hkey
  have htype : JsValue.string body.type.text = .string body'.type.text := h "type" (hcommon _ (by simp))
  have hid : JsValue.string requestId = .string requestId' := h "requestId" (hcommon _ (by simp))
  have htime : JsValue.number (some timestamp) = .number (some timestamp') := h "timestamp" (hcommon _ (by simp))
  cases hid
  cases htime
  have hsame : body.type = body'.type := by
    have htext := JsValue.string.inj htype
    cases hb : body.type <;> cases hb' : body'.type <;> rw [hb, hb'] at htext <;> first | rfl | exact absurd htext (by decide)
  have hbody : ∀ key ∈ bodyKeys body'.type,
      (JsValue.object body.fields).get key = (JsValue.object body'.fields).get key := by
    intro key hkey
    rw [← get_fields_body ⟨requestId, timestamp, body⟩ key (hsame ▸ hkey),
      ← get_fields_body ⟨requestId, timestamp, body'⟩ key hkey]
    exact h key (by rw [allowedKeys_eq]; exact List.mem_append_right _ hkey)
  cases body with
  | signTransaction transaction =>
    cases body' with
    | signTransaction transaction' =>
      cases (show JsValue.string transaction = .string transaction' from hbody "transaction" (by simp [RequestBody.type, bodyKeys]))
      rfl
    | exportPrivateKey => cases hsame
    | authStart => cases hsame
  | exportPrivateKey =>
    cases body' with
    | signTransaction => cases hsame
    | exportPrivateKey => rfl
    | authStart => cases hsame
  | authStart authMode credentialId attestation =>
    cases body' with
    | signTransaction => cases hsame
    | exportPrivateKey => cases hsame
    | authStart authMode' credentialId' attestation' =>
      obtain ⟨h₁, h₂, h₃⟩ := @get_authFields authMode credentialId attestation
      obtain ⟨h₁', h₂', h₃'⟩ := @get_authFields authMode' credentialId' attestation'
      have hmode := optional_inj (h₁.symm.trans ((hbody _ (by simp [RequestBody.type, bodyKeys])).trans h₁'))
      have hcredential := optional_inj (h₂.symm.trans ((hbody _ (by simp [RequestBody.type, bodyKeys])).trans h₂'))
      have hattestation := optional_inj (h₃.symm.trans ((hbody _ (by simp [RequestBody.type, bodyKeys])).trans h₃'))
      have hmode' : authMode = authMode' := by
        rcases authMode with _ | _ | _ <;> rcases authMode' with _ | _ | _ <;> first | rfl | exact absurd hmode (by decide)
      rw [hmode', hcredential, hattestation]

end Schema

/-- The JSON text has a length within the limit. -/
def Fits (messageByteLength : JsValue → Option Nat) (data : JsValue) : Prop :=
  ∃ size, messageByteLength data = some size ∧ size ≤ maxMessageBytes

/-- **The schema.** A value is accepted as a request exactly when it is an object that, key for key, is the message of that
request, and no longer than the limit; so each request's own message is accepted as it. A rejection of an object of that
length names the request whose id it has, and blames the protocol exactly where its version is another one; any other
value is an invalid message of nobody. -/
theorem inbound_schema (messageByteLength : JsValue → Option Nat) :
    (∀ data r, validateInbound messageByteLength data = .ok r ↔
      Fits messageByteLength data ∧ ∃ fields, data = .object fields ∧ Stands fields r) ∧
    (∀ r, isRequestId r.requestId = true → r.body.Valid → Fits messageByteLength (.object r.fields) →
      validateInbound messageByteLength (.object r.fields) = .ok r) ∧
    (∀ fields code rid, Fits messageByteLength (.object fields) →
      validateInbound messageByteLength (.object fields) = .rejected code rid →
      rid = requestIdOf (.object fields) ∧ (code = .unsupportedProtocol ∨ code = .invalidMessage) ∧
        (code = .unsupportedProtocol ↔ (JsValue.object fields).get "protocolVersion" ≠ .number (some protocolVersion))) ∧
    ∀ data, (Fits messageByteLength data → ∀ fields, data ≠ .object fields) →
      validateInbound messageByteLength data = .rejected .invalidMessage none := by
  have hobject : ∀ fields, Fits messageByteLength (.object fields) →
      validateInbound messageByteLength (.object fields) = validateObject fields := by
    rintro fields ⟨size, hsize, hle⟩
    unfold validateInbound
    rw [hsize]
    exact if_neg (by omega)
  have hother : ∀ data, (Fits messageByteLength data → ∀ fields, data ≠ .object fields) →
      validateInbound messageByteLength data = .rejected .invalidMessage none := by
    intro data hno
    unfold validateInbound
    split
    · rfl
    · next size hsize =>
      split
      · rfl
      · next hle =>
        split
        · next fields => exact absurd rfl (hno ⟨size, hsize, by omega⟩ fields)
        · rfl
  refine ⟨fun data r => ?_, fun r hid hbody hfits => ?_, fun fields code rid hfits h => ?_, hother⟩
  · by_cases h : Fits messageByteLength data ∧ ∃ fields, data = .object fields
    · obtain ⟨hfits, fields, rfl⟩ := h
      rw [hobject fields hfits, validateObject_ok]
      constructor
      · exact fun hs => ⟨hfits, fields, rfl, hs⟩
      · rintro ⟨-, fields', heq, hs⟩
        cases heq
        exact hs
    · rw [hother data fun hfits fields heq => h ⟨hfits, fields, heq⟩]
      exact ⟨fun hno => (nomatch hno), fun ⟨hfits, fields, heq, _⟩ => absurd ⟨hfits, fields, heq⟩ h⟩
  · rw [hobject _ hfits]
    exact validateObject_ok.2 (stands_fields hid hbody)
  · rw [hobject _ hfits] at h
    exact validateObject_rejected h

end PhygitalWallet.Secure
