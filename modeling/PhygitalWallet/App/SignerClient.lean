import PhygitalWallet.Lib.BaseText
import PhygitalWallet.Secure.Base64
import PhygitalWallet.Secure.Inbound

/-!
# The client of the signer's iframe (`lib/wallet/secure-signer-client.ts`)

A call waits until the frame is ready, posts one message, and waits for the answer to it, for its timer, or for the host to
cancel. The readiness of the frame is an event of the environment, which comes or fails.

- `ClientCall.message`: what is posted, which is the message of a request (`message_eq`, `validateInbound_message`);
- `SignerClient.onMessage`, `fireTimeout`, `cancelAllPending`, ..: what the client does;
- `Kept`: each call is in one place, and each entry that waits has its timer; every operation keeps it.
-/

namespace PhygitalWallet.App

open Secure

/-! ## Calls -/

/-- The methods that ask the signer. -/
inductive ClientCall
  | authenticate (authMode : Option AuthMode) (credentialId webauthnAttestationObject : Option String)
  | signTransaction (txBytes : Bytes)
  | exportPrivateKey

def ClientCall.type : ClientCall → String
  | .authenticate _ _ _ => "AUTH_START"
  | .signTransaction _ => "SIGN_TRANSACTION"
  | .exportPrivateKey => "EXPORT_PRIVATE_KEY"

def ClientCall.resultType : ClientCall → String
  | .authenticate _ _ _ => "AUTH_COMPLETE"
  | .signTransaction _ => "SIGN_TRANSACTION_RESULT"
  | .exportPrivateKey => "EXPORT_PRIVATE_KEY_RESULT"

/-- An option that is `undefined` or empty is left out. -/
def truthy (value : Option String) : Option String := value.filter (· ≠ "")

def ClientCall.payload : ClientCall → List (String × JsValue)
  | .authenticate authMode credentialId webauthnAttestationObject =>
    [("authMode", .string (authMode.getD .unlock).text)] ++ optionalField "credentialId" (truthy credentialId) ++
      optionalField "webauthnAttestationObject" (truthy webauthnAttestationObject)
  | .signTransaction txBytes => [("transaction", .string (BaseText.base64Of txBytes))]
  | .exportPrivateKey => []

/-- `PROTOCOL_VERSION` of the client. -/
def clientProtocolVersion : ℚ := 1

def ClientCall.message (call : ClientCall) (requestId : String) (now : ℚ) : JsValue :=
  .object ([("type", .string call.type), ("protocolVersion", .number (some clientProtocolVersion)),
    ("requestId", .string requestId), ("timestamp", .number (some now))] ++ call.payload)

/-- Of sixteen random bytes. -/
def randomRequestId (bytes : Bytes) : String := BaseText.hexOf bytes

/-! ## What is posted is the message of a request -/

/-- The request that the message of a call asks for. -/
def ClientCall.body : ClientCall → RequestBody
  | .authenticate authMode credentialId webauthnAttestationObject =>
    .authStart (some (authMode.getD .unlock)) (truthy credentialId) (truthy webauthnAttestationObject)
  | .signTransaction txBytes => .signTransaction (BaseText.base64Of txBytes)
  | .exportPrivateKey => .exportPrivateKey

section Message

variable {call : ClientCall} {requestId : String} {now : ℚ}

theorem message_eq : call.message requestId now = .object (InboundRequest.fields ⟨requestId, now, call.body⟩) := by
  cases call <;> rfl

/-- The text of sixteen bytes is a request id. -/
theorem isRequestId_random {bytes : Bytes} (h : bytes.length = 16) : isRequestId (randomRequestId bytes) = true := by
  have hdigit : ∀ d < 16, (BaseText.digitChar BaseText.hexAlphabet d).isAlphanum = true := by decide +kernel
  have hlength : ∀ bytes : Bytes, (BaseText.hexOf bytes).length = 2 * bytes.length := by
    intro bytes
    rw [BaseText.hexOf, String.length_ofList]
    induction bytes with
    | nil => rfl
    | cons b bytes ih =>
      rw [List.flatMap_cons, List.length_append, ih, List.length_cons, List.length_cons, List.length_cons, List.length_nil]
      omega
  have hall : (BaseText.hexOf bytes).toList.all (fun c => c.isAlphanum || (c = '_' || c = '-')) = true := by
    rw [BaseText.hexOf, String.toList_ofList, List.all_eq_true]
    intro c hc
    obtain ⟨b, -, hc⟩ := List.mem_flatMap.1 hc
    have hb := b.toNat_lt
    have halnum : c.isAlphanum = true := by
      rcases List.mem_cons.1 hc with rfl | hc
      · exact hdigit _ (by omega)
      · rw [List.mem_singleton.1 hc]
        exact hdigit _ (by omega)
    rw [halnum]
    rfl
  unfold isRequestId randomRequestId
  rw [hall, hlength, h]
  rfl

/-- **A message that fits is accepted** as the request of its call. -/
theorem validateInbound_message {messageByteLength : JsValue → Option Nat} {bytes : Bytes} (h : bytes.length = 16)
    (hbody : call.body.Valid) (hfits : Fits messageByteLength (call.message (randomRequestId bytes) now)) :
    validateInbound messageByteLength (call.message (randomRequestId bytes) now) =
      .ok ⟨randomRequestId bytes, now, call.body⟩ := by
  obtain ⟨size, hsize, hle⟩ := hfits
  unfold validateInbound
  rw [hsize, message_eq]
  have hok : validateObject (InboundRequest.fields ⟨randomRequestId bytes, now, call.body⟩) =
      .ok ⟨randomRequestId bytes, now, call.body⟩ := validateObject_ok.2 (stands_fields (isRequestId_random h) hbody)
  simp only [hok]
  exact if_neg (by omega)

/-- What is accepted of a call's message is the call's request. -/
theorem validateInbound_body {messageByteLength : JsValue → Option Nat} {request : InboundRequest}
    (h : validateInbound messageByteLength (call.message requestId now) = .ok request) :
    request = ⟨requestId, now, call.body⟩ := by
  have hstands : Stands (InboundRequest.fields ⟨requestId, now, call.body⟩) request := by
    unfold validateInbound at h
    rw [message_eq] at h
    split at h
    · cases h
    · split at h
      · cases h
      · exact validateObject_ok.1 h
  exact (fields_inj hstands.values).symm

/-- The app's encoder and the signer's write the same text. -/
theorem base64Of_eq (bytes : Bytes) : BaseText.base64Of bytes = bytesToBase64 bytes .std := by
  refine congrArg String.ofList ?_
  fun_induction BaseText.base64Chars bytes with
  | case1 => rfl
  | case2 a =>
    have ha := a.toNat_lt
    have h₁ : a.toNat * 65536 / 262144 % 64 = a.toNat / 4 := by omega
    have h₂ : a.toNat * 65536 / 4096 % 64 = a.toNat % 4 * 16 := by omega
    simp only [base64Digits, h₁, h₂]
    rfl
  | case3 a b =>
    have ha := a.toNat_lt
    have hb := b.toNat_lt
    have h₁ : (a.toNat * 65536 + b.toNat * 256) / 262144 % 64 = a.toNat / 4 := by omega
    have h₂ : (a.toNat * 65536 + b.toNat * 256) / 4096 % 64 = a.toNat % 4 * 16 + b.toNat / 16 := by omega
    have h₃ : (a.toNat * 65536 + b.toNat * 256) / 64 % 64 = b.toNat % 16 * 4 := by omega
    simp only [base64Digits, h₁, h₂, h₃]
    rfl
  | case4 a b c rest ih =>
    have ha := a.toNat_lt
    have hb := b.toNat_lt
    have hc := c.toNat_lt
    have h₁ : (a.toNat * 65536 + b.toNat * 256 + c.toNat) / 262144 % 64 = a.toNat / 4 := by omega
    have h₂ : (a.toNat * 65536 + b.toNat * 256 + c.toNat) / 4096 % 64 = a.toNat % 4 * 16 + b.toNat / 16 := by omega
    have h₃ : (a.toNat * 65536 + b.toNat * 256 + c.toNat) / 64 % 64 = b.toNat % 16 * 4 + c.toNat / 64 := by omega
    have h₄ : (a.toNat * 65536 + b.toNat * 256 + c.toNat) % 64 = c.toNat % 64 := by omega
    simp only [base64Digits, h₁, h₂, h₃, h₄, ih]
    rfl

/-- The signer decodes the bytes of the call. -/
theorem base64ToBytes_base64Of {txBytes b : Bytes} {maxBytes : Nat}
    (h : base64ToBytes (BaseText.base64Of txBytes) maxBytes .std = .ok b) : b = txBytes := by
  obtain ⟨-, hdigits⟩ := base64ToBytes_eq_ok.1 h
  -- the text has one meaning, whatever the limit
  have hb : base64ToBytes (BaseText.base64Of txBytes) (max b.length txBytes.length) .std = .ok b :=
    base64ToBytes_eq_ok.2 ⟨le_max_left _ _, hdigits⟩
  rw [base64Of_eq, base64ToBytes_bytesToBase64 (le_max_right _ _)] at hb
  exact (Except.ok.inj hb).symm

end Message

/-! ## The client -/

/-- How a promise is settled; a rejection is a `SecureSignerError` with this code. -/
inductive Settlement
  | resolved (data : JsValue)
  | rejected (code : JsValue)

def internalError : JsValue := .string "INTERNAL_ERROR"

/-- An entry of `pending`: the call whose promise it settles, and the type that it takes. -/
structure PendingCall where
  call : Nat
  resultType : String
deriving DecidableEq, Repr

/-- The frame in the document; the calls that wait for it to be ready; the entries and timers of the calls that were
posted; and what the promises have come to. -/
structure SignerClient where
  iframeEl : Option Nat
  preparing : List (Nat × ClientCall)
  pending : List (String × PendingCall)
  timers : List (Nat × String)
  settled : List (Nat × Settlement)
  calls : Nat

def SignerClient.start : SignerClient := ⟨none, [], [], [], [], 0⟩

structure MessageEvent where
  origin : String
  source : Option Nat
  data : JsValue

namespace SignerClient

/-- The entry is deleted, its timer is cleared, and the promise is settled. -/
def finish (c : SignerClient) (requestId : String) (p : PendingCall) (outcome : Settlement) : SignerClient :=
  { c with
    pending := OrderedMap.erase c.pending requestId
    timers := OrderedMap.erase c.timers p.call
    settled := c.settled ++ [(p.call, outcome)] }

/-- `data["code"] ?? "INTERNAL_ERROR"`. -/
def codeOf (data : JsValue) : JsValue :=
  match data.get "code" with
  | .undefined | .null => internalError
  | code => code

def outcomeOf (resultType : String) (data : JsValue) : Settlement :=
  match data.get "type" with
  | .string type =>
    if type = "ERROR" then .rejected (codeOf data)
    else if type = resultType then .resolved data
    else .rejected internalError
  | _ => .rejected internalError

def onMessage (signerOrigin : String) (c : SignerClient) (event : MessageEvent) : SignerClient :=
  if event.origin ≠ signerOrigin then c
  else match c.iframeEl with
    | none => c
    | some frame =>
      if event.source ≠ some frame then c
      else match event.data.get "requestId" with
        | .string requestId =>
          match OrderedMap.get c.pending requestId with
          | none => c
          | some p => c.finish requestId p (outcomeOf p.resultType event.data)
        | _ => c

/-- The timer of a call. -/
def fireTimeout (c : SignerClient) (n : Nat) : SignerClient :=
  match OrderedMap.get c.timers n with
  | none => c
  | some requestId =>
    { c with
      pending := OrderedMap.erase c.pending requestId
      timers := OrderedMap.erase c.timers n
      settled := c.settled ++ [(n, .rejected internalError)] }

def cancelAllPending (c : SignerClient) : SignerClient :=
  c.pending.foldl (fun c entry => c.finish entry.1 entry.2 (.rejected (.string "USER_CANCELLED"))) c

/-- `request` up to its first await. -/
def begin (c : SignerClient) (call : ClientCall) : SignerClient :=
  { c with preparing := OrderedMap.set c.preparing c.calls call, calls := c.calls + 1 }

/-- `ensureReady` has failed, or the frame is gone again. -/
def notReady (c : SignerClient) (n : Nat) : SignerClient :=
  match OrderedMap.get c.preparing n with
  | none => c
  | some _ =>
    { c with
      preparing := OrderedMap.erase c.preparing n
      settled := c.settled ++ [(n, .rejected internalError)] }

/-- `request` after `ensureReady`: the client, and what it posts to its frame. -/
def post (c : SignerClient) (n : Nat) (requestId : String) (now : ℚ) : SignerClient × Option (Nat × JsValue) :=
  match OrderedMap.get c.preparing n, c.iframeEl with
  | none, _ => (c, none)
  | some _, none => (c.notReady n, none)
  | some call, some frame =>
    ({ c with
        preparing := OrderedMap.erase c.preparing n
        pending := OrderedMap.set c.pending requestId ⟨n, call.resultType⟩
        timers := OrderedMap.set c.timers n requestId },
      some (frame, call.message requestId now))

end SignerClient

/-! ## One place for each call -/

section Kept

open OrderedMap

variable {c : SignerClient} {n : Nat} {requestId : String} {p : PendingCall} {outcome : Settlement}

/-- In how many places a call is: settled, waiting for the frame, or waiting for the answer. -/
def SignerClient.tally (c : SignerClient) (n : Nat) : Nat :=
  (c.settled.map Prod.fst).count n + (OrderedMap.get c.preparing n).isSome.toNat + (OrderedMap.get c.timers n).isSome.toNat

/-- What every operation keeps. -/
structure Kept (c : SignerClient) : Prop where
  placed : ∀ n < c.calls, c.tally n = 1
  future : ∀ n, c.calls ≤ n → c.tally n = 0
  waits : ∀ requestId p, OrderedMap.get c.pending requestId = some p → OrderedMap.get c.timers p.call = some requestId
  timed : ∀ n requestId, OrderedMap.get c.timers n = some requestId →
    ∃ p, OrderedMap.get c.pending requestId = some p ∧ p.call = n
  keys : (OrderedMap.keys c.pending).Nodup

theorem Kept.start : Kept .start where
  placed _ h := absurd h (Nat.not_lt_zero _)
  future _ _ := rfl
  waits _ _ h := nomatch h
  timed _ _ h := nomatch h
  keys := List.nodup_nil

theorem tally_finish (hk : Kept c) (hp : OrderedMap.get c.pending requestId = some p) (m : Nat) :
    (c.finish requestId p outcome).tally m = c.tally m := by
  have htimer := hk.waits requestId p hp
  simp only [SignerClient.tally, SignerClient.finish, List.map_append, List.map_cons, List.map_nil, List.count_append,
    List.count_singleton, get_erase]
  by_cases hm : m = p.call
  · simp [hm, htimer]
    omega
  · simp [hm, beq_eq_false_iff_ne.2 fun heq : p.call = m => hm heq.symm]

/-- **An entry is finished once.** -/
theorem Kept.finish (hk : Kept c) (hp : OrderedMap.get c.pending requestId = some p) :
    Kept (c.finish requestId p outcome) where
  placed m hm := (tally_finish hk hp m).trans (hk.placed m hm)
  future m hm := (tally_finish hk hp m).trans (hk.future m hm)
  waits id q hq := by
    simp only [SignerClient.finish, get_erase] at hq ⊢
    split at hq
    · cases hq
    next hne =>
    have htimer := hk.waits id q hq
    rw [if_neg, htimer]
    intro heq
    rw [heq, hk.waits requestId p hp] at htimer
    exact hne (Option.some.inj htimer).symm
  timed m id hm := by
    simp only [SignerClient.finish, get_erase] at hm ⊢
    split at hm
    · cases hm
    next hne =>
    obtain ⟨q, hq, rfl⟩ := hk.timed m id hm
    refine ⟨q, ?_, rfl⟩
    rw [if_neg, hq]
    rintro rfl
    rw [hp] at hq
    exact hne (congrArg PendingCall.call (Option.some.inj hq)).symm
  keys := nodup_erase hk.keys

/-- **A message finishes an entry**, or nothing happens. -/
theorem onMessage_cases (signerOrigin : String) (c : SignerClient) (event : MessageEvent) :
    c.onMessage signerOrigin event = c ∨ ∃ frame requestId p, event.origin = signerOrigin ∧ c.iframeEl = some frame ∧
      event.source = some frame ∧ event.data.get "requestId" = .string requestId ∧
      OrderedMap.get c.pending requestId = some p ∧
      c.onMessage signerOrigin event = c.finish requestId p (SignerClient.outcomeOf p.resultType event.data) := by
  unfold SignerClient.onMessage
  split
  · exact .inl rfl
  next horigin =>
  split
  · exact .inl rfl
  next frame hframe =>
  split
  · exact .inl rfl
  next hsource =>
  split
  · next requestId hid =>
    split
    · exact .inl rfl
    · next p hp => exact .inr ⟨frame, requestId, p, not_not.1 horigin, hframe, not_not.1 hsource, hid, hp, rfl⟩
  · exact .inl rfl

theorem Kept.onMessage (hk : Kept c) (signerOrigin : String) (event : MessageEvent) :
    Kept (c.onMessage signerOrigin event) := by
  rcases onMessage_cases signerOrigin c event with heq | ⟨_, _, _, -, -, -, -, hp, heq⟩ <;> rw [heq]
  · exact hk
  · exact hk.finish hp

/-- Only data of the awaited type resolve a call. -/
theorem outcomeOf_resolved {resultType : String} {data data' : JsValue}
    (h : SignerClient.outcomeOf resultType data = .resolved data') :
    data' = data ∧ data.get "type" = .string resultType ∧ resultType ≠ "ERROR" := by
  unfold SignerClient.outcomeOf at h
  split at h
  · next type htype =>
    split at h
    · cases h
    · next herror =>
      split at h
      · next hsame =>
        cases h
        exact ⟨rfl, hsame ▸ htype, hsame ▸ herror⟩
      · cases h
  · cases h

/-- A timer finishes the entry of its call. -/
theorem Kept.fireTimeout_eq (hk : Kept c) (h : OrderedMap.get c.timers n = some requestId) :
    ∃ p, OrderedMap.get c.pending requestId = some p ∧ p.call = n ∧
      c.fireTimeout n = c.finish requestId p (.rejected internalError) := by
  obtain ⟨p, hp, rfl⟩ := hk.timed n requestId h
  refine ⟨p, hp, rfl, ?_⟩
  unfold SignerClient.fireTimeout
  rw [h]
  rfl

theorem Kept.fireTimeout (hk : Kept c) (n : Nat) : Kept (c.fireTimeout n) := by
  cases h : OrderedMap.get c.timers n with
  | none =>
    unfold SignerClient.fireTimeout
    rw [h]
    exact hk
  | some requestId =>
    obtain ⟨p, hp, -, heq⟩ := hk.fireTimeout_eq h
    rw [heq]
    exact hk.finish hp

/-- A property that each entry's end keeps is kept when all of them end. -/
theorem cancel_keeps {P : SignerClient → Prop}
    (hfinish : ∀ c requestId p, P c → OrderedMap.get c.pending requestId = some p →
      P (c.finish requestId p (.rejected (.string "USER_CANCELLED")))) :
    ∀ (entries : List (String × PendingCall)) (c : SignerClient), P c → (OrderedMap.keys entries).Nodup →
      (∀ entry ∈ entries, OrderedMap.get c.pending entry.1 = some entry.2) →
      P (entries.foldl (fun c entry => c.finish entry.1 entry.2 (.rejected (.string "USER_CANCELLED"))) c) := by
  intro entries
  induction entries with
  | nil => exact fun c hc _ _ => hc
  | cons entry entries ih =>
    intro c hc hnodup hentries
    obtain ⟨hnotin, hnodup⟩ := List.nodup_cons.1 hnodup
    refine ih _ (hfinish c entry.1 entry.2 hc (hentries entry List.mem_cons_self)) hnodup fun other hother => ?_
    have hne : other.1 ≠ entry.1 := fun heq => hnotin (heq ▸ List.mem_map_of_mem hother)
    show OrderedMap.get (OrderedMap.erase c.pending entry.1) other.1 = _
    rw [get_erase, if_neg hne]
    exact hentries other (List.mem_cons_of_mem _ hother)

theorem Kept.cancelAllPending (hk : Kept c) : Kept c.cancelAllPending :=
  cancel_keeps (fun _ _ _ hk hp => hk.finish hp) c.pending c hk hk.keys fun _ hentry => get_of_mem hk.keys hentry

theorem tally_begin (call : ClientCall) {m : Nat} (hm : m ≠ c.calls) : (c.begin call).tally m = c.tally m := by
  simp [SignerClient.tally, SignerClient.begin, get_set, hm]

theorem Kept.begin (hk : Kept c) (call : ClientCall) : Kept (c.begin call) where
  placed m hm := by
    have hm' : m < c.calls + 1 := hm
    by_cases heq : m = c.calls
    · have hnew := hk.future c.calls le_rfl
      simp only [SignerClient.tally] at hnew
      simp [SignerClient.tally, SignerClient.begin, get_set, heq]
      omega
    · rw [tally_begin call heq]
      exact hk.placed m (by omega)
  future m hm := by
    have hm' : c.calls + 1 ≤ m := hm
    rw [tally_begin call (by omega)]
    exact hk.future m (by omega)
  waits := hk.waits
  timed := hk.timed
  keys := hk.keys

theorem Kept.notReady (hk : Kept c) (n : Nat) : Kept (c.notReady n) := by
  unfold SignerClient.notReady
  split
  · exact hk
  next call hcall =>
  have htally : ∀ m, SignerClient.tally { c with
      preparing := erase c.preparing n, settled := c.settled ++ [(n, .rejected internalError)] } m = c.tally m := by
    intro m
    simp only [SignerClient.tally, List.map_append, List.map_cons, List.map_nil, List.count_append, List.count_singleton,
      get_erase]
    by_cases hm : m = n
    · simp [hm, hcall]
    · simp [hm, beq_eq_false_iff_ne.2 fun heq : n = m => hm heq.symm]
  exact ⟨fun m hm => (htally m).trans (hk.placed m hm), fun m hm => (htally m).trans (hk.future m hm), hk.waits, hk.timed,
    hk.keys⟩

/-- What is posted takes an id that no entry has. -/
theorem Kept.post (hk : Kept c) {now : ℚ} (hfresh : OrderedMap.get c.pending requestId = none) :
    Kept (c.post n requestId now).1 := by
  unfold SignerClient.post
  split
  · exact hk
  · exact hk.notReady n
  next call frame hcall hframe =>
  -- a call that waits for its frame has no timer yet
  have hlt : n < c.calls := by
    by_contra hle
    have hnone := hk.future n (by omega)
    simp [SignerClient.tally, hcall] at hnone
  have htimer : OrderedMap.get c.timers n = none := by
    have hplace := hk.placed n hlt
    cases htimer : OrderedMap.get c.timers n with
    | none => rfl
    | some id => simp [SignerClient.tally, hcall, htimer] at hplace
  have htally : ∀ m, SignerClient.tally { c with
      preparing := erase c.preparing n, pending := OrderedMap.set c.pending requestId ⟨n, call.resultType⟩,
      timers := OrderedMap.set c.timers n requestId } m = c.tally m := by
    intro m
    simp only [SignerClient.tally, get_erase, get_set]
    by_cases hm : m = n
    · simp [hm, hcall, htimer]
    · simp [hm]
  refine ⟨fun m hm => (htally m).trans (hk.placed m hm), fun m hm => (htally m).trans (hk.future m hm), fun id q hq => ?_,
    fun m id hm => ?_, nodup_set hk.keys⟩
  · simp only [get_set] at hq ⊢
    split at hq
    · next heq =>
      cases hq
      rw [if_pos rfl, heq]
    · have hother := hk.waits id q hq
      rw [if_neg, hother]
      intro heq
      rw [heq, htimer] at hother
      cases hother
  · simp only [get_set] at hm ⊢
    split at hm
    · next heq =>
      cases hm
      exact ⟨_, if_pos rfl, heq.symm⟩
    · obtain ⟨q, hq, rfl⟩ := hk.timed m id hm
      refine ⟨q, ?_, rfl⟩
      rw [if_neg, hq]
      rintro rfl
      rw [hfresh] at hq
      cases hq

/-- A call that was made is settled once, or it is not and waits for the frame or for its timer. -/
theorem Kept.place (hk : Kept c) (h : n < c.calls) :
    (c.settled.map Prod.fst).count n = 1 ∧ OrderedMap.get c.preparing n = none ∧ OrderedMap.get c.timers n = none ∨
      (c.settled.map Prod.fst).count n = 0 ∧
        ((OrderedMap.get c.preparing n).isSome = true ∨ (OrderedMap.get c.timers n).isSome = true) := by
  have htally := hk.placed n h
  cases hp : OrderedMap.get c.preparing n <;> cases ht : OrderedMap.get c.timers n <;>
    simp [SignerClient.tally, hp, ht] at htally ⊢ <;> omega

theorem Kept.nodup (hk : Kept c) : (c.settled.map Prod.fst).Nodup := by
  refine List.nodup_iff_count_le_one.2 fun n => ?_
  by_cases hn : n < c.calls
  · have htally := hk.placed n hn
    unfold SignerClient.tally at htally
    omega
  · have htally := hk.future n (by omega)
    unfold SignerClient.tally at htally
    omega

end Kept

end PhygitalWallet.App
