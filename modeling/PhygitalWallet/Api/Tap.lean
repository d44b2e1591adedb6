import PhygitalWallet.Api.Base64
import PhygitalWallet.Client.Kit
import PhygitalWallet.Lib.JsText
import PhygitalWallet.Lib.Requests
import PhygitalWallet.Lib.Table

/-!
# Taps (`POST /accessory/unlock/tap`, `tap/verify-dynamic-url.ts`, `tap/counter-store.ts`)

A chip signs a counter and a nonce; the route verifies the signature over the decoded key, and keeps the highest counter
under the key as the request wrote it.

- `verifyDynamicUrlWithoutCounterCheck`, `consumeCounterSession`, `unlockTap`: the route;
- `tapService`: the route over the table of counters;
- `tap_counters`: accepted counters increase while no key is stored under two spellings.
-/

namespace PhygitalWallet.Api

open ByteSeq Async Runs SqlTable

/-! ## The signature -/

/-- Kit's base64, and `p256.verify` of a signature, a message and a key; `none` is what it throws at. -/
structure TapEnv where
  base64Encoder : Base64Encoder
  p256Verify : Bytes → Bytes → Bytes → Option Bool

inductive TapError
  | error (message : String)
  | base64
  | curve
  | type
  | network
deriving DecidableEq, Repr

/-- `p256.Point.CURVE().n`. -/
def p256Order : Nat := 0xffffffff00000000ffffffffffffffffbce6faada7179e84f3b9cac2fc632551

/-- `n.toString(16)` of a big integer. -/
def hexOfInt (n : Int) : List Char := if n < 0 then '-' :: Nat.toDigits 16 n.natAbs else Nat.toDigits 16 n.natAbs

/-- Two characters a byte; what is not a number is 0. -/
def hexToUint8Array : List Char → Bytes
  | a :: b :: rest => UInt8.ofNat ((((JsText.parseInt 16 [a, b]).getD 0) % 256).toNat) :: hexToUint8Array rest
  | _ => []

/-- ECDSA low-S normalization for P-256 raw r||s signatures. -/
def normalizeSignatureToLowS (signature : Bytes) : Except TapError Bytes :=
  if signature.length ≠ 64 then
    .error (.error s!"expected 64-byte raw r||s signature, got {signature.length} bytes")
  else
    let sBig := ofLE (slice signature 32 64).reverse
    if sBig ≤ p256Order / 2 then .ok signature
    else
      let text := hexOfInt (p256Order - sBig : Int)
      .ok (slice signature 0 32 ++ hexToUint8Array (List.replicate (64 - text.length) '0' ++ text))

/-- The query parameters `pk`, `s`, `c`, `n`. -/
structure TapParams where
  pk : String
  s : String
  c : String
  n : String
deriving DecidableEq, Repr

structure VerifyDynamicUrlResult where
  isVerified : Bool
  identifier : String
  counter : Nat
deriving DecidableEq, Repr

def decodeParam (env : TapEnv) (text : String) : Except TapError Bytes :=
  match base64UrlToBytes env.base64Encoder text with
  | some bytes => .ok bytes
  | none => .error .base64

def verifyDynamicUrlWithoutCounterCheck (env : TapEnv) (params : TapParams) : Except TapError VerifyDynamicUrlResult :=
  if params.pk = "" ∨ params.s = "" ∨ params.c = "" ∨ params.n = "" then .error (.error "Missing tap parameters")
  else do
    let compressedPk ← decodeParam env params.pk
    if compressedPk.length ≠ 33 then
      .error (.error s!"pk must be 33-byte compressed P-256 key, got {compressedPk.length} bytes")
    else
      let randomBytes ← decodeParam env params.n
      if randomBytes.length ≠ 8 then .error (.error s!"n must be 8 bytes, got {randomBytes.length} bytes")
      else
        let rawSig ← decodeParam env params.s
        if rawSig.length ≠ 64 then
          .error (.error s!"s must be 64-byte raw ECDSA signature, got {rawSig.length} bytes")
        else
          match JsText.parseInt 10 params.c.toList with
          | none => .error (.error "counter out of uint32 range: NaN")
          | some currentCounter =>
            if currentCounter < 0 ∨ 0xffffffff < currentCounter then
              .error (.error s!"counter out of uint32 range: {currentCounter}")
            else
              let message := (toLE 4 currentCounter.toNat).reverse ++ randomBytes
              let normalizedSig ← normalizeSignatureToLowS rawSig
              match env.p256Verify normalizedSig message compressedPk with
              | none => .error .curve
              | some isVerified => .ok { isVerified, identifier := params.pk, counter := currentCounter.toNat }

/-! ## The calls -/

inductive TapCall
  | selectCounter (identifier : String)
  | upsertCounter (identifier : String) (counter : Nat)
  | resolvePhygitalTokenFromIdentifier (identifier : String)
  | issueBrowseUnlockCookie (phygitalToken : String)
deriving DecidableEq, Repr

/-- What a call answers: the stored counter, the number of rows changed, the token of the chip, the expiry. -/
def TapCall.Reply : TapCall → Type
  | .selectCounter _ => Option Int
  | .upsertCounter _ _ => Nat
  | .resolvePhygitalTokenFromIdentifier _ => Option String
  | .issueBrowseUnlockCookie _ => Nat

abbrev TapProg (α : Type) := Prog Unit TapError TapCall TapCall.Reply α

def tapCall (c : TapCall) : TapProg c.Reply := Prog.awaitOk c

def selectCounter (identifier : String) : TapProg (Option Int) := tapCall (.selectCounter identifier)

def upsertCounter (identifier : String) (counter : Nat) : TapProg Nat := tapCall (.upsertCounter identifier counter)

def resolvePhygitalTokenFromIdentifier (identifier : String) : TapProg (Option String) :=
  tapCall (.resolvePhygitalTokenFromIdentifier identifier)

def issueBrowseUnlockCookie (phygitalToken : String) : TapProg Nat := tapCall (.issueBrowseUnlockCookie phygitalToken)

inductive CounterVerdict
  | new | replay
deriving DecidableEq, Repr

/-- Judge an incoming counter against the stored high-water mark. -/
def evaluateCounter (state : Option Int) (counter : Nat) : CounterVerdict :=
  match state with
  | none => .new
  | some c => if c < counter then .new else .replay

/-- Atomically consume a tap counter. -/
def consumeCounterSession (identifier : String) (counter : Nat) : TapProg CounterVerdict := do
  let existing ← selectCounter identifier
  match evaluateCounter existing counter with
  | .replay => return .replay
  | .new =>
    let changes ← upsertCounter identifier counter
    return if 0 < changes then .new else .replay

/-! ## The route -/

/-- The JSON of a request: not JSON, `null`, or its fields as `String(v)` gives them, where `none` is undefined, null or
empty. -/
inductive TapBody
  | invalid
  | null
  | fields (pk s c n : Option String)
deriving DecidableEq, Repr

structure TapResponse where
  status : Nat
  isVerified : Bool
  error : Option TapError := none
  counter : Option Nat := none
  phygitalToken : Option String := none
  expiresAt : Option Nat := none
deriving DecidableEq, Repr

def refusal (status : Nat) (error : TapError) : TapResponse := { status, isVerified := false, error := some error }

/-- What follows the verification. -/
def answerVerified (verified : VerifyDynamicUrlResult) : TapProg TapResponse := do
  if verified.isVerified = false then return refusal 400 (.error "Invalid signature")
  else
    let verdict ← consumeCounterSession verified.identifier verified.counter
    match verdict with
    | .replay => return refusal 409 (.error "This tap timed out. Hold your accessory again to verify.")
    | .new =>
      let phygitalToken ← resolvePhygitalTokenFromIdentifier verified.identifier
      match phygitalToken with
      | none => return { status := 200, isVerified := true, counter := some verified.counter }
      | some token =>
        let expiresAt ← issueBrowseUnlockCookie token
        return { status := 200, isVerified := true, counter := some verified.counter, phygitalToken := some token,
                 expiresAt := some expiresAt }

/-- What follows the parameters; `try` ends here. -/
def unlockVerified (env : TapEnv) (params : TapParams) : TapProg TapResponse := do
  let verified ← Prog.ofOutcome (verifyDynamicUrlWithoutCounterCheck env params)
  answerVerified verified

/-- `POST /accessory/unlock/tap`. -/
def unlockTap (env : TapEnv) : TapBody → TapProg TapResponse
  | .invalid => return refusal 400 (.error "Invalid JSON")
  | .null => Prog.throw .type
  | .fields (some pk) (some s) (some c) (some n) =>
    (unlockVerified env ⟨pk, s, c, n⟩).tryCatch fun e => return refusal 400 e
  | .fields .. => return refusal 400 (.error "Missing tap parameters")

/-! ## The service -/

/-- A row of `tap_counters`. -/
structure CounterRow where
  identifier : String
  c : Int
deriving DecidableEq, Repr

/-- The table, what the chain says of a chip, and what issuing a cookie gives. -/
structure TapStore where
  tapCounters : Table CounterRow.identifier
  chain : String → Option String
  cookie : String → Except TapError Nat

/-- `INSERT .. ON CONFLICT DO UPDATE SET c = excluded.c .. WHERE tap_counters.c < excluded.c`, with the rows it changed. -/
def upsertRow (t : Table CounterRow.identifier) (row : CounterRow) : Nat × Table CounterRow.identifier :=
  match t.find row.identifier with
  | some old =>
    if old.c < row.c then (1, t.update row.identifier (fun r => { r with c := row.c }) fun _ => rfl) else (0, t)
  | none =>
    match t.insert row with
    | some t' => (1, t')
    | none => (0, t)

/-- The statements and the other calls. -/
def execTap : (c : TapCall) → TapStore → Except TapError c.Reply × TapStore
  | .selectCounter identifier, s => (.ok ((s.tapCounters.find identifier).map CounterRow.c), s)
  | .upsertCounter identifier counter, s =>
    let (changes, tapCounters) := upsertRow s.tapCounters ⟨identifier, counter⟩
    (.ok changes, { s with tapCounters })
  | .resolvePhygitalTokenFromIdentifier identifier, s => (.ok (s.chain identifier), s)
  | .issueBrowseUnlockCookie token, s => (s.cookie token, s)

/-- The route over the table; a request has a number. -/
def tapService (env : TapEnv) :
    Service TapStore (Nat × TapBody) TapError TapCall TapCall.Reply TapResponse where
  handler tag := unlockTap env tag.2
  exec := execTap
  drift s s' := s'.tapCounters = s.tapCounters

abbrev TapEvent := Event (Nat × TapBody) TapError TapCall TapCall.Reply TapResponse

abbrev TapServer := Server TapStore (Nat × TapBody) TapError TapCall TapCall.Reply TapResponse

/-! ## What is accepted -/

/-- The chip's key, however the request writes it. -/
def chipKey (env : TapEnv) (identifier : String) : Option Bytes := base64UrlToBytes env.base64Encoder identifier

/-- The counter that a call's answer accepts for a key. -/
def accepts (env : TapEnv) (key : Bytes) : (c : TapCall) → Except TapError c.Reply → Option Nat
  | .upsertCounter identifier counter, .ok changes =>
    if chipKey env identifier = some key ∧ 0 < (show Nat from changes) then some counter else none
  | _, _ => none

def acceptedCounter (env : TapEnv) (key : Bytes) : TapEvent → Option Nat
  | .reply _ c r _ => accepts env key c r
  | _ => none

/-- What the chip wrote and signed. -/
structure Tap where
  key : Bytes
  counter : Int
  nonce : Bytes
  signature : Bytes
deriving DecidableEq, Repr

/-- The tap that a request carries. -/
def tapOf (env : TapEnv) : TapBody → Option Tap
  | .fields (some pk) (some s) (some c) (some n) => do
    let key ← chipKey env pk
    let counter ← JsText.parseInt 10 c.toList
    let nonce ← base64UrlToBytes env.base64Encoder n
    let signature ← base64UrlToBytes env.base64Encoder s
    return { key, counter, nonce, signature }
  | _ => none

/-- The request carries the tap and is verified. -/
def admits (env : TapEnv) (tap : Tap) (tag : Nat × TapBody) : Except TapError TapResponse → Bool
  | .ok response => response.isVerified && decide (tapOf env tag.2 = some tap)
  | .error _ => false

/-- A counter that the row of its own spelling lets through is above the rows of the key's other spellings. -/
def spelled (env : TapEnv) : TapEvent → TapServer → Bool
  | .reply _ (.upsertCounter identifier counter) (.ok _) _, server =>
    decide ((∀ row ∈ server.store.tapCounters.rows, row.identifier = identifier → row.c < counter) →
      ∀ row ∈ server.store.tapCounters.rows, chipKey env row.identifier = chipKey env identifier → row.c < counter)
  | _, _ => true

/-! ## The rows -/

/-- A counter in the table never goes down. -/
def RowsRise (t t' : Table CounterRow.identifier) : Prop :=
  ∀ row ∈ t.rows, ∃ row' ∈ t'.rows, row'.identifier = row.identifier ∧ row.c ≤ row'.c

theorem RowsRise.refl (t : Table CounterRow.identifier) : RowsRise t t := fun row h => ⟨row, h, rfl, le_refl _⟩

/-- The upsert keeps a row that is not lower, and writes its own otherwise. -/
theorem upsertRow_cases (t : Table CounterRow.identifier) (row : CounterRow) :
    upsertRow t row = (0, t) ∨
    ∃ t', upsertRow t row = (1, t') ∧ (∀ old ∈ t.rows, old.identifier = row.identifier → old.c < row.c) ∧
      row ∈ t'.rows ∧ RowsRise t t' := by
  cases hfind : t.find row.identifier with
  | none =>
    obtain ⟨t', hinsert⟩ := Table.insert_of_find (r := row) hfind
    refine Or.inr ⟨t', by simp [upsertRow, hfind, hinsert], fun old hold hkey => ?_, ?_, fun old hold => ?_⟩
    · exact absurd hkey (Table.find_eq_none.1 hfind old hold)
    · exact (Table.mem_insert hinsert).2 (Or.inr rfl)
    · exact ⟨old, (Table.mem_insert hinsert).2 (Or.inl hold), rfl, le_refl _⟩
  | some old =>
    obtain ⟨hold, hkey⟩ := Table.find_eq_some.1 hfind
    by_cases hlt : old.c < row.c
    · refine Or.inr ⟨t.update row.identifier (fun r => { r with c := row.c }) fun _ => rfl,
        by simp only [upsertRow, hfind, if_pos hlt], fun other hother hkey' => ?_, ?_, fun other hother => ?_⟩
      · rwa [Table.key_inj hother hold (hkey'.trans hkey.symm)]
      · exact Table.mem_update.2 (Or.inr ⟨old, hold, hkey, by rw [hkey]⟩)
      · by_cases hkey' : other.identifier = row.identifier
        · refine ⟨_, Table.mem_update.2 (Or.inr ⟨other, hother, hkey', rfl⟩), rfl, ?_⟩
          rw [Table.key_inj hother hold (hkey'.trans hkey.symm)]
          exact le_of_lt hlt
        · exact ⟨other, Table.mem_update.2 (Or.inl ⟨hother, hkey'⟩), rfl, le_refl _⟩
    · exact Or.inl (by simp only [upsertRow, hfind, if_neg hlt])

theorem rowsRise_execTap (c : TapCall) (s : TapStore) : RowsRise s.tapCounters (execTap c s).2.tapCounters := by
  cases c with
  | selectCounter identifier => exact .refl _
  | upsertCounter identifier counter =>
    rcases upsertRow_cases s.tapCounters ⟨identifier, counter⟩ with hkeep | ⟨t', hwrite, -, -, hrise⟩
    · simp only [execTap, hkeep]
      exact .refl _
    · simpa only [execTap, hwrite] using hrise
  | resolvePhygitalTokenFromIdentifier identifier => exact .refl _
  | issueBrowseUnlockCookie token => exact .refl _

theorem rowsRise_takes {env : TapEnv} {c : TapCall} {s s' : TapStore} {r : Except TapError c.Reply}
    (h : (tapService env).Takes c s r s') : RowsRise s.tapCounters s'.tapCounters := by
  have hexec : RowsRise s.tapCounters ((tapService env).exec c s).2.tapCounters := rowsRise_execTap c s
  rcases h with h | ⟨e, -, rfl | rfl⟩
  · rw [← h] at hexec
    exact hexec
  · exact .refl _
  · exact hexec

/-- What accepts a counter put it in a row of the key, past the row that was there. -/
theorem accepts_eq_some {env : TapEnv} {key : Bytes} {c : TapCall} {s s' : TapStore} {r : Except TapError c.Reply}
    {counter : Nat} (htakes : (tapService env).Takes c s r s') (h : accepts env key c r = some counter) :
    ∃ identifier, c = .upsertCounter identifier counter ∧ chipKey env identifier = some key ∧
      (∀ row ∈ s.tapCounters.rows, row.identifier = identifier → row.c < counter) ∧
      ⟨identifier, counter⟩ ∈ s'.tapCounters.rows := by
  unfold accepts at h
  split at h
  · next identifier counter' changes =>
    split at h
    · next hif =>
      cases h
      refine ⟨identifier, rfl, hif.1, ?_⟩
      have hdone : ((Except.ok changes : Except TapError Nat), s') = execTap (.upsertCounter identifier counter) s :=
        htakes.resolve_right fun ⟨e, he, _⟩ => nomatch he
      rcases upsertRow_cases s.tapCounters ⟨identifier, counter⟩ with hkeep | ⟨t', hwrite, hlow, hrow, -⟩
      · rw [execTap, hkeep] at hdone
        cases hdone
        exact absurd hif.2 (Nat.lt_irrefl 0)
      · rw [execTap, hwrite] at hdone
        cases hdone
        exact ⟨hlow, hrow⟩
    · cases h
  · cases h

/-! ## The accepted counters -/

/-- The accepted counters of a key increase, and a row of the key has reached each of them. -/
def Marked (env : TapEnv) (key : Bytes) (events : List TapEvent) (t : Table CounterRow.identifier) : Prop :=
  (events.filterMap (acceptedCounter env key)).Pairwise (· < ·) ∧
    ∀ counter ∈ events.filterMap (acceptedCounter env key),
      ∃ row ∈ t.rows, chipKey env row.identifier = some key ∧ (counter : Int) ≤ row.c

section Marked

variable {env : TapEnv} {key : Bytes} {events : List TapEvent} {t t' : Table CounterRow.identifier}

/-- A step that accepts nothing for the key. -/
theorem Marked.rise (h : Marked env key events t) (hrise : RowsRise t t') {event : TapEvent}
    (hnone : acceptedCounter env key event = none) : Marked env key (events ++ [event]) t' := by
  have hsame : (events ++ [event]).filterMap (acceptedCounter env key) = events.filterMap (acceptedCounter env key) := by
    simp [List.filterMap_append, hnone]
  rw [Marked, hsame]
  refine ⟨h.1, fun counter hcounter => ?_⟩
  obtain ⟨row, hrow, hkey, hle⟩ := h.2 counter hcounter
  obtain ⟨row', hrow', hidentifier, hle'⟩ := hrise row hrow
  exact ⟨row', hrow', by rw [hidentifier, hkey], le_trans hle hle'⟩

/-- A step that accepts a counter above every row of the key. -/
theorem Marked.accept (h : Marked env key events t) (hrise : RowsRise t t') {event : TapEvent} {counter : Nat}
    {identifier : String} (hsome : acceptedCounter env key event = some counter)
    (hkey : chipKey env identifier = some key) (hnew : ⟨identifier, counter⟩ ∈ t'.rows)
    (hlow : ∀ row ∈ t.rows, chipKey env row.identifier = some key → row.c < counter) :
    Marked env key (events ++ [event]) t' := by
  have hlast : (events ++ [event]).filterMap (acceptedCounter env key) =
      events.filterMap (acceptedCounter env key) ++ [counter] := by
    simp [List.filterMap_append, hsome]
  rw [Marked, hlast]
  constructor
  · refine List.pairwise_append.2 ⟨h.1, List.pairwise_singleton _ _, fun past hpast new hnew => ?_⟩
    obtain ⟨row, hrow, hrowkey, hle⟩ := h.2 past hpast
    have hbelow := hlow row hrow hrowkey
    rw [List.mem_singleton.1 hnew]
    omega
  · intro past hpast
    rcases List.mem_append.1 hpast with hpast | hlast
    · obtain ⟨row, hrow, hrowkey, hle⟩ := h.2 past hpast
      obtain ⟨row', hrow', hidentifier, hle'⟩ := hrise row hrow
      exact ⟨row', hrow', by rw [hidentifier, hrowkey], le_trans hle hle'⟩
    · rw [List.mem_singleton.1 hlast]
      exact ⟨_, hnew, hkey, le_refl _⟩

/-- One reply. -/
theorem Marked.reply {server : TapServer} (h : Marked env key events server.store.tapCounters) {tag : Nat × TapBody}
    {c : TapCall} {r : Except TapError c.Reply} {out : Option (Except TapError TapResponse)} {s' : TapStore}
    (hspelled : spelled env (.reply tag c r out) server = true) (htakes : (tapService env).Takes c server.store r s') :
    Marked env key (events ++ [.reply tag c r out]) s'.tapCounters := by
  cases haccepts : accepts env key c r with
  | none => exact h.rise (rowsRise_takes htakes) haccepts
  | some counter =>
    obtain ⟨identifier, rfl, hkey, hlow, hnew⟩ := accepts_eq_some htakes haccepts
    refine h.accept (rowsRise_takes htakes) haccepts hkey hnew fun row hrow hrowkey => ?_
    cases r with
    | error e => cases haccepts
    | ok changes => exact of_decide_eq_true hspelled hlow row hrow (hrowkey.trans hkey.symm)

end Marked

/-! ## The answers -/

/-- A verified tap has the identifier of the request and the counter it reads. -/
theorem verifyDynamicUrlWithoutCounterCheck_eq_ok {env : TapEnv} {params : TapParams} {v : VerifyDynamicUrlResult}
    (h : verifyDynamicUrlWithoutCounterCheck env params = .ok v) :
    v.identifier = params.pk ∧ JsText.parseInt 10 params.c.toList = some (v.counter : Int) := by
  unfold verifyDynamicUrlWithoutCounterCheck at h
  split at h
  · cases h
  · obtain ⟨compressedPk, -, h⟩ := Client.outcome_bind_eq_ok.1 h
    split at h
    · cases h
    · obtain ⟨randomBytes, -, h⟩ := Client.outcome_bind_eq_ok.1 h
      split at h
      · cases h
      · obtain ⟨rawSig, -, h⟩ := Client.outcome_bind_eq_ok.1 h
        split at h
        · cases h
        · split at h
          · cases h
          · next counter hcounter =>
            split at h
            · cases h
            · next hrange =>
              obtain ⟨normalizedSig, -, h⟩ := Client.outcome_bind_eq_ok.1 h
              split at h
              · cases h
              · cases h
                refine ⟨rfl, ?_⟩
                rw [hcounter, Int.toNat_of_nonneg (by omega)]

/-- A signature that the curve accepts, over what the request decodes to. -/
theorem verifyDynamicUrlWithoutCounterCheck_ok {env : TapEnv} {params : TapParams}
    {compressedPk randomBytes rawSig normalizedSig : Bytes} {currentCounter : Int} {isVerified : Bool}
    (hpresent : ¬ (params.pk = "" ∨ params.s = "" ∨ params.c = "" ∨ params.n = ""))
    (hpk : decodeParam env params.pk = .ok compressedPk) (hpkLength : compressedPk.length = 33)
    (hn : decodeParam env params.n = .ok randomBytes) (hnLength : randomBytes.length = 8)
    (hs : decodeParam env params.s = .ok rawSig) (hsLength : rawSig.length = 64)
    (hc : JsText.parseInt 10 params.c.toList = some currentCounter)
    (hrange : ¬ (currentCounter < 0 ∨ 0xffffffff < currentCounter))
    (hlow : normalizeSignatureToLowS rawSig = .ok normalizedSig)
    (hverify : env.p256Verify normalizedSig ((toLE 4 currentCounter.toNat).reverse ++ randomBytes) compressedPk =
      some isVerified) :
    verifyDynamicUrlWithoutCounterCheck env params = .ok ⟨isVerified, params.pk, currentCounter.toNat⟩ := by
  simp only [verifyDynamicUrlWithoutCounterCheck, if_neg hpresent, hpk, hn, hs, hc, bind, Except.bind, hpkLength, hnLength,
    hsLength, hlow, hverify, hrange, ne_eq, not_true_eq_false, if_false]

section Answers

variable {env : TapEnv} {tap : Tap}

/-- The reply accepts the tap's counter for its key. -/
def acceptsTap (env : TapEnv) (tap : Tap) (_ : Nat × TapBody) (c : TapCall) (r : Except TapError c.Reply) : Bool :=
  decide (accepts env tap.key c r = some tap.counter.toNat)

theorem upsertCounter_until {good : (c : TapCall) → Except TapError c.Reply → Bool} {Q : Except TapError Nat → Prop}
    {identifier : String} {counter : Nat}
    (h : ∀ r : Except TapError Nat, good (.upsertCounter identifier counter) r = true ∨ Q r) :
    (upsertCounter identifier counter).Until (fun _ => True) good Q :=
  ⟨trivial, fun r => (h r).imp_right Prog.until_ofOutcome⟩

/-- The counter is new once an upsert has accepted it. -/
theorem consumeCounterSession_until {tag : Nat × TapBody} {identifier : String} {counter : Nat}
    (hkey : chipKey env identifier = some tap.key) (hcounter : tap.counter = counter) :
    (consumeCounterSession identifier counter).Until (fun _ => True) (acceptsTap env tap tag)
      fun out => out ≠ .ok .new := by
  refine Prog.until_bind (Q := fun _ => True) (Prog.until_trivial (fun _ => trivial) (fun _ => trivial) _) (fun existing _ => ?_)
    fun e _ h => nomatch h
  split
  · exact fun h => nomatch h
  · refine Prog.until_bind (Q := fun out => ∀ changes : Nat, out = .ok changes → ¬ 0 < changes)
      (upsertCounter_until fun r => ?_) (fun changes hchanges => ?_) fun e _ h => nomatch h
    · cases r with
      | error e => exact Or.inr fun changes h => nomatch h
      | ok changes =>
        by_cases hpos : 0 < changes
        · refine Or.inl (decide_eq_true ?_)
          simp [accepts, hkey, hpos, hcounter]
        · exact Or.inr fun changes' h => by cases h; exact hpos
    · have hnone := hchanges changes rfl
      simp [Prog.Until, pure, hnone]

/-- A request that carries the tap is verified once an upsert has accepted the tap. -/
theorem unlockTap_until (tag : Nat × TapBody) :
    (unlockTap env tag.2).Until (fun _ => True) (acceptsTap env tap tag) fun out => admits env tap tag out = false := by
  obtain ⟨number, body⟩ := tag
  by_cases htap : tapOf env body = some tap
  · cases body with
    | invalid => cases htap
    | null => cases htap
    | fields pk s c n =>
      cases pk <;> cases s <;> cases c <;> cases n <;> try cases htap
      next pk s c n =>
        obtain ⟨key, hkey, htap⟩ := Option.bind_eq_some_iff.1 htap
        obtain ⟨counter, hcounter, htap⟩ := Option.bind_eq_some_iff.1 htap
        obtain ⟨nonce, -, htap⟩ := Option.bind_eq_some_iff.1 htap
        obtain ⟨signature, -, htap⟩ := Option.bind_eq_some_iff.1 htap
        cases htap
        refine Prog.until_tryCatch (Q := fun out => admits env _ (number, .fields (some pk) (some s) (some c) (some n)) out =
          false) ?_ (fun _ h => h) fun e _ => rfl
        refine Prog.until_bind (Prog.until_ofOutcome (Q := fun out => out = verifyDynamicUrlWithoutCounterCheck env
          ⟨pk, s, c, n⟩) rfl) (fun verified hverified => ?_) fun e _ => rfl
        obtain ⟨hidentifier, hread⟩ := verifyDynamicUrlWithoutCounterCheck_eq_ok hverified.symm
        unfold answerVerified
        split
        · rfl
        · refine Prog.until_bind (consumeCounterSession_until (by rw [hidentifier]; exact hkey)
            (Option.some.inj (hcounter.symm.trans hread))) (fun verdict hverdict => ?_) fun e _ => rfl
          cases verdict with
          | replay => rfl
          | new => exact absurd rfl hverdict
  · refine Prog.until_trivial (fun _ => trivial) (fun out => ?_) _
    cases out <;> simp [admits, htap]

/-- The replies that accept the tap, among the accepted counters of its key. -/
theorem countP_acceptsTap (events : List TapEvent) : events.countP (Event.replied (acceptsTap env tap)) =
    (events.filterMap (acceptedCounter env tap.key)).count tap.counter.toNat := by
  rw [List.count, List.countP_filterMap]
  refine List.countP_congr fun event _ => ?_
  cases event with
  | reply tag c r out =>
    simp only [Event.replied, acceptsTap, acceptedCounter]
    cases accepts env tap.key c r <;> simp
  | arrive tag out => simp [Event.replied, acceptedCounter]
  | drift => simp [Event.replied, acceptedCounter]

end Answers

/-! ## Runs -/

/-- **Taps.** In every run from any table, in which a counter that its own row lets through is above the rows of the other
spellings of its key, the accepted counters of every key increase, and every tap is verified once at most. -/
theorem tap_counters (env : TapEnv) {s₀ : TapStore} {events : List TapEvent} {server : TapServer}
    (hrun : Run (fun event server server' => (tapService env).Step event server server' ∧ spelled env event server = true)
      ⟨s₀, []⟩ events server) :
    (∀ key, (events.filterMap (acceptedCounter env key)).Pairwise (· < ·)) ∧
      ∀ tap, events.countP (Event.ends (admits env tap)) ≤ 1 := by
  have hpairwise : ∀ key, (events.filterMap (acceptedCounter env key)).Pairwise (· < ·) := by
    intro key
    have hmarked : Marked env key events server.store.tapCounters := by
      refine Service.Run.store (I := fun events s => Marked env key events s.tapCounters) ⟨List.Pairwise.nil, by simp⟩
        ?_ ?_ ?_ hrun
      · exact fun events tag out s h => h.rise (.refl _) rfl
      · exact fun events server _ request _ r out s' hspelled htakes h => h.reply hspelled htakes
      · intro events s s' hdrift h
        have hsame : s'.tapCounters = s.tapCounters := hdrift
        rw [hsame]
        exact h.rise (.refl _) rfl
    exact hmarked.1
  refine ⟨hpairwise, fun tap => ?_⟩
  have hends : events.countP (Event.ends (admits env tap)) ≤ events.countP (Event.replied (acceptsTap env tap)) :=
    Service.Run.countP_ends (P := fun _ _ => True) unlockTap_until (hrun.mono fun _ _ _ h => h.1)
  have hnodup : (events.filterMap (acceptedCounter env tap.key)).Nodup := (hpairwise tap.key).imp Nat.ne_of_lt
  have hone := List.nodup_iff_count_le_one.1 hnodup tap.counter.toNat
  rw [countP_acceptsTap] at hends
  omega

/-! ## A tap under two spellings -/

section Verified

variable {env : TapEnv}

/-- The body that has these parameters. -/
def TapParams.body (params : TapParams) : TapBody :=
  .fields (some params.pk) (some params.s) (some params.c) (some params.n)

def timedOut : TapResponse := refusal 409 (.error "This tap timed out. Hold your accessory again to verify.")

/-- What is seen of a tap that is verified, of a chip that is not registered. -/
def verifiedEvents (number : Nat) (params : TapParams) (existing : Option Int) (counter : Nat) : List TapEvent :=
  [.arrive (number, params.body) none,
   .reply (number, params.body) (.selectCounter params.pk) (.ok existing) none,
   .reply (number, params.body) (.upsertCounter params.pk counter) (.ok (1 : Nat)) none,
   .reply (number, params.body) (.resolvePhygitalTokenFromIdentifier params.pk) (.ok (none : Option String))
    (some (.ok { status := 200, isVerified := true, counter := some counter }))]

/-- What is seen of a tap whose counter is not above the stored one. -/
def replayedEvents (number : Nat) (params : TapParams) (existing : Option Int) : List TapEvent :=
  [.arrive (number, params.body) none,
   .reply (number, params.body) (.selectCounter params.pk) (.ok existing) (some (.ok timedOut))]

/-- Steps that are guarded where `guarded` says so. -/
abbrev GuardedRun (env : TapEnv) (guarded : Bool) : TapServer → List TapEvent → TapServer → Prop :=
  Run fun event server server' => (tapService env).Step event server server' ∧
    (guarded = true → spelled env event server = true)

/-- A verified tap asks for the stored counter; a replay ends there, and a new counter is written. -/
theorem unlockTap_selects {params : TapParams} {counter : Nat}
    (hverify : verifyDynamicUrlWithoutCounterCheck env params = .ok ⟨true, params.pk, counter⟩) : ∃ next,
      unlockTap env params.body = .await (.selectCounter params.pk) next ∧
      ∀ existing : Option Int,
        (evaluateCounter existing counter = .replay → next (.ok existing) = .ret timedOut) ∧
        (evaluateCounter existing counter = .new →
          ∃ next', next (.ok existing) = .await (.upsertCounter params.pk counter) next' ∧
          ∃ next'', next' (.ok (1 : Nat)) = .await (.resolvePhygitalTokenFromIdentifier params.pk) next'' ∧
            next'' (.ok (none : Option String)) = .ret { status := 200, isVerified := true, counter := some counter }) := by
  have hprog : unlockTap env params.body =
      (answerVerified ⟨true, params.pk, counter⟩).tryCatch fun e => return refusal 400 e := by
    show (unlockVerified env params).tryCatch _ = _
    rw [unlockVerified, hverify]
    rfl
  refine ⟨_, hprog.trans rfl, fun existing => ⟨fun hverdict => ?_, fun hverdict => ?_⟩⟩
  · simp only [Prog.ofOutcome, Prog.andThen, hverdict]
    rfl
  · simp only [Prog.ofOutcome, Prog.andThen, hverdict]
    exact ⟨_, rfl, _, rfl, rfl⟩

section Answered

variable {params : TapParams} {s₀ : TapServer} {past : List TapEvent} {counter : Nat} {guarded : Bool} (store : TapStore)

theorem takes_selectCounter : (tapService env).Takes (.selectCounter params.pk) store
    (.ok ((store.tapCounters.find params.pk).map CounterRow.c)) store := Or.inl rfl

/-- A signed tap is verified where the row of its spelling of the key is lower; the guard asks for lower rows throughout. -/
theorem run_verified {t : Table CounterRow.identifier} (number : Nat)
    (hverify : verifyDynamicUrlWithoutCounterCheck env params = .ok ⟨true, params.pk, counter⟩)
    (hnew : evaluateCounter ((store.tapCounters.find params.pk).map CounterRow.c) counter = .new)
    (hrow : upsertRow store.tapCounters ⟨params.pk, counter⟩ = (1, t)) (hchain : store.chain params.pk = none)
    (hlow : guarded = true → ∀ row ∈ store.tapCounters.rows, row.c < counter)
    (hrun : GuardedRun env guarded s₀ past ⟨store, []⟩) :
    GuardedRun env guarded s₀
      (past ++ verifiedEvents number params ((store.tapCounters.find params.pk).map CounterRow.c) counter)
      ⟨{ store with tapCounters := t }, []⟩ := by
  obtain ⟨next, hprog, hnext⟩ := unlockTap_selects hverify
  obtain ⟨next', hselected, next'', hupserted, hresolved⟩ := (hnext _).2 hnew
  have hupsert : (tapService env).Takes (.upsertCounter params.pk counter) store (.ok (1 : Nat))
      { store with tapCounters := t } := by
    refine Or.inl ?_
    show _ = execTap (.upsertCounter params.pk counter) store
    rw [execTap, hrow]
  have hchip : (tapService env).Takes (.resolvePhygitalTokenFromIdentifier params.pk) { store with tapCounters := t }
      (.ok (none : Option String)) { store with tapCounters := t } := by
    refine Or.inl ?_
    show _ = (Except.ok (store.chain params.pk), _)
    rw [hchain]
    rfl
  have hasked := (hrun.snoc ⟨@Service.step_arrive _ _ _ _ _ _ (tapService env) (number, params.body) _ hprog store, fun _ => rfl⟩).snoc
    ⟨Service.step_reply (takes_selectCounter store) hselected, fun _ => rfl⟩
  have hwritten := hasked.snoc
    ⟨Service.step_reply hupsert hupserted, fun hguarded => decide_eq_true fun _ row hmem _ => hlow hguarded row hmem⟩
  have h := hwritten.snoc ⟨Service.step_reply hchip hresolved, fun _ => rfl⟩
  have happend : ∀ a b c d : TapEvent, past ++ [a, b, c, d] = past ++ [a] ++ [b] ++ [c] ++ [d] := by simp
  rw [verifiedEvents, happend]
  exact h

/-- A signed tap is refused where the row of its spelling of the key is as high. -/
theorem run_replayed (number : Nat)
    (hverify : verifyDynamicUrlWithoutCounterCheck env params = .ok ⟨true, params.pk, counter⟩)
    (hreplay : evaluateCounter ((store.tapCounters.find params.pk).map CounterRow.c) counter = .replay)
    (hrun : GuardedRun env guarded s₀ past ⟨store, []⟩) :
    GuardedRun env guarded s₀
      (past ++ replayedEvents number params ((store.tapCounters.find params.pk).map CounterRow.c)) ⟨store, []⟩ := by
  obtain ⟨next, hprog, hnext⟩ := unlockTap_selects hverify
  have hselected := (hnext _).1 hreplay
  have h := (hrun.snoc ⟨@Service.step_arrive _ _ _ _ _ _ (tapService env) (number, params.body) _ hprog store, fun _ => rfl⟩).snoc
    ⟨Service.step_reply (takes_selectCounter store) hselected, fun _ => rfl⟩
  rw [replayedEvents, List.append_cons]
  exact h

end Answered

theorem filterMap_verifiedEvents {params : TapParams} {key : Bytes} (hkey : chipKey env params.pk = some key)
    (number : Nat) (existing : Option Int) (counter : Nat) :
    (verifiedEvents number params existing counter).filterMap (acceptedCounter env key) = [counter] := by
  have haccepted : acceptedCounter env key
      (.reply (number, params.body) (.upsertCounter params.pk counter) (.ok (1 : Nat)) none) = some counter :=
    if_pos ⟨hkey, Nat.one_pos⟩
  rw [verifiedEvents, List.filterMap_cons_none rfl, List.filterMap_cons_none rfl, List.filterMap_cons_some haccepted,
    List.filterMap_cons_none rfl, List.filterMap_nil]

theorem countP_verifiedEvents (params : TapParams) (tap : Tap) (number : Nat) (existing : Option Int) (counter : Nat) :
    (verifiedEvents number params existing counter).countP (Event.ends (admits env tap)) =
      if tapOf env params.body = some tap then 1 else 0 := by
  simp [verifiedEvents, Event.ends, admits, List.countP_cons]

theorem getLast?_replayedEvents (past : List TapEvent) (number : Nat) (params : TapParams) (existing : Option Int) :
    (past ++ replayedEvents number params existing).getLast? =
      some (.reply (number, params.body) (.selectCounter params.pk) (.ok existing) (some (.ok timedOut))) := by
  rw [List.getLast?_append]
  rfl

end Verified

/-- A chip's key and its signatures over the counters 7 and 8 and the nonce 1, .., 8; the second has a high S. -/
def exampleKey : Bytes :=
  [2, 98, 217, 119, 157, 190, 233, 176, 83, 64, 66, 116, 45, 58, 181, 76, 173, 193, 210, 56, 152, 15, 206, 151, 219, 180,
   221, 157, 193, 219, 111, 179, 147]

def exampleSignature : Bytes :=
  [38, 239, 206, 189, 14, 233, 227, 74, 102, 145, 135, 225, 139, 58, 145, 34, 178, 247, 51, 148, 91, 100, 156, 201, 249,
   249, 33, 233, 249, 218, 216, 18, 69, 186, 238, 123, 15, 231, 96, 249, 249, 163, 109, 69, 19, 234, 91, 37, 46, 201, 136,
   118, 45, 239, 2, 251, 236, 203, 165, 217, 44, 201, 52, 125]

def nextSignature : Bytes :=
  [72, 124, 91, 223, 208, 61, 69, 138, 246, 76, 154, 233, 7, 211, 217, 136, 5, 227, 220, 205, 68, 69, 156, 143, 189, 189,
   206, 179, 181, 123, 232, 132, 160, 191, 78, 72, 67, 29, 6, 22, 81, 186, 226, 54, 78, 99, 89, 146, 120, 100, 10, 63, 6,
   61, 36, 9, 132, 250, 30, 239, 92, 61, 81, 66]

/-- The second signature with the low S. -/
def nextSignatureLowS : Bytes :=
  nextSignature.take 32 ++
    [95, 64, 177, 182, 188, 226, 249, 234, 174, 69, 29, 201, 177, 156, 166, 109, 68, 130, 240, 110, 160, 218, 122, 123, 110,
     191, 171, 211, 160, 37, 212, 15]

def exampleTap : Tap := ⟨exampleKey, 7, [1, 2, 3, 4, 5, 6, 7, 8], exampleSignature⟩

/-- The curve, where it is asked about these two signatures. -/
def exampleTapEnv : TapEnv where
  base64Encoder text := BaseText.base64Decode text.toList
  p256Verify signature message key :=
    some (decide (key = exampleKey ∧
      (signature = exampleSignature ∧ message = [0, 0, 0, 7, 1, 2, 3, 4, 5, 6, 7, 8] ∨
        signature = nextSignatureLowS ∧ message = [0, 0, 0, 8, 1, 2, 3, 4, 5, 6, 7, 8])))

/-- The tap with this spelling of the key. -/
def exampleParams (pk : String) : TapParams :=
  ⟨pk, bytesToBase64Url exampleSignature, "7", bytesToBase64Url exampleTap.nonce⟩

/-- The chip's next tap. -/
def nextParams (pk : String) : TapParams :=
  ⟨pk, bytesToBase64Url nextSignature, "8", bytesToBase64Url exampleTap.nonce⟩

/-- No tap was accepted, and no chip is registered. -/
def exampleTapStore : TapStore where
  tapCounters := .empty _
  chain _ := none
  cookie _ := .ok 0

theorem exampleTapEnv_readsBack : ReadsBack exampleTapEnv.base64Encoder := readsBack_base64Decode

theorem parseInt_seven : JsText.parseInt 10 "7".toList = some 7 := by decide +kernel

theorem parseInt_eight : JsText.parseInt 10 "8".toList = some 8 := by decide +kernel

theorem lowS_exampleSignature : normalizeSignatureToLowS exampleSignature = .ok exampleSignature := by decide +kernel

theorem lowS_nextSignature : normalizeSignatureToLowS nextSignature = .ok nextSignatureLowS := by decide +kernel

/-- A tap of the chip whose signature the curve knows. -/
theorem verify_params {pk c : String} {counter : Nat} {signature lowS : Bytes}
    (hkey : chipKey exampleTapEnv pk = some exampleKey) (hc : JsText.parseInt 10 c.toList = some (counter : Int))
    (hne : c ≠ "") (hrange : counter ≤ 0xffffffff) (hlength : signature.length = 64)
    (hlow : normalizeSignatureToLowS signature = .ok lowS)
    (hverify : exampleTapEnv.p256Verify lowS ((toLE 4 counter).reverse ++ exampleTap.nonce) exampleKey = some true) :
    verifyDynamicUrlWithoutCounterCheck exampleTapEnv
      ⟨pk, bytesToBase64Url signature, c, bytesToBase64Url exampleTap.nonce⟩ = .ok ⟨true, pk, counter⟩ := by
  have hplain : ∀ bytes : Bytes, bytes ≠ [] → bytesToBase64Url bytes ≠ "" := fun bytes hbytes htext =>
    (bytesToBase64Url_plain hbytes).1 (by rw [htext]; rfl)
  have hread : ∀ bytes, decodeParam exampleTapEnv (bytesToBase64Url bytes) = .ok bytes := fun bytes => by
    rw [decodeParam, base64UrlToBytes_bytesToBase64Url exampleTapEnv_readsBack]
  have hpk : decodeParam exampleTapEnv pk = .ok exampleKey := by
    rw [decodeParam, show base64UrlToBytes exampleTapEnv.base64Encoder pk = some exampleKey from hkey]
  refine @verifyDynamicUrlWithoutCounterCheck_ok _ ⟨pk, _, c, _⟩ _ _ _ _ counter _ ?_ hpk (by decide)
    (hread exampleTap.nonce) (by decide) (hread signature) hlength hc (by omega) hlow hverify
  rintro (h | h | h | h)
  · rw [show pk = "" from h] at hkey
    revert hkey
    decide +kernel
  · exact hplain _ (by rintro rfl; cases hlength) h
  · exact hne h
  · exact hplain _ (by decide) h

section Spelling

variable {pk : String} (hkey : chipKey exampleTapEnv pk = some exampleKey)

include hkey

theorem verify_exampleParams :
    verifyDynamicUrlWithoutCounterCheck exampleTapEnv (exampleParams pk) = .ok ⟨true, pk, 7⟩ :=
  verify_params hkey parseInt_seven (by decide) (by decide) (by decide) lowS_exampleSignature (by decide)

theorem verify_nextParams : verifyDynamicUrlWithoutCounterCheck exampleTapEnv (nextParams pk) = .ok ⟨true, pk, 8⟩ :=
  verify_params hkey parseInt_eight (by decide) (by decide) (by decide) lowS_nextSignature (by decide)

theorem tapOf_exampleParams : tapOf exampleTapEnv (exampleParams pk).body = some exampleTap := by
  simp only [tapOf, TapParams.body, exampleParams, hkey, parseInt_seven,
    base64UrlToBytes_bytesToBase64Url exampleTapEnv_readsBack, Option.bind_eq_bind, Option.bind_some]
  rfl

theorem tapOf_nextParams : tapOf exampleTapEnv (nextParams pk).body ≠ some exampleTap := by
  simp only [tapOf, TapParams.body, nextParams, hkey, parseInt_eight,
    base64UrlToBytes_bytesToBase64Url exampleTapEnv_readsBack, Option.bind_eq_bind, Option.bind_some]
  decide

end Spelling

/-- What is counted in a run. -/
def exampleCounts (events : List TapEvent) : List Nat × Nat :=
  (events.filterMap (acceptedCounter exampleTapEnv exampleKey), events.countP (Event.ends (admits exampleTapEnv exampleTap)))

theorem exampleCounts_append (events events' : List TapEvent) : exampleCounts (events ++ events') =
    ((exampleCounts events).1 ++ (exampleCounts events').1, (exampleCounts events).2 + (exampleCounts events').2) := by
  simp [exampleCounts]

theorem exampleCounts_verifiedEvents (params : TapParams) (hkey : chipKey exampleTapEnv params.pk = some exampleKey)
    (number : Nat) (existing : Option Int) (counter : Nat) : exampleCounts (verifiedEvents number params existing counter) =
      ([counter], if tapOf exampleTapEnv params.body = some exampleTap then 1 else 0) := by
  rw [exampleCounts, filterMap_verifiedEvents hkey, countP_verifiedEvents]

theorem exampleCounts_replayedEvents (params : TapParams) (number : Nat) (existing : Option Int) :
    exampleCounts (replayedEvents number params existing) = ([], 0) := rfl

/-- The spelling that the chip writes. -/
def exampleUrl : String := bytesToBase64Url exampleKey

/-- The spelling with `+` for `-`. -/
def exampleRespelled : String := bytesToBase64 exampleKey

theorem chipKey_exampleUrl : chipKey exampleTapEnv exampleUrl = some exampleKey :=
  base64UrlToBytes_bytesToBase64Url exampleTapEnv_readsBack exampleKey

theorem chipKey_exampleRespelled : chipKey exampleTapEnv exampleRespelled = some exampleKey :=
  base64UrlToBytes_bytesToBase64 exampleTapEnv_readsBack exampleKey

theorem exampleUrl_ne : exampleUrl ≠ exampleRespelled := by
  intro h
  have htext := congrArg String.toList h
  simp only [exampleUrl, exampleRespelled, bytesToBase64Url, bytesToBase64, BaseText.base64Of, String.toList_ofList] at htext
  revert htext
  decide +kernel

/-- The table after a tap. -/
def rowOf (pk : String) (c : Int) : Table CounterRow.identifier := ⟨[⟨pk, c⟩], List.nodup_singleton _⟩

def storeOf (pk : String) (c : Int) : TapStore := { exampleTapStore with tapCounters := rowOf pk c }

theorem find_rowOf (pk : String) (c : Int) : (rowOf pk c).find pk = some ⟨pk, c⟩ := by
  simp [rowOf, Table.find]

theorem upsertRow_rowOf {pk : String} {c c' : Int} (h : c < c') : upsertRow (rowOf pk c) ⟨pk, c'⟩ = (1, rowOf pk c') := by
  rw [upsertRow, find_rowOf]
  simp only [if_pos h]
  exact congrArg (Prod.mk 1) (Table.ext (by simp [rowOf, Table.update]))

section First

variable {pk : String} (hkey : chipKey exampleTapEnv pk = some exampleKey) (guarded : Bool)

include hkey

/-- The first tap of the chip. -/
theorem run_first : GuardedRun exampleTapEnv guarded ⟨exampleTapStore, []⟩ (verifiedEvents 0 (exampleParams pk) none 7)
    ⟨storeOf pk 7, []⟩ :=
  run_verified exampleTapStore 0 (verify_exampleParams hkey) rfl rfl rfl (fun _ _ hrow => nomatch hrow) .nil

/-- The next tap of the chip, and the first once more. -/
theorem run_next : GuardedRun exampleTapEnv guarded ⟨exampleTapStore, []⟩
    (verifiedEvents 0 (exampleParams pk) none 7 ++ verifiedEvents 1 (nextParams pk) (some 7) 8 ++
      replayedEvents 2 (exampleParams pk) (some 8)) ⟨storeOf pk 8, []⟩ := by
  have hnext := run_verified (storeOf pk 7) 1 (verify_nextParams hkey)
    (by rw [show (storeOf pk 7).tapCounters.find (nextParams pk).pk = some ⟨pk, 7⟩ from find_rowOf pk 7]; rfl)
    (upsertRow_rowOf (by decide)) rfl (fun _ row hrow => by rw [List.mem_singleton.1 hrow]; exact Int.lt_add_one_of_le (le_refl 7))
    (run_first hkey guarded)
  have hagain := run_replayed (storeOf pk 8) 2 (verify_exampleParams hkey)
    (by rw [show (storeOf pk 8).tapCounters.find (exampleParams pk).pk = some ⟨pk, 8⟩ from find_rowOf pk 8]; rfl) hnext
  rwa [show (storeOf pk 7).tapCounters.find (nextParams pk).pk = some ⟨pk, 7⟩ from find_rowOf pk 7,
    show (storeOf pk 8).tapCounters.find (exampleParams pk).pk = some ⟨pk, 8⟩ from find_rowOf pk 8] at hagain

end First

/-- Two taps are verified, and the first is refused when it comes again. -/
theorem tap_counters_verified : ∃ events, exampleCounts events = ([7, 8], 1) ∧
    events.getLast? = some (.reply (2, (exampleParams exampleUrl).body) (.selectCounter exampleUrl)
      (.ok (some (8 : Int))) (some (.ok timedOut))) ∧
    (∀ key, (events.filterMap (acceptedCounter exampleTapEnv key)).Pairwise (· < ·)) ∧
    ∀ tap, events.countP (Event.ends (admits exampleTapEnv tap)) ≤ 1 := by
  have hkey := chipKey_exampleUrl
  have hspelled : Run (fun event server server' => (tapService exampleTapEnv).Step event server server' ∧
      spelled exampleTapEnv event server = true) ⟨exampleTapStore, []⟩ _ _ :=
    (run_next hkey true).mono fun _ _ _ h => ⟨h.1, h.2 rfl⟩
  refine ⟨_, ?_, getLast?_replayedEvents _ 2 (exampleParams exampleUrl) (some 8), tap_counters exampleTapEnv hspelled⟩
  rw [exampleCounts_append, exampleCounts_append, exampleCounts_replayedEvents,
    exampleCounts_verifiedEvents (exampleParams exampleUrl) hkey, exampleCounts_verifiedEvents (nextParams exampleUrl) hkey,
    if_pos (tapOf_exampleParams hkey), if_neg (tapOf_nextParams hkey)]
  rfl

/-- One tap is verified twice. -/
theorem tap_verified_twice : ∃ events server, (tapService exampleTapEnv).Runs exampleTapStore events server ∧
    exampleCounts events = ([7, 7], 2) := by
  have hfind : (storeOf exampleUrl 7).tapCounters.find (exampleParams exampleRespelled).pk = none := by
    simp [storeOf, rowOf, Table.find, exampleParams, exampleUrl_ne]
  obtain ⟨t', hinsert⟩ := Table.insert_of_find (r := (⟨exampleRespelled, 7⟩ : CounterRow)) hfind
  have hnew : evaluateCounter (((storeOf exampleUrl 7).tapCounters.find (exampleParams exampleRespelled).pk).map
      CounterRow.c) 7 = .new := by
    rw [hfind]
    rfl
  have hrow : upsertRow (storeOf exampleUrl 7).tapCounters ⟨(exampleParams exampleRespelled).pk, (7 : Nat)⟩ = (1, t') := by
    rw [upsertRow, hfind]
    simp only [show (storeOf exampleUrl 7).tapCounters.insert ⟨(exampleParams exampleRespelled).pk, (7 : Nat)⟩ = some t'
      from hinsert]
  have hsecond := run_verified _ 1 (verify_exampleParams chipKey_exampleRespelled) hnew hrow rfl
    (fun h => absurd h Bool.false_ne_true) (run_first chipKey_exampleUrl false)
  refine ⟨_, _, hsecond.mono fun _ _ _ h => h.1, ?_⟩
  rw [exampleCounts_append, exampleCounts_verifiedEvents (exampleParams exampleUrl) chipKey_exampleUrl,
    exampleCounts_verifiedEvents (exampleParams exampleRespelled) chipKey_exampleRespelled,
    if_pos (tapOf_exampleParams chipKey_exampleUrl), if_pos (tapOf_exampleParams chipKey_exampleRespelled)]
  rfl

end PhygitalWallet.Api
