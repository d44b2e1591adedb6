import PhygitalWallet.Api.Base64
import PhygitalWallet.Lib.JsText
import PhygitalWallet.Lib.Sha256

/-!
# Signed session cookies (`auth/session-hmac.ts`, `shared/signed-session-cookie.ts`)

Browse-unlock, owner-browse and owner-session share one mint and one parser. A value is the payload `head|exp|jti` with its
tag; its kind is the name of the cookie alone.

- `mintSignedSessionToken`, `parseSignedSessionToken`: the value, and who reads it;
- `parse_minted`: what was minted is read;
- `session_values`: what is read was minted.
-/

namespace PhygitalWallet.Api

open ByteSeq JsText

/-! ## The environment -/

/-- The worker's secret, and what it uses of the platform: HMAC with SHA-256, and kit's base64. -/
structure SessionEnv where
  policySessionSecret : Option String
  hmac : Bytes → Bytes → Bytes
  base64Encoder : Base64Encoder

def trimText (s : String) : String := String.ofList (trim s.toList)

/-- `none` is what it throws at. -/
def requireSessionSecret (env : SessionEnv) : Option String :=
  match env.policySessionSecret.map trimText with
  | some secret => if secret = "" then none else some secret
  | none => none

def hmacSha256 (env : SessionEnv) (secret payload : String) : Bytes :=
  env.hmac (Utf8.utf8Bytes secret) (Utf8.utf8Bytes payload)

/-! ## The value of a cookie -/

/-- Mint `payload|exp|jti` + HMAC token; times are milliseconds, `jti` is a random UUID. -/
def mintSignedSessionToken (env : SessionEnv) (payloadHead : String) (ttlMs now : Nat) (jti : String) :
    Option (String × Nat) := do
  let exp := now + ttlMs
  let payload := payloadHead ++ "|" ++ toString exp ++ "|" ++ jti
  let secret ← requireSessionSecret env
  let mac := hmacSha256 env secret payload
  return (bytesToBase64Url (Utf8.utf8Bytes payload) ++ "." ++ bytesToBase64Url mac, exp)

structure SignedSessionPayload where
  head : String
  exp : Rat
  jti : String
deriving DecidableEq, Repr

/-- The payload and the tag that a value carries. -/
def presented (env : SessionEnv) (token : String) : Option (String × Bytes) :=
  match token.toList.splitOn '.' with
  | payloadB64 :: macB64 :: _ =>
    if payloadB64 = [] ∨ macB64 = [] then none
    else do
      let payload ← base64UrlToBytes env.base64Encoder (String.ofList payloadB64)
      let actualMac ← base64UrlToBytes env.base64Encoder (String.ofList macB64)
      return (String.ofList (Utf8.decodeUtf8 payload), actualMac)
  | _ => none

/-- The parts of a payload whose tag is right. -/
def payloadParts (payload : String) (now : Nat) : Option SignedSessionPayload :=
  match (payload.toList.splitOn '|').reverse with
  | jti :: expText :: front =>
    if front = [] then none
    else do
      let head := ['|'].intercalate front.reverse
      let exp ← number expText
      if head = [] ∨ jti = [] ∨ exp ≤ now then none
      else return { head := String.ofList head, exp, jti := String.ofList jti }
  | _ => none

/-- Whatever is thrown is `null`. -/
def parseSignedSessionToken (env : SessionEnv) (token : Option String) (now : Nat) : Option SignedSessionPayload := do
  let (payload, actualMac) ← presented env (← token)
  let secret ← requireSessionSecret env
  if hmacSha256 env secret payload = actualMac then payloadParts payload now else none

/-! ## The cookies -/

inductive SessionKind
  | browseUnlock | ownerBrowse | ownerSession
deriving DecidableEq, Repr

def SessionKind.cookieName : SessionKind → String
  | .browseUnlock => "revibase_browse_unlock"
  | .ownerBrowse => "revibase_owner_browse"
  | .ownerSession => "revibase_owner_session"

def browseSessionTtlMs : Nat := 30 * 60 * 1000

def ownerSessionTtlMs : Nat := 12 * 60 * 60 * 1000

def SessionKind.ttlMs : SessionKind → Nat
  | .browseUnlock | .ownerBrowse => browseSessionTtlMs
  | .ownerSession => ownerSessionTtlMs

/-- `issue` of the cookie of a kind: the value, and when it expires. -/
def issueSession (env : SessionEnv) (kind : SessionKind) (head : String) (now : Nat) (jti : String) :
    Option (String × Nat) :=
  mintSignedSessionToken env (trimText head) kind.ttlMs now jti

/-- `read` of the cookie of a kind. -/
def readSession (env : SessionEnv) (kind : SessionKind) (cookies : String → Option String) (now : Nat) :
    Option SignedSessionPayload :=
  parseSignedSessionToken env (cookies kind.cookieName) now

/-! ## What was issued -/

/-- One call of `issue`. -/
structure IssuedSession where
  kind : SessionKind
  payload : String
  now : Nat
  jti : String
deriving DecidableEq, Repr

namespace IssuedSession

/-- The payload that is signed. -/
def head (i : IssuedSession) : String := trimText i.payload

def exp (i : IssuedSession) : Nat := i.now + i.kind.ttlMs

/-- The string that is tagged. -/
def text (i : IssuedSession) : String := i.head ++ "|" ++ toString i.exp ++ "|" ++ i.jti

def session (i : IssuedSession) : SignedSessionPayload := ⟨i.head, i.exp, i.jti⟩

/-- The clock is within the range of dates, and a UUID is some text without a bar. -/
def WellFormed (i : IssuedSession) : Prop := i.now ≤ 8640000000000000 ∧ i.jti.toList ≠ [] ∧ '|' ∉ i.jti.toList

end IssuedSession

/-- The tag that a value carries verifies only for a string that the server tagged. -/
def Unforgeable (env : SessionEnv) (secret : String) (issued : List IssuedSession) (token : String) : Prop :=
  ∀ payload mac, presented env token = some (payload, mac) → hmacSha256 env secret payload = mac →
    ∃ i ∈ issued, payload = i.text

/-- The value carries the session, with the tag of the server. -/
def IssuedSession.Carried (i : IssuedSession) (env : SessionEnv) (secret token : String) : Prop :=
  presented env token = some (i.text, hmacSha256 env secret i.text)

/-- A value that carries a session which has not expired comes back under a name that it was set with. -/
def UnderItsName (env : SessionEnv) (secret : String) (issued : List IssuedSession) (kind : SessionKind) (token : String)
    (now : Nat) : Prop :=
  ∀ i ∈ issued, i.Carried env secret token → i.head ≠ "" → now < i.exp → ∃ j ∈ issued, j.kind = kind ∧ j.text = i.text

/-- What a reader accepts was minted by an issuer of its kind, and has not expired. -/
def OfItsKind (env : SessionEnv) (issued : List IssuedSession) (kind : SessionKind) (cookies : String → Option String)
    (now : Nat) : Prop :=
  ∀ session, readSession env kind cookies now = some session → ∃ i ∈ issued, i.kind = kind ∧ session = i.session ∧ now < i.exp

/-! ## Reading what was issued -/

section Issued

variable {i : IssuedSession}

theorem IssuedSession.toList_text : i.text.toList = trim i.payload.toList ++ '|' :: (Nat.toDigits 10 i.exp ++ '|' :: i.jti.toList) := by
  simp [IssuedSession.text, IssuedSession.head, trimText]

/-- The parts of a payload that was tagged. -/
theorem payloadParts_text (h : i.WellFormed) (now : Nat) : payloadParts i.text now =
    if i.head = "" ∨ i.exp ≤ now then none else some i.session := by
  obtain ⟨hnow, hjti, hbar⟩ := h
  have hdigits : '|' ∉ Nat.toDigits 10 i.exp := fun hmem =>
    absurd (Nat.isDigit_of_mem_toDigits (by decide) (by decide) hmem) (by decide)
  have hsplit : i.text.toList.splitOn '|' = (trim i.payload.toList).splitOn '|' ++
      [Nat.toDigits 10 i.exp, i.jti.toList] := by
    rw [IssuedSession.toList_text, List.splitOn_append_cons_self, List.splitOn_append_cons_self_of_not_mem hdigits,
      List.splitOn_eq_singleton hbar]
  have hsmall : i.exp < 2 ^ 53 := by
    have httl : i.kind.ttlMs ≤ 43200000 := by cases i.kind <;> decide
    have hexp : i.exp = i.now + i.kind.ttlMs := rfl
    omega
  have hfront : ((trim i.payload.toList).splitOn '|').reverse ≠ [] := by simp
  have hhead : ['|'].intercalate ((trim i.payload.toList).splitOn '|').reverse.reverse = trim i.payload.toList := by
    rw [List.reverse_reverse, List.intercalate_splitOn]
  have hempty : trim i.payload.toList = [] ↔ i.head = "" := by
    rw [IssuedSession.head, trimText, ← String.toList_inj]
    simp
  have hcond : (trim i.payload.toList = [] ∨ i.jti.toList = [] ∨ (i.exp : Rat) ≤ now) ↔ (i.head = "" ∨ i.exp ≤ now) := by
    rw [hempty, or_iff_right hjti, Nat.cast_le]
  unfold payloadParts
  rw [hsplit, List.reverse_append]
  simp only [List.reverse_cons, List.reverse_nil, List.nil_append, List.cons_append, hfront, if_false, hhead,
    number_decimal hsmall]
  show (if trim i.payload.toList = [] ∨ i.jti.toList = [] ∨ (i.exp : Rat) ≤ now then none else _) = _
  simp only [hcond]
  split
  · rfl
  · simp [IssuedSession.session, IssuedSession.head, trimText]

/-- What is tagged does not start with a byte order mark. -/
theorem IssuedSession.head?_text : i.text.toList.head? ≠ some '\uFEFF' := by
  rw [IssuedSession.toList_text]
  cases htrim : trim i.payload.toList with
  | nil => simp
  | cons c cs =>
    intro h
    have hc : isSpace c = false := head?_trim (by rw [htrim]; rfl)
    rw [List.cons_append, List.head?_cons] at h
    rw [Option.some.inj h] at hc
    exact absurd hc (by decide)

variable {env : SessionEnv} {secret : String}

/-- The value that is issued. -/
theorem issueSession_eq (hsecret : requireSessionSecret env = some secret) :
    issueSession env i.kind i.payload i.now i.jti = some (bytesToBase64Url (Utf8.utf8Bytes i.text) ++ "." ++
      bytesToBase64Url (hmacSha256 env secret i.text), i.exp) := by
  unfold issueSession mintSignedSessionToken
  rw [hsecret]
  rfl

/-- What an issued value carries. -/
theorem presented_issued (hbase64 : ReadsBack env.base64Encoder) {mac : Bytes} (hmac : mac ≠ []) :
    presented env (bytesToBase64Url (Utf8.utf8Bytes i.text) ++ "." ++ bytesToBase64Url mac) = some (i.text, mac) := by
  have htext : Utf8.utf8Bytes i.text ≠ [] := by
    have hne : i.text.toList ≠ [] := by
      rw [IssuedSession.toList_text]
      simp
    rw [Utf8.utf8Bytes_eq]
    obtain ⟨c, cs, hcs⟩ := List.exists_cons_of_ne_nil hne
    rw [hcs, List.flatMap_cons]
    simp
  obtain ⟨hpayload, hdot⟩ := bytesToBase64Url_plain htext
  obtain ⟨htag, hdot'⟩ := bytesToBase64Url_plain hmac
  have hsplit : (bytesToBase64Url (Utf8.utf8Bytes i.text) ++ "." ++ bytesToBase64Url mac).toList.splitOn '.' =
      [(bytesToBase64Url (Utf8.utf8Bytes i.text)).toList, (bytesToBase64Url mac).toList] := by
    rw [String.toList_append, String.toList_append, List.append_assoc]
    show ((bytesToBase64Url (Utf8.utf8Bytes i.text)).toList ++ '.' :: (bytesToBase64Url mac).toList).splitOn '.' = _
    rw [List.splitOn_append_cons_self_of_not_mem hdot, List.splitOn_eq_singleton hdot']
  unfold presented
  rw [hsplit]
  simp only [hpayload, htag, or_self, if_false, String.ofList_toList, base64UrlToBytes_bytesToBase64Url hbase64,
    Option.bind_eq_bind, Option.bind_some, Utf8.decodeUtf8_utf8Bytes IssuedSession.head?_text]
  rfl

/-- **What was issued is read** by every reader. -/
theorem parse_minted (hsecret : requireSessionSecret env = some secret) (hbase64 : ReadsBack env.base64Encoder)
    (hmac : ∀ key message, (env.hmac key message).length = 32) (h : i.WellFormed) {token : String} {expiresAt : Nat}
    (hissue : issueSession env i.kind i.payload i.now i.jti = some (token, expiresAt)) (now : Nat) :
    parseSignedSessionToken env (some token) now = if i.head = "" ∨ i.exp ≤ now then none else some i.session := by
  have hne : hmacSha256 env secret i.text ≠ [] := by
    intro hnil
    have hlen := hmac (Utf8.utf8Bytes secret) (Utf8.utf8Bytes i.text)
    rw [hmacSha256] at hnil
    rw [hnil] at hlen
    cases hlen
  rw [issueSession_eq hsecret] at hissue
  obtain ⟨rfl, rfl⟩ := Prod.mk.inj (Option.some.inj hissue)
  unfold parseSignedSessionToken
  simp only [Option.bind_eq_bind, Option.bind_some, presented_issued hbase64 hne, hsecret, if_true]
  exact payloadParts_text h now

end Issued

/-- What is read carries its tag. -/
theorem parse_some {env : SessionEnv} {secret token : String} {now : Nat} {session : SignedSessionPayload}
    (hsecret : requireSessionSecret env = some secret) (h : parseSignedSessionToken env (some token) now = some session) :
    ∃ payload, presented env token = some (payload, hmacSha256 env secret payload) ∧
      payloadParts payload now = some session := by
  unfold parseSignedSessionToken at h
  simp only [Option.bind_eq_bind, Option.bind_some] at h
  obtain ⟨⟨payload, actualMac⟩, hpresented, h⟩ := Option.bind_eq_some_iff.1 h
  simp only [hsecret, Option.bind_some] at h
  split at h
  · next hmac => exact ⟨payload, hmac ▸ hpresented, h⟩
  · cases h

section Values

variable {env : SessionEnv} {secret token : String} {issued : List IssuedSession} {kind : SessionKind}
  {cookies : String → Option String} {now : Nat}

/-- A value that carries a session is read as it. -/
theorem read_carried (hsecret : requireSessionSecret env = some secret) (hcookie : cookies kind.cookieName = some token)
    {i : IssuedSession} (hi : i.WellFormed) (hcarried : i.Carried env secret token) :
    readSession env kind cookies now = if i.head = "" ∨ i.exp ≤ now then none else some i.session := by
  unfold IssuedSession.Carried at hcarried
  rw [readSession, hcookie, ← payloadParts_text hi]
  unfold parseSignedSessionToken
  simp only [Option.bind_eq_bind, Option.bind_some, hcarried, hsecret, if_true]

/-- What is read was issued, by whatever issuer. -/
theorem issued_of_read (hsecret : requireSessionSecret env = some secret) (hissued : ∀ i ∈ issued, i.WellFormed)
    (hcookie : cookies kind.cookieName = some token) (hforge : Unforgeable env secret issued token)
    {session : SignedSessionPayload} (hread : readSession env kind cookies now = some session) :
    ∃ i ∈ issued, i.Carried env secret token ∧ i.head ≠ "" ∧ now < i.exp ∧ session = i.session := by
  rw [readSession, hcookie] at hread
  obtain ⟨payload, hpresented, hparts⟩ := parse_some hsecret hread
  obtain ⟨i, hi, rfl⟩ := hforge payload _ hpresented rfl
  rw [payloadParts_text (hissued i hi)] at hparts
  split at hparts
  · cases hparts
  · next hlive =>
    cases hparts
    exact ⟨i, hi, hpresented, fun hblank => hlive (Or.inl hblank), by omega, rfl⟩

/-- The text says the session. -/
theorem text_of_session {i j : IssuedSession} (h : i.session = j.session) : i.text = j.text := by
  obtain ⟨hhead, hexp, hjti⟩ := SignedSessionPayload.mk.inj h
  rw [IssuedSession.text, IssuedSession.text, hhead, hjti, Nat.cast_inj.1 hexp]

/-- **The kind of a value** is that of the cookie exactly if it comes back under a name that it was set with. -/
theorem ofItsKind_iff (hsecret : requireSessionSecret env = some secret) (hissued : ∀ i ∈ issued, i.WellFormed)
    (hcookie : cookies kind.cookieName = some token) (hforge : Unforgeable env secret issued token) :
    OfItsKind env issued kind cookies now ↔ UnderItsName env secret issued kind token now := by
  constructor
  · intro h i hi hcarried hhead hlive
    have hread : readSession env kind cookies now = some i.session := by
      rw [read_carried hsecret hcookie (hissued i hi) hcarried, if_neg]
      rintro (hblank | hexpired)
      · exact hhead hblank
      · omega
    obtain ⟨j, hj, hkind, hsession, -⟩ := h i.session hread
    exact ⟨j, hj, hkind, (text_of_session hsession).symm⟩
  · intro h session hread
    obtain ⟨i, hi, hcarried, hhead, hlive, rfl⟩ := issued_of_read hsecret hissued hcookie hforge hread
    obtain ⟨j, hj, hkind, htext⟩ := h i hi hcarried hhead hlive
    have hcarried' : j.Carried env secret token := by rwa [IssuedSession.Carried, htext]
    rw [read_carried hsecret hcookie (hissued j hj) hcarried'] at hread
    split at hread
    · cases hread
    · next hlive' => exact ⟨j, hj, hkind, (Option.some.inj hread).symm, by omega⟩

end Values

def exampleSessionEnv : SessionEnv where
  policySessionSecret := some "secret"
  hmac := Sha256.hmac
  base64Encoder text := BaseText.base64Decode text.toList

/-- An owner's login, for an address. -/
def exampleIssue : IssuedSession :=
  ⟨.ownerSession, "11111111111111111111111111111111", 1000, "9b1deb4d-3b7d-4bad-9bdd-2b0d7b3dcb6d"⟩

theorem exampleIssue_wellFormed : exampleIssue.WellFormed := by
  refine ⟨by decide, ?_, ?_⟩ <;> decide +kernel

/-- The text of the example, as its value carries it. -/
theorem exampleIssue_carried {token : String} {expiresAt : Nat} (hissue : issueSession exampleSessionEnv .ownerSession
      exampleIssue.payload exampleIssue.now exampleIssue.jti = some (token, expiresAt)) :
    exampleIssue.Carried exampleSessionEnv "secret" token := by
  have hsecret : requireSessionSecret exampleSessionEnv = some "secret" := by decide +kernel
  have hvalue := hissue.symm.trans (issueSession_eq (i := exampleIssue) hsecret)
  obtain ⟨rfl, -⟩ := Prod.mk.inj (Option.some.inj hvalue)
  refine presented_issued readsBack_base64Decode fun hnil => ?_
  have hlen := Sha256.length_hmac (Utf8.utf8Bytes "secret") (Utf8.utf8Bytes exampleIssue.text)
  change (hmacSha256 exampleSessionEnv "secret" exampleIssue.text).length = 32 at hlen
  rw [hnil] at hlen
  exact absurd hlen (by decide)

end PhygitalWallet.Api
