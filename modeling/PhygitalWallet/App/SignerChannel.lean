import Mathlib.Logic.Relation
import PhygitalWallet.App.SignerClient
import PhygitalWallet.Secure.Consent

/-!
# The app and the signer (`lib/wallet/secure-signer-client.ts`, `secure-signer/src/main.ts`)

The client's frame holds one page of the signer after another. What the client posts to a frame may reach its pages late,
more than once, or never, and so may what the pages post to the client; any other window may post to the client, too.

- `Page`, `Channel`, `ChannelStep`: the parties, and what may happen;
- `Answers`: what a page has posted for a call;
- `Linked`: what holds between the steps, kept by each of them;
- `signer_client`: every call is settled at most once, never lost, and resolved only with what the signer was allowed to
  answer to that very call.
-/

namespace PhygitalWallet.App

open Secure

/-! ## The parties -/

/-- A page of the signer in a frame, from its load on. -/
structure Page where
  frame : Nat
  env : SignerEnv
  store : LocalStore
  events : List Secure.Event
  world : World

def Page.load (frame : Nat) (env : SignerEnv) (store : LocalStore) : Page := ⟨frame, env, store, [], .start store⟩

/-- What the page has posted to the window that holds its frame. -/
def Page.Posted (page : Page) (data : JsValue) : Prop :=
  (∃ n message, (n, .posted message) ∈ page.world.desk.log ∧ data = message.data) ∨
    (∃ answer ∈ page.world.rejected, data = answer.2.data) ∨ data = signerReady

/-- A message of the client to a frame. -/
structure Sent where
  call : Nat
  requestId : String
  frame : Nat
  data : JsValue

/-- The client with the calls that were made, the pages that were loaded, and what was posted to the frames. -/
structure Channel where
  client : SignerClient
  made : List ClientCall
  pages : List Page
  sent : List Sent

def Channel.start : Channel := ⟨.start, [], [], []⟩

def Channel.begin (ch : Channel) (call : ClientCall) : Channel :=
  { ch with client := ch.client.begin call, made := ch.made ++ [call] }

def Channel.post (ch : Channel) (n : Nat) (requestId : String) (now : ℚ) : Channel :=
  { ch with
    client := (ch.client.post n requestId now).1
    sent := ch.sent ++ ((ch.client.post n requestId now).2.map fun out => ⟨n, requestId, out.1, out.2⟩).toList }

/-- The frame navigates: its next page is loaded. -/
def Channel.load (ch : Channel) (frame : Nat) (env : SignerEnv) (store : LocalStore) : Channel :=
  { ch with pages := ch.pages ++ [.load frame env store] }

/-- What may happen. What comes from a frame under the signer's origin was posted by a page that was loaded there; a page
takes messages of the window that holds its frame, where the client alone posts to it. -/
inductive ChannelStep (messageByteLength : JsValue → Option Nat) (signerOrigin : String) : Channel → Channel → Prop
  | attachIframe {ch : Channel} {frame : Nat} {env : SignerEnv} {store : LocalStore} :
      ChannelStep messageByteLength signerOrigin ch
        { ch.load frame env store with client := { ch.client with iframeEl := some frame } }
  | remountSigner {ch : Channel} {frame : Nat} {env : SignerEnv} {store : LocalStore}
      (hframe : ch.client.iframeEl = some frame) : ChannelStep messageByteLength signerOrigin ch (ch.load frame env store)
  | detach {ch : Channel} :
      ChannelStep messageByteLength signerOrigin ch { ch with client := { ch.client with iframeEl := none } }
  | begin {ch : Channel} (call : ClientCall) : ChannelStep messageByteLength signerOrigin ch (ch.begin call)
  | notReady {ch : Channel} (n : Nat) :
      ChannelStep messageByteLength signerOrigin ch { ch with client := ch.client.notReady n }
  | post {ch : Channel} {n : Nat} {bytes : Bytes} {now : ℚ} (hbytes : bytes.length = 16)
      (hfresh : ∀ m ∈ ch.sent, m.requestId ≠ randomRequestId bytes) :
      ChannelStep messageByteLength signerOrigin ch (ch.post n (randomRequestId bytes) now)
  | timeout {ch : Channel} (n : Nat) :
      ChannelStep messageByteLength signerOrigin ch { ch with client := ch.client.fireTimeout n }
  | cancel {ch : Channel} :
      ChannelStep messageByteLength signerOrigin ch { ch with client := ch.client.cancelAllPending }
  | receive {ch : Channel} {event : MessageEvent} (hpage : event.origin = signerOrigin → ∀ frame, event.source = some frame →
        (∃ page ∈ ch.pages, page.frame = frame) → ∃ page ∈ ch.pages, page.frame = frame ∧ page.Posted event.data) :
      ChannelStep messageByteLength signerOrigin ch { ch with client := ch.client.onMessage signerOrigin event }
  | page {ch : Channel} {before after : List Page} {page : Page} {event : Secure.Event} {world : World}
      (hpages : ch.pages = before ++ page :: after) (hstep : Step page.env event page.world world)
      (hmessage : ∀ data now, event = .message data now →
        ∃ m ∈ ch.sent, m.frame = page.frame ∧ data = validateInbound messageByteLength m.data) :
      ChannelStep messageByteLength signerOrigin ch
        { ch with pages := before ++ { page with events := page.events ++ [event], world := world } :: after }

abbrev Channel.Reaches (messageByteLength : JsValue → Option Nat) (signerOrigin : String) : Channel → Channel → Prop :=
  Relation.ReflTransGen (ChannelStep messageByteLength signerOrigin)

/-! ## What a page answers -/

/-- A signature over the bytes of a transaction: by a key that the policy accepted them for, after the user had confirmed
what it shows. -/
def SignedFor (env : SignerEnv) (txBytes : Bytes) (log : List (Nat × Entry)) (result : SignResult) : Prop :=
  ∃ tx owner summary shown seed signature, decodeV1Transaction env.kit txBytes = .ok tx ∧
    evaluatePolicy env.kit.policyData tx owner = .ok summary ∧
    env.ed25519PublicKey seed = .ok owner.bytes ∧ env.ed25519Sign tx.messageBytes seed = .ok signature ∧
    result.signature = bytesToBase64 signature .std ∧ result.publicKey = owner.text ∧
    (result.ticket, .answered ⟨.sign, .confirmSignTransaction shown⟩ (.ok true)) ∈ log ∧
    shown.instructions = summary.instructions ∧ shown.config = summary.config

/-- A page has answered a call: after the user's yes, and on the grounds of the request. -/
def Answers (page : Page) (call : ClientCall) (requestId : String) (data : JsValue) : Prop :=
  ∃ ticket store message, (ticket, .posted message) ∈ page.world.desk.log ∧ data = message.data ∧
    Consented page.world.desk.log ticket (routeOf store call.body) ∧
    Grounds page.env page.world.desk.log ⟨ticket, requestId⟩ (routeOf store call.body) message ∧
    ∀ txBytes, call = .signTransaction txBytes → ∃ signature publicKey,
      message = .signResult requestId signature publicKey ∧
      SignedFor page.env txBytes page.world.desk.log ⟨ticket, requestId, signature, publicKey⟩

/-- An earlier moment of a page. -/
structure Page.Before (snap page : Page) : Prop where
  frame : snap.frame = page.frame
  env : snap.env = page.env
  store : snap.store = page.store
  events : snap.events <+: page.events
  ran : Runs.Run (Step snap.env) (.start snap.store) snap.events snap.world

/-- The messages are those of the calls, under their own ids. -/
structure Messages (made : List ClientCall) (sent : List Sent) : Prop where
  own : ∀ m ∈ sent, ∃ call now bytes, bytes.length = 16 ∧ m.requestId = randomRequestId bytes ∧
    made[m.call]? = some call ∧ m.data = call.message m.requestId now
  ids : ∀ m ∈ sent, ∀ m' ∈ sent, m.requestId = m'.requestId → m = m'

/-- A page has run on messages of the client. -/
def Page.Ran (messageByteLength : JsValue → Option Nat) (sent : List Sent) (page : Page) : Prop :=
  Runs.Run (Step page.env) (.start page.store) page.events page.world ∧
    ∀ data ∈ messages page.events, ∃ m ∈ sent, data = validateInbound messageByteLength m.data

section Answers

variable {messageByteLength : JsValue → Option Nat} {made : List ClientCall} {sent : List Sent} {page : Page}
  {call : ClientCall} {requestId type : String} {data : JsValue} {m : Sent}

theorem error_type {message : Outgoing} (h : message.isSuccess = false) : message.data.get "type" = .string "ERROR" := by
  cases message <;> first | rfl | cases h

theorem data_requestId {env : SignerEnv} {log : List (Nat × Entry)} {h : Handling} {route : Route}
    {message : Outgoing} (hg : Grounds env log h route message) : message.data.get "requestId" = .string h.requestId := by
  cases hg <;> rfl

/-- What a signature of this request rests on. -/
theorem signedFor_of_posted {env : SignerEnv} {ls : List Secure.Event} {w : World} {n : Nat} {signature publicKey : String}
    {request : InboundRequest} {txBytes : Bytes} (hsign : SignInv env ls w)
    (hposted : (n, .posted (.signResult requestId signature publicKey)) ∈ w.desk.log)
    (hrequest : (messages ls)[n]? = some (.ok request))
    (hbody : request.body = .signTransaction (BaseText.base64Of txBytes)) :
    SignedFor env txBytes w.desk.log ⟨n, requestId, signature, publicKey⟩ := by
  have hsigned : ⟨n, requestId, signature, publicKey⟩ ∈ w.desk.signed := List.mem_filterMap.2 ⟨_, hposted, rfl⟩
  obtain ⟨request', txB64, ⟨hat, -⟩, hbody', hauthorized⟩ := hsign.rests _ hsigned
  rw [hrequest] at hat
  cases hat
  rw [hbody] at hbody'
  cases hbody'
  obtain ⟨bytes, tx, owner, summary, shown, seed, sig, hbytes, hrest⟩ := hauthorized
  rw [base64ToBytes_base64Of hbytes] at hrest
  exact ⟨tx, owner, summary, shown, seed, sig, hrest⟩

/-- **An answer to a call.** What a page posts under the id of a call, and is not an error, is its answer to that call. -/
theorem Page.Ran.answers (hran : page.Ran messageByteLength sent) (hmessages : Messages made sent)
    (hposted : page.Posted data) (hid : data.get "requestId" = .string requestId) (htype : data.get "type" = .string type)
    (herror : type ≠ "ERROR") (hm : m ∈ sent) (hrequestId : m.requestId = requestId) (hcall : made[m.call]? = some call) :
    Answers page call requestId data := by
  obtain ⟨hrun, hreceived⟩ := hran
  have hsign := Run.signInv hrun
  have hno : ∀ message : Outgoing, data = message.data → message.isSuccess = true := by
    rintro message rfl
    cases hsuccess : message.isSuccess with
    | true => rfl
    | false =>
      rw [error_type hsuccess] at htype
      exact absurd (JsValue.string.inj htype).symm herror
  rcases hposted with ⟨n, message, hmem, heq⟩ | ⟨answer, hanswer, heq⟩ | rfl
  · obtain ⟨h, route, hticket, ⟨request, store, ⟨hat, hsame⟩, rfl⟩, hc, hg⟩ :=
      (Run.consentInv hrun).founded n message hmem (hno message heq)
    obtain ⟨m', hm', hvalid⟩ := hreceived _ (List.mem_of_getElem? hat)
    obtain ⟨call', now, -, -, -, hcall', hdata⟩ := hmessages.own m' hm'
    rw [hdata] at hvalid
    have hrequest := validateInbound_body hvalid.symm
    -- the ids agree, so the request is that of the call
    have hown : h.requestId = requestId := by
      rw [heq, data_requestId hg] at hid
      exact JsValue.string.inj hid
    have hm'' : m' = m := by
      refine hmessages.ids m' hm' m hm ?_
      rw [hrequestId, ← hown, ← hsame, hrequest]
    rw [hm'', hcall] at hcall'
    cases hcall'
    have hbody : request.body = call.body := by rw [hrequest]
    obtain ⟨ticket, id⟩ := h
    simp only at hticket hown hat
    subst hticket hown
    refine ⟨ticket, store, message, hmem, heq, hbody ▸ hc, hbody ▸ hg, ?_⟩
    rintro txBytes rfl
    rw [hbody] at hg
    cases hg with
    | signed => exact ⟨_, _, rfl, signedFor_of_posted hsign hmem hat hbody⟩
  · have hsuccess := hno _ heq
    rw [hsign.rejected answer hanswer] at hsuccess
    cases hsuccess
  · cases hid

end Answers

/-! ## What holds between the steps -/

/-- A client that has made no new call and waits for no more, and has settled what is newly resolved as told. -/
structure Narrows (c c' : SignerClient) (new : Nat → JsValue → Prop) : Prop where
  calls : c'.calls = c.calls
  frame : c'.iframeEl = c.iframeEl
  preparing : ∀ n call, OrderedMap.get c'.preparing n = some call → OrderedMap.get c.preparing n = some call
  pending : ∀ requestId p, OrderedMap.get c'.pending requestId = some p → OrderedMap.get c.pending requestId = some p
  resolved : ∀ n data, (n, .resolved data) ∈ c'.settled → (n, .resolved data) ∈ c.settled ∨ new n data

/-- Nothing is newly resolved. -/
def nothing : Nat → JsValue → Prop := fun _ _ => False

/-- What a resolved call rests on: the answer to the message that went out for that very call, under that message's id. -/
def Resolved (ch : Channel) (n : Nat) (data : JsValue) : Prop :=
  ∃ call, ch.made[n]? = some call ∧ ∃ m ∈ ch.sent, m.call = n ∧ ∃ page ∈ ch.pages, ∃ snap : Page, snap.Before page ∧
    Answers snap call m.requestId data

/-- **What every step keeps.** -/
structure Linked (messageByteLength : JsValue → Option Nat) (ch : Channel) : Prop where
  kept : Kept ch.client
  calls : ch.client.calls = ch.made.length
  frame : ∀ frame, ch.client.iframeEl = some frame → ∃ page ∈ ch.pages, page.frame = frame
  preparing : ∀ n call, OrderedMap.get ch.client.preparing n = some call → ch.made[n]? = some call
  messages : Messages ch.made ch.sent
  pending : ∀ requestId p, OrderedMap.get ch.client.pending requestId = some p →
    ∃ m ∈ ch.sent, m.requestId = requestId ∧ m.call = p.call ∧
      ∃ call, ch.made[p.call]? = some call ∧ p.resultType = call.resultType
  pages : ∀ page ∈ ch.pages, page.Ran messageByteLength ch.sent
  resolved : ∀ n data, (n, .resolved data) ∈ ch.client.settled → Resolved ch n data

section Linked

variable {messageByteLength : JsValue → Option Nat} {signerOrigin : String} {ch ch' : Channel} {c c' : SignerClient}
  {n : Nat} {new : Nat → JsValue → Prop}

theorem Linked.start : Linked messageByteLength .start where
  kept := .start
  calls := rfl
  frame _ h := nomatch h
  preparing _ _ h := nomatch h
  messages := ⟨fun _ h => (nomatch h), fun _ h => (nomatch h)⟩
  pending _ _ h := nomatch h
  pages _ h := nomatch h
  resolved _ _ h := nomatch h

theorem Narrows.refl : Narrows c c nothing := ⟨rfl, rfl, fun _ _ h => h, fun _ _ h => h, fun _ _ h => .inl h⟩

theorem Narrows.trans {c'' : SignerClient} (h : Narrows c c' nothing) (h' : Narrows c' c'' new) : Narrows c c'' new where
  calls := h'.calls.trans h.calls
  frame := h'.frame.trans h.frame
  preparing m call hm := h.preparing m call (h'.preparing m call hm)
  pending id p hp := h.pending id p (h'.pending id p hp)
  resolved m data hm := (h'.resolved m data hm).imp (fun hm => (h.resolved m data hm).resolve_right id) id

theorem narrows_finish {requestId : String} {p : PendingCall} {outcome : Settlement} :
    Narrows c (c.finish requestId p outcome) fun m data => m = p.call ∧ outcome = .resolved data where
  calls := rfl
  frame := rfl
  preparing _ _ h := h
  pending id q hq := by
    have hq' : OrderedMap.get (OrderedMap.erase c.pending requestId) id = some q := hq
    rw [OrderedMap.get_erase] at hq'
    split at hq'
    · cases hq'
    · exact hq'
  resolved m data hm := by
    rcases List.mem_append.1 hm with hm | hm
    · exact .inl hm
    · obtain ⟨rfl, rfl⟩ := Prod.mk.inj (List.mem_singleton.1 hm)
      exact .inr ⟨rfl, rfl⟩

theorem narrows_reject {requestId : String} {p : PendingCall} {code : JsValue} :
    Narrows c (c.finish requestId p (.rejected code)) nothing where
  calls := rfl
  frame := rfl
  preparing _ _ h := h
  pending := narrows_finish.pending
  resolved m data hm := (narrows_finish.resolved m data hm).imp id fun h => nomatch h.2

theorem narrows_notReady : Narrows c (c.notReady n) nothing := by
  unfold SignerClient.notReady
  split
  · exact .refl
  refine ⟨rfl, rfl, fun m call hm => ?_, fun _ _ h => h, fun m data hm => ?_⟩
  · rw [OrderedMap.get_erase] at hm
    split at hm
    · cases hm
    · exact hm
  · rcases List.mem_append.1 hm with hm | hm
    · exact .inl hm
    · cases (Prod.mk.inj (List.mem_singleton.1 hm)).2

theorem narrows_fireTimeout (hk : Kept c) : Narrows c (c.fireTimeout n) nothing := by
  cases h : OrderedMap.get c.timers n with
  | none =>
    unfold SignerClient.fireTimeout
    rw [h]
    exact .refl
  | some requestId =>
    obtain ⟨p, -, -, heq⟩ := hk.fireTimeout_eq h
    rw [heq]
    exact narrows_reject

theorem narrows_cancelAllPending (hk : Kept c) : Narrows c c.cancelAllPending nothing :=
  cancel_keeps (P := fun c' => Narrows c c' nothing) (fun _ _ _ h _ => h.trans narrows_reject) c.pending c .refl hk.keys
    fun _ hentry => OrderedMap.get_of_mem hk.keys hentry

/-- **A step of the client alone.** -/
theorem Linked.narrow (hl : Linked messageByteLength ch) (hk : Kept c') (hn : Narrows ch.client c' new)
    (hnew : ∀ n data, new n data → Resolved ch n data) : Linked messageByteLength { ch with client := c' } where
  kept := hk
  calls := hn.calls.trans hl.calls
  frame f hf := hl.frame f (hn.frame ▸ hf)
  preparing n call h := hl.preparing n call (hn.preparing n call h)
  messages := hl.messages
  pending id p hp := hl.pending id p (hn.pending id p hp)
  pages := hl.pages
  resolved n data h := (hn.resolved n data h).elim (hl.resolved n data) (hnew n data)

/-- A page that is loaded has run on nothing. -/
theorem Linked.load (hl : Linked messageByteLength ch) (frame : Nat) (env : SignerEnv) (store : LocalStore) :
    Linked messageByteLength (ch.load frame env store) where
  kept := hl.kept
  calls := hl.calls
  frame f hf := (hl.frame f hf).imp fun _ h => ⟨List.mem_append_left _ h.1, h.2⟩
  preparing := hl.preparing
  messages := hl.messages
  pending := hl.pending
  pages page hpage := by
    rcases List.mem_append.1 hpage with hpage | hpage
    · exact hl.pages page hpage
    · rw [List.mem_singleton.1 hpage]
      exact ⟨.nil, fun _ h => nomatch h⟩
  resolved n data h := by
    obtain ⟨call, hcall, m, hm, hmcall, page, hpage, hrest⟩ := hl.resolved n data h
    exact ⟨call, hcall, m, hm, hmcall, page, List.mem_append_left _ hpage, hrest⟩

theorem Linked.begin (hl : Linked messageByteLength ch) (call : ClientCall) : Linked messageByteLength (ch.begin call) := by
  have hmade : ∀ {n : Nat} {call' : ClientCall}, ch.made[n]? = some call' → (ch.made ++ [call])[n]? = some call' := by
    intro n call' h
    rw [List.getElem?_append_left (List.getElem?_eq_some_iff.1 h).1]
    exact h
  refine ⟨hl.kept.begin call, ?_, hl.frame, fun n call' h => ?_, ⟨fun m hm => ?_, hl.messages.ids⟩, fun id p hp => ?_,
    hl.pages, fun n data h => ?_⟩
  · show ch.client.calls + 1 = (ch.made ++ [call]).length
    rw [List.length_append, hl.calls]
    rfl
  · have h' : OrderedMap.get (OrderedMap.set ch.client.preparing ch.client.calls call) n = some call' := h
    rw [OrderedMap.get_set] at h'
    split at h'
    · next heq =>
      cases h'
      show (ch.made ++ [call])[n]? = _
      rw [heq, hl.calls, List.getElem?_append_right le_rfl, Nat.sub_self]
      rfl
    · exact hmade (hl.preparing n call' h')
  · obtain ⟨call', now, bytes, hbytes, hid, hcall, hdata⟩ := hl.messages.own m hm
    exact ⟨call', now, bytes, hbytes, hid, hmade hcall, hdata⟩
  · obtain ⟨m, hm, hid, hmcall, call', hcall, htype⟩ := hl.pending id p hp
    exact ⟨m, hm, hid, hmcall, call', hmade hcall, htype⟩
  · obtain ⟨call', hcall, hrest⟩ := hl.resolved n data h
    exact ⟨call', hmade hcall, hrest⟩

/-- A message goes out under a new id. -/
theorem Linked.post (hl : Linked messageByteLength ch) {bytes : Bytes} {now : ℚ} (hbytes : bytes.length = 16)
    (hfresh : ∀ m ∈ ch.sent, m.requestId ≠ randomRequestId bytes) :
    Linked messageByteLength (ch.post n (randomRequestId bytes) now) := by
  have hfree : OrderedMap.get ch.client.pending (randomRequestId bytes) = none := by
    cases h : OrderedMap.get ch.client.pending (randomRequestId bytes) with
    | none => rfl
    | some p =>
      obtain ⟨m, hm, hid, -⟩ := hl.pending _ p h
      exact absurd hid (hfresh m hm)
  have hkept : Kept (ch.client.post n (randomRequestId bytes) now).1 := hl.kept.post hfree
  unfold Channel.post
  generalize hout : ch.client.post n (randomRequestId bytes) now = out at hkept ⊢
  unfold SignerClient.post at hout
  split at hout
  · subst hout
    simp only [Option.map_none, Option.toList_none, List.append_nil]
    exact hl
  · subst hout
    simp only [Option.map_none, Option.toList_none, List.append_nil]
    exact hl.narrow hkept narrows_notReady fun _ _ h => h.elim
  next call frame hcall hframe =>
  subst hout
  have hmade := hl.preparing n call hcall
  simp only [Option.map_some, Option.toList_some]
  refine ⟨hkept, hl.calls, hl.frame, fun m call' hm => ?_, ⟨fun m hm => ?_, fun m hm m' hm' heq => ?_⟩, fun id p hp => ?_,
    fun page hpage => ?_, fun k data h => ?_⟩
  · simp only [OrderedMap.get_erase] at hm
    split at hm
    · cases hm
    · exact hl.preparing m call' hm
  · rcases List.mem_append.1 hm with hm | hm
    · exact hl.messages.own m hm
    · rw [List.mem_singleton.1 hm]
      exact ⟨call, now, bytes, hbytes, rfl, hmade, rfl⟩
  · rcases List.mem_append.1 hm with hm | hm <;> rcases List.mem_append.1 hm' with hm' | hm'
    · exact hl.messages.ids m hm m' hm' heq
    · rw [List.mem_singleton.1 hm'] at heq
      exact absurd heq (hfresh m hm)
    · rw [List.mem_singleton.1 hm] at heq
      exact absurd heq.symm (hfresh m' hm')
    · rw [List.mem_singleton.1 hm, List.mem_singleton.1 hm']
  · simp only [OrderedMap.get_set] at hp
    split at hp
    · next heq =>
      cases hp
      exact ⟨_, List.mem_append_right _ List.mem_cons_self, heq.symm, rfl, call, hmade, rfl⟩
    · obtain ⟨m, hm, hrest⟩ := hl.pending id p hp
      exact ⟨m, List.mem_append_left _ hm, hrest⟩
  · obtain ⟨hrun, hreceived⟩ := hl.pages page hpage
    exact ⟨hrun, fun data hdata => (hreceived data hdata).imp fun m h => ⟨List.mem_append_left _ h.1, h.2⟩⟩
  · obtain ⟨call', hcall', m, hm, hrest⟩ := hl.resolved k data h
    exact ⟨call', hcall', m, List.mem_append_left _ hm, hrest⟩

/-- **A message to the client.** It resolves a call only with the answer of a page to that call. -/
theorem Linked.receive (hl : Linked messageByteLength ch) {event : MessageEvent}
    (hpage : event.origin = signerOrigin → ∀ frame, event.source = some frame →
      (∃ page ∈ ch.pages, page.frame = frame) → ∃ page ∈ ch.pages, page.frame = frame ∧ page.Posted event.data) :
    Linked messageByteLength { ch with client := ch.client.onMessage signerOrigin event } := by
  have hkept := hl.kept.onMessage signerOrigin event
  rcases onMessage_cases signerOrigin ch.client event with
    heq | ⟨frame, requestId, p, horigin, hframe, hsource, hid, hp, heq⟩ <;> rw [heq] at hkept ⊢
  · exact hl.narrow hkept .refl fun _ _ h => h.elim
  · refine hl.narrow hkept narrows_finish ?_
    rintro _ data ⟨rfl, houtcome⟩
    obtain ⟨rfl, htype, herror⟩ := outcomeOf_resolved houtcome
    obtain ⟨page, hpage, -, hposted⟩ := hpage horigin frame hsource (hl.frame frame hframe)
    obtain ⟨m, hm, hmid, hmcall, call, hcall, -⟩ := hl.pending requestId p hp
    have hran := hl.pages page hpage
    refine ⟨call, hcall, m, hm, hmcall, page, hpage, page, ⟨rfl, rfl, rfl, List.prefix_rfl, hran.1⟩, ?_⟩
    rw [hmid]
    exact hran.answers hl.messages hposted hid htype herror hm hmid (hmcall ▸ hcall)

/-- A page goes on. -/
theorem Linked.page (hl : Linked messageByteLength ch) {before after : List Page} {page : Page} {event : Secure.Event}
    {world : World} (hpages : ch.pages = before ++ page :: after) (hstep : Step page.env event page.world world)
    (hmessage : ∀ data now, event = .message data now →
      ∃ m ∈ ch.sent, m.frame = page.frame ∧ data = validateInbound messageByteLength m.data) :
    Linked messageByteLength
      { ch with pages := before ++ { page with events := page.events ++ [event], world := world } :: after } := by
  have hmem : ∀ other ∈ ch.pages, other = page ∨ other ∈ before ++ after := by
    intro other hother
    rw [hpages] at hother
    simp only [List.mem_append, List.mem_cons] at hother ⊢
    tauto
  have hold : ∀ other ∈ before ++ after, other ∈ ch.pages := by
    intro other hother
    rw [hpages]
    simp only [List.mem_append, List.mem_cons] at hother ⊢
    tauto
  have hnew : ∀ other, other ∈ before ++ { page with events := page.events ++ [event], world := world } :: after ↔
      other = { page with events := page.events ++ [event], world := world } ∨ other ∈ before ++ after := by
    intro other
    simp only [List.mem_append, List.mem_cons]
    tauto
  refine ⟨hl.kept, hl.calls, fun f hf => ?_, hl.preparing, hl.messages, hl.pending, fun other hother => ?_,
    fun n data h => ?_⟩
  · obtain ⟨other, hother, rfl⟩ := hl.frame f hf
    rcases hmem other hother with rfl | hother
    · exact ⟨_, (hnew _).2 (.inl rfl), rfl⟩
    · exact ⟨other, (hnew _).2 (.inr hother), rfl⟩
  · rcases (hnew other).1 hother with rfl | hother
    · obtain ⟨hrun, hreceived⟩ := hl.pages page (by rw [hpages]; simp)
      refine ⟨hrun.snoc hstep, fun data hdata => ?_⟩
      rw [messages_append] at hdata
      rcases List.mem_append.1 hdata with hdata | hdata
      · exact hreceived data hdata
      · obtain ⟨e, he, hread⟩ := List.mem_filterMap.1 hdata
        rw [List.mem_singleton.1 he] at hread
        cases event with
        | message data' now =>
          cases hread
          obtain ⟨m, hm, -, hvalid⟩ := hmessage data now rfl
          exact ⟨m, hm, hvalid⟩
        | _ => cases hread
    · exact hl.pages other (hold other hother)
  · obtain ⟨call, hcall, m, hm, hmcall, other, hother, snap, hbefore, hanswers⟩ := hl.resolved n data h
    rcases hmem other hother with rfl | hother
    · refine ⟨call, hcall, m, hm, hmcall, _, (hnew _).2 (.inl rfl), snap, ?_, hanswers⟩
      exact ⟨hbefore.frame, hbefore.env, hbefore.store, hbefore.events.trans (List.prefix_append _ _), hbefore.ran⟩
    · exact ⟨call, hcall, m, hm, hmcall, other, (hnew _).2 (.inr hother), snap, hbefore, hanswers⟩

/-- **One step.** -/
theorem Linked.step (hl : Linked messageByteLength ch) (hstep : ChannelStep messageByteLength signerOrigin ch ch') :
    Linked messageByteLength ch' := by
  cases hstep with
  | @attachIframe frame env store =>
    have hload := hl.load frame env store
    refine ⟨⟨hl.kept.placed, hl.kept.future, hl.kept.waits, hl.kept.timed, hl.kept.keys⟩, hload.calls, ?_, hload.preparing,
      hload.messages, hload.pending, hload.pages, hload.resolved⟩
    rintro _ ⟨⟩
    exact ⟨_, List.mem_append_right _ List.mem_cons_self, rfl⟩
  | remountSigner _ => exact hl.load _ _ _
  | detach =>
    exact ⟨⟨hl.kept.placed, hl.kept.future, hl.kept.waits, hl.kept.timed, hl.kept.keys⟩, hl.calls, fun _ h => (nomatch h),
      hl.preparing, hl.messages, hl.pending, hl.pages, hl.resolved⟩
  | begin call => exact hl.begin call
  | notReady n => exact hl.narrow (hl.kept.notReady n) narrows_notReady fun _ _ h => h.elim
  | post hbytes hfresh => exact hl.post hbytes hfresh
  | timeout n => exact hl.narrow (hl.kept.fireTimeout n) (narrows_fireTimeout hl.kept) fun _ _ h => h.elim
  | cancel => exact hl.narrow hl.kept.cancelAllPending (narrows_cancelAllPending hl.kept) fun _ _ h => h.elim
  | receive hpage => exact hl.receive hpage
  | page hpages hstep hmessage => exact hl.page hpages hstep hmessage

/-- **Every run of the app and the signer.** -/
theorem Channel.Reaches.linked (hreach : Channel.Reaches messageByteLength signerOrigin .start ch) :
    Linked messageByteLength ch := by
  induction hreach with
  | refl => exact .start
  | tail _ hstep ih => exact ih.step hstep

end Linked

/-- **The app and its signer.** In every run of the client and of the pages in its frame, whatever else posts to it: no call
is settled twice, and a call that is not settled waits for its frame, or for an answer with its timer running; a message
that fits is accepted as the request of its own call; no two messages have one id; and a call is resolved only with what a
page has posted under the id of that very call's message, after the user's yes for it: for a transaction, a signature over
exactly its bytes, which the policy has accepted. -/
theorem signer_client {messageByteLength : JsValue → Option Nat} {signerOrigin : String} {ch : Channel}
    (hreach : Channel.Reaches messageByteLength signerOrigin .start ch) :
    (ch.client.settled.map Prod.fst).Nodup ∧
    (∀ n < ch.made.length, n ∈ ch.client.settled.map Prod.fst ∨ (OrderedMap.get ch.client.preparing n).isSome = true ∨
      ∃ requestId p, OrderedMap.get ch.client.timers n = some requestId ∧
        OrderedMap.get ch.client.pending requestId = some p ∧ p.call = n) ∧
    (∀ m ∈ ch.sent, ∃ call now, ch.made[m.call]? = some call ∧
      (call.body.Valid → Fits messageByteLength m.data →
        validateInbound messageByteLength m.data = .ok ⟨m.requestId, now, call.body⟩)) ∧
    (∀ m ∈ ch.sent, ∀ m' ∈ ch.sent, m.requestId = m'.requestId → m = m') ∧
    ∀ n data, (n, .resolved data) ∈ ch.client.settled → Resolved ch n data := by
  have hl := hreach.linked
  refine ⟨hl.kept.nodup, fun n hn => ?_, fun m hm => ?_, hl.messages.ids, hl.resolved⟩
  · rcases hl.kept.place (hl.calls.symm ▸ hn) with ⟨hcount, -, -⟩ | ⟨-, hpreparing | htimer⟩
    · exact .inl (List.count_pos_iff.1 (by omega))
    · exact .inr (.inl hpreparing)
    · obtain ⟨requestId, htimer⟩ := Option.isSome_iff_exists.1 htimer
      obtain ⟨p, hp, hcall⟩ := hl.kept.timed n requestId htimer
      exact .inr (.inr ⟨requestId, p, htimer, hp, hcall⟩)
  · obtain ⟨call, now, bytes, hbytes, hid, hcall, hdata⟩ := hl.messages.own m hm
    refine ⟨call, now, hcall, fun hbody hfits => ?_⟩
    rw [hdata, hid] at hfits ⊢
    exact validateInbound_message hbytes hbody hfits

/-! ## An example -/

/-- A page of the channel runs. -/
theorem reaches_page {messageByteLength : JsValue → Option Nat} {signerOrigin : String} {ch : Channel}
    {before after : List Page} {page : Page} {events : List Secure.Event} {world : World}
    (hpages : ch.pages = before ++ page :: after)
    (hrun : Runs.Run (fun e w w' => Step page.env e w w' ∧ ∀ data now, e = .message data now →
      ∃ m ∈ ch.sent, m.frame = page.frame ∧ data = validateInbound messageByteLength m.data) page.world events world) :
    Channel.Reaches messageByteLength signerOrigin ch
      { ch with pages := before ++ { page with events := page.events ++ events, world := world } :: after } := by
  induction hrun with
  | nil =>
    rw [List.append_nil, ← hpages]
  | @snoc ls w e w' _ hstep ih =>
    have hnext := @ChannelStep.page messageByteLength signerOrigin
      { ch with pages := before ++ { page with events := page.events ++ ls, world := w } :: after } before after
      { page with events := page.events ++ ls, world := w } e w' rfl hstep.1 hstep.2
    rw [← List.append_assoc]
    exact ih.tail hnext

def exampleRequestId : String := randomRequestId (List.replicate 16 7)

def exampleCall : ClientCall := .signTransaction exampleTransaction

/-- The request, the confirmation, the passkey and the keys. -/
def callMoves : List Move :=
  [.message (.ok ⟨exampleRequestId, 0, exampleCall.body⟩) 0, .answer, .answer, .answer, .answer, .answer, .answer]

/-- The signature for the call. -/
def exampleAnswer : Outgoing :=
  .signResult exampleRequestId (bytesToBase64 exampleSignature .std) exampleKey.text

/-- No other message comes. -/
def onlyCall : Move → World → Bool
  | .message data _, _ => decide (data = .ok ⟨exampleRequestId, 0, exampleCall.body⟩)
  | _, _ => true

theorem page_signs : ∃ ls w, Runs.Run (fun e w w' => Step exampleEnv e w w' ∧
      ∀ data now, e = .message data now → data = .ok ⟨exampleRequestId, 0, exampleCall.body⟩) (.start exampleStore) ls w ∧
    (0, .posted exampleAnswer) ∈ w.desk.log := by
  have hposts : (World.execAll exampleEnv exampleAnswers onlyCall (.start exampleStore) callMoves).map
      (fun w => w.desk.posts 0) = some [exampleAnswer] := by
    have hfresh : (World.start exampleStore).seen.checkFreshnessAndReplay 0 exampleRequestId 0 = none := by decide +kernel
    have hbegin : (World.start exampleStore).desk.op.begin .signPending exampleRequestId =
        some ⟨.signPending, some exampleRequestId, none⟩ := by decide +kernel
    have hdecode : base64ToBytes (BaseText.base64Of exampleTransaction) maxTxBytes .std = .ok exampleTransaction := by
      rw [base64Of_eq]
      exact base64ToBytes_bytesToBase64 (by decide +kernel)
    have hprog : (routeOf (World.start exampleStore).desk.store exampleCall.body).prog exampleEnv
        ⟨(World.start exampleStore).received, exampleRequestId⟩ = _ := handleSign_decoded hdecode
    have honly : onlyCall (.message (.ok ⟨exampleRequestId, 0, exampleCall.body⟩) 0) (World.start exampleStore) = true := by
      simp only [onlyCall, decide_true]
    rw [callMoves, World.execAll, if_pos honly, exec_message hfresh hbegin]
    simp only
    rw [hprog]
    decide +kernel
  obtain ⟨w, hexec, hposts⟩ := Option.map_eq_some_iff.1 hposts
  have hallowed : ∀ m w, onlyCall m w = true → ∀ data now, m.event exampleAnswers w = .message data now →
      data = .ok ⟨exampleRequestId, 0, exampleCall.body⟩ := by
    intro m w hm data now hevent
    cases m with
    | message data' now' =>
      cases hevent
      exact of_decide_eq_true hm
    | answer =>
      unfold Move.event at hevent
      simp only at hevent
      split at hevent <;> cases hevent
    | dismiss => cases hevent
    | storage store => cases hevent
  obtain ⟨ls, hrun⟩ := run_of_execAll (P := fun e _ => ∀ data now, e = .message data now →
    data = .ok ⟨exampleRequestId, 0, exampleCall.body⟩) hallowed .nil hexec
  refine ⟨ls, w, hrun, ?_⟩
  rw [← mem_posts, hposts]
  exact List.mem_cons_self

/-- The page's message comes back to the client. -/
def exampleEvent : MessageEvent := ⟨"https://signer", some 0, exampleAnswer.data⟩

/-- The client after its call was posted to the frame. -/
def exampleChannel : Channel :=
  { (Channel.start.begin exampleCall).load 0 exampleEnv exampleStore with
    client := { (Channel.start.begin exampleCall).client with iframeEl := some 0 } }.post 0 exampleRequestId 0

theorem signer_client_signs : ∃ ch, Channel.Reaches (fun _ => some 0) "https://signer" .start ch ∧
    (0, .resolved exampleAnswer.data) ∈ ch.client.settled ∧ Resolved ch 0 exampleAnswer.data := by
  obtain ⟨ls, w, hrun, hposted⟩ := page_signs
  have hreach : Channel.Reaches (fun _ => some 0) "https://signer" .start exampleChannel :=
    ((Relation.ReflTransGen.single (.begin exampleCall)).tail .attachIframe).tail
      (.post (by decide) fun _ h => nomatch h)
  have hpages : exampleChannel.pages = [] ++ Page.load 0 exampleEnv exampleStore :: [] := rfl
  have hsent : exampleChannel.sent = [⟨0, exampleRequestId, 0, exampleCall.message exampleRequestId 0⟩] := rfl
  have hbody : exampleCall.body.Valid := by
    show validString (BaseText.base64Of exampleTransaction) (b64Cap maxTxBytes) = true
    unfold validString BaseText.base64Of
    rw [String.toList_ofList]
    decide +kernel
  have hvalid : validateInbound (fun _ => some 0) (exampleCall.message exampleRequestId 0) =
      .ok ⟨exampleRequestId, 0, exampleCall.body⟩ := validateInbound_message (by decide) hbody ⟨0, rfl, Nat.zero_le _⟩
  have hrun' : Runs.Run (fun e w w' => Step exampleEnv e w w' ∧ ∀ data now, e = .message data now →
      ∃ m ∈ exampleChannel.sent, m.frame = 0 ∧ data = validateInbound (fun _ => some 0) m.data)
      (.start exampleStore) ls w := by
    refine hrun.mono fun e w w' hstep =>
      ⟨hstep.1, fun data now he => ⟨⟨0, exampleRequestId, 0, exampleCall.message exampleRequestId 0⟩, ?_, rfl, ?_⟩⟩
    · rw [hsent]
      exact List.mem_cons_self
    · rw [hstep.2 data now he]
      exact hvalid.symm
  have hpage : Channel.Reaches (fun _ => some 0) "https://signer" exampleChannel _ := reaches_page hpages hrun'
  -- the page's message comes back to the client
  have hreceive := (hreach.trans hpage).tail (@ChannelStep.receive _ _ _ exampleEvent fun _ _ hframe _ => by
    cases hframe
    exact ⟨_, List.mem_cons_self, rfl, .inl ⟨0, exampleAnswer, hposted, rfl⟩⟩)
  have hsettled : (0, .resolved exampleAnswer.data) ∈
      (exampleChannel.client.onMessage "https://signer" exampleEvent).settled := by
    have hpending : OrderedMap.get exampleChannel.client.pending exampleRequestId = some ⟨0, exampleCall.resultType⟩ := by
      decide +kernel
    have hframe : exampleChannel.client.iframeEl = some 0 := rfl
    have hid : exampleEvent.data.get "requestId" = .string exampleRequestId := rfl
    simp only [SignerClient.onMessage, show exampleEvent.origin = "https://signer" from rfl, hframe,
      show exampleEvent.source = some 0 from rfl, hid, hpending, ne_eq, not_true_eq_false, if_false]
    exact List.mem_append_right _ List.mem_cons_self
  exact ⟨_, hreceive, hsettled, (signer_client hreceive).2.2.2.2 0 _ hsettled⟩

end PhygitalWallet.App
