import Mathlib.Logic.Relation
import PhygitalWallet.Lib.Runs
import PhygitalWallet.Secure.Handlers

/-!
# The signer among messages, replies and taps (`main.ts`)

Messages arrive at any time; a reply resumes a handler that waits; the busy screen may be dismissed, and other windows may
change the local storage.

- `Settles`: a handler runs to its next await or its end, through the tail calls of its retries;
- `Step`, `World.start`: what may happen, from an empty page;
- `Meanwhile`, `awaits`: what may happen between an await and its reply;
- `Settles.sound`: a handler that settles waits or ends well;
- `World.execAll`, `run_of_execAll`: runs on fixed inputs, evaluated;
- `Stable.unwrapWallet`, `Stable.enrollExistingCredential`: the wallet service keeps what replies keep.
-/

namespace PhygitalWallet.Secure

open Async Prog

/-! ## Steps -/

/-- A handler that waits. -/
structure Pending where
  handling : Handling
  route : Route
  waiting : Waiting Desk Thrown Site Site.Reply Flow

/-- The listener's own posts are kept apart from the desk. -/
structure World where
  seen : SeenRequests
  desk : Desk
  pool : List Pending
  rejected : List (Nat × Outgoing)
  received : Nat

/-- The page before its first message. -/
def World.start (store : LocalStore) : World where
  seen := .empty
  desk := { op := .idle, screen := .idle, busyDismiss := none, busies := 0, dismissed := [], store, draws := 0, log := [] }
  pool := []
  rejected := []
  received := 0

/-- `finally { state.end(); ui.renderIdle(); }`. -/
def Desk.close (s : Desk) : Desk := Desk.renderIdle { s with op := s.op.endOperation }

/-- `catch (e) { fail(requestId, codeOf(e)); }`. -/
def Desk.failed (s : Desk) (h : Handling) (e : Thrown) : Desk :=
  s.add h.ticket (.posted (.error (some h.requestId) (codeOf e)))

/-- What becomes of a handler at the end of a segment: it waits, or is over. -/
inductive Settles (env : SignerEnv) (h : Handling) (route : Route) :
    (Waiting Desk Thrown Site Site.Reply Flow ⊕ Except Thrown Flow) × Desk →
      Option (Waiting Desk Thrown Site Site.Reply Flow) → Desk → Prop
  | waits {w : Waiting Desk Thrown Site Site.Reply Flow} {s : Desk} : Settles env h route (.inl w, s) (some w) s
  | done {s : Desk} : Settles env h route (.inr (.ok .done), s) none s.close
  | again {s s' : Desk} {w : Option (Waiting Desk Thrown Site Site.Reply Flow)}
      (rest : Settles env h route ((route.prog env h).segment s) w s') : Settles env h route (.inr (.ok .again), s) w s'
  | failed {s : Desk} {e : Thrown} : Settles env h route (.inr (.error e), s) none (s.failed h e).close

def pendingOf (h : Handling) (route : Route) (w : Option (Waiting Desk Thrown Site Site.Reply Flow)) : List Pending :=
  (w.map fun waiting => ⟨h, route, waiting⟩).toList

inductive Event
  | message (data : ValidationResult) (now : ℚ)
  | reply (ticket : Nat) (site : Site) (r : Except Thrown site.Reply)
  | dismiss
  | storage (store : LocalStore)

/-- A message has been answered by the listener. -/
def World.reject (w : World) (seen : SeenRequests) (message : Outgoing) : World :=
  { w with seen, rejected := w.rejected ++ [(w.received, message)], received := w.received + 1 }

/-- What may happen. -/
inductive Step (env : SignerEnv) : Event → World → World → Prop
  | invalid {w : World} {code : ErrorCode} {requestId : Option String} {now : ℚ} :
      Step env (.message (.rejected code requestId) now) w (w.reject w.seen (.error requestId code))
  | replayed {w : World} {request : InboundRequest} {code : ErrorCode} {now : ℚ}
      (hreplay : w.seen.checkFreshnessAndReplay now request.requestId request.timestamp = some code) :
      Step env (.message (.ok request) now) w (w.reject w.seen (.error (some request.requestId) code))
  | pending {w : World} {request : InboundRequest} {now : ℚ}
      (hfresh : w.seen.checkFreshnessAndReplay now request.requestId request.timestamp = none)
      (hbegin : w.desk.op.begin request.body.operation request.requestId = none) :
      Step env (.message (.ok request) now) w
        (w.reject (w.seen.remember request.requestId) (.error (some request.requestId) .internalError))
  | accepted {w : World} {request : InboundRequest} {now : ℚ} {op : ActiveOperation} {desk : Desk}
      {waiting : Option (Waiting Desk Thrown Site Site.Reply Flow)}
      (hfresh : w.seen.checkFreshnessAndReplay now request.requestId request.timestamp = none)
      (hbegin : w.desk.op.begin request.body.operation request.requestId = some op)
      (hsettles : Settles env ⟨w.received, request.requestId⟩ (routeOf w.desk.store request.body)
        (((routeOf w.desk.store request.body).prog env ⟨w.received, request.requestId⟩).segment { w.desk with op := op })
        waiting desk) :
      Step env (.message (.ok request) now) w
        { seen := w.seen.remember request.requestId, desk := desk,
          pool := w.pool ++ pendingOf ⟨w.received, request.requestId⟩ (routeOf w.desk.store request.body) waiting,
          rejected := w.rejected, received := w.received + 1 }
  | reply {w : World} {before after : List Pending} {p : Pending} {r : Except Thrown p.waiting.site.Reply} {desk : Desk}
      {waiting : Option (Waiting Desk Thrown Site Site.Reply Flow)} (hpool : w.pool = before ++ p :: after)
      (hsettles : Settles env p.handling p.route
        ((p.waiting.resume r).segment (w.desk.add p.handling.ticket (.answered p.waiting.site r))) waiting desk) :
      Step env (.reply p.handling.ticket p.waiting.site r) w
        { w with desk := desk, pool := before ++ pendingOf p.handling p.route waiting ++ after }
  | dismiss {w : World} : Step env .dismiss w { w with desk := w.desk.dismiss }
  | storage {w : World} {store : LocalStore} :
      Step env (.storage store) w { w with desk := { w.desk with store := store } }

/-! ## Between an await and its reply -/

/-- The taps and the changes of the local storage. -/
inductive Meanwhile (s : Desk) : Desk → Prop
  | refl : Meanwhile s s
  | dismiss {t : Desk} (h : Meanwhile s t) : Meanwhile s t.dismiss
  | storage {t : Desk} (store : LocalStore) (h : Meanwhile s t) : Meanwhile s { t with store := store }

/-- Which replies are looked at. -/
abbrev Guard := ∀ c : Site, Except Thrown c.Reply → Desk → Prop

/-- A reply comes after taps and changes of the storage. -/
def awaits (h : Handling) (guard : Guard) : Env Desk Thrown Site Site.Reply := fun c r s t =>
  ∃ s', Meanwhile s s' ∧ guard c r s' ∧ t = s'.add h.ticket (.answered c r)

theorem Meanwhile.keeps {P : Desk → Prop} (hdismiss : ∀ s, P s → P s.dismiss)
    (hstorage : ∀ s store, P s → P { s with store := store }) {s t : Desk} (h : Meanwhile s t) (hs : P s) : P t := by
  induction h with
  | refl => exact hs
  | dismiss _ ih => exact hdismiss _ ih
  | storage store _ ih => exact hstorage _ store ih

theorem Meanwhile.after_dismiss {s t : Desk} (h : Meanwhile s.dismiss t) : Meanwhile s t := by
  induction h with
  | refl => exact .dismiss .refl
  | dismiss _ ih => exact .dismiss ih
  | storage store _ ih => exact .storage store ih

theorem Meanwhile.after_storage {s t : Desk} {store : LocalStore} (h : Meanwhile { s with store := store } t) :
    Meanwhile s t := by
  induction h with
  | refl => exact .storage store .refl
  | dismiss _ ih => exact .dismiss ih
  | storage store _ ih => exact .storage store ih

section Handling

variable {env : SignerEnv} {h : Handling} {route : Route} {guard : Guard} {I : Site → Desk → Prop}
  {Q : Except Thrown Flow → Desk → Prop} {w : Waiting Desk Thrown Site Site.Reply Flow} {s : Desk}

/-- A handler that waits well does so after a tap. -/
theorem waiting_dismiss (hI : ∀ c s, I c s → I c s.dismiss) (hw : w.wp (awaits h guard) I Q s) :
    w.wp (awaits h guard) I Q s.dismiss :=
  ⟨hI _ _ hw.1, fun r t ⟨s', hs', hrest⟩ => hw.2 r t ⟨s', hs'.after_dismiss, hrest⟩⟩

theorem waiting_storage {store : LocalStore} (hI : ∀ c s store, I c s → I c { s with store := store })
    (hw : w.wp (awaits h guard) I Q s) : w.wp (awaits h guard) I Q { s with store := store } :=
  ⟨hI _ _ _ hw.1, fun r t ⟨s', hs', hrest⟩ => hw.2 r t ⟨s', hs'.after_storage, hrest⟩⟩

/-- What a handler has come to: it waits well, or it is over and the desk is closed. -/
def Ends (h : Handling) (guard : Guard) (I : Site → Desk → Prop) (Q : Except Thrown Flow → Desk → Prop) (s : Desk) :
    Option (Waiting Desk Thrown Site Site.Reply Flow) → Prop
  | some w => w.wp (awaits h guard) I Q s
  | none => (∃ t, Q (.ok .done) t ∧ s = t.close) ∨ ∃ e t, Q (.error e) t ∧ s = (t.failed h e).close

/-- **A handler that settles**, where each retry ends well. -/
theorem Settles.sound {out : (Waiting Desk Thrown Site Site.Reply Flow ⊕ Except Thrown Flow) × Desk}
    {waiting : Option (Waiting Desk Thrown Site Site.Reply Flow)} (hsettles : Settles env h route out waiting s)
    (hagain : ∀ t, Q (.ok .again) t → (route.prog env h).wp (awaits h guard) I Q t)
    (hout : Settled (awaits h guard) I Q out) : Ends h guard I Q s waiting := by
  induction hsettles with
  | waits => exact hout
  | done => exact .inl ⟨_, hout, rfl⟩
  | again _ ih => exact ih (wp_segment.1 (hagain _ hout))
  | failed => exact .inr ⟨_, _, hout, rfl⟩

end Handling

/-! ## What the wallet service keeps -/

/-- A property of the desk that no tap, storage change, reply or draw of random bytes touches. -/
structure Stable (h : Handling) (guard : Guard) (P : Desk → Prop) : Prop where
  awaits : ∀ c r s t, awaits h guard c r s t → P s → P t
  draws : ∀ s n, P s → P { s with draws := n }

section Service

variable {env : SignerEnv} {h : Handling} {guard : Guard} {P : Desk → Prop} {scope : Scope} {call : Call}

theorem Stable.request (hP : Stable h guard P) : Keeps (Secure.awaits h guard) P (request scope call) :=
  keeps_awaitOk fun r s t ht => hP.awaits _ r s t ht

theorem Stable.unwrapWallet (hP : Stable h guard P) {prfOutput : Bytes} {parsed : ParsedWalletBlob} :
    Yields (Secure.awaits h guard) P (fun out => env.ed25519PublicKey out.1 = .ok out.2 ∧ out.2 = parsed.publicKey)
      (unwrapWallet env scope prfOutput parsed) := by
  refine yields_bind hP.request fun key _ => ?_
  refine yields_bind (A := fun _ => True) (yields_ofOutcome fun _ _ => trivial) fun aad _ => ?_
  refine yields_bind (yields_tryCatch hP.request fun _ => yields_throw _) fun seed _ => ?_
  refine yields_bind (yields_ofOutcome fun _ => id) fun publicKey hpublic => ?_
  split
  · exact yields_throw _
  · next heq => exact yields_pure ⟨hpublic, not_not.1 heq⟩

theorem Stable.decryptWallet (hP : Stable h guard P) {parsed : ParsedWalletBlob} :
    Yields (Secure.awaits h guard) P (fun out => env.ed25519PublicKey out.1 = .ok out.2 ∧ out.2 = parsed.publicKey)
      (decryptWallet env scope parsed) :=
  yields_bind (yields_tryCatch hP.request fun _ => yields_throw _) fun _ _ => hP.unwrapWallet

theorem Stable.drawBytes (hP : Stable h guard P) {n : Nat} : Keeps (Secure.awaits h guard) P (drawBytes env n) :=
  yields_call (fun s hs => hP.draws s _ hs) fun _ _ _ _ => trivial

/-- What is enrolled is a blob of the key that signed. -/
theorem Stable.enrollExistingCredential (hP : Stable h guard P) {credentialId message : Bytes} :
    Yields (Secure.awaits h guard) P (fun created => created.signature.isSome = true ∧ ∃ f, encodeWalletBlob f = .ok created.blob)
      (enrollExistingCredential env credentialId (some message)) := by
  refine yields_bind hP.request fun prfOutput _ => ?_
  refine yields_bind hP.drawBytes fun seed _ => ?_
  refine yields_bind (A := fun _ => True) (yields_ofOutcome fun _ _ => trivial) fun publicKey _ => ?_
  refine yields_bind hP.drawBytes fun kdfSalt _ => ?_
  refine yields_bind hP.drawBytes fun iv _ => ?_
  refine yields_bind hP.request fun key _ => ?_
  refine yields_bind (A := fun _ => True) (yields_ofOutcome fun _ _ => trivial) fun aad _ => ?_
  refine yields_bind hP.request fun ciphertext _ => ?_
  refine yields_bind (A := fun blob => ∃ f, encodeWalletBlob f = .ok blob) (yields_ofOutcome fun blob hblob => ?_)
    fun blob hblob => ?_
  · cases hencode : encodeWalletBlob ⟨publicKey, credentialId, kdfSalt, iv, ciphertext⟩ with
    | error e =>
      rw [hencode] at hblob
      cases hblob
    | ok bytes =>
      rw [hencode] at hblob
      cases hblob
      exact ⟨_, hencode⟩
  · refine yields_bind (A := fun signature => signature.isSome = true) ?_ fun signature hsignature => ?_
    · exact yields_map (A := fun _ => True) (yields_ofOutcome fun _ _ => trivial) fun _ _ => rfl
    · exact yields_pure ⟨hsignature, hblob⟩

theorem Stable.mintBackupChallenge (hP : Stable h guard P) :
    Keeps (Secure.awaits h guard) P (mintBackupChallenge scope) :=
  yields_tryCatch hP.request fun _ => yields_throw _

end Service

/-! ## Runs that are evaluated -/

/-- What happens next in a run where every await has its answer. -/
inductive Move
  | message (data : ValidationResult) (now : ℚ)
  | answer
  | dismiss
  | storage (store : LocalStore)

/-- `Settles` as a function; a tail call comes to an await at once. -/
def settle (env : SignerEnv) (h : Handling) (route : Route) :
    (Waiting Desk Thrown Site Site.Reply Flow ⊕ Except Thrown Flow) × Desk →
      Option (Option (Waiting Desk Thrown Site Site.Reply Flow) × Desk)
  | (.inl w, s) => some (some w, s)
  | (.inr (.ok .done), s) => some (none, s.close)
  | (.inr (.error e), s) => some (none, (s.failed h e).close)
  | (.inr (.ok .again), s) =>
    match (route.prog env h).segment s with
    | (.inl w, t) => some (some w, t)
    | _ => none

def World.exec (env : SignerEnv) (answers : ∀ c : Site, Except Thrown c.Reply) (w : World) : Move → Option World
  | .message (.rejected code requestId) _ => some (w.reject w.seen (.error requestId code))
  | .message (.ok request) now =>
    match w.seen.checkFreshnessAndReplay now request.requestId request.timestamp with
    | some code => some (w.reject w.seen (.error (some request.requestId) code))
    | none =>
      match w.desk.op.begin request.body.operation request.requestId with
      | none => some (w.reject (w.seen.remember request.requestId) (.error (some request.requestId) .internalError))
      | some op =>
        (settle env ⟨w.received, request.requestId⟩ (routeOf w.desk.store request.body)
          (((routeOf w.desk.store request.body).prog env ⟨w.received, request.requestId⟩).segment
            { w.desk with op := op })).map fun r =>
          { seen := w.seen.remember request.requestId, desk := r.2,
            pool := w.pool ++ pendingOf ⟨w.received, request.requestId⟩ (routeOf w.desk.store request.body) r.1,
            rejected := w.rejected, received := w.received + 1 }
  | .answer =>
    match w.pool with
    | [] => none
    | p :: after =>
      (settle env p.handling p.route ((p.waiting.resume (answers p.waiting.site)).segment
        (w.desk.add p.handling.ticket (.answered p.waiting.site (answers p.waiting.site))))).map fun r =>
        { w with desk := r.2, pool := pendingOf p.handling p.route r.1 ++ after }
  | .dismiss => some { w with desk := w.desk.dismiss }
  | .storage store => some { w with desk := { w.desk with store := store } }

/-- A request that is begun runs to its first await. -/
theorem exec_message {env : SignerEnv} {answers : ∀ c : Site, Except Thrown c.Reply} {w : World}
    {request : InboundRequest} {now : ℚ} {op : ActiveOperation}
    (hfresh : w.seen.checkFreshnessAndReplay now request.requestId request.timestamp = none)
    (hbegin : w.desk.op.begin request.body.operation request.requestId = some op) :
    w.exec env answers (.message (.ok request) now) =
      (settle env ⟨w.received, request.requestId⟩ (routeOf w.desk.store request.body)
        (((routeOf w.desk.store request.body).prog env ⟨w.received, request.requestId⟩).segment
          { w.desk with op := op })).map fun r =>
        { seen := w.seen.remember request.requestId, desk := r.2,
          pool := w.pool ++ pendingOf ⟨w.received, request.requestId⟩ (routeOf w.desk.store request.body) r.1,
          rejected := w.rejected, received := w.received + 1 } := by
  simp only [World.exec, hfresh, hbegin]

/-- The moves in order, while each of them is allowed. -/
def World.execAll (env : SignerEnv) (answers : ∀ c : Site, Except Thrown c.Reply) (allowed : Move → World → Bool) :
    World → List Move → Option World
  | w, [] => some w
  | w, m :: ms => if allowed m w then (w.exec env answers m).bind fun w' => w'.execAll env answers allowed ms else none

section Exec

variable {env : SignerEnv} {answers : ∀ c : Site, Except Thrown c.Reply}

theorem settles_of_settle {h : Handling} {route : Route}
    {out : (Waiting Desk Thrown Site Site.Reply Flow ⊕ Except Thrown Flow) × Desk}
    {r : Option (Waiting Desk Thrown Site Site.Reply Flow) × Desk} (hr : settle env h route out = some r) :
    Settles env h route out r.1 r.2 := by
  unfold settle at hr
  split at hr
  · cases hr
    exact .waits
  · cases hr
    exact .done
  · cases hr
    exact .failed
  · split at hr
    · next heq =>
      cases hr
      refine .again ?_
      rw [heq]
      exact .waits
    · cases hr

/-- Where a move is an answer, the reply that is given. -/
def Move.event (answers : ∀ c : Site, Except Thrown c.Reply) (w : World) : Move → Event
  | .message data now => .message data now
  | .answer =>
    match w.pool with
    | [] => .dismiss
    | p :: _ => .reply p.handling.ticket p.waiting.site (answers p.waiting.site)
  | .dismiss => .dismiss
  | .storage store => .storage store

theorem step_of_exec {w w' : World} {m : Move} (h : w.exec env answers m = some w') :
    Step env (m.event answers w) w w' := by
  cases m with
  | message data now =>
    cases data with
    | rejected code requestId =>
      cases h
      exact .invalid
    | ok request =>
      simp only [World.exec] at h
      split at h
      · next hreplay =>
        cases h
        exact .replayed hreplay
      · next hfresh =>
        split at h
        · next hbegin =>
          cases h
          exact .pending hfresh hbegin
        · next op hbegin =>
          obtain ⟨r, hr, rfl⟩ := Option.map_eq_some_iff.1 h
          exact .accepted hfresh hbegin (settles_of_settle hr)
  | answer =>
    obtain ⟨seen, desk, pool, rejected, received⟩ := w
    cases pool with
    | nil => cases h
    | cons p after =>
      obtain ⟨r, hr, rfl⟩ := Option.map_eq_some_iff.1 h
      exact @Step.reply env ⟨seen, desk, p :: after, rejected, received⟩ [] after p _ _ _ rfl (settles_of_settle hr)
  | dismiss =>
    cases h
    exact .dismiss
  | storage store =>
    cases h
    exact .storage

/-- What was evaluated is a run whose steps are as the allowed moves are. -/
theorem run_of_execAll {allowed : Move → World → Bool} {P : Event → World → Prop}
    (hP : ∀ m w, allowed m w = true → P (m.event answers w) w) : ∀ {ms : List Move} {w₀ w w' : World} {ls : List Event},
    Runs.Run (fun e w w' => Step env e w w' ∧ P e w) w₀ ls w → w.execAll env answers allowed ms = some w' →
      ∃ ls', Runs.Run (fun e w w' => Step env e w w' ∧ P e w) w₀ ls' w'
  | [], _, _, _, ls, hrun, h => by
    cases h
    exact ⟨ls, hrun⟩
  | m :: ms, _, w, _, _, hrun, h => by
    unfold World.execAll at h
    split at h
    · next hallowed =>
      obtain ⟨w₁, hexec, hrest⟩ := Option.bind_eq_some_iff.1 h
      exact run_of_execAll hP (hrun.snoc ⟨step_of_exec hexec, hP m w hallowed⟩) hrest
    · cases h

end Exec

end PhygitalWallet.Secure
