import PhygitalWallet.Secure.Signing

/-!
# A dismissed request is answered once (`main.ts`)

A tap on the busy screen posts `USER_CANCELLED` while the handler goes on. The handler looks at the flag before most of
what it does next, but not before all of it: `ActsUnseen` tells the replies on which it acts first.

- `Held`: the desk while a busy screen of the handling is registered, dismissed or not;
- `createBody_ends`, `remoteRestore_ends`, `restoreWalletSeed_ends`, ..: how each function leaves the desk;
- `Route.ends`: a handler posts once, or the tap does;
- `one_answer`: every message gets one answer, in every run where no reply is acted on unseen.
-/

namespace PhygitalWallet.Secure

open Async Prog

/-! ## What is posted -/

def postOf (ticket : Nat) : Nat × Entry → Option Outgoing
  | (n, .posted message) => if n = ticket then some message else none
  | _ => none

/-- What the handling of a message has posted. -/
def Desk.posts (s : Desk) (ticket : Nat) : List Outgoing := s.log.filterMap (postOf ticket)

section Posts

variable {s : Desk} {n ticket : Nat} {message : Outgoing}

theorem mem_posts : message ∈ s.posts n ↔ (n, .posted message) ∈ s.log := by
  refine List.mem_filterMap.trans ⟨?_, fun h => ⟨_, h, if_pos rfl⟩⟩
  rintro ⟨⟨m, entry⟩, hentry, hpost⟩
  cases entry with
  | answered site r => cases hpost
  | posted message' =>
    obtain ⟨rfl, hsame⟩ := Option.ite_none_right_eq_some.1 hpost
    cases hsame
    exact hentry

theorem posts_add {entry : Entry} : (s.add n entry).posts ticket = s.posts ticket ++ (postOf ticket (n, entry)).toList := by
  unfold Desk.posts Desk.add
  rw [List.filterMap_append]
  rfl

@[simp] theorem posts_add_posted : (s.add n (.posted message)).posts n = s.posts n ++ [message] := by
  rw [posts_add]
  simp [postOf]

theorem posts_add_of_ne {entry : Entry} (h : n ≠ ticket) : (s.add n entry).posts ticket = s.posts ticket := by
  rw [posts_add]
  cases entry <;> simp [postOf, h]

@[simp] theorem posts_add_answered {site : Site} {reply : Except Thrown site.Reply} :
    (s.add n (.answered site reply)).posts ticket = s.posts ticket := by
  rw [posts_add]
  simp [postOf]

end Posts

/-! ## Replies that are acted on unseen -/

/-- The replies on which a handler acts before it looks whether its screen was dismissed. -/
inductive ActsUnseen (env : SignerEnv) (store : LocalStore) : (site : Site) → Except Thrown site.Reply → Prop
  | createChallenge {minted : Challenge} {e : DecodeError}
      (h : base64ToBytes minted.challenge 64 .url = .error e) :
      ActsUnseen env store ⟨.create, .issueBackupChallenge⟩ (.ok minted)
  | backupFailed {scope : Scope} {params : BackupParams} {e : Thrown} (hscope : scope = .create ∨ scope = .localUnlock) :
      ActsUnseen env store ⟨scope, .backupOwnerWalletBlob params⟩ (.error e)
  | notWritten {scope : Scope} {params : BackupParams} {expiresAt : Nat} {raw : Bytes}
      (hscope : scope = .create ∨ scope = .localUnlock) (hraw : params.encryptedWalletBlob = bytesToBase64 raw .url)
      (hwrite : (writeLocalBlob raw store).1 = false) :
      ActsUnseen env store ⟨scope, .backupOwnerWalletBlob params⟩ (.ok expiresAt)
  | noBackup {scope : Scope} {challengeId : String} {assertion : Assertion} {r : Except Thrown (Option String)}
      (hscope : scope = .remoteUnlock ∨ scope = .restoreWalletSeed) (h : ∀ blob, r ≠ .ok (some blob)) :
      ActsUnseen env store ⟨scope, .restoreOwnerWalletBlob challengeId assertion⟩ r
  | otherCredential {scope : Scope} {challengeId blob : String} {assertion : Assertion} {raw : Bytes}
      {parsed : ParsedWalletBlob} (hscope : scope = .remoteUnlock ∨ scope = .restoreWalletSeed)
      (hraw : base64ToBytes blob 1024 .url = .ok raw) (hparsed : parseBlob raw = .ok parsed)
      (hne : parsed.credentialId ≠ assertion.rawId) :
      ActsUnseen env store ⟨scope, .restoreOwnerWalletBlob challengeId assertion⟩ (.ok (some blob))
  | remoteBackup {params : BackupParams} {r : Except Thrown Nat} :
      ActsUnseen env store ⟨.remoteUnlock, .backupOwnerWalletBlob params⟩ r
  | coldUnwrapped {key aad seed : Bytes} {parsed : ParsedWalletBlob}
      (h : env.ed25519PublicKey seed = .ok parsed.publicKey) :
      ActsUnseen env store ⟨.restoreWalletSeed, .aesGcmDecrypt key parsed aad⟩ (.ok seed)

/-- No reply is acted on unseen once the handling has posted, which before its end only a dismissal does. -/
def seen (env : SignerEnv) (h : Handling) : Guard := fun c r s => s.posts h.ticket ≠ [] → ¬ActsUnseen env s.store c r

/-! ## The desk of a handling -/

/-- The other handlings have posted what they had, and the next busy screen's number is not dismissed. -/
structure Tidy (base : Nat → List Outgoing) (h : Handling) (s : Desk) : Prop where
  others : ∀ n, n ≠ h.ticket → s.posts n = base n
  fresh : ∀ b ∈ s.dismissed, b < s.busies

/-- Nothing is posted yet. -/
structure Unanswered (base : Nat → List Outgoing) (h : Handling) (s : Desk) : Prop extends Tidy base h s where
  posts_eq : s.posts h.ticket = []

/-- Nothing is posted yet, and there is no busy screen to dismiss. -/
structure Undisturbed (base : Nat → List Outgoing) (h : Handling) (s : Desk) : Prop extends Unanswered base h s where
  busyDismiss_eq : s.busyDismiss = none

/-- A busy screen that was not dismissed. -/
structure Shows (base : Nat → List Outgoing) (h : Handling) (b : Nat) (s : Desk) : Prop extends Unanswered base h s where
  lt : b < s.busies
  not_mem : b ∉ s.dismissed
  busyDismiss_eq : s.busyDismiss = some ⟨b, h.ticket, h.requestId⟩

/-- A busy screen that was dismissed. -/
structure Dismissed (base : Nat → List Outgoing) (h : Handling) (b : Nat) (s : Desk) : Prop extends Tidy base h s where
  mem : b ∈ s.dismissed
  posts_eq : s.posts h.ticket = [.error (some h.requestId) .userCancelled]
  busyDismiss_eq : s.busyDismiss = none

/-- A busy screen, dismissed or not. -/
def Held (base : Nat → List Outgoing) (h : Handling) (b : Nat) (s : Desk) : Prop := Shows base h b s ∨ Dismissed base h b s

/-- One message is posted, for the request. -/
structure Answered (base : Nat → List Outgoing) (h : Handling) (s : Desk) : Prop extends Tidy base h s where
  answer : ∃ message, s.posts h.ticket = [message] ∧ message.requestId = some h.requestId

/-- A handling that waits. -/
def Rest (base : Nat → List Outgoing) (h : Handling) (s : Desk) : Prop := Undisturbed base h s ∨ ∃ b, Held base h b s

section Phases

variable {base : Nat → List Outgoing} {h : Handling} {b : Nat} {s : Desk} {store : LocalStore} {site : Site}
  {reply : Except Thrown site.Reply}

theorem Dismissed.answered (hs : Dismissed base h b s) : Answered base h s := ⟨hs.toTidy, _, hs.posts_eq, rfl⟩

/-- The only post is the answer. -/
theorem Unanswered.post {message : Outgoing} (hs : Unanswered base h s) (hmessage : message.requestId = some h.requestId) :
    Answered base h (s.add h.ticket (.posted message)) := by
  refine ⟨⟨fun n hn => ?_, hs.fresh⟩, message, ?_, hmessage⟩
  · rw [posts_add_of_ne hn.symm]
    exact hs.others n hn
  · rw [posts_add_posted, hs.posts_eq, List.nil_append]

theorem Tidy.add_answered (hs : Tidy base h s) : Tidy base h (s.add h.ticket (.answered site reply)) :=
  ⟨fun n hn => by rw [posts_add_answered]; exact hs.others n hn, hs.fresh⟩

theorem Unanswered.add_answered (hs : Unanswered base h s) : Unanswered base h (s.add h.ticket (.answered site reply)) :=
  ⟨hs.toTidy.add_answered, by rw [posts_add_answered]; exact hs.posts_eq⟩

theorem Undisturbed.add_answered (hs : Undisturbed base h s) :
    Undisturbed base h (s.add h.ticket (.answered site reply)) := ⟨hs.toUnanswered.add_answered, hs.busyDismiss_eq⟩

theorem Shows.add_answered (hs : Shows base h b s) : Shows base h b (s.add h.ticket (.answered site reply)) :=
  ⟨hs.toUnanswered.add_answered, hs.lt, hs.not_mem, hs.busyDismiss_eq⟩

theorem Dismissed.add_answered (hs : Dismissed base h b s) : Dismissed base h b (s.add h.ticket (.answered site reply)) :=
  ⟨hs.toTidy.add_answered, hs.mem, by rw [posts_add_answered]; exact hs.posts_eq, hs.busyDismiss_eq⟩

theorem Held.add_answered (hs : Held base h b s) : Held base h b (s.add h.ticket (.answered site reply)) :=
  hs.imp Shows.add_answered Dismissed.add_answered

/-! ## Taps -/

/-- Without a busy screen to dismiss a tap does nothing. -/
theorem dismiss_of_none (hs : s.busyDismiss = none) : s.dismiss = s := by
  unfold Desk.dismiss
  rw [hs]
  split
  · next hnone => cases hnone
  · rfl

/-- The dismissal posts the answer. -/
theorem Shows.dismiss (hs : Shows base h b s) : Held base h b s.dismiss := by
  unfold Desk.dismiss
  rw [hs.busyDismiss_eq]
  split
  · next busy hscreen hbusy =>
    cases hbusy
    rw [if_neg hs.not_mem]
    refine .inr ⟨⟨fun n hn => ?_, fun c hc => ?_⟩, List.mem_cons_self, ?_, rfl⟩
    · rw [posts_add_of_ne hn.symm]
      exact hs.others n hn
    · rcases List.mem_cons.1 hc with rfl | hc
      · exact hs.lt
      · exact hs.fresh c hc
    · rw [posts_add_posted]
      show s.posts h.ticket ++ _ = _
      rw [hs.posts_eq, List.nil_append]
  · exact .inl hs

theorem Held.dismiss (hs : Held base h b s) : Held base h b s.dismiss := by
  rcases hs with hs | hs
  · exact hs.dismiss
  · rw [dismiss_of_none hs.busyDismiss_eq]
    exact .inr hs

theorem Rest.dismiss (hs : Rest base h s) : Rest base h s.dismiss := by
  rcases hs with hs | ⟨b, hs⟩
  · rw [dismiss_of_none hs.busyDismiss_eq]
    exact .inl hs
  · exact .inr ⟨b, hs.dismiss⟩

theorem Shows.storage (hs : Shows base h b s) : Shows base h b { s with store := store } :=
  ⟨⟨⟨hs.others, hs.fresh⟩, hs.posts_eq⟩, hs.lt, hs.not_mem, hs.busyDismiss_eq⟩

theorem Held.storage (hs : Held base h b s) : Held base h b { s with store := store } :=
  hs.imp Shows.storage fun hs => ⟨⟨hs.others, hs.fresh⟩, hs.mem, hs.posts_eq, hs.busyDismiss_eq⟩

theorem Undisturbed.storage (hs : Undisturbed base h s) : Undisturbed base h { s with store := store } :=
  ⟨⟨⟨hs.others, hs.fresh⟩, hs.posts_eq⟩, hs.busyDismiss_eq⟩

theorem Rest.storage (hs : Rest base h s) : Rest base h { s with store := store } :=
  hs.imp Undisturbed.storage fun ⟨b, hs⟩ => ⟨b, hs.storage⟩

theorem Held.meanwhile {t : Desk} (hs : Held base h b s) (hmeanwhile : Meanwhile s t) : Held base h b t :=
  Meanwhile.keeps (P := Held base h b) (fun _ => Held.dismiss) (fun _ _ => Held.storage) hmeanwhile hs

theorem Undisturbed.meanwhile {t : Desk} (hs : Undisturbed base h s) (hmeanwhile : Meanwhile s t) :
    Undisturbed base h t :=
  Meanwhile.keeps (P := Undisturbed base h) (fun _ hs => by rw [dismiss_of_none hs.busyDismiss_eq]; exact hs)
    (fun _ _ => Undisturbed.storage) hmeanwhile hs

/-- A sheet is shown over the busy screen: a tap reaches the sheet. -/
theorem Shows.meanwhile {t : Desk} (hs : Shows base h b s) (hscreen : s.screen = .sheet) (hmeanwhile : Meanwhile s t) :
    Shows base h b t := by
  have hboth : Shows base h b t ∧ t.screen = .sheet := by
    refine Meanwhile.keeps (P := fun u => Shows base h b u ∧ u.screen = .sheet) (fun u hu => ?_)
      (fun _ _ hu => ⟨hu.1.storage, hu.2⟩) hmeanwhile ⟨hs, hscreen⟩
    have hsame : u.dismiss = u := by
      unfold Desk.dismiss
      rw [hu.2]
    rw [hsame]
    exact hu
  exact hboth.1

end Phases

/-! ## Rules -/

section Rules

variable {env : SignerEnv} {base : Nat → List Outgoing} {h : Handling} {b : Nat} {s : Desk} {scope : Scope} {call : Call}
  {α β : Type}

/-- The function ends so, and rests wherever it waits. -/
abbrev Goes {α : Type} (env : SignerEnv) (base : Nat → List Outgoing) (h : Handling)
    (Q : Except Thrown α → Desk → Prop) (p : Handler α) (s : Desk) : Prop :=
  p.wp (awaits h (seen env h)) (fun _ => Rest base h) Q s

/-- A reply under a busy screen, which is not acted on unseen. -/
structure Looked (env : SignerEnv) (base : Nat → List Outgoing) (h : Handling) (b : Nat) (site : Site)
    (r : Except Thrown site.Reply) (s : Desk) : Prop where
  held : Held base h b s
  unacted : b ∈ s.dismissed → ¬ActsUnseen env s.store site r

/-- A reply that is acted on finds the screen undismissed. -/
theorem Looked.shows {site : Site} {r : Except Thrown site.Reply} (hs : Looked env base h b site r s)
    (hacts : ActsUnseen env s.store site r) : Shows base h b s :=
  hs.held.resolve_right fun hdismissed => hs.unacted hdismissed.mem hacts

theorem stable_held : Stable h (seen env h) (Held base h b) where
  awaits c r s t ht hs := by
    obtain ⟨s', hmeanwhile, -, rfl⟩ := ht
    exact (hs.meanwhile hmeanwhile).add_answered
  draws s n hs := hs.imp (fun hs => ⟨⟨⟨hs.others, hs.fresh⟩, hs.posts_eq⟩, hs.lt, hs.not_mem, hs.busyDismiss_eq⟩)
    fun hs => ⟨⟨hs.others, hs.fresh⟩, hs.mem, hs.posts_eq, hs.busyDismiss_eq⟩

theorem held_request (hs : Held base h b s) : Goes env base h (Looked env base h b ⟨scope, call⟩) (request scope call) s := by
  refine (wp_awaitOk (c := Site.mk scope call)).2 ⟨.inr ⟨b, hs⟩, ?_⟩
  rintro r t ⟨s', hmeanwhile, hseen, rfl⟩
  have hs' := hs.meanwhile hmeanwhile
  refine ⟨hs'.add_answered, fun hmem => hseen ?_⟩
  rcases hs' with hs' | hs'
  · exact absurd hmem hs'.not_mem
  · rw [hs'.posts_eq]
    exact List.cons_ne_nil _ _

theorem undisturbed_request (hs : Undisturbed base h s) :
    Goes env base h (fun _ => Undisturbed base h) (request scope call) s := by
  refine (wp_awaitOk (c := Site.mk scope call)).2 ⟨Or.inl hs, ?_⟩
  rintro r t ⟨s', hmeanwhile, -, rfl⟩
  exact (hs.meanwhile hmeanwhile).add_answered

theorem undisturbed_ask (hs : Undisturbed base h s) : Goes env base h (fun _ => Undisturbed base h) (ask scope call) s :=
  wp_bind.2 (wp_modify.2 (undisturbed_request ⟨⟨⟨hs.others, hs.fresh⟩, hs.posts_eq⟩, hs.busyDismiss_eq⟩))

/-- A question under a busy screen that was dismissed or not. -/
theorem held_ask (hs : Held base h b s) : Goes env base h (fun _ => Held base h b) (ask scope call) s := by
  refine wp_bind.2 (wp_modify.2 ?_)
  refine wp_mono (fun _ _ ht => ht.held) (held_request ?_)
  exact hs.imp (fun hs => ⟨⟨⟨hs.others, hs.fresh⟩, hs.posts_eq⟩, hs.lt, hs.not_mem, hs.busyDismiss_eq⟩)
    fun hs => ⟨⟨hs.others, hs.fresh⟩, hs.mem, hs.posts_eq, hs.busyDismiss_eq⟩

/-- The question covers the busy screen. -/
theorem shows_ask (hs : Shows base h b s) : Goes env base h (fun _ => Shows base h b) (ask scope call) s := by
  refine wp_bind.2 (wp_modify.2 ?_)
  have hs' : Shows base h b { s with screen := .sheet } :=
    ⟨⟨⟨hs.others, hs.fresh⟩, hs.posts_eq⟩, hs.lt, hs.not_mem, hs.busyDismiss_eq⟩
  refine follows_ok.2 ((wp_awaitOk (c := Site.mk scope call)).2 ⟨Or.inr ⟨b, Or.inl hs'⟩, ?_⟩)
  rintro r t ⟨s', hmeanwhile, -, rfl⟩
  exact (hs'.meanwhile rfl hmeanwhile).add_answered

/-- What keeps the desk held, wherever it waits. -/
theorem held_keeps {A : α → Prop} {p : Handler α} (hp : Yields (awaits h (seen env h)) (Held base h b) A p)
    (hs : Held base h b s) : Goes env base h (fun out t => Held base h b t ∧ ∀ a, out = .ok a → A a) p s :=
  wp_weaken (fun _ _ ht => Or.inr ⟨b, ht⟩) (hp s hs)

/-- One function that keeps the desk held, and then another; an error leaves the desk held. -/
theorem held_seq {A : α → Prop} {Q : Except Thrown β → Desk → Prop} {p : Handler α} {f : α → Handler β}
    (hQ : ∀ e t, Held base h b t → Q (.error e) t) (hp : Yields (awaits h (seen env h)) (Held base h b) A p)
    (hs : Held base h b s) (hf : ∀ a t, A a → Held base h b t → Goes env base h Q (f a) t) :
    Goes env base h Q (p >>= f) s :=
  wp_seq (held_keeps hp hs) (fun a t ht => hf a t (ht.2 a rfl) ht.1) fun e t ht => hQ e t ht.1

/-- The same where only the outcome matters. -/
theorem attempt_seq {Q : Except Thrown β → Desk → Prop} {Q₁ : Except Thrown α → Desk → Prop} {p : Handler α}
    {f : Except Thrown α → Handler β} (hp : Goes env base h Q₁ p s) (hf : ∀ out t, Q₁ out t → Goes env base h Q (f out) t) :
    Goes env base h Q (attempt p >>= f) s :=
  wp_bind.2 (wp_attempt.2 (wp_mono (fun out t ht => follows_ok.2 (hf out t ht)) hp))

/-- What follows a look at the flag: nothing, where it is set. -/
theorem held_guarded {Q : Except Thrown α → Desk → Prop} {a : α} {p : Handler α} (hs : Held base h b s)
    (hdone : Dismissed base h b s → Q (.ok a) s) (hp : Shows base h b s → Goes env base h Q p s) :
    Goes env base h Q (do
      let dismissed ← wasDismissed b
      if dismissed then return a else p) s := by
  refine wp_bind.2 (wp_call.2 (follows_ok.2 ?_))
  rcases hs with hs | hs
  · rw [if_neg (by simpa using hs.not_mem)]
    exact hp hs
  · rw [if_pos (by simpa using hs.mem)]
    exact hdone hs

theorem unanswered_failDone {code : ErrorCode} {Q : Except Thrown Flow → Desk → Prop} (hs : Unanswered base h s)
    (hQ : ∀ t, Answered base h t → Q (.ok .done) t) : Goes env base h Q (failDone h code) s :=
  hQ _ (hs.post rfl)

/-- A success is posted. -/
theorem unanswered_post {message : Outgoing} {Q : Except Thrown Flow → Desk → Prop} (hs : Unanswered base h s)
    (hmessage : message.requestId = some h.requestId) (hQ : ∀ t, Answered base h t → Q (.ok .done) t) :
    Goes env base h Q (do
      post h message
      return .done) s := hQ _ (hs.post hmessage)

/-- A busy screen is shown, in place of any before. -/
theorem wp_beginBusy {Q : Except Thrown Nat → Desk → Prop} (hs : Unanswered base h s)
    (hQ : ∀ b t, Shows base h b t → Q (.ok b) t) : Goes env base h Q (beginBusy h) s := by
  refine hQ s.busies _ ⟨⟨⟨hs.others, fun c hc => (hs.fresh c hc).trans (Nat.lt_succ_self _)⟩, hs.posts_eq⟩,
    Nat.lt_succ_self _, fun hmem => ?_, rfl⟩
  exact lt_irrefl _ (hs.fresh _ hmem)

theorem Unanswered.clear (hs : Unanswered base h s) : Undisturbed base h { s with busyDismiss := none } :=
  ⟨⟨⟨hs.others, hs.fresh⟩, hs.posts_eq⟩, rfl⟩

theorem Answered.clear (hs : Answered base h s) : Answered base h { s with busyDismiss := none } :=
  ⟨⟨hs.others, hs.fresh⟩, hs.answer⟩

theorem held_outcome {out : Except Thrown α} {A : α → Prop} (hA : ∀ a, out = .ok a → A a) :
    Yields (awaits h (seen env h)) (Held base h b) A (ofOutcome out : Handler α) := yields_ofOutcome hA

end Rules

/-! ## Create and local unlock -/

/-- How a `try` block under a busy screen ends, with `E` where it throws. -/
def BodyEnds (base : Nat → List Outgoing) (h : Handling) (E : Desk → Prop) : Except Thrown Flow → Desk → Prop
  | .ok .done, s => Answered base h s
  | .ok .again, _ => False
  | .error _, s => E s

/-- How its `catch` block ends. -/
def CatchEnds (base : Nat → List Outgoing) (h : Handling) : Except Thrown Flow → Desk → Prop
  | .ok .done, s => Answered base h s
  | .ok .again, s | .error _, s => Unanswered base h s

/-- How a handler ends: it answered, or is to start anew or to be answered for what it throws. -/
def HandlerEnds (base : Nat → List Outgoing) (h : Handling) : Except Thrown Flow → Desk → Prop
  | .ok .done, s => Answered base h s
  | .ok .again, s | .error _, s => Undisturbed base h s

section Unlock

variable {env : SignerEnv} {base : Nat → List Outgoing} {h : Handling} {b : Nat} {s : Desk} {scope : Scope}

theorem held_mintBackupChallenge (hs : Held base h b s) :
    Goes env base h (fun out t => Held base h b t ∧ ∀ minted, out = .ok minted →
      Looked env base h b ⟨scope, .issueBackupChallenge⟩ (.ok minted) t) (mintBackupChallenge scope) s := by
  refine wp_tryCatch (held_request hs) (fun minted t ht => ⟨ht.held, ?_⟩) fun e t ht => ⟨ht.held, fun _ h => nomatch h⟩
  rintro _ ⟨⟩
  exact ht

/-- From the backup on. -/
theorem backup_ends {raw : Bytes} {pk challengeId signature : String} {attestation : Option String} {created : Bool}
    {rest : Except Thrown Nat → Handler Flow} (hscope : scope = .create ∨ scope = .localUnlock) (hs : Held base h b s)
    (herror : ∀ e, rest (.error e) = failDone h .blobUnavailable)
    (hok : ∀ expiresAt, rest (.ok expiresAt) = do
      let written ← writeLocal raw
      if written then do
        ask scope (.showSuccess pk created)
        let dismissed ← wasDismissed b
        if dismissed then return .done
        else do
          post h (.authComplete h.requestId pk created expiresAt)
          return .done
      else failDone h .internalError) :
    Goes env base h (BodyEnds base h (Held base h b))
      (attempt (request scope (.backupOwnerWalletBlob ⟨bytesToBase64 raw .url, pk, challengeId, signature, attestation⟩)) >>=
        rest) s := by
  have hfailed : ∀ e t, Shows base h b t → Goes env base h (BodyEnds base h (Held base h b)) (rest (.error e)) t := by
    intro e t ht
    rw [herror]
    exact unanswered_failDone ht.toUnanswered fun _ h => h
  have hbacked : ∀ expiresAt t, Held base h b t → ((writeLocalBlob raw t.store).1 = false → Shows base h b t) →
      Goes env base h (BodyEnds base h (Held base h b)) (rest (.ok expiresAt)) t := by
    intro expiresAt t ht hwritten
    rw [hok]
    refine wp_bind.2 (wp_call.2 (follows_ok.2 ?_))
    cases hwrite : (writeLocalBlob raw t.store).1 with
    | false => exact unanswered_failDone (hwritten hwrite).storage.toUnanswered fun _ h => h
    | true =>
      refine wp_seq (held_ask ht.storage) (fun _ u hu => ?_) fun _ _ hu => hu
      refine held_guarded hu (fun hdone => hdone.answered) fun hshows => ?_
      exact unanswered_post hshows.toUnanswered rfl fun _ h => h
  refine attempt_seq (held_request hs) fun out t ht => ?_
  cases out with
  | error e => exact hfailed e t (ht.shows (.backupFailed hscope))
  | ok expiresAt => exact hbacked expiresAt t ht.held fun hwrite => ht.shows (.notWritten hscope rfl hwrite)

theorem createBody_ends {credentialIdB64 attestation : String} (hs : Shows base h b s) :
    Goes env base h (BodyEnds base h (Held base h b)) (createBody env h credentialIdB64 attestation b) s := by
  refine wp_seq (held_mintBackupChallenge (.inl hs)) (fun minted t ht => ?_) fun _ _ ht => ht.1
  split
  · next e hdecode => exact unanswered_failDone ((ht.2 _ rfl).shows (.createChallenge hdecode)).toUnanswered fun _ h => h
  · refine held_seq (A := fun _ => True) (fun _ _ h => h) (held_outcome fun _ _ => trivial) ht.1 fun credentialId t _ ht => ?_
    refine held_seq (fun _ _ h => h) stable_held.enrollExistingCredential.keeps ht fun created t _ ht => ?_
    refine held_guarded ht (fun hdone => hdone.answered) fun hshows => ?_
    split
    · exact unanswered_failDone hshows.toUnanswered fun _ h => h
    · refine held_seq (A := fun _ => True) (fun _ _ h => h) (held_outcome fun _ _ => trivial) (.inl hshows) fun pk t _ ht => ?_
      exact backup_ends (.inl rfl) ht (fun _ => rfl) fun _ => rfl

/-- After a look at the flag a failed `try` block asks to retry, gives up or throws on. -/
theorem unanswered_askAgain {scope : Scope} {code : ErrorCode} {retry : Handler Flow} (hs : Shows base h b s)
    (hretry : ∀ t, Shows base h b t → Goes env base h (CatchEnds base h) retry t) :
    Goes env base h (CatchEnds base h) (do
      let again : Again ← ask scope .showRecoverable
      match again with
      | .retry => retry
      | .cancel => failDone h code) s := by
  refine wp_seq (shows_ask hs) (fun again t ht => ?_) fun _ _ ht => ht.toUnanswered
  cases again with
  | retry => exact hretry t ht
  | cancel => exact unanswered_failDone ht.toUnanswered fun _ h => h

theorem createCatch_ends {e : Thrown} (hs : Held base h b s) :
    Goes env base h (CatchEnds base h) (createCatch h b e) s := by
  refine held_guarded hs (fun hdone => hdone.answered) fun hshows => ?_
  split
  · exact unanswered_askAgain hshows fun t ht => ht.toUnanswered.clear.toUnanswered
  · exact hshows.toUnanswered

theorem localUnlockBody_ends {raw : Bytes} {parsed : ParsedWalletBlob} (hs : Shows base h b s) :
    Goes env base h (BodyEnds base h (Held base h b)) (localUnlockBody env h raw parsed b) s := by
  refine wp_seq (held_mintBackupChallenge (.inl hs)) (fun minted t ht => ?_) fun _ _ ht => ht.1
  refine held_seq (fun _ _ h => h) stable_held.decryptWallet.keeps ht.1 fun unlocked t _ ht => ?_
  refine held_guarded ht (fun hdone => hdone.answered) fun hshows => ?_
  split
  · exact unanswered_failDone hshows.toUnanswered fun _ h => h
  · refine held_seq (A := fun _ => True) (fun _ _ h => h) (held_outcome fun _ _ => trivial) (.inl hshows) fun pk t _ ht => ?_
    exact backup_ends (.inr rfl) ht (fun _ => rfl) fun _ => rfl

theorem localUnlockCatch_ends {e : Thrown} (hs : Held base h b s) :
    Goes env base h (CatchEnds base h) (localUnlockCatch h b e) s := by
  refine held_guarded hs (fun hdone => hdone.answered) fun hshows => ?_
  split
  · exact unanswered_askAgain hshows fun t ht => ht.toUnanswered
  · exact hshows.toUnanswered

/-- A `try` block with its `catch` and `finally`. -/
theorem guarded_ends {E : Desk → Prop} {body : Handler Flow} {handle : Thrown → Handler Flow}
    (hbody : Goes env base h (BodyEnds base h E) body s)
    (hcatch : ∀ e t, E t → Goes env base h (CatchEnds base h) (handle e) t) :
    Goes env base h (HandlerEnds base h) (finallyDo (Prog.tryCatch body handle) clearBusy) s := by
  refine wp_finallyDo_modify.2 (wp_mono (Q := CatchEnds base h) (fun out t ht => ?_) (wp_tryCatch hbody ?_ hcatch))
  · rcases out with e | flow
    · exact Unanswered.clear ht
    · cases flow with
      | done => exact Answered.clear ht
      | again => exact Unanswered.clear ht
  · intro flow t ht
    cases flow with
    | done => exact ht
    | again => exact ht.elim

theorem handleCreate_ends {credentialIdB64 attestation : String} (hs : Undisturbed base h s) :
    Goes env base h (HandlerEnds base h) (handleCreate env h credentialIdB64 attestation) s := by
  refine wp_seq (undisturbed_ask hs) (fun confirmed t ht => ?_) fun _ _ ht => ht
  split
  · refine wp_bind.2 (wp_beginBusy ht.toUnanswered fun b u hu => ?_)
    exact guarded_ends (createBody_ends hu) fun e v hv => createCatch_ends hv
  · exact unanswered_failDone ht.toUnanswered fun _ h => h

theorem handleLocalUnlock_ends {raw : Bytes} {parsed : ParsedWalletBlob} (hs : Undisturbed base h s) :
    Goes env base h (HandlerEnds base h) (handleLocalUnlock env h raw parsed) s := by
  refine wp_seq (undisturbed_ask hs) (fun confirmed t ht => ?_) fun _ _ ht => ht
  split
  · refine wp_bind.2 (wp_beginBusy ht.toUnanswered fun b u hu => ?_)
    exact guarded_ends (localUnlockBody_ends hu) fun e v hv => localUnlockCatch_ends hv
  · exact unanswered_failDone ht.toUnanswered fun _ h => h

/-! ## Remote unlock -/

/-- What an assertion leaves. -/
def DiscoverEnds (base : Nat → List Outgoing) (h : Handling) (b : Nat) : Except Thrown (Option Discovered) → Desk → Prop
  | .ok none, s => Dismissed base h b s
  | .ok (some _), s => Shows base h b s
  | .error _, s => Held base h b s

theorem discover_ends {challenge : Bytes} (hs : Shows base h b s) :
    Goes env base h (DiscoverEnds base h b) (discover scope challenge b) s := by
  refine wp_seq (held_request (.inl hs)) (fun disc t ht => ?_) fun _ _ ht => ht.held
  refine wp_bind.2 (wp_call.2 (follows_ok.2 ?_))
  rcases ht.held with ht | ht
  · rw [if_neg (by simpa using ht.not_mem)]
    exact ht
  · rw [if_pos (by simpa using ht.mem)]
    exact ht

/-- The `try` block may end after its screen was cleared. -/
def ClearedOrHeld (base : Nat → List Outgoing) (h : Handling) (b : Nat) (s : Desk) : Prop :=
  Held base h b s ∨ Undisturbed base h s ∧ b ∉ s.dismissed

/-- Once the screen is cleared its flag stays. -/
theorem cleared_ask {call : Call} (hs : Undisturbed base h s) (hmem : b ∉ s.dismissed) :
    Goes env base h (fun _ t => Undisturbed base h t ∧ b ∉ t.dismissed) (ask scope call) s := by
  have hs' : Undisturbed base h { s with screen := .sheet } := ⟨⟨⟨hs.others, hs.fresh⟩, hs.posts_eq⟩, hs.busyDismiss_eq⟩
  refine wp_bind.2 (wp_modify.2 (follows_ok.2 ((wp_awaitOk (c := Site.mk scope call)).2 ⟨Or.inl hs', ?_⟩)))
  rintro r t ⟨s', hmeanwhile, -, rfl⟩
  have hboth : Undisturbed base h s' ∧ b ∉ s'.dismissed := by
    refine Meanwhile.keeps (P := fun u => Undisturbed base h u ∧ b ∉ u.dismissed) (fun u hu => ?_)
      (fun _ _ hu => ⟨hu.1.storage, hu.2⟩) hmeanwhile ⟨hs', hmem⟩
    rw [dismiss_of_none hu.1.busyDismiss_eq]
    exact hu
  exact ⟨hboth.1.add_answered, hboth.2⟩

theorem remoteUnlockBody_ends {backup : Challenge} {disc : Discovered} {challengeId blob : String}
    (hs : Looked env base h b ⟨.remoteUnlock, .restoreOwnerWalletBlob challengeId disc.assertion⟩ (.ok (some blob)) s) :
    Goes env base h (BodyEnds base h (ClearedOrHeld base h b)) (remoteUnlockBody env h backup disc blob b) s := by
  have herror : ∀ (e : Thrown) t, Held base h b t → BodyEnds base h (ClearedOrHeld base h b) (.error e) t :=
    fun _ _ ht => .inl ht
  refine wp_bind.2 (wp_ofOutcome.2 ?_)
  cases hraw : base64ToBytes blob 1024 .url with
  | error e => exact .inl hs.held
  | ok raw =>
    refine wp_bind.2 (wp_ofOutcome.2 ?_)
    cases hparsed : parseBlob raw with
    | error e => exact .inl hs.held
    | ok parsed =>
      show Goes env base h _ (if parsed.credentialId ≠ disc.credentialId then _ else _) s
      split
      · next hne => exact unanswered_failDone (hs.shows (.otherCredential (.inl rfl) hraw hparsed hne)).toUnanswered fun _ h => h
      · refine held_seq herror stable_held.unwrapWallet.keeps hs.held fun unlocked t _ ht => ?_
        refine held_guarded ht (fun hdone => hdone.answered) fun ht => ?_
        refine wp_bind.2 (wp_call.2 (follows_ok.2 ?_))
        split
        · split
          · exact unanswered_failDone ht.storage.toUnanswered fun _ h => h
          · refine held_seq (A := fun _ => True) herror (held_outcome fun _ _ => trivial) (.inl ht.storage) fun pk t _ ht => ?_
            refine attempt_seq (held_request ht) fun out t ht => ?_
            have hshows := ht.shows .remoteBackup
            cases out with
            | error e => exact unanswered_failDone hshows.toUnanswered fun _ h => h
            | ok expiresAt =>
              refine wp_bind.2 (wp_modify.2 (follows_ok.2 ?_))
              refine wp_seq (cleared_ask hshows.toUnanswered.clear hshows.not_mem) (fun _ u hu => ?_) fun _ _ hu => .inr hu
              exact unanswered_post hu.1.toUnanswered rfl fun _ h => h
        · exact unanswered_failDone ht.storage.toUnanswered fun _ h => h

theorem remoteUnlockCatch_ends {e : Thrown} (hs : ClearedOrHeld base h b s) :
    Goes env base h (CatchEnds base h) (remoteUnlockCatch b e) s := by
  rcases hs with hs | ⟨hs, hmem⟩
  · exact held_guarded hs (fun hdone => hdone.answered) fun hshows => hshows.toUnanswered
  · refine wp_bind.2 (wp_call.2 (follows_ok.2 ?_))
    rw [if_neg (by simpa using hmem)]
    exact hs.toUnanswered

theorem retryOr_ends {code : ErrorCode} (hs : Undisturbed base h s) :
    Goes env base h (HandlerEnds base h) (retryOr h code) s := by
  refine wp_seq (undisturbed_ask hs) (fun again t ht => ?_) fun _ _ ht => ht
  cases again with
  | retry => exact ht
  | cancel => exact unanswered_failDone ht.toUnanswered fun _ h => h

theorem remoteRestore_ends {restore backup : Challenge} {disc : Discovered} (hs : Unanswered base h s) :
    Goes env base h (HandlerEnds base h) (remoteRestore env h restore backup disc) s := by
  refine wp_bind.2 (wp_modify.2 (follows_ok.2 ?_))
  refine wp_bind.2 (wp_beginBusy hs.clear.toUnanswered fun b t ht => follows_ok.2 ?_)
  refine attempt_seq (held_request (.inl ht)) fun out t ht => ?_
  rcases out with e | _ | blob
  · have ht := ht.shows (.noBackup (.inl rfl) fun _ h => nomatch h)
    exact wp_bind.2 (wp_modify.2 (follows_ok.2 (unanswered_failDone ht.toUnanswered.clear.toUnanswered fun _ h => h)))
  · have ht := ht.shows (.noBackup (.inl rfl) fun _ h => nomatch h)
    exact wp_bind.2 (wp_modify.2 (follows_ok.2 (retryOr_ends ht.toUnanswered.clear)))
  · exact guarded_ends (remoteUnlockBody_ends ht) fun e t ht => remoteUnlockCatch_ends ht

theorem handleRemoteUnlock_ends (hs : Undisturbed base h s) :
    Goes env base h (HandlerEnds base h) (handleRemoteUnlock env h) s := by
  refine wp_seq (undisturbed_ask hs) (fun confirmed t ht => ?_) fun _ _ ht => ht
  split
  · refine attempt_seq (undisturbed_request ht) fun minted t ht => ?_
    split
    · exact unanswered_failDone ht.toUnanswered fun _ h => h
    · split
      · exact unanswered_failDone ht.toUnanswered fun _ h => h
      · refine wp_bind.2 (wp_beginBusy ht.toUnanswered fun b t ht => follows_ok.2 ?_)
        refine attempt_seq (discover_ends ht) fun found t ht => ?_
        rcases found with e | _ | disc
        · refine wp_bind.2 (wp_modify.2 (follows_ok.2 (wp_bind.2 (wp_call.2 (follows_ok.2 ?_)))))
          rcases (show Held base h b t from ht) with ht | ht
          · rw [if_neg (by simpa using ht.not_mem)]
            exact retryOr_ends ht.toUnanswered.clear
          · rw [if_pos (by simpa using ht.mem)]
            exact ht.answered.clear
        · exact Dismissed.answered ht
        · exact remoteRestore_ends (Shows.toUnanswered ht)
  · exact unanswered_failDone ht.toUnanswered fun _ h => h

end Unlock

/-! ## Sign and export -/

/-- How a cold start ends, with `W` where it has the wallet and `E` where it throws. -/
def RestoreEnds (base : Nat → List Outgoing) (h : Handling) (W E : Desk → Prop) : Except Thrown Restored → Desk → Prop
  | .ok .failed, s | .ok .dismissed, s => Answered base h s
  | .ok (.wallet _ _), s => W s
  | .error _, s => E s

/-- What an unlock leaves once its screen is cleared. -/
def UnlockEnds (base : Nat → List Outgoing) (h : Handling) : Except Thrown (Option (Bytes × Bytes)) → Desk → Prop
  | .ok none, s => Answered base h s
  | .ok (some _), s | .error _, s => Undisturbed base h s

/-- How the body of a local unlock ends, while its screen is still up. -/
def LocalEnds (base : Nat → List Outgoing) (h : Handling) (b : Nat) : Except Thrown (Option (Bytes × Bytes)) → Desk → Prop
  | .ok none, s => Dismissed base h b s
  | .ok (some _), s => Shows base h b s
  | .error _, s => Held base h b s

section Sign

variable {env : SignerEnv} {base : Nat → List Outgoing} {h : Handling} {b : Nat} {s : Desk}

theorem failRestore_ends {W E : Desk → Prop} {code : ErrorCode} (hs : Unanswered base h s) :
    Goes env base h (RestoreEnds base h W E) (failRestore h code) s := hs.post rfl

/-- A seed is not handed out unseen. -/
theorem unwrapCold_ends {prfOutput : Bytes} {parsed : ParsedWalletBlob} (hs : Held base h b s) :
    Goes env base h (fun out t => Held base h b t ∧ ∀ unlocked, out = .ok unlocked → Shows base h b t)
      (unwrapWallet env .restoreWalletSeed prfOutput parsed) s := by
  have herror : ∀ (e : Thrown) t, Held base h b t →
      Held base h b t ∧ ∀ unlocked : Bytes × Bytes, Except.error e = .ok unlocked → Shows base h b t :=
    fun _ _ ht => ⟨ht, fun _ h => nomatch h⟩
  refine held_seq herror stable_held.request hs fun key t _ ht => ?_
  refine held_seq (A := fun _ => True) herror (held_outcome fun _ _ => trivial) ht fun aad t _ ht => ?_
  refine wp_seq (wp_tryCatch (Q := fun out t => Held base h b t ∧ ∀ seed, out = .ok seed →
    Looked env base h b ⟨.restoreWalletSeed, .aesGcmDecrypt key parsed aad⟩ (.ok seed) t) (held_request ht) ?_ ?_) ?_ ?_
  · rintro seed t ht
    refine ⟨ht.held, ?_⟩
    rintro _ ⟨⟩
    exact ht
  · exact fun _ _ ht => ⟨ht.held, fun _ h => nomatch h⟩
  · intro seed t ht
    refine wp_bind.2 (wp_ofOutcome.2 ?_)
    cases hkey : env.ed25519PublicKey seed with
    | error e => exact herror e t ht.1
    | ok publicKey =>
      show Goes env base h _ (if publicKey ≠ parsed.publicKey then _ else _) t
      split
      · exact herror _ t ht.1
      · next heq =>
        rw [not_not.1 heq] at hkey
        exact ⟨ht.1, fun _ _ => (ht.2 seed rfl).shows (.coldUnwrapped hkey)⟩
  · exact fun e t ht => herror e t ht.1

theorem restoreBody_ends {restore : Challenge} {challenge : Bytes} (hs : Shows base h b s) :
    Goes env base h (RestoreEnds base h (Shows base h b) (Held base h b)) (restoreBody env h restore challenge b) s := by
  refine wp_seq (discover_ends hs) (fun found t ht => ?_) fun _ _ ht => ht
  rcases found with _ | disc
  · exact Dismissed.answered ht
  · refine attempt_seq (held_request (.inl ht)) fun out t ht => ?_
    rcases out with e | _ | blob
    · exact failRestore_ends (ht.shows (.noBackup (.inr rfl) fun _ h => nomatch h)).toUnanswered
    · exact failRestore_ends (ht.shows (.noBackup (.inr rfl) fun _ h => nomatch h)).toUnanswered
    · refine wp_bind.2 (wp_ofOutcome.2 ?_)
      cases hraw : base64ToBytes blob 1024 .url with
      | error e => exact ht.held
      | ok raw =>
        refine wp_bind.2 (wp_ofOutcome.2 ?_)
        cases hparsed : parseBlob raw with
        | error e => exact ht.held
        | ok parsed =>
          show Goes env base h _ (if parsed.credentialId ≠ disc.credentialId then _ else _) t
          split
          · next hne => exact failRestore_ends (ht.shows (.otherCredential (.inr rfl) hraw hparsed hne)).toUnanswered
          · refine wp_seq (unwrapCold_ends ht.held) (fun unlocked u hu => ?_) fun e u hu => hu.1
            have hu := hu.2 _ rfl
            refine wp_bind.2 (wp_call.2 (follows_ok.2 ?_))
            split
            · exact hu.storage
            · exact failRestore_ends hu.storage.toUnanswered

theorem restoreCatch_ends {e : Thrown} (hs : Held base h b s) :
    Goes env base h (RestoreEnds base h (Unanswered base h) (Unanswered base h)) (restoreCatch h b e) s := by
  refine held_guarded hs (fun hdone => hdone.answered) fun hshows => ?_
  split
  · exact failRestore_ends hshows.toUnanswered
  · exact hshows.toUnanswered

theorem restoreWalletSeed_ends (hs : Undisturbed base h s) :
    Goes env base h (RestoreEnds base h (Undisturbed base h) (Undisturbed base h)) (restoreWalletSeed env h) s := by
  refine attempt_seq (undisturbed_request hs) fun minted t ht => ?_
  split
  · exact failRestore_ends ht.toUnanswered
  · split
    · exact failRestore_ends ht.toUnanswered
    · refine wp_bind.2 (wp_beginBusy ht.toUnanswered fun b t ht => follows_ok.2 (wp_finallyDo_modify.2 ?_))
      refine wp_mono (Q := RestoreEnds base h (Unanswered base h) (Unanswered base h)) (fun out t ht => ?_)
        (wp_tryCatch (restoreBody_ends ht) (fun out t ht => ?_) fun e t ht => restoreCatch_ends ht)
      · rcases out with e | restored
        · exact Unanswered.clear ht
        · cases restored with
          | failed | dismissed => exact Answered.clear ht
          | wallet => exact Unanswered.clear ht
      · cases out with
        | failed | dismissed => exact ht
        | wallet => exact Shows.toUnanswered ht

theorem unlockLocal_ends {scope : Scope} {parsed : ParsedWalletBlob} (hs : Undisturbed base h s) :
    Goes env base h (UnlockEnds base h) (unlockLocal env h scope parsed) s := by
  refine wp_bind.2 (wp_beginBusy hs.toUnanswered fun b t ht => follows_ok.2 (wp_finallyDo_modify.2 ?_))
  refine @wp_tryCatch _ _ _ _ _ _ _ _ (LocalEnds base h b) _ _ _ ?_ (fun out t ht => ?_) fun e t ht => ?_
  · refine held_seq (fun _ _ ht => ht) stable_held.decryptWallet.keeps (.inl ht) fun unlocked t _ ht => ?_
    refine wp_bind.2 (wp_call.2 (follows_ok.2 ?_))
    rcases ht with ht | ht
    · rw [if_neg (by simpa using ht.not_mem)]
      exact ht
    · rw [if_pos (by simpa using ht.mem)]
      exact ht
  · cases out with
    | none => exact (Dismissed.answered ht).clear
    | some unlocked => exact (Shows.toUnanswered ht).clear
  · exact held_guarded (Q := fun out t => UnlockEnds base h out { t with busyDismiss := none }) ht
      (fun hdone => hdone.answered.clear) fun hshows => hshows.toUnanswered.clear

/-- What needs no screen, and then the rest. -/
theorem undisturbed_seq {α : Type} {p : Handler α} {f : α → Handler Flow}
    (hp : Goes env base h (fun _ => Undisturbed base h) p s)
    (hf : ∀ a t, Undisturbed base h t → Goes env base h (HandlerEnds base h) (f a) t) :
    Goes env base h (HandlerEnds base h) (p >>= f) s := wp_seq hp hf fun _ _ ht => ht

theorem undisturbed_digestHex {bytes : Bytes} (hs : Undisturbed base h s) :
    Goes env base h (fun _ => Undisturbed base h) (digestHex bytes) s :=
  wp_seq (undisturbed_request hs) (fun _ _ ht => ht) fun _ _ ht => ht

theorem signFrozen_ends {frozen seed publicKey : Bytes} (hs : Undisturbed base h s) :
    Goes env base h (HandlerEnds base h) (signFrozen env h frozen seed publicKey) s := by
  refine undisturbed_seq (undisturbed_digestHex hs) fun digest t ht => ?_
  refine undisturbed_seq (wp_call.2 ⟨⟨⟨ht.others, ht.fresh⟩, ht.posts_eq⟩, ht.busyDismiss_eq⟩) fun auth t ht => ?_
  split
  · exact unanswered_failDone ht.toUnanswered fun _ h => h
  · refine undisturbed_seq (wp_ofOutcome.2 ht) fun signature t ht => undisturbed_seq (wp_ofOutcome.2 ht) fun pk t ht => ?_
    exact unanswered_post ht.toUnanswered rfl fun _ h => h

theorem undisturbed_authorize {walletPublicKey : Bytes} {digest : String} (hs : Undisturbed base h s) :
    Goes env base h (fun _ => Undisturbed base h) (authorize h walletPublicKey digest) s :=
  wp_modify.2 ⟨⟨⟨hs.others, hs.fresh⟩, hs.posts_eq⟩, hs.busyDismiss_eq⟩

theorem signLocal_ends {tx : DecodedV1Transaction} {digest : String} {parsed : ParsedWalletBlob}
    (hs : Undisturbed base h s) :
    Goes env base h (HandlerEnds base h) (signLocal env h tx digest parsed) s := by
  refine undisturbed_seq (wp_ofOutcome.2 hs) fun owner t ht => ?_
  split
  · exact unanswered_failDone ht.toUnanswered fun _ h => h
  · refine undisturbed_seq (undisturbed_ask ht) fun confirmed t ht => ?_
    split
    · refine undisturbed_seq (undisturbed_authorize ht) fun _ t ht => ?_
      refine wp_seq (unlockLocal_ends ht) (fun unlocked t ht => ?_) fun _ _ ht => ht
      split
      · exact ht
      · exact signFrozen_ends ht
    · exact unanswered_failDone ht.toUnanswered fun _ h => h

theorem signCold_ends {tx : DecodedV1Transaction} {digest : String} (hs : Undisturbed base h s) :
    Goes env base h (HandlerEnds base h) (signCold env h tx digest) s := by
  unfold signCold
  split
  · exact unanswered_failDone hs.toUnanswered fun _ h => h
  · refine undisturbed_seq (undisturbed_ask hs) fun confirmed t ht => ?_
    split
    · refine wp_seq (restoreWalletSeed_ends ht) (fun restored t ht => ?_) fun _ _ ht => ht
      split
      · exact ht
      · exact ht
      · refine undisturbed_seq (wp_ofOutcome.2 ht) fun owner t ht => ?_
        split
        · exact unanswered_failDone ht.toUnanswered fun _ h => h
        · exact undisturbed_seq (undisturbed_authorize ht) fun _ t ht => signFrozen_ends ht
    · exact unanswered_failDone ht.toUnanswered fun _ h => h

theorem handleSign_ends {txB64 : String} (hs : Undisturbed base h s) :
    Goes env base h (HandlerEnds base h) (handleSign env h txB64) s := by
  refine undisturbed_seq (wp_ofOutcome.2 hs) fun txBytes t ht => ?_
  split
  · exact unanswered_failDone ht.toUnanswered fun _ h => h
  · refine undisturbed_seq (undisturbed_digestHex ht) fun digest t ht => ?_
    refine undisturbed_seq (wp_call.2 ht) fun stored t ht => ?_
    split
    · exact signLocal_ends ht
    · exact signCold_ends ht

theorem exportSecret_ends {seed publicKey : Bytes} (hs : Undisturbed base h s) :
    Goes env base h (HandlerEnds base h) (exportSecret h seed publicKey) s := by
  refine undisturbed_seq (wp_ofOutcome.2 hs) fun pk t ht => undisturbed_seq (undisturbed_ask ht) fun _ t ht => ?_
  exact unanswered_post ht.toUnanswered rfl fun _ h => h

theorem handleExportPrivateKey_ends (hs : Undisturbed base h s) :
    Goes env base h (HandlerEnds base h) (handleExportPrivateKey env h) s := by
  refine undisturbed_seq (undisturbed_ask hs) fun confirmed t ht => ?_
  split
  · refine undisturbed_seq (wp_call.2 ht) fun stored t ht => ?_
    split
    · refine wp_seq (unlockLocal_ends ht) (fun unlocked t ht => ?_) fun _ _ ht => ht
      split
      · exact ht
      · exact exportSecret_ends ht
    · refine wp_seq (restoreWalletSeed_ends ht) (fun restored t ht => ?_) fun _ _ ht => ht
      split
      · exact ht
      · exact ht
      · exact exportSecret_ends ht
  · exact unanswered_failDone ht.toUnanswered fun _ h => h

/-- **A handler answers once**, or a tap has answered for it. -/
theorem Route.ends {route : Route} (hs : Undisturbed base h s) :
    Goes env base h (HandlerEnds base h) (route.prog env h) s := by
  cases route with
  | create credentialIdB64 attestation => exact handleCreate_ends hs
  | incomplete => exact unanswered_failDone hs.toUnanswered fun _ h => h
  | localUnlock raw parsed => exact handleLocalUnlock_ends hs
  | remoteUnlock => exact handleRemoteUnlock_ends hs
  | sign txB64 => exact handleSign_ends hs
  | exportPrivateKey => exact handleExportPrivateKey_ends hs

end Sign

/-! ## The signer -/

/-- What the listener itself has answered. -/
def World.refusals (w : World) (ticket : Nat) : List Outgoing :=
  w.rejected.filterMap fun answer => if answer.1 = ticket then some answer.2 else none

/-- All that is posted for a message. -/
def World.answers (w : World) (ticket : Nat) : List Outgoing := w.refusals ticket ++ w.desk.posts ticket

/-- The request id that an answer to the message names. -/
def ValidationResult.answerId : ValidationResult → Option String
  | .ok request => some request.requestId
  | .rejected _ requestId => requestId

/-- Steps where no reply to a handling that has posted is acted on unseen. -/
def StepSeen (env : SignerEnv) (e : Event) (w w' : World) : Prop :=
  Step env e w w' ∧ ∀ ticket site r, e = .reply ticket site r → w.desk.posts ticket ≠ [] → ¬ActsUnseen env w.desk.store site r

/-- A handler waits, and what it has posted is what the tap posted. -/
structure Outstanding (env : SignerEnv) (ls : List Event) (w : World) (p : Pending) : Prop where
  asked : ∃ request, Asked ls p.handling request
  refusals_eq : w.refusals p.handling.ticket = []
  waiting : ∃ base, p.waiting.wp (awaits p.handling (seen env p.handling)) (fun _ => Rest base p.handling)
    (HandlerEnds base p.handling) w.desk

/-- What holds between the steps: a message without a handler that waits is answered. -/
structure AnswerInv (env : SignerEnv) (ls : List Event) (w : World) : Prop where
  future : ∀ n, w.received ≤ n → w.answers n = []
  fresh : ∀ b ∈ w.desk.dismissed, b < w.desk.busies
  pool : w.pool = [] ∧ w.desk.busyDismiss = none ∨ ∃ p, w.pool = [p] ∧ Outstanding env ls w p
  settled : ∀ n data, (messages ls)[n]? = some data → (∀ p ∈ w.pool, p.handling.ticket ≠ n) →
    ∃ message, w.answers n = [message] ∧ message.requestId = data.answerId

section Inv

variable {env : SignerEnv} {ls ls' : List Event} {w w' : World} {h : Handling} {s t : Desk} {base : Nat → List Outgoing}

theorem Rest.others (hs : Rest base h s) {n : Nat} (hn : n ≠ h.ticket) : s.posts n = base n := by
  rcases hs with hs | ⟨b, hs | hs⟩
  · exact hs.others n hn
  · exact hs.others n hn
  · exact hs.others n hn

theorem Rest.fresh (hs : Rest base h s) : ∀ b ∈ s.dismissed, b < s.busies := by
  rcases hs with hs | ⟨b, hs | hs⟩
  · exact hs.fresh
  · exact hs.fresh
  · exact hs.fresh

/-- Where a handler waits, a dismissal is all that is posted. -/
theorem Rest.posts (hs : Rest base h s) :
    s.posts h.ticket = [] ∨ s.posts h.ticket = [.error (some h.requestId) .userCancelled] := by
  rcases hs with hs | ⟨b, hs | hs⟩
  · exact .inl hs.posts_eq
  · exact .inl hs.posts_eq
  · exact .inr hs.posts_eq

theorem Outstanding.append {p : Pending} (hp : Outstanding env ls w p) : Outstanding env (ls ++ ls') w p := by
  obtain ⟨request, hasked⟩ := hp.asked
  exact ⟨⟨request, hasked.append⟩, hp.refusals_eq, hp.waiting⟩

theorem Outstanding.lt {p : Pending} (hp : Outstanding env ls w p) : p.handling.ticket < (messages ls).length := by
  obtain ⟨request, hat, -⟩ := hp.asked
  exact (List.getElem?_eq_some_iff.1 hat).1

theorem refusals_reject {seen : SeenRequests} {message : Outgoing} {n : Nat} :
    (w.reject seen message).refusals n = w.refusals n ++ if w.received = n then [message] else [] := by
  unfold World.refusals World.reject
  rw [List.filterMap_append]
  by_cases hn : w.received = n
  · rw [if_pos hn]
    simp [hn]
  · rw [if_neg hn]
    simp [hn]

theorem AnswerInv.start (store : LocalStore) : AnswerInv env [] (.start store) where
  future _ _ := rfl
  fresh _ hb := nomatch hb
  pool := .inl ⟨rfl, rfl⟩
  settled _ _ h := nomatch h

theorem messages_concat {data : ValidationResult} {now : ℚ} : messages (ls ++ [.message data now]) = messages ls ++ [data] := by
  rw [messages_append]
  rfl

/-- A message that the listener answers itself. -/
theorem AnswerInv.reject {data : ValidationResult} {now : ℚ} {seen : SeenRequests} {message : Outgoing}
    (hid : message.requestId = data.answerId) (hreceived : w.received = (messages ls).length) (hi : AnswerInv env ls w) :
    AnswerInv env (ls ++ [.message data now]) (w.reject seen message) where
  future n hn := by
    have hn' : w.received + 1 ≤ n := hn
    unfold World.answers
    rw [refusals_reject, if_neg (by omega), List.append_nil]
    exact hi.future n (by omega)
  fresh := hi.fresh
  pool := by
    refine hi.pool.imp id fun ⟨p, hpool, hp⟩ => ⟨p, hpool, hp.append.asked, ?_, hp.waiting⟩
    have hlt := hp.lt
    rw [refusals_reject, hp.refusals_eq, if_neg (by omega), List.append_nil]
  settled n other hother hpool := by
    rw [messages_concat] at hother
    unfold World.answers
    rw [refusals_reject]
    by_cases hn : w.received = n
    · subst hn
      have hnone := List.append_eq_nil_iff.1 (hi.future w.received le_rfl)
      rw [hreceived, List.getElem?_append_right le_rfl, Nat.sub_self] at hother
      cases hother
      refine ⟨message, ?_, hid⟩
      rw [if_pos rfl, hnone.1]
      show [message] ++ w.desk.posts w.received = _
      rw [hnone.2, List.append_nil]
    · rw [if_neg hn, List.append_nil]
      have hlt : n < (messages ls).length := by
        have hlen := (List.getElem?_eq_some_iff.1 hother).1
        rw [List.length_append, List.length_singleton] at hlen
        omega
      rw [List.getElem?_append_left hlt] at hother
      exact hi.settled n other hother hpool

/-- What a handler comes to leaves the other messages as they were. -/
theorem ends_others {waiting : Option (Waiting Desk Thrown Site Site.Reply Flow)}
    (hends : Ends h (seen env h) (fun _ => Rest base h) (HandlerEnds base h) t waiting) :
    (∀ n, n ≠ h.ticket → t.posts n = base n) ∧ (∀ b ∈ t.dismissed, b < t.busies) ∧
      (waiting = none → t.busyDismiss = none ∧ ∃ message, t.posts h.ticket = [message] ∧
        message.requestId = some h.requestId) := by
  cases waiting with
  | some w => exact ⟨fun n hn => hends.1.others hn, hends.1.fresh, fun h => nomatch h⟩
  | none =>
    rcases hends with ⟨s, hs, rfl⟩ | ⟨e, s, hs, rfl⟩
    · have hs : Answered base h s := hs
      exact ⟨hs.others, hs.fresh, fun _ => ⟨rfl, hs.answer⟩⟩
    · have hs : Answered base h (s.failed h e) := Undisturbed.toUnanswered hs |>.post rfl
      exact ⟨hs.others, hs.fresh, fun _ => ⟨rfl, hs.answer⟩⟩

/-- **A handler settles**: it waits, or its message has been answered. -/
theorem settled_answers {route : Route} {waiting : Option (Waiting Desk Thrown Site Site.Reply Flow)} {u : World}
    (hends : Ends h (seen env h) (fun _ => Rest base h) (HandlerEnds base h) u.desk waiting)
    (hpool : u.pool = pendingOf h route waiting) (hasked : ∃ request, Asked ls h request)
    (hrefusals : ∀ n, u.refusals n = w.refusals n) (hnone : w.refusals h.ticket = [])
    (hbase : ∀ n, n ≠ h.ticket → base n = w.desk.posts n) (hlt : h.ticket < u.received)
    (hfuture : ∀ n, u.received ≤ n → w.answers n = [])
    (hothers : ∀ n data, n ≠ h.ticket → (messages ls)[n]? = some data →
      ∃ message, w.answers n = [message] ∧ message.requestId = data.answerId) : AnswerInv env ls u := by
  obtain ⟨hposts, hfresh, hover⟩ := ends_others hends
  have hsame : ∀ n, n ≠ h.ticket → u.answers n = w.answers n := by
    intro n hn
    rw [World.answers, hrefusals, hposts n hn, hbase n hn]
    rfl
  refine ⟨fun n hn => ?_, hfresh, ?_, fun n data hdata hn => ?_⟩
  · rw [hsame n (by omega)]
    exact hfuture n hn
  · cases waiting with
    | none => exact .inl ⟨hpool, (hover rfl).1⟩
    | some q => exact .inr ⟨⟨h, route, q⟩, hpool, hasked, (hrefusals _).trans hnone, base, hends⟩
  · by_cases hticket : n = h.ticket
    · subst hticket
      cases waiting with
      | some q => exact absurd rfl (hn ⟨h, route, q⟩ (by rw [hpool]; exact List.mem_singleton.2 rfl))
      | none =>
        obtain ⟨message, hmessage, hid⟩ := (hover rfl).2
        obtain ⟨request, hat, hrequest⟩ := hasked
        rw [hat] at hdata
        cases hdata
        refine ⟨message, ?_, hid.trans (congrArg some hrequest.symm)⟩
        rw [World.answers, hrefusals, hnone, hmessage, List.nil_append]
    · rw [hsame n hticket]
      exact hothers n data hticket hdata

/-- Nothing is posted and no busy screen comes or goes. -/
structure Quiet (s t : Desk) : Prop where
  busyDismiss_eq : t.busyDismiss = none
  dismissed_eq : t.dismissed = s.dismissed
  busies_eq : t.busies = s.busies
  posts_eq : ∀ n, t.posts n = s.posts n

theorem Meanwhile.quiet (hmeanwhile : Meanwhile s t) (hbusy : s.busyDismiss = none) : Quiet s t := by
  refine Meanwhile.keeps (P := Quiet s) (fun u hu => ?_) (fun u _ hu => ?_) hmeanwhile ⟨hbusy, rfl, rfl, fun _ => rfl⟩
  · rw [dismiss_of_none hu.busyDismiss_eq]
    exact hu
  · exact ⟨hu.busyDismiss_eq, hu.dismissed_eq, hu.busies_eq, hu.posts_eq⟩

theorem Rest.meanwhile (hs : Rest base h s) (hmeanwhile : Meanwhile s t) : Rest base h t :=
  Meanwhile.keeps (P := Rest base h) (fun _ => Rest.dismiss) (fun _ _ => Rest.storage) hmeanwhile hs

theorem waiting_meanwhile {p : Pending} (hmeanwhile : Meanwhile s t)
    (hp : p.waiting.wp (awaits h (seen env h)) (fun _ => Rest base h) (HandlerEnds base h) s) :
    p.waiting.wp (awaits h (seen env h)) (fun _ => Rest base h) (HandlerEnds base h) t := by
  induction hmeanwhile with
  | refl => exact hp
  | dismiss _ ih => exact waiting_dismiss (fun _ _ => Rest.dismiss) ih
  | storage _ _ ih => exact waiting_storage (fun _ _ _ => Rest.storage) ih

/-- A tap, or a change of the storage. -/
theorem AnswerInv.meanwhile {e : Event} (hmessage : messageOf e = none) (hreceived : w.received = (messages ls).length)
    (hi : AnswerInv env ls w) (hmeanwhile : Meanwhile w.desk t) : AnswerInv env (ls ++ [e]) { w with desk := t } := by
  have hmessages : messages (ls ++ [e]) = messages ls := by
    rw [messages_append, messages, messages, List.filterMap_cons_none hmessage]
    exact List.append_nil _
  rcases hi.pool with ⟨hpool, hbusy⟩ | ⟨p, hpool, hp⟩
  · have hquiet : Quiet w.desk t := hmeanwhile.quiet hbusy
    have hsame : ∀ n, World.answers { w with desk := t } n = w.answers n :=
      fun n => congrArg (w.refusals n ++ ·) (hquiet.posts_eq n)
    refine ⟨fun n hn => (hsame n).trans (hi.future n hn), ?_, .inl ⟨hpool, hquiet.busyDismiss_eq⟩, fun n data hdata hn => ?_⟩
    · show ∀ b ∈ t.dismissed, b < t.busies
      rw [hquiet.dismissed_eq, hquiet.busies_eq]
      exact hi.fresh
    · rw [hsame]
      rw [hmessages] at hdata
      exact hi.settled n data hdata hn
  · -- the other messages keep their answers
    obtain ⟨base, hwaiting⟩ := hp.waiting
    have hbefore : Rest base p.handling w.desk := hwaiting.1
    have hafter := hbefore.meanwhile hmeanwhile
    have hlt := hp.lt
    have hsame : ∀ n, n ≠ p.handling.ticket → World.answers { w with desk := t } n = w.answers n :=
      fun n hn => congrArg (w.refusals n ++ ·) ((hafter.others hn).trans (hbefore.others hn).symm)
    obtain ⟨request, hasked⟩ := hp.asked
    refine ⟨fun n hn => ?_, hafter.fresh,
      .inr ⟨p, hpool, ⟨request, hasked.append⟩, hp.refusals_eq, base, waiting_meanwhile hmeanwhile hwaiting⟩,
      fun n data hdata hn => ?_⟩
    · have hn' : w.received ≤ n := hn
      exact (hsame n (by omega)).trans (hi.future n hn)
    · have hticket : n ≠ p.handling.ticket := fun heq => hn p (by rw [hpool]; exact List.mem_singleton.2 rfl) heq.symm
      rw [hsame n hticket]
      rw [hmessages] at hdata
      exact hi.settled n data hdata hn

/-- A message that begins an operation. -/
theorem AnswerInv.accepted {now : ℚ} {op : ActiveOperation} {desk : Desk} {seen : SeenRequests} {request : InboundRequest}
    {waiting : Option (Waiting Desk Thrown Site Site.Reply Flow)} (hsign : SignInv env ls w) (hi : AnswerInv env ls w)
    (hbegin : w.desk.op.begin request.body.operation request.requestId = some op)
    (hsettles : Settles env ⟨w.received, request.requestId⟩ (routeOf w.desk.store request.body)
      (((routeOf w.desk.store request.body).prog env ⟨w.received, request.requestId⟩).segment { w.desk with op := op })
      waiting desk) :
    AnswerInv env (ls ++ [.message (.ok request) now])
      { seen := seen, desk := desk,
        pool := w.pool ++ pendingOf ⟨w.received, request.requestId⟩ (routeOf w.desk.store request.body) waiting,
        rejected := w.rejected, received := w.received + 1 } := by
  have hpool := hsign.pool_eq_nil hbegin
  have hbusy : w.desk.busyDismiss = none := by
    rcases hi.pool with ⟨-, hbusy⟩ | ⟨p, hp, -⟩
    · exact hbusy
    · rw [hpool] at hp
      cases hp
  have hnone := List.append_eq_nil_iff.1 (hi.future w.received le_rfl)
  have hstart : Undisturbed w.desk.posts ⟨w.received, request.requestId⟩ { w.desk with op := op } :=
    ⟨⟨⟨fun _ _ => rfl, hi.fresh⟩, hnone.2⟩, hbusy⟩
  have hends := hsettles.sound (fun _ ht => Route.ends ht) (wp_segment.1 (Route.ends hstart))
  have hat : (messages (ls ++ [.message (.ok request) now]))[w.received]? = some (.ok request) := by
    rw [messages_concat, hsign.received, List.getElem?_append_right le_rfl, Nat.sub_self]
    rfl
  refine settled_answers (w := w) hends (by rw [hpool]; rfl) ⟨request, hat, rfl⟩ (fun _ => rfl) hnone.1 (fun _ _ => rfl)
    (Nat.lt_succ_self _) (fun n hn => hi.future n (Nat.le_of_succ_le hn)) fun n data hn hdata => ?_
  have hlt : n < (messages ls).length := by
    have hlen := (List.getElem?_eq_some_iff.1 hdata).1
    rw [messages_concat, List.length_append, List.length_singleton] at hlen
    have hne : n ≠ w.received := hn
    have hreceived := hsign.received
    omega
  rw [messages_concat, List.getElem?_append_left hlt] at hdata
  exact hi.settled n data hdata fun p hp => by rw [hpool] at hp; cases hp

/-- A reply to the handler that waits, which is not acted on unseen. -/
theorem AnswerInv.replied {p : Pending} {r : Except Thrown p.waiting.site.Reply} {desk : Desk}
    {waiting : Option (Waiting Desk Thrown Site Site.Reply Flow)} (hsign : SignInv env ls w) (hi : AnswerInv env ls w)
    (hpool : w.pool = [p]) (hseen : seen env p.handling p.waiting.site r w.desk)
    (hsettles : Settles env p.handling p.route
      ((p.waiting.resume r).segment (w.desk.add p.handling.ticket (.answered p.waiting.site r))) waiting desk) :
    AnswerInv env (ls ++ [.reply p.handling.ticket p.waiting.site r])
      { w with desk := desk, pool := pendingOf p.handling p.route waiting } := by
  rcases hi.pool with ⟨hnone, -⟩ | ⟨p', hone, hp⟩
  · rw [hnone] at hpool
    cases hpool
  · obtain rfl : p' = p := List.singleton_inj.1 (hone.symm.trans hpool)
    obtain ⟨base, hwaiting⟩ := hp.waiting
    have hrest : Rest base p'.handling w.desk := hwaiting.1
    have hresume := hwaiting.2 r _ ⟨w.desk, .refl, hseen, rfl⟩
    have hends := hsettles.sound (fun _ ht => Route.ends ht) (wp_segment.1 hresume)
    have hmessages : messages (ls ++ [.reply p'.handling.ticket p'.waiting.site r]) = messages ls := by
      rw [messages_append]
      exact List.append_nil _
    obtain ⟨request, hasked⟩ := hp.asked
    have hlt := hp.lt
    refine settled_answers (w := w) hends rfl ⟨request, hasked.append⟩ (fun _ => rfl) hp.refusals_eq
      (fun n hn => (hrest.others hn).symm) (by rw [← hsign.received] at hlt; exact hlt) hi.future fun n data hn hdata => ?_
    rw [hmessages] at hdata
    refine hi.settled n data hdata fun q hq => ?_
    rw [hpool, List.mem_singleton] at hq
    rw [hq]
    exact hn.symm

/-- **One step of the signer**, whose reply is not acted on unseen. -/
theorem AnswerInv.step {e : Event} (hsign : SignInv env ls w) (hi : AnswerInv env ls w) (hstep : StepSeen env e w w') :
    AnswerInv env (ls ++ [e]) w' := by
  obtain ⟨hstep, hseen⟩ := hstep
  cases hstep with
  | invalid => exact hi.reject rfl hsign.received
  | replayed _ => exact hi.reject rfl hsign.received
  | pending _ _ => exact hi.reject rfl hsign.received
  | dismiss => exact hi.meanwhile rfl hsign.received (.dismiss .refl)
  | storage => exact hi.meanwhile rfl hsign.received (.storage _ .refl)
  | accepted _ hbegin hsettles => exact hi.accepted hsign hbegin hsettles
  | reply hpool hsettles =>
    obtain ⟨rfl, rfl, -⟩ := hsign.alone hpool
    rw [List.nil_append, List.append_nil]
    exact hi.replied hsign hpool (hseen _ _ _ rfl) hsettles

/-- **Every run of the signer.** -/
theorem Run.answerInv {store : LocalStore} (hrun : Runs.Run (StepSeen env) (.start store) ls w) :
    SignInv env ls w ∧ AnswerInv env ls w :=
  hrun.tracked (I := fun ls w => SignInv env ls w ∧ AnswerInv env ls w) ⟨.start store, .start store⟩
    fun _ _ _ _ _ hi hstep => ⟨hi.1.step hstep.1, hi.2.step hi.1 hstep⟩

end Inv

/-- **One answer.** In every run where no reply to a dismissed request is acted on unseen, each message that has arrived is
either waited for, and nothing but its dismissal was posted for it, or was answered exactly once, under its own request id;
and nothing is posted for messages that have not arrived. -/
theorem one_answer {env : SignerEnv} {store : LocalStore} {ls : List Event} {w : World}
    (hrun : Runs.Run (StepSeen env) (.start store) ls w) :
    (∀ n, (messages ls).length ≤ n → w.answers n = []) ∧
      ∀ n data, (messages ls)[n]? = some data →
        (∃ p, w.pool = [p] ∧ p.handling.ticket = n ∧ data.answerId = some p.handling.requestId ∧
          (w.answers n = [] ∨ w.answers n = [.error data.answerId .userCancelled])) ∨
        (∀ p ∈ w.pool, p.handling.ticket ≠ n) ∧
          ∃ message, w.answers n = [message] ∧ message.requestId = data.answerId := by
  obtain ⟨hsign, hi⟩ := Run.answerInv hrun
  refine ⟨fun n hn => hi.future n (hsign.received.trans_le hn), fun n data hdata => ?_⟩
  by_cases hn : ∀ p ∈ w.pool, p.handling.ticket ≠ n
  · exact .inr ⟨hn, hi.settled n data hdata hn⟩
  · rcases hi.pool with ⟨hpool, -⟩ | ⟨p, hpool, hp⟩
    · rw [hpool] at hn
      exact absurd (fun _ h => nomatch h) hn
    · obtain ⟨request, hat, hid⟩ := hp.asked
      obtain ⟨base, hwaiting⟩ := hp.waiting
      have hticket : p.handling.ticket = n := by
        rw [hpool] at hn
        simpa using hn
      subst hticket
      rw [hat] at hdata
      cases hdata
      have hanswer : ValidationResult.answerId (.ok request) = some p.handling.requestId := congrArg some hid
      refine .inl ⟨p, hpool, rfl, hanswer, ?_⟩
      rw [World.answers, hp.refusals_eq, List.nil_append, hanswer]
      exact (show Rest base p.handling w.desk from hwaiting.1).posts

/-! ## An example -/

/-- The tap comes while the passkey is asked for; a later message is not a request. -/
def dismissedMoves : List Move :=
  [.message (.ok ⟨"request-1", 0, .exportPrivateKey⟩) 0, .answer, .dismiss, .answer, .answer, .answer,
    .message (.rejected .invalidMessage none) 0]

/-- An export with a local wallet acts on nothing unseen. -/
def exportsLocally : Move → World → Bool
  | .answer, w => match w.pool with
    | [] => true
    | p :: _ => decide (p.waiting.site.scope = .exportPrivateKey)
  | _, _ => true

theorem ActsUnseen.scope_ne {env : SignerEnv} {store : LocalStore} {site : Site} {r : Except Thrown site.Reply}
    (h : ActsUnseen env store site r) : site.scope ≠ .exportPrivateKey := by
  cases h with
  | createChallenge | remoteBackup | coldUnwrapped => exact fun h => nomatch h
  | backupFailed hscope | notWritten hscope _ _ | noBackup hscope _ | otherCredential hscope _ _ _ =>
    rcases hscope with rfl | rfl <;> exact fun h => nomatch h

theorem unseen_of_exportsLocally (m : Move) (w : World) (hm : exportsLocally m w = true) :
    ∀ ticket site r, m.event exampleAnswers w = .reply ticket site r →
      w.desk.posts ticket ≠ [] → ¬ActsUnseen exampleEnv w.desk.store site r := by
  intro ticket site r hevent _ hacts
  obtain ⟨seen, desk, pool, rejected, received⟩ := w
  cases m with
  | message => cases hevent
  | dismiss => cases hevent
  | storage => cases hevent
  | answer =>
    cases pool with
    | nil => cases hevent
    | cons p after =>
      cases hevent
      exact hacts.scope_ne (of_decide_eq_true hm)

theorem one_answer_dismissed : ∃ ls w, Runs.Run (StepSeen exampleEnv) (.start exampleStore) ls w ∧
    w.answers 0 = [.error (some "request-1") .userCancelled] ∧ w.answers 1 = [.error none .invalidMessage] ∧
    ∀ n, (messages ls).length ≤ n → w.answers n = [] := by
  have hanswers : (World.execAll exampleEnv exampleAnswers exportsLocally (.start exampleStore) dismissedMoves).map
      (fun w => (w.answers 0, w.answers 1)) =
        some ([.error (some "request-1") .userCancelled], [.error none .invalidMessage]) := by decide +kernel
  obtain ⟨w, hexec, hw⟩ := Option.map_eq_some_iff.1 hanswers
  obtain ⟨ls, hrun⟩ := run_of_execAll (P := fun e w => ∀ ticket site r, e = .reply ticket site r →
    w.desk.posts ticket ≠ [] → ¬ActsUnseen exampleEnv w.desk.store site r) unseen_of_exportsLocally .nil hexec
  exact ⟨ls, w, hrun, congrArg Prod.fst hw, congrArg Prod.snd hw, (one_answer hrun).1⟩

end PhygitalWallet.Secure
