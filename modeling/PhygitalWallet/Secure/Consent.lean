import PhygitalWallet.Secure.Dismissal

/-!
# What the user agreed to (`main.ts`, `wallet-service.ts`)

Nothing is asked of a passkey, of the API or of the user before the user's yes for that very message, and an answer that is
not an error rests on that yes.

- `Consented`, `Grounds`: the yes of a request, and what an answer rests on;
- `Told`: the log has these entries, and its answers are founded; kept by every handler after its confirmation;
- `Route.consents`: what a handler asks for, and how it leaves the desk;
- `ConsentInv.step`, `consent_first`: every run of the signer.
-/

namespace PhygitalWallet.Secure

open Async Prog

/-! ## The yes of a request -/

/-- The user's yes in the handling of a message. -/
def Consented (log : List (Nat × Entry)) (n : Nat) : Route → Prop
  | .create _ _ => (n, .answered ⟨.create, .confirmFinishCreate⟩ (.ok true)) ∈ log
  | .incomplete => False
  | .localUnlock _ _ => (n, .answered ⟨.localUnlock, .confirmImport⟩ (.ok true)) ∈ log
  | .remoteUnlock => (n, .answered ⟨.remoteUnlock, .confirmImport⟩ (.ok true)) ∈ log
  | .sign _ => ∃ shown, (n, .answered ⟨.sign, .confirmSignTransaction shown⟩ (.ok true)) ∈ log
  | .exportPrivateKey => (n, .answered ⟨.exportPrivateKey, .confirmExportPrivateKey⟩ (.ok true)) ∈ log

/-- What may be waited for before it: the confirmation, and the digest of what is to be signed. -/
def Call.opening : Call → Bool
  | .confirmFinishCreate | .confirmImport | .confirmSignTransaction _ | .confirmExportPrivateKey | .digestHex _ => true
  | _ => false

/-- The challenge that the API gave for a backup. -/
def Minted (log : List (Nat × Entry)) (n : Nat) (scope : Scope) (challenge : Challenge) : Prop :=
  (n, .answered ⟨scope, .issueBackupChallenge⟩ (.ok challenge)) ∈ log ∨
    ∃ restore, (n, .answered ⟨scope, .issueBothChallenges⟩ (.ok (restore, challenge))) ∈ log

/-- The API has taken a wallet of this key, with a signature by its seed over the challenge. -/
def BackedUp (env : SignerEnv) (log : List (Nat × Entry)) (n : Nat) (scope : Scope) (attestation : Option String)
    (key : Pubkey) (expiresAt : Nat) : Prop :=
  ∃ blob parsed seed challenge challengeBytes sig,
    parseBlob blob = .ok parsed ∧ parsed.publicKey = key.bytes ∧ env.ed25519PublicKey seed = .ok key.bytes ∧
    Minted log n scope challenge ∧ base64ToBytes challenge.challenge 64 .url = .ok challengeBytes ∧
    env.ed25519Sign (prefixedChallengeMessage putChallengePrefix challengeBytes) seed = .ok sig ∧
    (n, .answered ⟨scope, .backupOwnerWalletBlob ⟨bytesToBase64 blob .url, key.text, challenge.challengeId,
      bytesToBase64 sig .url, attestation⟩⟩ (.ok expiresAt)) ∈ log

/-- What an answer rests on. -/
inductive Grounds (env : SignerEnv) (log : List (Nat × Entry)) (h : Handling) : Route → Outgoing → Prop
  | created {credentialId attestation : String} {key : Pubkey} {expiresAt : Nat}
      (hbackup : BackedUp env log h.ticket .create (some attestation) key expiresAt)
      (hshown : (h.ticket, .answered ⟨.create, .showSuccess key.text true⟩ (.ok ())) ∈ log) :
      Grounds env log h (.create credentialId attestation) (.authComplete h.requestId key.text true expiresAt)
  | unlocked {raw : Bytes} {parsed : ParsedWalletBlob} {key : Pubkey} {expiresAt : Nat}
      (hbackup : BackedUp env log h.ticket .localUnlock none key expiresAt)
      (hshown : (h.ticket, .answered ⟨.localUnlock, .showSuccess key.text false⟩ (.ok ())) ∈ log) :
      Grounds env log h (.localUnlock raw parsed) (.authComplete h.requestId key.text false expiresAt)
  | restored {key : Pubkey} {expiresAt : Nat} (hbackup : BackedUp env log h.ticket .remoteUnlock none key expiresAt)
      (hshown : (h.ticket, .answered ⟨.remoteUnlock, .showSuccess key.text false⟩ (.ok ())) ∈ log) :
      Grounds env log h .remoteUnlock (.authComplete h.requestId key.text false expiresAt)
  | signed {txB64 signature publicKey : String} :
      Grounds env log h (.sign txB64) (.signResult h.requestId signature publicKey)
  | exported {seed : Bytes} {key : Pubkey} (hkey : env.ed25519PublicKey seed = .ok key.bytes)
      (hshown : (h.ticket, .answered ⟨.exportPrivateKey,
        .showExportedSecret (BaseText.base58Of (seed ++ key.bytes)) key.text⟩ (.ok ())) ∈ log) :
      Grounds env log h .exportPrivateKey (.exportResult h.requestId true)

section Mono

variable {env : SignerEnv} {log log' : List (Nat × Entry)} {h : Handling} {route : Route} {message : Outgoing}

theorem Consented.mono {n : Nat} (hlog : log ⊆ log') (hc : Consented log n route) : Consented log' n route := by
  cases route with
  | create | localUnlock | remoteUnlock | exportPrivateKey => exact hlog hc
  | incomplete => exact hc
  | sign txB64 => exact hc.imp fun _ hc => hlog hc

theorem BackedUp.mono {n : Nat} {scope : Scope} {attestation : Option String} {key : Pubkey} {expiresAt : Nat}
    (hlog : log ⊆ log') (hb : BackedUp env log n scope attestation key expiresAt) :
    BackedUp env log' n scope attestation key expiresAt := by
  obtain ⟨blob, parsed, seed, challenge, challengeBytes, sig, hparsed, hkey, hseed, hminted, hbytes, hsig, hmem⟩ := hb
  refine ⟨blob, parsed, seed, challenge, challengeBytes, sig, hparsed, hkey, hseed, ?_, hbytes, hsig, hlog hmem⟩
  exact hminted.imp (fun h => hlog h) fun ⟨restore, h⟩ => ⟨restore, hlog h⟩

theorem Grounds.mono (hlog : log ⊆ log') (hg : Grounds env log h route message) : Grounds env log' h route message := by
  cases hg with
  | created hbackup hshown => exact .created (hbackup.mono hlog) (hlog hshown)
  | unlocked hbackup hshown => exact .unlocked (hbackup.mono hlog) (hlog hshown)
  | restored hbackup hshown => exact .restored (hbackup.mono hlog) (hlog hshown)
  | signed => exact .signed
  | exported hkey hshown => exact .exported hkey (hlog hshown)

/-- What the answer to an export rests on. -/
theorem Grounds.of_exportResult {requestId : String} {completed : Bool}
    (hg : Grounds env log h route (.exportResult requestId completed)) :
    route = .exportPrivateKey ∧ requestId = h.requestId ∧ completed = true ∧
      ∃ (seed : Bytes) (key : Pubkey), env.ed25519PublicKey seed = .ok key.bytes ∧
        (h.ticket, .answered ⟨.exportPrivateKey, .showExportedSecret (BaseText.base58Of (seed ++ key.bytes)) key.text⟩
          (.ok ())) ∈ log := by
  cases hg with
  | @exported seed key hkey hshown => exact ⟨rfl, rfl, rfl, seed, key, hkey, hshown⟩

end Mono

/-! ## What a handler knows -/

/-- Each answer of the log rests on the yes of a message that is served. -/
def Founded (env : SignerEnv) (served : Handling → Route → Prop) (log : List (Nat × Entry)) : Prop :=
  ∀ n message, (n, .posted message) ∈ log → message.isSuccess = true →
    ∃ h route, h.ticket = n ∧ served h route ∧ Consented log n route ∧ Grounds env log h route message

/-- The log has these entries, and its answers are founded. -/
structure Told (env : SignerEnv) (served : Handling → Route → Prop) (told : List (Nat × Entry)) (s : Desk) : Prop where
  told : told ⊆ s.log
  founded : Founded env served s.log

section Rules

variable {env : SignerEnv} {served served' : Handling → Route → Prop} {h : Handling} {route : Route}
  {told told' : List (Nat × Entry)} {guard : Guard} {s t : Desk} {α : Type}

theorem Founded.mono (hserved : ∀ h route, served h route → served' h route) {log : List (Nat × Entry)}
    (hf : Founded env served log) : Founded env served' log := by
  intro n message hmem hsuccess
  obtain ⟨h, route, hticket, hs, hrest⟩ := hf n message hmem hsuccess
  exact ⟨h, route, hticket, hserved h route hs, hrest⟩

/-- An entry that is no answer, or one that is founded. -/
theorem Founded.snoc {log : List (Nat × Entry)} {n : Nat} {entry : Entry} (hf : Founded env served log)
    (hentry : ∀ message, entry = .posted message → message.isSuccess = true →
      ∃ h route, h.ticket = n ∧ served h route ∧ Consented (log ++ [(n, entry)]) n route ∧
        Grounds env (log ++ [(n, entry)]) h route message) : Founded env served (log ++ [(n, entry)]) := by
  intro m message hmem hsuccess
  have hlog : log ⊆ log ++ [(n, entry)] := List.subset_append_left _ _
  rcases List.mem_append.1 hmem with hmem | hmem
  · obtain ⟨h, route, hticket, hs, hc, hg⟩ := hf m message hmem hsuccess
    exact ⟨h, route, hticket, hs, hc.mono hlog, hg.mono hlog⟩
  · obtain ⟨rfl, rfl⟩ := Prod.mk.inj (List.mem_singleton.1 hmem)
    exact hentry message rfl hsuccess

theorem Told.log (hs : Told env served told s) (hlog : t.log = s.log) : Told env served told t :=
  ⟨hlog ▸ hs.told, hlog ▸ hs.founded⟩

theorem Told.forget (hsub : told ⊆ told') (hs : Told env served told' s) : Told env served told s :=
  ⟨fun _ he => hs.told (hsub he), hs.founded⟩

/-- An entry that is no answer is known from then on. -/
theorem Told.learn {n : Nat} {entry : Entry} (hentry : ∀ message, entry = .posted message → message.isSuccess = false)
    (hs : Told env served told s) : Told env served ((n, entry) :: told) (s.add n entry) := by
  refine ⟨fun e he => ?_, hs.founded.snoc fun message heq hsuccess => ?_⟩
  · rcases List.mem_cons.1 he with rfl | he
    · exact List.mem_append_right _ List.mem_cons_self
    · exact List.mem_append_left _ (hs.told he)
  · rw [hentry message heq] at hsuccess
    cases hsuccess

theorem Told.answered {n : Nat} {site : Site} {r : Except Thrown site.Reply} (hs : Told env served told s) :
    Told env served ((n, .answered site r) :: told) (s.add n (.answered site r)) := hs.learn fun _ heq => nomatch heq

theorem Told.dismiss (hs : Told env served told s) : Told env served told s.dismiss := by
  unfold Desk.dismiss
  split
  · split
    · exact hs.log rfl
    · next busy _ _ _ =>
      have hs' : Told env served told { s with busyDismiss := none, dismissed := busy.id :: s.dismissed } := hs.log rfl
      refine (hs'.learn ?_).forget (List.subset_cons_self _ _)
      rintro _ ⟨⟩
      rfl
  · exact hs

theorem Told.meanwhile (hs : Told env served told s) (hmeanwhile : Meanwhile s t) : Told env served told t :=
  hmeanwhile.keeps (P := Told env served told) (fun _ => Told.dismiss) (fun _ _ ht => ht.log rfl) hs

theorem stable_told : Stable h guard (Told env served told) where
  awaits c r s t ht hs := by
    obtain ⟨s', hmeanwhile, -, rfl⟩ := ht
    exact (hs.meanwhile hmeanwhile).answered.forget (List.subset_cons_self _ _)
  draws _ _ hs := hs.log rfl

/-- The function asks and posts nothing that is not founded. -/
abbrev KeepsTold (env : SignerEnv) (served : Handling → Route → Prop) (h : Handling) (guard : Guard)
    (told : List (Nat × Entry)) (p : Handler α) : Prop := Keeps (awaits h guard) (Told env served told) p

theorem told_modify {f : Desk → Desk} (hlog : ∀ s, (f s).log = s.log) : KeepsTold env served h guard told (modify f) :=
  keeps_modify fun s hs => hs.log (hlog s)

theorem told_call {f : Desk → Except Thrown α × Desk} (hlog : ∀ s, (f s).2.log = s.log) :
    KeepsTold env served h guard told (call f) := yields_call (fun s hs => hs.log (hlog s)) fun _ _ _ _ => trivial

theorem told_ofOutcome {out : Except Thrown α} : KeepsTold env served h guard told (ofOutcome out : Handler α) :=
  yields_ofOutcome fun _ _ => trivial

theorem told_pure {a : α} : KeepsTold env served h guard told (pure a : Handler α) := yields_pure trivial

theorem told_fail {code : ErrorCode} : KeepsTold env served h guard told (fail h code) := by
  refine keeps_modify fun s hs => (hs.learn ?_).forget (List.subset_cons_self _ _)
  rintro _ ⟨⟩
  rfl

theorem told_failDone {code : ErrorCode} : KeepsTold env served h guard told (failDone h code) :=
  yields_bind told_fail fun _ _ => told_pure

theorem told_ask {scope : Scope} {call : Call} : KeepsTold env served h guard told (ask scope call) :=
  yields_bind (told_modify fun _ => rfl) fun _ _ => stable_told.request

theorem told_finally {A : α → Prop} {p : Handler α} (hp : Yields (awaits h guard) (Told env served told) A p) :
    Yields (awaits h guard) (Told env served told) A (finallyDo p clearBusy) := yields_finallyDo hp fun _ hs => hs.log rfl

/-- A guarded end of a busy screen. -/
theorem told_guarded {busy : Nat} {a : α} {p : Handler α} (hp : KeepsTold env served h guard told p) :
    KeepsTold env served h guard told (do
      let dismissed ← wasDismissed busy
      if dismissed then return a else p) := by
  refine yields_bind (told_call fun _ => rfl) fun dismissed _ => ?_
  split
  · exact told_pure
  · exact hp

theorem told_forget {A : α → Prop} {p : Handler α} (hsub : told ⊆ told')
    (hp : Yields (awaits h guard) (Told env served told') A p) (hs : Told env served told' s) :
    p.wp (awaits h guard) (fun _ => Told env served told)
      (fun out s => Told env served told s ∧ ∀ a, out = .ok a → A a) s :=
  wp_weaken (fun _ _ => Told.forget hsub) (wp_mono (fun _ _ ht => ⟨ht.1.forget hsub, ht.2⟩) (hp s hs))

/-- **A reply is known from then on.** -/
theorem told_request {scope : Scope} {call : Call} {A : α → Prop} {f : call.Reply → Handler α}
    (hf : ∀ a, Yields (awaits h guard) (Told env served ((h.ticket, .answered ⟨scope, call⟩ (.ok a)) :: told)) A (f a)) :
    Yields (awaits h guard) (Told env served told) A (request scope call >>= f) := by
  intro s hs
  refine wp_bind.2 ((wp_awaitOk (c := Site.mk scope call)).2 ⟨hs, ?_⟩)
  rintro r t ⟨s', hmeanwhile, -, rfl⟩
  have ht := (hs.meanwhile hmeanwhile).answered (n := h.ticket) (r := r)
  cases r with
  | ok a => exact told_forget (List.subset_cons_self _ _) (hf a) ht
  | error e => exact ⟨ht.forget (List.subset_cons_self _ _), fun _ heq => nomatch heq⟩

theorem told_asked {scope : Scope} {call : Call} {A : α → Prop} {f : call.Reply → Handler α}
    (hf : ∀ a, Yields (awaits h guard) (Told env served ((h.ticket, .answered ⟨scope, call⟩ (.ok a)) :: told)) A (f a)) :
    Yields (awaits h guard) (Told env served told) A (ask scope call >>= f) := by
  intro s hs
  have hrest := told_request hf _ (hs.log (t := { s with screen := .sheet }) rfl)
  exact wp_bind.2 (wp_bind.2 (wp_modify.2 (wp_bind.1 hrest)))

theorem told_attempt {scope : Scope} {call : Call} {A : α → Prop} {f : Except Thrown call.Reply → Handler α}
    (hf : ∀ a, Yields (awaits h guard) (Told env served ((h.ticket, .answered ⟨scope, call⟩ (.ok a)) :: told)) A (f (.ok a)))
    (he : ∀ e, Yields (awaits h guard) (Told env served told) A (f (.error e))) :
    Yields (awaits h guard) (Told env served told) A (attempt (request scope call) >>= f) := by
  intro s hs
  refine wp_bind.2 (wp_attempt.2 ((wp_awaitOk (c := Site.mk scope call)).2 ⟨hs, ?_⟩))
  rintro r t ⟨s', hmeanwhile, -, rfl⟩
  have ht := (hs.meanwhile hmeanwhile).answered (n := h.ticket) (r := r)
  cases r with
  | ok a => exact told_forget (List.subset_cons_self _ _) (hf a) ht
  | error e => exact he e _ (ht.forget (List.subset_cons_self _ _))

theorem told_minted {scope : Scope} {A : α → Prop} {f : Challenge → Handler α}
    (hf : ∀ c, Yields (awaits h guard)
      (Told env served ((h.ticket, .answered ⟨scope, .issueBackupChallenge⟩ (.ok c)) :: told)) A (f c)) :
    Yields (awaits h guard) (Told env served told) A (mintBackupChallenge scope >>= f) := by
  intro s hs
  refine wp_bind.2 (wp_andThen.2 ((wp_awaitOk (c := Site.mk scope .issueBackupChallenge)).2 ⟨hs, ?_⟩))
  rintro r t ⟨s', hmeanwhile, -, rfl⟩
  have ht := (hs.meanwhile hmeanwhile).answered (n := h.ticket) (r := r)
  cases r with
  | ok c => exact told_forget (List.subset_cons_self _ _) (hf c) ht
  | error e => exact ⟨ht.forget (List.subset_cons_self _ _), fun _ heq => nomatch heq⟩

/-- **An answer that is founded.** -/
theorem told_answer {message : Outgoing} (hserved : served h route)
    (hc : ∀ log, told ⊆ log → Consented log h.ticket route)
    (hg : ∀ log, told ⊆ log → Grounds env log h route message) :
    KeepsTold env served h guard told (post h message >>= fun _ => pure Flow.done) := by
  refine yields_bind (keeps_modify fun s hs => ?_) fun _ _ => told_pure
  have hlog : told ⊆ s.log ++ [(h.ticket, .posted message)] := fun _ he => List.mem_append_left _ (hs.told he)
  refine ⟨hlog, hs.founded.snoc ?_⟩
  rintro _ ⟨⟩ -
  exact ⟨h, route, rfl, hserved, hc _ hlog, hg _ hlog⟩

end Rules

/-! ## Backups -/

section Backups

variable {env : SignerEnv} {served : Handling → Route → Prop} {h : Handling} {guard : Guard}
  {told : List (Nat × Entry)}

/-- What is enrolled: a wallet of the key of a seed, and the seed's signature. -/
def CreatedWallet.Enrolled (env : SignerEnv) (message : Bytes) (created : CreatedWallet) : Prop :=
  ∃ seed sig parsed, env.ed25519PublicKey seed = .ok created.publicKey ∧ created.signature = some sig ∧
    env.ed25519Sign message seed = .ok sig ∧ parseBlob created.blob = .ok parsed ∧ parsed.publicKey = created.publicKey

theorem enrollExistingCredential_told {credentialId message : Bytes} :
    Yields (awaits h guard) (Told env served told) (CreatedWallet.Enrolled env message)
      (enrollExistingCredential env credentialId (some message)) := by
  refine yields_bind stable_told.request fun prfOutput _ => ?_
  refine yields_bind stable_told.drawBytes fun seed _ => ?_
  refine yields_bind (yields_ofOutcome fun _ => id) fun publicKey hkey => ?_
  refine yields_bind stable_told.drawBytes fun kdfSalt _ => ?_
  refine yields_bind stable_told.drawBytes fun iv _ => ?_
  refine yields_bind stable_told.request fun key _ => ?_
  refine yields_bind told_ofOutcome fun aad _ => ?_
  refine yields_bind stable_told.request fun ciphertext _ => ?_
  refine yields_bind (A := fun blob => encodeWalletBlob ⟨publicKey, credentialId, kdfSalt, iv, ciphertext⟩ = .ok blob)
    (yields_ofOutcome fun blob hblob => ?_) fun blob hblob => ?_
  · cases hencode : encodeWalletBlob ⟨publicKey, credentialId, kdfSalt, iv, ciphertext⟩ with
    | error e =>
      rw [hencode] at hblob
      cases hblob
    | ok bytes =>
      rw [hencode] at hblob
      cases hblob
      rfl
  · refine yields_bind (A := fun signature => ∃ sig, signature = some sig ∧ env.ed25519Sign message seed = .ok sig) ?_
      fun signature hsignature => ?_
    · exact yields_map (yields_ofOutcome fun _ => id) fun sig hsig => ⟨sig, rfl, hsig⟩
    · obtain ⟨sig, rfl, hsig⟩ := hsignature
      have hparsed : parseBlob blob = .ok ⟨⟨publicKey, credentialId, kdfSalt, iv, ciphertext⟩, blobVersion⟩ := by
        rw [parseBlob, decodeWalletBlob_encode hblob]
      exact yields_pure ⟨seed, sig, _, hkey, rfl, hsig, hparsed, rfl⟩

theorem signChallenge_eq_some {challenge : String} {seed : Bytes} {pre text : String}
    (hsign : signChallenge env challenge seed pre = some text) :
    ∃ challengeBytes sig, base64ToBytes challenge 64 .url = .ok challengeBytes ∧
      env.ed25519Sign (prefixedChallengeMessage pre challengeBytes) seed = .ok sig ∧ text = bytesToBase64 sig .url := by
  unfold signChallenge at hsign
  split at hsign
  · cases hsign
  · split at hsign
    · cases hsign
    · next challengeBytes hbytes =>
      split at hsign
      · cases hsign
      · next sig hsig =>
        cases hsign
        exact ⟨challengeBytes, sig, hbytes, hsig, rfl⟩

/-- The text of a key of a seed. -/
theorem toBase58Pubkey_told {seed publicKey : Bytes} (hkey : env.ed25519PublicKey seed = .ok publicKey) :
    Yields (awaits h guard) (Told env served told) (fun pk => ∃ key : Pubkey, publicKey = key.bytes ∧ pk = key.text)
      (toBase58Pubkey publicKey) := by
  refine yields_ofOutcome fun pk hpk => ?_
  cases hdecode : decodeAddress publicKey with
  | error e =>
    rw [hdecode] at hpk
    cases hpk
  | ok key =>
    rw [hdecode] at hpk
    cases hpk
    exact ⟨key, (decodeAddress_bytes hdecode (length_ed25519PublicKey hkey)).symm, rfl⟩

end Backups

/-! ## The handlers after their confirmation -/

section Handlers

variable {env : SignerEnv} {served : Handling → Route → Prop} {h : Handling} {guard : Guard}
  {told : List (Nat × Entry)}

theorem createBody_told {credentialIdB64 attestation : String} {busy : Nat}
    (hserved : served h (.create credentialIdB64 attestation))
    (hagreed : (h.ticket, .answered ⟨.create, .confirmFinishCreate⟩ (.ok true)) ∈ told) :
    KeepsTold env served h guard told (createBody env h credentialIdB64 attestation busy) := by
  refine told_minted fun minted => ?_
  split
  · exact told_failDone
  next challengeBytes hbytes =>
  refine yields_bind told_ofOutcome fun credentialId _ => ?_
  refine yields_bind enrollExistingCredential_told fun created hcreated => ?_
  obtain ⟨seed, sig, parsed, hkey, hsome, hsig, hparsed, hpublic⟩ := hcreated
  refine told_guarded ?_
  rw [hsome]
  refine yields_bind (toBase58Pubkey_told hkey) fun pk hpk => ?_
  obtain ⟨key, hbytes', rfl⟩ := hpk
  refine told_attempt (fun expiresAt => ?_) fun _ => told_failDone
  refine yields_bind (told_call fun _ => rfl) fun written _ => ?_
  split
  · refine told_asked fun _ => told_guarded (told_answer hserved (fun log hlog => ?_) fun log hlog => ?_)
    · exact hlog (List.mem_cons_of_mem _ (List.mem_cons_of_mem _ (List.mem_cons_of_mem _ hagreed)))
    · refine .created ⟨created.blob, parsed, seed, minted, challengeBytes, sig, hparsed, hpublic.trans hbytes', ?_, ?_,
        hbytes, hsig, hlog (by simp)⟩ (hlog List.mem_cons_self)
      · rw [← hbytes']
        exact hkey
      · exact .inl (hlog (by simp))
  · exact told_failDone

theorem createCatch_told {busy : Nat} {e : Thrown} : KeepsTold env served h guard told (createCatch h busy e) := by
  refine told_guarded ?_
  split
  · refine yields_bind told_ask fun again _ => ?_
    split
    · exact yields_bind (told_modify fun _ => rfl) fun _ _ => told_pure
    · exact told_failDone
  · exact yields_throw e

theorem localUnlockBody_told {raw : Bytes} {parsed : ParsedWalletBlob} {busy : Nat} (hraw : parseBlob raw = .ok parsed)
    (hserved : served h (.localUnlock raw parsed))
    (hagreed : (h.ticket, .answered ⟨.localUnlock, .confirmImport⟩ (.ok true)) ∈ told) :
    KeepsTold env served h guard told (localUnlockBody env h raw parsed busy) := by
  refine told_minted fun minted => ?_
  refine yields_bind stable_told.decryptWallet fun unlocked hunlocked => told_guarded ?_
  obtain ⟨hkey, hpublic⟩ := hunlocked
  split
  · exact told_failDone
  next putSignature hsign =>
  obtain ⟨challengeBytes, sig, hbytes, hsig, rfl⟩ := signChallenge_eq_some hsign
  refine yields_bind (toBase58Pubkey_told hkey) fun pk hpk => ?_
  obtain ⟨key, hbytes', rfl⟩ := hpk
  refine told_attempt (fun expiresAt => ?_) fun _ => told_failDone
  refine yields_bind (told_call fun _ => rfl) fun written _ => ?_
  split
  · refine told_asked fun _ => told_guarded (told_answer hserved (fun log hlog => ?_) fun log hlog => ?_)
    · exact hlog (List.mem_cons_of_mem _ (List.mem_cons_of_mem _ (List.mem_cons_of_mem _ hagreed)))
    · refine .unlocked ⟨raw, parsed, unlocked.1, minted, challengeBytes, sig, hraw, hpublic.symm.trans hbytes', ?_, ?_,
        hbytes, hsig, hlog (by simp)⟩ (hlog List.mem_cons_self)
      · rw [← hbytes']
        exact hkey
      · exact .inl (hlog (by simp))
  · exact told_failDone

theorem localUnlockCatch_told {busy : Nat} {e : Thrown} :
    KeepsTold env served h guard told (localUnlockCatch h busy e) := by
  refine told_guarded ?_
  split
  · refine yields_bind told_ask fun again _ => ?_
    split
    · exact told_pure
    · exact told_failDone
  · exact yields_throw e

theorem retryOr_told {code : ErrorCode} : KeepsTold env served h guard told (retryOr h code) := by
  refine yields_bind told_ask fun again _ => ?_
  split
  · exact told_pure
  · exact told_failDone

theorem remoteUnlockBody_told {restore backup : Challenge} {disc : Discovered} {blob : String} {busy : Nat}
    (hserved : served h .remoteUnlock)
    (hagreed : (h.ticket, .answered ⟨.remoteUnlock, .confirmImport⟩ (.ok true)) ∈ told)
    (hminted : (h.ticket, .answered ⟨.remoteUnlock, .issueBothChallenges⟩ (.ok (restore, backup))) ∈ told) :
    KeepsTold env served h guard told (remoteUnlockBody env h backup disc blob busy) := by
  refine yields_bind told_ofOutcome fun raw _ => ?_
  refine yields_bind (yields_ofOutcome fun _ => id) fun parsed hparsed => ?_
  split
  · exact told_failDone
  refine yields_bind stable_told.unwrapWallet fun unlocked hunlocked => told_guarded ?_
  obtain ⟨hkey, hpublic⟩ := hunlocked
  refine yields_bind (told_call fun _ => rfl) fun written _ => ?_
  split
  · split
    · exact told_failDone
    next putSignature hsign =>
    obtain ⟨challengeBytes, sig, hbytes, hsig, rfl⟩ := signChallenge_eq_some hsign
    refine yields_bind (toBase58Pubkey_told hkey) fun pk hpk => ?_
    obtain ⟨key, hbytes', rfl⟩ := hpk
    refine told_attempt (fun expiresAt => ?_) fun _ => told_failDone
    refine yields_bind (told_modify fun _ => rfl) fun _ _ => ?_
    refine told_asked fun _ => told_answer hserved (fun log hlog => ?_) fun log hlog => ?_
    · exact hlog (List.mem_cons_of_mem _ (List.mem_cons_of_mem _ hagreed))
    · refine .restored ⟨raw, parsed, unlocked.1, backup, challengeBytes, sig, hparsed, hpublic.symm.trans hbytes', ?_, ?_,
        hbytes, hsig, hlog (by simp)⟩ (hlog List.mem_cons_self)
      · rw [← hbytes']
        exact hkey
      · exact .inr ⟨restore, hlog (List.mem_cons_of_mem _ (List.mem_cons_of_mem _ hminted))⟩
  · exact told_failDone

theorem discover_told {scope : Scope} {challenge : Bytes} {busy : Nat} :
    KeepsTold env served h guard told (discover scope challenge busy) :=
  yields_bind stable_told.request fun _ _ => yields_bind (told_call fun _ => rfl) fun _ _ => told_pure

theorem remoteRestore_told {restore backup : Challenge} {disc : Discovered} (hserved : served h .remoteUnlock)
    (hagreed : (h.ticket, .answered ⟨.remoteUnlock, .confirmImport⟩ (.ok true)) ∈ told)
    (hminted : (h.ticket, .answered ⟨.remoteUnlock, .issueBothChallenges⟩ (.ok (restore, backup))) ∈ told) :
    KeepsTold env served h guard told (remoteRestore env h restore backup disc) := by
  refine yields_bind (told_modify fun _ => rfl) fun _ _ => yields_bind (told_call fun _ => rfl) fun busy _ => ?_
  refine yields_bind (yields_attempt stable_told.request) fun restored _ => ?_
  split
  · exact yields_bind (told_modify fun _ => rfl) fun _ _ => told_failDone
  · exact yields_bind (told_modify fun _ => rfl) fun _ _ => retryOr_told
  · refine told_finally (yields_tryCatch (remoteUnlockBody_told hserved hagreed hminted) fun e => ?_)
    exact told_guarded (yields_throw e)

/-! ## The cold start -/

theorem failRestore_told {code : ErrorCode} :
    Yields (awaits h guard) (Told env served told) (Restored.Keyed env) (failRestore h code) :=
  yields_bind told_fail fun _ _ => yields_pure trivial

theorem restoreBody_told {restore : Challenge} {challenge : Bytes} {busy : Nat} :
    Yields (awaits h guard) (Told env served told) (Restored.Keyed env) (restoreBody env h restore challenge busy) := by
  refine yields_bind discover_told fun found _ => ?_
  split
  · exact yields_pure trivial
  · refine yields_bind (yields_attempt stable_told.request) fun restored _ => ?_
    split
    · exact failRestore_told
    · exact failRestore_told
    · refine yields_bind told_ofOutcome fun raw _ => yields_bind told_ofOutcome fun parsed _ => ?_
      split
      · exact failRestore_told
      · refine yields_bind stable_told.unwrapWallet fun unlocked hunlocked => ?_
        refine yields_bind (told_call fun _ => rfl) fun written _ => ?_
        split
        · exact yields_pure hunlocked.1
        · exact failRestore_told

theorem restoreWalletSeed_told :
    Yields (awaits h guard) (Told env served told) (Restored.Keyed env) (restoreWalletSeed env h) := by
  refine yields_bind (yields_attempt stable_told.request) fun minted _ => ?_
  split
  · exact failRestore_told
  · split
    · exact failRestore_told
    · refine yields_bind (told_call fun _ => rfl) fun busy _ => ?_
      refine told_finally (yields_tryCatch restoreBody_told fun e => ?_)
      refine yields_bind (told_call fun _ => rfl) fun dismissed _ => ?_
      split
      · exact yields_pure trivial
      · split
        · exact failRestore_told
        · exact yields_throw _

theorem unlockLocal_told {scope : Scope} {parsed : ParsedWalletBlob} :
    Yields (awaits h guard) (Told env served told)
      (fun out => ∀ unlocked, out = some unlocked → env.ed25519PublicKey unlocked.1 = .ok unlocked.2)
      (unlockLocal env h scope parsed) := by
  refine yields_bind (told_call fun _ => rfl) fun busy _ => ?_
  refine told_finally (yields_tryCatch ?_ fun e => ?_)
  · refine yields_bind stable_told.decryptWallet fun unlocked hunlocked => ?_
    refine yields_bind (told_call fun _ => rfl) fun dismissed _ => yields_pure ?_
    intro u hu
    split at hu
    · cases hu
    · cases hu
      exact hunlocked.1
  · refine yields_bind (told_call fun _ => rfl) fun dismissed _ => ?_
    split
    · exact yields_pure fun _ h => nomatch h
    · exact yields_throw e

/-! ## Sign and export -/

theorem signFrozen_told {txB64 : String} {frozen seed publicKey : Bytes} {summary : TransactionSummary}
    (hserved : served h (.sign txB64))
    (hagreed : (h.ticket, .answered ⟨.sign, .confirmSignTransaction summary⟩ (.ok true)) ∈ told) :
    KeepsTold env served h guard told (signFrozen env h frozen seed publicKey) := by
  refine yields_bind (A := fun _ => True) (yields_bind stable_told.request fun _ _ => told_pure) fun digest _ => ?_
  refine yields_bind (told_call fun _ => rfl) fun auth _ => ?_
  split
  · exact told_failDone
  · refine yields_bind told_ofOutcome fun signature _ => yields_bind told_ofOutcome fun pk _ => ?_
    exact told_answer hserved (fun log hlog => ⟨summary, hlog hagreed⟩) fun log _ => .signed

theorem exportSecret_told {seed publicKey : Bytes} (hserved : served h .exportPrivateKey)
    (hkey : env.ed25519PublicKey seed = .ok publicKey)
    (hagreed : (h.ticket, .answered ⟨.exportPrivateKey, .confirmExportPrivateKey⟩ (.ok true)) ∈ told) :
    KeepsTold env served h guard told (exportSecret h seed publicKey) := by
  refine yields_bind (toBase58Pubkey_told hkey) fun pk hpk => ?_
  obtain ⟨key, rfl, rfl⟩ := hpk
  refine told_asked fun _ => told_answer hserved (fun log hlog => hlog (List.mem_cons_of_mem _ hagreed)) fun log hlog => ?_
  exact .exported hkey (hlog List.mem_cons_self)

end Handlers

/-! ## The handlers -/

section Routes

variable {env : SignerEnv} {served : Handling → Route → Prop} {h : Handling} {route : Route} {guard : Guard}
  {told : List (Nat × Entry)} {s : Desk}

/-- Where a handler waits: at its confirmation, or after the user's yes. -/
def Reached (env : SignerEnv) (served : Handling → Route → Prop) (h : Handling) (route : Route) (c : Site) (s : Desk) :
    Prop := Told env served [] s ∧ (c.call.opening = true ∨ Consented s.log h.ticket route)

/-- A handler that asks for nothing before the user's yes, and whose answers are founded. -/
abbrev Consents (env : SignerEnv) (served : Handling → Route → Prop) (h : Handling) (guard : Guard) (route : Route)
    (p : Handler Flow) (s : Desk) : Prop :=
  p.wp (awaits h guard) (Reached env served h route) (fun _ s => Told env served [] s) s

/-- Once the yes is known, everything may be asked. -/
theorem consents_after {p : Handler Flow} (hp : KeepsTold env served h guard told p)
    (hc : ∀ log, told ⊆ log → Consented log h.ticket route) (hs : Told env served told s) :
    Consents env served h guard route p s :=
  wp_weaken (fun _ _ ht => ⟨ht.forget (List.nil_subset _), .inr (hc _ ht.told)⟩)
    (wp_mono (fun _ _ ht => ht.1.forget (List.nil_subset _)) (hp s hs))

theorem consents_done {code : ErrorCode} (hs : Told env served told s) :
    Consents env served h guard route (failDone h code) s := by
  have hposted : Told env served [] (s.add h.ticket (.posted (.error (some h.requestId) code))) := by
    refine (hs.learn ?_).forget (List.nil_subset _)
    rintro _ ⟨⟩
    rfl
  exact wp_bind.2 (wp_modify.2 hposted)

/-- What is done without asking. -/
theorem consents_seq {α : Type} {A : α → Prop} {p : Handler α} {f : α → Handler Flow}
    (hp : p.wp (awaits h guard) (Reached env served h route)
      (fun out s => Told env served told s ∧ ∀ a, out = .ok a → A a) s)
    (hf : ∀ a t, A a → Told env served told t → Consents env served h guard route (f a) t) :
    Consents env served h guard route (p >>= f) s :=
  wp_seq hp (fun a t ht => hf a t (ht.2 a rfl) ht.1) fun _ _ ht => ht.1.forget (List.nil_subset _)

theorem reached_request {scope : Scope} {call : Call} (hopening : call.opening = true) (hs : Told env served told s) :
    (request scope call).wp (awaits h guard) (Reached env served h route)
      (fun out s => Told env served told s ∧ ∀ a, out = .ok a →
        Told env served ((h.ticket, .answered ⟨scope, call⟩ (.ok a)) :: told) s) s := by
  refine (wp_awaitOk (c := Site.mk scope call)).2 ⟨⟨hs.forget (List.nil_subset _), .inl hopening⟩, ?_⟩
  rintro r t ⟨s', hmeanwhile, -, rfl⟩
  have ht := (hs.meanwhile hmeanwhile).answered (n := h.ticket) (r := r)
  refine ⟨ht.forget (List.subset_cons_self _ _), ?_⟩
  rintro a rfl
  exact ht

/-- **The confirmation.** -/
theorem consents_ask {scope : Scope} {call : Call} {f : call.Reply → Handler Flow} (hopening : call.opening = true)
    (hs : Told env served told s)
    (hf : ∀ a t, Told env served ((h.ticket, .answered ⟨scope, call⟩ (.ok a)) :: told) t →
      Consents env served h guard route (f a) t) : Consents env served h guard route (ask scope call >>= f) s := by
  refine wp_bind.2 (wp_bind.2 (wp_modify.2 (follows_ok.2 ?_)))
  refine wp_mono (fun out t ht => ?_) (reached_request hopening (hs.log (t := { s with screen := .sheet }) rfl))
  cases out with
  | ok a => exact hf a t (ht.2 a rfl)
  | error e => exact ht.1.forget (List.nil_subset _)

theorem handleCreate_consents {credentialIdB64 attestation : String}
    (hserved : served h (.create credentialIdB64 attestation)) (hs : Told env served told s) :
    Consents env served h guard (.create credentialIdB64 attestation)
      (handleCreate env h credentialIdB64 attestation) s := by
  refine consents_ask rfl hs fun confirmed t ht => ?_
  split
  · next hconfirmed =>
    cases (show confirmed = true from hconfirmed)
    refine consents_after ?_ (fun log hlog => hlog List.mem_cons_self) ht
    refine yields_bind (told_call fun _ => rfl) fun busy _ => told_finally ?_
    exact yields_tryCatch (createBody_told hserved List.mem_cons_self) fun _ => createCatch_told
  · exact consents_done ht

theorem handleLocalUnlock_consents {raw : Bytes} {parsed : ParsedWalletBlob} (hraw : parseBlob raw = .ok parsed)
    (hserved : served h (.localUnlock raw parsed)) (hs : Told env served told s) :
    Consents env served h guard (.localUnlock raw parsed) (handleLocalUnlock env h raw parsed) s := by
  refine consents_ask rfl hs fun confirmed t ht => ?_
  split
  · next hconfirmed =>
    cases (show confirmed = true from hconfirmed)
    refine consents_after ?_ (fun log hlog => hlog List.mem_cons_self) ht
    refine yields_bind (told_call fun _ => rfl) fun busy _ => told_finally ?_
    exact yields_tryCatch (localUnlockBody_told hraw hserved List.mem_cons_self) fun _ => localUnlockCatch_told
  · exact consents_done ht

theorem handleRemoteUnlock_consents (hserved : served h .remoteUnlock) (hs : Told env served told s) :
    Consents env served h guard .remoteUnlock (handleRemoteUnlock env h) s := by
  refine consents_ask rfl hs fun confirmed t ht => ?_
  split
  · next hconfirmed =>
    cases (show confirmed = true from hconfirmed)
    refine consents_after ?_ (fun log hlog => hlog List.mem_cons_self) ht
    refine told_attempt (fun minted => ?_) fun _ => told_failDone
    obtain ⟨restore, backup⟩ := minted
    simp only
    split
    · exact told_failDone
    · refine yields_bind (told_call fun _ => rfl) fun busy _ => ?_
      refine yields_bind (yields_attempt discover_told) fun found _ => ?_
      split
      · exact told_pure
      · exact remoteRestore_told hserved (List.mem_cons_of_mem _ List.mem_cons_self) List.mem_cons_self
      · exact yields_bind (told_modify fun _ => rfl) fun _ _ => told_guarded retryOr_told
  · exact consents_done ht

/-- The digest is taken before the confirmation. -/
theorem handleSign_consents {txB64 : String} (hserved : served h (.sign txB64)) (hs : Told env served told s) :
    Consents env served h guard (.sign txB64) (handleSign env h txB64) s := by
  refine consents_seq (A := fun _ => True) (wp_ofOutcome.2 ⟨hs, fun _ _ => trivial⟩) fun txBytes t _ ht => ?_
  split
  · exact consents_done ht
  next tx htx =>
  have hdigest : (digestHex tx.messageBytes).wp (awaits h guard) (Reached env served h (.sign txB64))
      (fun out s => Told env served told s ∧ ∀ a, out = .ok a → True) t := by
    refine wp_bind.2 (wp_mono (fun out t ht => ?_) (reached_request rfl ht))
    cases out with
    | ok _ => exact ⟨ht.1, fun _ _ => trivial⟩
    | error e => exact ⟨ht.1, fun _ _ => trivial⟩
  refine consents_seq hdigest fun digest t _ ht => ?_
  refine consents_seq (A := fun _ => True) (wp_call.2 ⟨ht.log rfl, fun _ _ => trivial⟩) fun stored t _ ht => ?_
  split
  · refine consents_seq (A := fun _ => True) (wp_ofOutcome.2 ⟨ht, fun _ _ => trivial⟩) fun owner t _ ht => ?_
    split
    · exact consents_done ht
    next summary hpolicy =>
    refine consents_ask rfl ht fun confirmed t ht => ?_
    split
    · next hconfirmed =>
      cases (show confirmed = true from hconfirmed)
      refine consents_after ?_ (fun log hlog => ⟨summary, hlog List.mem_cons_self⟩) ht
      refine yields_bind (told_modify fun _ => rfl) fun _ _ => yields_bind unlockLocal_told fun unlocked _ => ?_
      split
      · exact told_pure
      · exact signFrozen_told hserved List.mem_cons_self
    · exact consents_done ht
  · unfold signCold
    split
    · exact consents_done ht
    next preview hpreview =>
    refine consents_ask rfl ht fun confirmed t ht => ?_
    split
    · next hconfirmed =>
      cases (show confirmed = true from hconfirmed)
      refine consents_after ?_ (fun log hlog => ⟨preview, hlog List.mem_cons_self⟩) ht
      refine yields_bind restoreWalletSeed_told fun restored _ => ?_
      split
      · exact told_pure
      · exact told_pure
      · refine yields_bind told_ofOutcome fun owner _ => ?_
        split
        · exact told_failDone
        · exact yields_bind (told_modify fun _ => rfl) fun _ _ => signFrozen_told hserved List.mem_cons_self
    · exact consents_done ht

theorem handleExportPrivateKey_consents (hserved : served h .exportPrivateKey) (hs : Told env served told s) :
    Consents env served h guard .exportPrivateKey (handleExportPrivateKey env h) s := by
  refine consents_ask rfl hs fun confirmed t ht => ?_
  split
  · next hconfirmed =>
    cases (show confirmed = true from hconfirmed)
    refine consents_after ?_ (fun log hlog => hlog List.mem_cons_self) ht
    refine yields_bind (told_call fun _ => rfl) fun stored _ => ?_
    split
    · refine yields_bind unlockLocal_told fun unlocked hunlocked => ?_
      split
      · exact told_pure
      · exact exportSecret_told hserved (hunlocked _ rfl) List.mem_cons_self
    · refine yields_bind restoreWalletSeed_told fun restored hrestored => ?_
      split
      · exact told_pure
      · exact told_pure
      · exact exportSecret_told hserved hrestored List.mem_cons_self
  · exact consents_done ht

/-- A local wallet is what its bytes say. -/
def Route.Parsed : Route → Prop
  | .localUnlock raw parsed => parseBlob raw = .ok parsed
  | _ => True

/-- **Every handler** asks first. -/
theorem Route.consents (hparsed : route.Parsed) (hserved : served h route) (hs : Told env served told s) :
    Consents env served h guard route (route.prog env h) s := by
  cases route with
  | create credentialIdB64 attestation => exact handleCreate_consents hserved hs
  | incomplete => exact consents_done hs
  | localUnlock raw parsed => exact handleLocalUnlock_consents hparsed hserved hs
  | remoteUnlock => exact handleRemoteUnlock_consents hserved hs
  | sign txB64 => exact handleSign_consents hserved hs
  | exportPrivateKey => exact handleExportPrivateKey_consents hserved hs

theorem routeOf_parsed (store : LocalStore) (body : RequestBody) : (routeOf store body).Parsed := by
  unfold routeOf
  split
  · split <;> trivial
  · split
    · next raw parsed hread =>
      unfold readLocalBlob at hread
      simp only at hread
      split at hread
      · split at hread
        · cases hread
        · cases hread
        · split at hread
          · cases hread
          · split at hread
            · next parsed' hparse =>
              cases hread
              exact hparse
            · cases hread
      · cases hread
    · trivial
  · trivial
  · trivial

end Routes

/-! ## The signer -/

section Inv

variable {env : SignerEnv} {ls ls' : List Event} {w w' : World} {h : Handling} {route : Route} {s : Desk}

/-- The handler of a message that has arrived. -/
def Serves (ls : List Event) (h : Handling) (route : Route) : Prop :=
  ∃ request store, Asked ls h request ∧ routeOf store request.body = route

theorem Serves.append (hs : Serves ls h route) : Serves (ls ++ ls') h route := by
  obtain ⟨request, store, hasked, hroute⟩ := hs
  exact ⟨request, store, hasked.append, hroute⟩

/-- A handler that has asked the user, and goes on so. -/
def Asks (env : SignerEnv) (ls : List Event) (s : Desk) (p : Pending) : Prop :=
  ∃ served : Handling → Route → Prop, (∀ h route, served h route → Serves ls h route) ∧ served p.handling p.route ∧
    p.route.Parsed ∧ p.waiting.wp (awaits p.handling everyReply) (Reached env served p.handling p.route)
      (fun _ s => Told env served [] s) s

/-- What holds between the steps. -/
structure ConsentInv (env : SignerEnv) (ls : List Event) (w : World) : Prop where
  founded : Founded env (Serves ls) w.desk.log
  pool : ∀ p ∈ w.pool, Asks env ls w.desk p

theorem Asks.append {p : Pending} (hp : Asks env ls s p) : Asks env (ls ++ ls') s p := by
  obtain ⟨served, hle, hrest⟩ := hp
  exact ⟨served, fun h route hs => (hle h route hs).append, hrest⟩

/-- A tap or a change of the storage. -/
theorem Asks.meanwhile {t : Desk} {p : Pending} (hp : Asks env ls s p) (hmeanwhile : Meanwhile s t) : Asks env ls t p := by
  obtain ⟨served, hle, hserved, hparsed, hwaiting⟩ := hp
  refine ⟨served, hle, hserved, hparsed, ?_⟩
  have hreached : ∀ c s t, Meanwhile s t → Reached env served p.handling p.route c s →
      Reached env served p.handling p.route c t := by
    intro c s t hst hs
    have hall : Told env served s.log s := ⟨List.Subset.refl _, hs.1.founded⟩
    exact ⟨hs.1.meanwhile hst, hs.2.imp id fun hc => hc.mono (hall.meanwhile hst).told⟩
  induction hmeanwhile with
  | refl => exact hwaiting
  | dismiss _ ih => exact waiting_dismiss (fun c s => hreached c s _ (.dismiss .refl)) ih
  | storage store _ ih => exact waiting_storage (fun c s store => hreached c s _ (.storage store .refl)) ih

/-- **A handler settles.** -/
theorem settles_consents {served : Handling → Route → Prop} {t : Desk}
    {out : (Waiting Desk Thrown Site Site.Reply Flow ⊕ Except Thrown Flow) × Desk}
    {waiting : Option (Waiting Desk Thrown Site Site.Reply Flow)} (hsettles : Settles env h route out waiting t)
    (hle : ∀ h route, served h route → Serves ls h route) (hserved : served h route) (hparsed : route.Parsed)
    (hout : Settled (awaits h everyReply) (Reached env served h route) (fun _ s => Told env served [] s) out) :
    Founded env (Serves ls) t.log ∧ ∀ p ∈ pendingOf h route waiting, Asks env ls t p := by
  have hends := hsettles.sound (fun s hs => Route.consents hparsed hserved hs) hout
  cases waiting with
  | some w =>
    have hw : w.wp (awaits h everyReply) (Reached env served h route) (fun _ s => Told env served [] s) t := hends
    refine ⟨hw.1.1.founded.mono hle, fun p hp => ?_⟩
    obtain rfl := List.mem_singleton.1 hp
    exact ⟨served, hle, hserved, hparsed, hw⟩
  | none =>
    refine ⟨?_, fun p hp => nomatch hp⟩
    rcases hends with ⟨s, hs, rfl⟩ | ⟨e, s, hs, rfl⟩
    · exact hs.founded.mono hle
    · have hfailed : Told env served _ (s.failed h e) := hs.learn fun _ heq => by cases heq; rfl
      exact hfailed.founded.mono hle

theorem ConsentInv.start (store : LocalStore) : ConsentInv env [] (.start store) where
  founded _ _ hmem := nomatch hmem
  pool _ hp := nomatch hp

theorem ConsentInv.reject {data : ValidationResult} {now : ℚ} {seen : SeenRequests} {message : Outgoing}
    (hi : ConsentInv env ls w) : ConsentInv env (ls ++ [.message data now]) (w.reject seen message) where
  founded := hi.founded.mono fun _ _ => Serves.append
  pool p hp := (hi.pool p hp).append

theorem ConsentInv.meanwhile {e : Event} {t : Desk} (hi : ConsentInv env ls w) (hmeanwhile : Meanwhile w.desk t) :
    ConsentInv env (ls ++ [e]) { w with desk := t } where
  founded := by
    have hs : Told env (Serves ls) [] w.desk := ⟨List.nil_subset _, hi.founded⟩
    exact (hs.meanwhile hmeanwhile).founded.mono fun _ _ => Serves.append
  pool p hp := ((hi.pool p hp).meanwhile hmeanwhile).append

/-- **One step of the signer.** -/
theorem ConsentInv.step {e : Event} (hsign : SignInv env ls w) (hi : ConsentInv env ls w) (hstep : Step env e w w') :
    ConsentInv env (ls ++ [e]) w' := by
  cases hstep with
  | invalid => exact hi.reject
  | replayed _ => exact hi.reject
  | pending _ _ => exact hi.reject
  | dismiss => exact hi.meanwhile (.dismiss .refl)
  | storage => exact hi.meanwhile (.storage _ .refl)
  | @accepted _ request now op desk waiting _ hbegin hsettles =>
    have hpool := hsign.pool_eq_nil hbegin
    have hserves : Serves (ls ++ [.message (.ok request) now]) ⟨w.received, request.requestId⟩
        (routeOf w.desk.store request.body) := by
      refine ⟨request, w.desk.store, ⟨?_, rfl⟩, rfl⟩
      rw [messages_append, hsign.received, List.getElem?_append_right le_rfl, Nat.sub_self]
      rfl
    have hstart : Told env (Serves (ls ++ [.message (.ok request) now])) [] { w.desk with op := op } :=
      ⟨List.nil_subset _, hi.founded.mono fun _ _ => Serves.append⟩
    have hparsed := routeOf_parsed w.desk.store request.body
    obtain ⟨hfounded, hasks⟩ := settles_consents hsettles (fun _ _ hs => hs) hserves hparsed
      (wp_segment.1 (Route.consents hparsed hserves hstart))
    refine ⟨hfounded, fun p hp => hasks p ?_⟩
    rwa [hpool, List.nil_append] at hp
  | @reply _ before after p r desk waiting hpool hsettles =>
    -- it is the only handler that waits
    obtain ⟨rfl, rfl, -⟩ := hsign.alone hpool
    obtain ⟨served, hle, hserved, hparsed, hwaiting⟩ := hi.pool p (by rw [hpool]; exact List.mem_singleton.2 rfl)
    have hresume := hwaiting.2 r _ ⟨w.desk, .refl, trivial, rfl⟩
    obtain ⟨hfounded, hasks⟩ := settles_consents hsettles (fun h route hs => (hle h route hs).append) hserved hparsed
      (wp_segment.1 hresume)
    refine ⟨hfounded, fun q hq => hasks q ?_⟩
    rwa [List.nil_append, List.append_nil] at hq

/-- **Every run of the signer.** -/
theorem Run.consentInv {store : LocalStore} (hrun : Runs.Run (Step env) (.start store) ls w) : ConsentInv env ls w :=
  hrun.tracked (.start store) fun _ _ _ _ hrun hi hstep => hi.step (Run.signInv hrun) hstep

end Inv

/-- **Consent first.** In every run of the signer, a handler that waits for anything but the user's confirmation (or the
digest of what it would sign) has the user's yes for the message that it serves; and each answer that was posted and is
not an error answers a message that arrived, after the user's yes for it, and rests on its grounds. -/
theorem consent_first {env : SignerEnv} {store : LocalStore} {ls : List Event} {w : World}
    (hrun : Runs.Run (Step env) (.start store) ls w) :
    (∀ p ∈ w.pool, Serves ls p.handling p.route ∧
      (p.waiting.site.call.opening = true ∨ Consented w.desk.log p.handling.ticket p.route)) ∧
    Founded env (Serves ls) w.desk.log := by
  have hi := Run.consentInv hrun
  refine ⟨fun p hp => ?_, hi.founded⟩
  obtain ⟨served, hle, hserved, -, hwaiting⟩ := hi.pool p hp
  exact ⟨hle _ _ hserved, hwaiting.1.2⟩

/-! ## An example -/

/-- The user agrees to an export, and closes the screen with the secret. -/
def exportMoves : List Move :=
  [.message (.ok ⟨"request-1", 0, .exportPrivateKey⟩) 0, .answer, .answer, .answer, .answer, .answer]

theorem consent_first_export : ∃ ls w, Runs.Run (Step exampleEnv) (.start exampleStore) ls w ∧
    w.desk.posts 0 = [.exportResult "request-1" true] ∧
    (0, .answered ⟨.exportPrivateKey, .confirmExportPrivateKey⟩ (.ok true)) ∈ w.desk.log ∧
    ∃ (seed : Bytes) (key : Pubkey), exampleEnv.ed25519PublicKey seed = .ok key.bytes ∧
      (0, .answered ⟨.exportPrivateKey, .showExportedSecret (BaseText.base58Of (seed ++ key.bytes)) key.text⟩ (.ok ())) ∈
        w.desk.log := by
  have hposts : (World.execAll exampleEnv exampleAnswers (fun _ _ => true) (.start exampleStore) exportMoves).map
      (fun w => w.desk.posts 0) = some [.exportResult "request-1" true] := by decide +kernel
  obtain ⟨w, hexec, hposts⟩ := Option.map_eq_some_iff.1 hposts
  obtain ⟨ls, hrun⟩ := run_of_execAll (P := fun _ _ => True) (fun _ _ _ => trivial) .nil hexec
  have hrun' := hrun.mono fun _ _ _ hstep => hstep.1
  have hposted : (0, .posted (.exportResult "request-1" true)) ∈ w.desk.log := by
    rw [← mem_posts, hposts]
    exact List.mem_cons_self
  obtain ⟨h, route, hticket, -, hc, hg⟩ := (consent_first hrun').2 _ _ hposted rfl
  obtain ⟨rfl, -, -, seed, key, hkey, hshown⟩ := hg.of_exportResult
  exact ⟨ls, w, hrun', hposts, hc, seed, key, hkey, hticket ▸ hshown⟩

end PhygitalWallet.Secure
