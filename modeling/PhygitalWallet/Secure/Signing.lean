import PhygitalWallet.Secure.Base64
import PhygitalWallet.Secure.System

/-!
# Signatures rest on a confirmed request (`main.ts`, `state.ts`)

One handler waits at a time. Only the last step of `handleSign` posts a signature, over the bytes that were decoded from the
request, by the key that the policy was evaluated for.

- `Unsigned`: no signature is added and the operation goes on, which taps and replies do not change;
- `Route.unsigned`, `handleSign_spec`: what each handler does to it;
- `SignInv`, `SignInv.step`: what holds between the steps of the signer.
-/

namespace PhygitalWallet.Secure

open Async Prog Client

/-! ## Posted signatures -/

structure SignResult where
  ticket : Nat
  requestId : String
  signature : String
  publicKey : String
deriving DecidableEq, Repr

def signResultOf : Nat × Entry → Option SignResult
  | (ticket, .posted (.signResult requestId signature publicKey)) => some ⟨ticket, requestId, signature, publicKey⟩
  | _ => none

/-- The signatures that were posted. -/
def Desk.signed (s : Desk) : List SignResult := s.log.filterMap signResultOf

/-- What a signature rests on: the bytes of the request, the policy for the key of the seed, and the user's consent. -/
def Authorized (env : SignerEnv) (txB64 : String) (log : List (Nat × Entry)) (result : SignResult) : Prop :=
  ∃ txBytes tx owner summary shown seed signature,
    base64ToBytes txB64 maxTxBytes .std = .ok txBytes ∧ decodeV1Transaction env.kit txBytes = .ok tx ∧
    evaluatePolicy env.kit.policyData tx owner = .ok summary ∧
    env.ed25519PublicKey seed = .ok owner.bytes ∧ env.ed25519Sign tx.messageBytes seed = .ok signature ∧
    result.signature = bytesToBase64 signature .std ∧ result.publicKey = owner.text ∧
    (result.ticket, .answered ⟨.sign, .confirmSignTransaction shown⟩ (.ok true)) ∈ log ∧
    shown.instructions = summary.instructions ∧ shown.config = summary.config

theorem Authorized.mono {env : SignerEnv} {txB64 : String} {log log' : List (Nat × Entry)} {result : SignResult}
    (hlog : ∀ entry ∈ log, entry ∈ log') (h : Authorized env txB64 log result) : Authorized env txB64 log' result := by
  obtain ⟨txBytes, tx, owner, summary, shown, seed, signature, hbytes, htx, hpolicy, hkey, hsign, hsig, hpk, hmem, hix,
    hconfig⟩ := h
  exact ⟨txBytes, tx, owner, summary, shown, seed, signature, hbytes, htx, hpolicy, hkey, hsign, hsig, hpk, hlog _ hmem,
    hix, hconfig⟩

theorem signed_add {s : Desk} {ticket : Nat} {entry : Entry} :
    (s.add ticket entry).signed = s.signed ++ (signResultOf (ticket, entry)).toList := by
  unfold Desk.signed Desk.add
  rw [List.filterMap_append]
  rfl

/-! ## The handlers that do not sign -/

/-- The signatures are these, the operation goes on, and the log has these entries. -/
structure Unsigned (signed : List SignResult) (op : OperationState) (told : List (Nat × Entry)) (s : Desk) : Prop where
  signed_eq : s.signed = signed
  state_eq : s.op.state = op
  told : ∀ entry ∈ told, entry ∈ s.log

section Unsigned

variable {env : SignerEnv} {h : Handling} {signed : List SignResult} {op : OperationState} {told : List (Nat × Entry)}
  {guard : Guard} {s : Desk}

theorem Unsigned.add (hs : Unsigned signed op told s) {ticket : Nat} {entry : Entry}
    (hentry : signResultOf (ticket, entry) = none) : Unsigned signed op told (s.add ticket entry) :=
  ⟨by rw [signed_add, hentry, Option.toList_none, List.append_nil, hs.1], hs.2,
    fun e he => List.mem_append_left _ (hs.3 e he)⟩

theorem Unsigned.dismiss (hs : Unsigned signed op told s) : Unsigned signed op told s.dismiss := by
  unfold Desk.dismiss
  split
  · next busy _ _ =>
    split
    · exact ⟨hs.1, hs.2, hs.3⟩
    · have hs' : Unsigned signed op told { s with busyDismiss := none, dismissed := busy.id :: s.dismissed } :=
        ⟨hs.1, hs.2, hs.3⟩
      exact hs'.add rfl
  · exact hs

theorem Unsigned.storage {store : LocalStore} (hs : Unsigned signed op told s) :
    Unsigned signed op told { s with store := store } := ⟨hs.1, hs.2, hs.3⟩

theorem Unsigned.meanwhile {t : Desk} (hs : Unsigned signed op told s) (hmeanwhile : Meanwhile s t) :
    Unsigned signed op told t := by
  induction hmeanwhile with
  | refl => exact hs
  | dismiss _ ih => exact ih.dismiss
  | storage _ _ ih => exact ih.storage

theorem stable_unsigned : Stable h guard (Unsigned signed op told) where
  awaits c r s t ht hs := by
    obtain ⟨s', hmeanwhile, -, rfl⟩ := ht
    exact (hs.meanwhile hmeanwhile).add rfl
  draws _ _ hs := ⟨hs.1, hs.2, hs.3⟩

/-- The function neither signs nor ends the operation. -/
abbrev KeepsUnsigned {α : Type} (h : Handling) (guard : Guard) (signed : List SignResult) (op : OperationState)
    (told : List (Nat × Entry)) (p : Handler α) : Prop := Keeps (awaits h guard) (Unsigned signed op told) p

theorem unsigned_modify {f : Desk → Desk} (hlog : ∀ s, (f s).log = s.log) (hop : ∀ s, (f s).op.state = s.op.state) :
    KeepsUnsigned h guard signed op told (modify f) :=
  keeps_modify fun s hs => ⟨by rw [Desk.signed, hlog]; exact hs.1, by rw [hop]; exact hs.2, by rw [hlog]; exact hs.3⟩

theorem unsigned_call {α : Type} {f : Desk → Except Thrown α × Desk} (hlog : ∀ s, (f s).2.log = s.log)
    (hop : ∀ s, (f s).2.op.state = s.op.state) : KeepsUnsigned h guard signed op told (call f) :=
  yields_call (fun s hs => ⟨by rw [Desk.signed, hlog]; exact hs.1, by rw [hop]; exact hs.2, by rw [hlog]; exact hs.3⟩)
    fun _ _ _ _ => trivial

theorem unsigned_ofOutcome {α : Type} {out : Except Thrown α} :
    KeepsUnsigned h guard signed op told (ofOutcome out : Handler α) := yields_ofOutcome fun _ _ => trivial

theorem unsigned_pure {α : Type} {a : α} : KeepsUnsigned h guard signed op told (pure a : Handler α) := yields_pure trivial

theorem unsigned_post {message : Outgoing} (hmessage : ∀ n, signResultOf (n, .posted message) = none) :
    KeepsUnsigned h guard signed op told (post h message) := keeps_modify fun _ hs => hs.add (hmessage _)

theorem unsigned_fail {code : ErrorCode} : KeepsUnsigned h guard signed op told (fail h code) := unsigned_post fun _ => rfl

theorem unsigned_failDone {code : ErrorCode} : KeepsUnsigned h guard signed op told (failDone h code) :=
  yields_bind unsigned_fail fun _ _ => unsigned_pure

theorem unsigned_request {scope : Scope} {call : Call} : KeepsUnsigned h guard signed op told (request scope call) :=
  stable_unsigned.request

theorem unsigned_ask {scope : Scope} {call : Call} : KeepsUnsigned h guard signed op told (ask scope call) :=
  yields_bind (unsigned_modify (fun _ => rfl) fun _ => rfl) fun _ _ => unsigned_request

theorem unsigned_beginBusy : KeepsUnsigned h guard signed op told (beginBusy h) := unsigned_call (fun _ => rfl) fun _ => rfl

theorem unsigned_wasDismissed {busy : Nat} : KeepsUnsigned h guard signed op told (wasDismissed busy) :=
  unsigned_call (fun _ => rfl) fun _ => rfl

theorem unsigned_clearBusy : KeepsUnsigned h guard signed op told clearBusy := unsigned_modify (fun _ => rfl) fun _ => rfl

theorem unsigned_readLocal : KeepsUnsigned h guard signed op told readLocal := unsigned_call (fun _ => rfl) fun _ => rfl

theorem unsigned_writeLocal {raw : Bytes} : KeepsUnsigned h guard signed op told (writeLocal raw) :=
  unsigned_call (fun _ => rfl) fun _ => rfl

theorem unsigned_finally {α : Type} {p : Handler α} (hp : KeepsUnsigned h guard signed op told p) :
    KeepsUnsigned h guard signed op told (finallyDo p clearBusy) := yields_finallyDo hp fun _ hs => ⟨hs.1, hs.2, hs.3⟩

/-- A guarded end of a busy screen. -/
theorem unsigned_guarded {α : Type} {busy : Nat} {a : α} {p : Handler α} (hp : KeepsUnsigned h guard signed op told p) :
    KeepsUnsigned h guard signed op told (do
      let dismissed ← wasDismissed busy
      if dismissed then return a else p) := by
  refine yields_bind unsigned_wasDismissed fun dismissed _ => ?_
  split
  · exact unsigned_pure
  · exact hp

theorem createBody_unsigned {credentialIdB64 attestation : String} {busy : Nat} :
    KeepsUnsigned h guard signed op told (createBody env h credentialIdB64 attestation busy) := by
  refine yields_bind stable_unsigned.mintBackupChallenge fun minted _ => ?_
  split
  · exact unsigned_failDone
  · refine yields_bind unsigned_ofOutcome fun credentialId _ => ?_
    refine yields_bind stable_unsigned.enrollExistingCredential.keeps fun created _ => ?_
    refine unsigned_guarded ?_
    split
    · exact unsigned_failDone
    · refine yields_bind unsigned_ofOutcome fun pk _ => ?_
      refine yields_bind (yields_attempt unsigned_request) fun pushed _ => ?_
      split
      · exact unsigned_failDone
      · refine yields_bind unsigned_writeLocal fun written _ => ?_
        split
        · refine yields_bind unsigned_ask fun _ _ => unsigned_guarded ?_
          exact yields_bind (unsigned_post fun _ => rfl) fun _ _ => unsigned_pure
        · exact unsigned_failDone

theorem handleCreate_unsigned {credentialIdB64 attestation : String} :
    KeepsUnsigned h guard signed op told (handleCreate env h credentialIdB64 attestation) := by
  refine yields_bind unsigned_ask fun confirmed _ => ?_
  split
  · refine yields_bind unsigned_beginBusy fun busy _ => unsigned_finally ?_
    refine yields_tryCatch createBody_unsigned fun e => unsigned_guarded ?_
    split
    · refine yields_bind unsigned_ask fun again _ => ?_
      split
      · exact yields_bind unsigned_clearBusy fun _ _ => unsigned_pure
      · exact unsigned_failDone
    · exact yields_throw e
  · exact unsigned_failDone

theorem localUnlockBody_unsigned {raw : Bytes} {parsed : ParsedWalletBlob} {busy : Nat} :
    KeepsUnsigned h guard signed op told (localUnlockBody env h raw parsed busy) := by
  refine yields_bind stable_unsigned.mintBackupChallenge fun minted _ => ?_
  refine yields_bind stable_unsigned.decryptWallet.keeps fun unlocked _ => unsigned_guarded ?_
  split
  · exact unsigned_failDone
  · refine yields_bind unsigned_ofOutcome fun pk _ => ?_
    refine yields_bind (yields_attempt unsigned_request) fun pushed _ => ?_
    split
    · exact unsigned_failDone
    · refine yields_bind unsigned_writeLocal fun written _ => ?_
      split
      · refine yields_bind unsigned_ask fun _ _ => unsigned_guarded ?_
        exact yields_bind (unsigned_post fun _ => rfl) fun _ _ => unsigned_pure
      · exact unsigned_failDone

theorem handleLocalUnlock_unsigned {raw : Bytes} {parsed : ParsedWalletBlob} :
    KeepsUnsigned h guard signed op told (handleLocalUnlock env h raw parsed) := by
  refine yields_bind unsigned_ask fun confirmed _ => ?_
  split
  · refine yields_bind unsigned_beginBusy fun busy _ => unsigned_finally ?_
    refine yields_tryCatch localUnlockBody_unsigned fun e => unsigned_guarded ?_
    split
    · refine yields_bind unsigned_ask fun again _ => ?_
      split
      · exact unsigned_pure
      · exact unsigned_failDone
    · exact yields_throw e
  · exact unsigned_failDone

theorem discover_unsigned {scope : Scope} {challenge : Bytes} {busy : Nat} :
    KeepsUnsigned h guard signed op told (discover scope challenge busy) :=
  yields_bind unsigned_request fun _ _ => yields_bind unsigned_wasDismissed fun _ _ => unsigned_pure

theorem retryOr_unsigned {code : ErrorCode} : KeepsUnsigned h guard signed op told (retryOr h code) := by
  refine yields_bind unsigned_ask fun again _ => ?_
  split
  · exact unsigned_pure
  · exact unsigned_failDone

theorem remoteUnlockBody_unsigned {backup : Challenge} {disc : Discovered} {blob : String} {busy : Nat} :
    KeepsUnsigned h guard signed op told (remoteUnlockBody env h backup disc blob busy) := by
  refine yields_bind unsigned_ofOutcome fun raw _ => ?_
  refine yields_bind unsigned_ofOutcome fun parsed _ => ?_
  split
  · exact unsigned_failDone
  · refine yields_bind stable_unsigned.unwrapWallet.keeps fun unlocked _ => unsigned_guarded ?_
    refine yields_bind unsigned_writeLocal fun written _ => ?_
    split
    · split
      · exact unsigned_failDone
      · refine yields_bind unsigned_ofOutcome fun pk _ => ?_
        refine yields_bind (yields_attempt unsigned_request) fun pushed _ => ?_
        split
        · exact unsigned_failDone
        · refine yields_bind unsigned_clearBusy fun _ _ => yields_bind unsigned_ask fun _ _ => ?_
          exact yields_bind (unsigned_post fun _ => rfl) fun _ _ => unsigned_pure
    · exact unsigned_failDone

theorem remoteRestore_unsigned {restore backup : Challenge} {disc : Discovered} :
    KeepsUnsigned h guard signed op told (remoteRestore env h restore backup disc) := by
  refine yields_bind unsigned_clearBusy fun _ _ => yields_bind unsigned_beginBusy fun busy _ => ?_
  refine yields_bind (yields_attempt unsigned_request) fun restored _ => ?_
  split
  · exact yields_bind unsigned_clearBusy fun _ _ => unsigned_failDone
  · exact yields_bind unsigned_clearBusy fun _ _ => retryOr_unsigned
  · exact unsigned_finally (yields_tryCatch remoteUnlockBody_unsigned fun e => unsigned_guarded (yields_throw e))

theorem handleRemoteUnlock_unsigned : KeepsUnsigned h guard signed op told (handleRemoteUnlock env h) := by
  refine yields_bind unsigned_ask fun confirmed _ => ?_
  split
  · refine yields_bind (yields_attempt unsigned_request) fun minted _ => ?_
    split
    · exact unsigned_failDone
    · split
      · exact unsigned_failDone
      · refine yields_bind unsigned_beginBusy fun busy _ => ?_
        refine yields_bind (yields_attempt discover_unsigned) fun found _ => ?_
        split
        · exact unsigned_pure
        · exact remoteRestore_unsigned
        · exact yields_bind unsigned_clearBusy fun _ _ => unsigned_guarded retryOr_unsigned
  · exact unsigned_failDone

/-! ## The keys that sign -/

/-- A wallet's seed has the wallet's public key. -/
def Restored.Keyed (env : SignerEnv) : Restored → Prop
  | .wallet seed publicKey => env.ed25519PublicKey seed = .ok publicKey
  | _ => True

theorem failRestore_keyed {code : ErrorCode} :
    Yields (awaits h guard) (Unsigned signed op told) (Restored.Keyed env) (failRestore h code) :=
  yields_bind unsigned_fail fun _ _ => yields_pure trivial

theorem restoreBody_keyed {restore : Challenge} {challenge : Bytes} {busy : Nat} :
    Yields (awaits h guard) (Unsigned signed op told) (Restored.Keyed env) (restoreBody env h restore challenge busy) := by
  refine yields_bind discover_unsigned fun found _ => ?_
  split
  · exact yields_pure trivial
  · refine yields_bind (yields_attempt unsigned_request) fun restored _ => ?_
    split
    · exact failRestore_keyed
    · exact failRestore_keyed
    · refine yields_bind unsigned_ofOutcome fun raw _ => ?_
      refine yields_bind unsigned_ofOutcome fun parsed _ => ?_
      split
      · exact failRestore_keyed
      · refine yields_bind stable_unsigned.unwrapWallet fun unlocked hunlocked => ?_
        refine yields_bind unsigned_writeLocal fun written _ => ?_
        split
        · exact yields_pure hunlocked.1
        · exact failRestore_keyed

theorem restoreWalletSeed_keyed :
    Yields (awaits h guard) (Unsigned signed op told) (Restored.Keyed env) (restoreWalletSeed env h) := by
  refine yields_bind (yields_attempt unsigned_request) fun minted _ => ?_
  split
  · exact failRestore_keyed
  · split
    · exact failRestore_keyed
    · refine yields_bind unsigned_beginBusy fun busy _ => ?_
      refine yields_finallyDo (yields_tryCatch restoreBody_keyed fun e => ?_) fun _ hs => ⟨hs.1, hs.2, hs.3⟩
      refine yields_bind unsigned_wasDismissed fun dismissed _ => ?_
      split
      · exact yields_pure trivial
      · split
        · exact failRestore_keyed
        · exact yields_throw _

theorem unlockLocal_keyed {scope : Scope} {parsed : ParsedWalletBlob} :
    Yields (awaits h guard) (Unsigned signed op told)
      (fun out => ∀ unlocked, out = some unlocked → env.ed25519PublicKey unlocked.1 = .ok unlocked.2 ∧
        unlocked.2 = parsed.publicKey)
      (unlockLocal env h scope parsed) := by
  refine yields_bind unsigned_beginBusy fun busy _ => ?_
  refine yields_finallyDo (yields_tryCatch ?_ fun e => ?_) fun _ hs => ⟨hs.1, hs.2, hs.3⟩
  · refine yields_bind stable_unsigned.decryptWallet fun unlocked hunlocked => ?_
    refine yields_bind unsigned_wasDismissed fun dismissed _ => yields_pure ?_
    intro u hu
    split at hu
    · cases hu
    · cases hu
      exact hunlocked
  · refine yields_bind unsigned_wasDismissed fun dismissed _ => ?_
    split
    · exact yields_pure fun _ h => nomatch h
    · exact yields_throw e

theorem exportSecret_unsigned {seed publicKey : Bytes} :
    KeepsUnsigned h guard signed op told (exportSecret h seed publicKey) := by
  refine yields_bind unsigned_ofOutcome fun pk _ => yields_bind unsigned_ask fun _ _ => ?_
  exact yields_bind (unsigned_post fun _ => rfl) fun _ _ => unsigned_pure

theorem handleExportPrivateKey_unsigned : KeepsUnsigned h guard signed op told (handleExportPrivateKey env h) := by
  refine yields_bind unsigned_ask fun confirmed _ => ?_
  split
  · refine yields_bind unsigned_readLocal fun stored _ => ?_
    split
    · refine yields_bind unlockLocal_keyed.keeps fun unlocked _ => ?_
      split
      · exact unsigned_pure
      · exact exportSecret_unsigned
    · refine yields_bind restoreWalletSeed_keyed.keeps fun restored _ => ?_
      split
      · exact unsigned_pure
      · exact unsigned_pure
      · exact exportSecret_unsigned
  · exact unsigned_failDone

end Unsigned

/-! ## The handler that signs -/

section Sign

variable {env : SignerEnv} {h : Handling} {signed : List SignResult} {op : OperationState} {told : List (Nat × Entry)}
  {guard : Guard} {s : Desk}

/-- How a handler of a signing request leaves the desk: nothing new is signed, or one signature that rests on the
request, and then the handler is over. -/
def SignEnds (env : SignerEnv) (h : Handling) (signed : List SignResult) (op : OperationState)
    (told : List (Nat × Entry)) (txB64 : String) (out : Except Thrown Flow) (s : Desk) : Prop :=
  Unsigned signed op told s ∨ out = .ok .done ∧ ∃ result, Unsigned (signed ++ [result]) op told s ∧
    result.ticket = h.ticket ∧ result.requestId = h.requestId ∧ Authorized env txB64 s.log result

/-- The answer that a confirmation was given. -/
def confirmedEntry (h : Handling) (summary : TransactionSummary) : Nat × Entry :=
  (h.ticket, .answered ⟨.sign, .confirmSignTransaction summary⟩ (.ok true))

theorem Unsigned.forget {told' : List (Nat × Entry)} (hsub : told ⊆ told') (hs : Unsigned signed op told' s) :
    Unsigned signed op told s := ⟨hs.1, hs.2, fun _ he => hs.3 _ (hsub he)⟩

/-- A function that keeps the desk unsigned, and then one that may sign. -/
theorem sign_seq {α : Type} {told' : List (Nat × Entry)} {A : α → Prop} {txB64 : String} {p : Handler α}
    {f : α → Handler Flow} (hsub : told ⊆ told') (hp : Yields (awaits h guard) (Unsigned signed op told') A p)
    (hs : Unsigned signed op told' s) (hf : ∀ a t, A a → Unsigned signed op told' t →
      (f a).wp (awaits h guard) (fun _ => Unsigned signed op told) (SignEnds env h signed op told txB64) t) :
    (p >>= f).wp (awaits h guard) (fun _ => Unsigned signed op told) (SignEnds env h signed op told txB64) s := by
  refine wp_seq (wp_weaken (fun _ _ => Unsigned.forget hsub) (hp s hs)) (fun a t ht => hf a t (ht.2 a rfl) ht.1) ?_
  exact fun e t ht => .inl (ht.1.forget hsub)

theorem sign_keeps {told' : List (Nat × Entry)} {txB64 : String} {p : Handler Flow} (hsub : told ⊆ told')
    (hp : KeepsUnsigned h guard signed op told' p) (hs : Unsigned signed op told' s) :
    p.wp (awaits h guard) (fun _ => Unsigned signed op told) (SignEnds env h signed op told txB64) s :=
  wp_weaken (fun _ _ => Unsigned.forget hsub) (wp_mono (fun _ _ ht => .inl (ht.1.forget hsub)) (hp s hs))

/-- The last step signs the frozen bytes with the seed of the policy's owner. -/
theorem signFrozen_spec {txB64 : String} {txBytes seed publicKey : Bytes} {tx : DecodedV1Transaction} {owner : Pubkey}
    {summary shown : TransactionSummary} (hbytes : base64ToBytes txB64 maxTxBytes .std = .ok txBytes)
    (htx : decodeV1Transaction env.kit txBytes = .ok tx)
    (hpolicy : evaluatePolicy env.kit.policyData tx owner = .ok summary)
    (hix : shown.instructions = summary.instructions) (hconfig : shown.config = summary.config)
    (hkey : env.ed25519PublicKey seed = .ok publicKey) (howner : decodeAddress publicKey = .ok owner)
    (hs : Unsigned signed op (confirmedEntry h shown :: told) s) :
    (signFrozen env h tx.messageBytes seed publicKey).wp (awaits h guard) (fun _ => Unsigned signed op told)
      (SignEnds env h signed op told txB64) s := by
  have hsub : told ⊆ confirmedEntry h shown :: told := List.subset_cons_self _ _
  refine sign_seq hsub (A := fun _ => True) ?_ hs fun digest t _ ht => ?_
  · exact yields_bind unsigned_request fun _ _ => unsigned_pure
  refine sign_seq hsub (A := fun _ => True) (unsigned_call (fun _ => rfl) fun _ => rfl) ht fun auth t _ ht => ?_
  split
  · exact sign_keeps hsub unsigned_failDone ht
  · refine sign_seq hsub (yields_ofOutcome fun _ => id) ht fun signature t hsignature ht => ?_
    refine sign_seq hsub (yields_ofOutcome fun _ => id) ht fun pk t hpk ht => ?_
    rw [howner] at hpk
    obtain rfl := Except.ok.inj hpk
    refine .inr ⟨rfl, ⟨h.ticket, h.requestId, bytesToBase64 signature .std, owner.text⟩, ⟨?_, ht.state_eq, ?_⟩, rfl, rfl, ?_⟩
    · rw [signed_add, ht.signed_eq]
      rfl
    · exact fun e he => List.mem_append_left _ (ht.told e (hsub he))
    · have hbytes' : owner.bytes = publicKey := decodeAddress_bytes howner (length_ed25519PublicKey hkey)
      exact ⟨txBytes, tx, owner, summary, shown, seed, signature, hbytes, htx, hpolicy, by rw [hbytes']; exact hkey,
        hsignature, rfl, rfl, List.mem_append_left _ (ht.told _ List.mem_cons_self), hix, hconfig⟩

/-- The summary that is shown before the owner is known differs in the wallet's address only. -/
theorem evaluatePolicy_preview {policyData : Bytes → Outcome WalletPolicyData} {tx : DecodedV1Transaction} {owner : Pubkey}
    {preview summary : TransactionSummary} (hpreview : previewPolicy policyData tx = .ok preview)
    (h : evaluatePolicy policyData tx owner = .ok summary) :
    preview.instructions = summary.instructions ∧ preview.config = summary.config := by
  obtain ⟨p, hp, h⟩ := outcome_bind_eq_ok.1 h
  rw [hpreview] at hp
  cases hp
  split at h
  · cases h
  · split at h
    · cases h
    · cases h
      exact ⟨rfl, rfl⟩

/-- A confirmation: what follows knows the answer. -/
theorem confirm_seq {summary : TransactionSummary} {txB64 : String} {yes no : Handler Flow}
    (hs : Unsigned signed op told s)
    (hyes : ∀ t, Unsigned signed op (confirmedEntry h summary :: told) t →
      yes.wp (awaits h guard) (fun _ => Unsigned signed op told) (SignEnds env h signed op told txB64) t)
    (hno : ∀ t, Unsigned signed op told t →
      no.wp (awaits h guard) (fun _ => Unsigned signed op told) (SignEnds env h signed op told txB64) t) :
    (ask .sign (.confirmSignTransaction summary) >>= fun confirmed : Bool => if confirmed then yes else no).wp
      (awaits h guard) (fun _ => Unsigned signed op told) (SignEnds env h signed op told txB64) s := by
  refine wp_bind.2 (wp_bind.2 (wp_modify.2 ?_))
  have hs' : Unsigned signed op told { s with screen := .sheet } := ⟨hs.1, hs.2, hs.3⟩
  refine follows_ok.2 ((wp_awaitOk (c := Site.mk .sign (.confirmSignTransaction summary))).2 ⟨hs', ?_⟩)
  rintro r t ⟨s', hmeanwhile, -, rfl⟩
  have ht := hs'.meanwhile hmeanwhile
  rcases r with e | confirmed
  · exact .inl (ht.add rfl)
  · cases confirmed with
    | false => exact hno _ (ht.add rfl)
    | true =>
      refine hyes _ ⟨(ht.add rfl).1, (ht.add rfl).2, fun e he => ?_⟩
      rcases List.mem_cons.1 he with rfl | he
      · exact List.mem_append_right _ (List.mem_singleton.2 rfl)
      · exact (ht.add rfl).3 e he

theorem handleSign_spec {txB64 : String} (hs : Unsigned signed op told s) :
    (handleSign env h txB64).wp (awaits h guard) (fun _ => Unsigned signed op told) (SignEnds env h signed op told txB64) s := by
  have hsame : told ⊆ told := List.Subset.refl _
  have hmore : ∀ shown, told ⊆ confirmedEntry h shown :: told := fun _ => List.subset_cons_self _ _
  refine sign_seq hsame (A := fun txBytes => base64ToBytes txB64 maxTxBytes .std = .ok txBytes) ?_ hs fun txBytes t hbytes ht => ?_
  · refine yields_ofOutcome fun txBytes hbytes => ?_
    cases hdecode : base64ToBytes txB64 maxTxBytes .std with
    | error e =>
      rw [hdecode] at hbytes
      cases hbytes
    | ok bytes =>
      rw [hdecode] at hbytes
      cases hbytes
      rfl
  split
  · exact sign_keeps hsame unsigned_failDone ht
  next tx htx =>
  refine sign_seq hsame (A := fun _ => True) ?_ ht fun digest t _ ht => ?_
  · exact yields_bind unsigned_request fun _ _ => unsigned_pure
  refine sign_seq hsame unsigned_readLocal ht fun stored t _ ht => ?_
  split
  · next parsed =>
    -- the local wallet: the policy first, then the confirmation, then the passkey
    refine sign_seq hsame (yields_ofOutcome fun _ => id) ht fun owner t howner ht => ?_
    split
    · exact sign_keeps hsame unsigned_failDone ht
    · next summary hpolicy =>
      refine confirm_seq ht (fun t ht => ?_) fun t ht => sign_keeps hsame unsigned_failDone ht
      refine sign_seq (hmore _) (unsigned_modify (fun _ => rfl) fun _ => rfl) ht fun _ t _ ht => ?_
      refine sign_seq (hmore _) unlockLocal_keyed ht fun unlocked t hunlocked ht => ?_
      split
      · exact sign_keeps (hmore _) unsigned_pure ht
      · next seed publicKey =>
        obtain ⟨hkey, rfl⟩ := hunlocked _ rfl
        exact signFrozen_spec hbytes htx hpolicy rfl rfl hkey howner ht
  · -- the cold start: the confirmation first, then the passkey, then the policy
    unfold signCold
    split
    · exact sign_keeps hsame unsigned_failDone ht
    · next preview hpreview =>
      refine confirm_seq ht (fun t ht => ?_) fun t ht => sign_keeps hsame unsigned_failDone ht
      refine sign_seq (hmore _) restoreWalletSeed_keyed ht fun restored t hrestored ht => ?_
      split
      · exact sign_keeps (hmore _) unsigned_pure ht
      · exact sign_keeps (hmore _) unsigned_pure ht
      · next seed publicKey =>
        refine sign_seq (hmore _) (yields_ofOutcome fun _ => id) ht fun owner t howner ht => ?_
        split
        · exact sign_keeps (hmore _) unsigned_failDone ht
        · next summary hpolicy =>
          obtain ⟨hix, hconfig⟩ := evaluatePolicy_preview hpreview hpolicy
          refine sign_seq (hmore _) (unsigned_modify (fun _ => rfl) fun _ => rfl) ht fun _ t _ ht => ?_
          exact signFrozen_spec hbytes htx hpolicy hix hconfig hrestored howner ht

/-- How any handler leaves the desk. -/
def RouteEnds (env : SignerEnv) (h : Handling) (route : Route) (signed : List SignResult) (op : OperationState)
    (told : List (Nat × Entry)) (out : Except Thrown Flow) (s : Desk) : Prop :=
  Unsigned signed op told s ∨ ∃ txB64, route = .sign txB64 ∧ SignEnds env h signed op told txB64 out s

/-- Only the handler of a signing request signs. -/
theorem Route.spec {route : Route} (hs : Unsigned signed op told s) :
    (route.prog env h).wp (awaits h guard) (fun _ => Unsigned signed op told)
      (RouteEnds env h route signed op told) s := by
  have hkeeps : ∀ {p : Handler Flow}, KeepsUnsigned h guard signed op told p →
      p.wp (awaits h guard) (fun _ => Unsigned signed op told) (RouteEnds env h route signed op told) s :=
    fun hp => wp_mono (fun _ _ ht => .inl ht.1) (hp s hs)
  cases route with
  | create credentialIdB64 attestation => exact hkeeps handleCreate_unsigned
  | incomplete => exact hkeeps unsigned_failDone
  | localUnlock raw parsed => exact hkeeps handleLocalUnlock_unsigned
  | remoteUnlock => exact hkeeps handleRemoteUnlock_unsigned
  | sign txB64 => exact wp_mono (fun _ _ ht => .inr ⟨txB64, rfl, ht⟩) (handleSign_spec hs)
  | exportPrivateKey => exact hkeeps handleExportPrivateKey_unsigned

end Sign

/-! ## The signer -/

def messageOf : Event → Option ValidationResult
  | .message data _ => some data
  | _ => none

/-- The messages so far. -/
def messages (ls : List Event) : List ValidationResult := ls.filterMap messageOf

/-- The request that the handling of a message is for. -/
def Asked (ls : List Event) (h : Handling) (request : InboundRequest) : Prop :=
  (messages ls)[h.ticket]? = some (.ok request) ∧ request.requestId = h.requestId

/-- A signature answers a request, and rests on it. -/
def Rests (env : SignerEnv) (ls : List Event) (log : List (Nat × Entry)) (result : SignResult) : Prop :=
  ∃ request txB64, Asked ls ⟨result.ticket, result.requestId⟩ request ∧ request.body = .signTransaction txB64 ∧
    Authorized env txB64 log result

def everyReply : Guard := fun _ _ _ => True

/-- The handler that waits; the signatures before it rest on what was told by then. -/
structure Waits (env : SignerEnv) (ls : List Event) (told : List (Nat × Entry)) (s : Desk) (p : Pending) : Prop where
  waiting : p.waiting.wp (awaits p.handling everyReply) (fun _ => Unsigned s.signed s.op.state told)
    (RouteEnds env p.handling p.route s.signed s.op.state told) s
  rests : ∀ result ∈ s.signed, Rests env ls told result
  asked : ∃ request, Asked ls p.handling request ∧ ∀ txB64, p.route = .sign txB64 → request.body = .signTransaction txB64
  fresh : ∀ result ∈ s.signed, result.ticket ≠ p.handling.ticket
  busy : s.op.state ≠ .idle

/-- What holds between the steps: at most one handler waits, and each signature rests on its own request. -/
structure SignInv (env : SignerEnv) (ls : List Event) (w : World) : Prop where
  rejected : ∀ answer ∈ w.rejected, answer.2.isSuccess = false
  received : w.received = (messages ls).length
  pool : w.pool = [] ∧ w.desk.op.state = .idle ∨ ∃ told p, w.pool = [p] ∧ Waits env ls told w.desk p
  nodup : (w.desk.signed.map SignResult.ticket).Nodup
  rests : ∀ result ∈ w.desk.signed, Rests env ls w.desk.log result

section Inv

variable {env : SignerEnv} {ls ls' : List Event} {w w' : World} {h : Handling} {route : Route} {request : InboundRequest}
  {s : Desk} {result : SignResult}

theorem messages_append : messages (ls ++ ls') = messages ls ++ messages ls' := List.filterMap_append

theorem Asked.append (hasked : Asked ls h request) : Asked (ls ++ ls') h request := by
  obtain ⟨hat, hid⟩ := hasked
  refine ⟨?_, hid⟩
  rw [messages_append, List.getElem?_append_left (List.getElem?_eq_some_iff.1 hat).1]
  exact hat

theorem Rests.append {log : List (Nat × Entry)} (hrests : Rests env ls log result) : Rests env (ls ++ ls') log result := by
  obtain ⟨request, txB64, hasked, hrest⟩ := hrests
  exact ⟨request, txB64, hasked.append, hrest⟩

theorem Rests.mono {log log' : List (Nat × Entry)} (hlog : log ⊆ log') (hrests : Rests env ls log result) :
    Rests env ls log' result := by
  obtain ⟨request, txB64, hasked, hbody, hauthorized⟩ := hrests
  exact ⟨request, txB64, hasked, hbody, hauthorized.mono fun _ he => hlog he⟩

theorem Rests.lt (hrests : Rests env ls s.log result) : result.ticket < (messages ls).length := by
  obtain ⟨request, -, ⟨hat, -⟩, -⟩ := hrests
  exact (List.getElem?_eq_some_iff.1 hat).1

theorem Waits.append {told : List (Nat × Entry)} {p : Pending} (hwaits : Waits env ls told s p) :
    Waits env (ls ++ ls') told s p := by
  obtain ⟨request, hasked, hbody⟩ := hwaits.asked
  exact ⟨hwaits.waiting, fun r hr => (hwaits.rests r hr).append, ⟨request, hasked.append, hbody⟩, hwaits.fresh,
    hwaits.busy⟩

/-- A tap or a change of the storage. -/
theorem Waits.meanwhile {told : List (Nat × Entry)} {t : Desk} {p : Pending} (hwaits : Waits env ls told s p)
    (hmeanwhile : Meanwhile s t) : Waits env ls told t p ∧ t.signed = s.signed ∧ s.log ⊆ t.log := by
  have hself : Unsigned s.signed s.op.state s.log s := ⟨rfl, rfl, fun _ he => he⟩
  obtain ⟨hsigned, hstate, hlog⟩ := hself.meanwhile hmeanwhile
  have hwaiting : p.waiting.wp (awaits p.handling everyReply) (fun _ => Unsigned s.signed s.op.state told)
      (RouteEnds env p.handling p.route s.signed s.op.state told) t := by
    clear hsigned hstate hlog
    induction hmeanwhile with
    | refl => exact hwaits.waiting
    | dismiss _ ih => exact waiting_dismiss (fun _ _ => Unsigned.dismiss) ih
    | storage _ _ ih => exact waiting_storage (fun _ _ _ => Unsigned.storage) ih
  refine ⟨⟨?_, ?_, hwaits.asked, ?_, ?_⟩, hsigned, fun _ he => hlog _ he⟩
  · rw [hsigned, hstate]
    exact hwaiting
  · rw [hsigned]
    exact hwaits.rests
  · rw [hsigned]
    exact hwaits.fresh
  · rw [hstate]
    exact hwaits.busy

/-- What was signed before rests on what was told, and on more. -/
theorem Unsigned.rests {told : List (Nat × Entry)} {signed : List SignResult} {op : OperationState}
    (hs : Unsigned signed op told s) (hnodup : (signed.map SignResult.ticket).Nodup)
    (hrests : ∀ r ∈ signed, Rests env ls told r) :
    (s.signed.map SignResult.ticket).Nodup ∧ ∀ r ∈ s.signed, Rests env ls s.log r := by
  rw [hs.signed_eq]
  exact ⟨hnodup, fun r hr => (hrests r hr).mono fun _ he => hs.told _ he⟩

/-- The signature of a request is the first of its message. -/
theorem rests_concat {told : List (Nat × Entry)} {signed : List SignResult} (hsigned : s.signed = signed ++ [result])
    (htold : ∀ e ∈ told, e ∈ s.log) (hresult : Rests env ls s.log result)
    (hfresh : ∀ r ∈ signed, r.ticket ≠ result.ticket) (hnodup : (signed.map SignResult.ticket).Nodup)
    (hrests : ∀ r ∈ signed, Rests env ls told r) :
    (s.signed.map SignResult.ticket).Nodup ∧ ∀ r ∈ s.signed, Rests env ls s.log r := by
  rw [hsigned]
  constructor
  · rw [List.map_append, List.nodup_append]
    refine ⟨hnodup, List.nodup_singleton _, ?_⟩
    rintro n hn m hm rfl
    obtain ⟨r, hr, rfl⟩ := List.mem_map.1 hn
    exact hfresh r hr (List.mem_singleton.1 hm)
  · intro r hr
    rcases List.mem_append.1 hr with hr | hr
    · exact (hrests r hr).mono htold
    · rw [List.mem_singleton.1 hr]
      exact hresult

/-- **A handler settles**: it waits, or it is over, with at most one more signature. -/
theorem settles_inv {told : List (Nat × Entry)} {signed : List SignResult} {op : OperationState} {t : Desk}
    {out : (Waiting Desk Thrown Site Site.Reply Flow ⊕ Except Thrown Flow) × Desk}
    {waiting : Option (Waiting Desk Thrown Site Site.Reply Flow)} (hsettles : Settles env h route out waiting t)
    (hout : Settled (awaits h everyReply) (fun _ => Unsigned signed op told) (RouteEnds env h route signed op told) out)
    (hasked : Asked ls h request) (hbody : ∀ txB64, route = .sign txB64 → request.body = .signTransaction txB64)
    (hrests : ∀ r ∈ signed, Rests env ls told r) (hfresh : ∀ r ∈ signed, r.ticket ≠ h.ticket)
    (hnodup : (signed.map SignResult.ticket).Nodup) (hbusy : op ≠ .idle) :
    (pendingOf h route waiting = [] ∧ t.op.state = .idle ∨
        ∃ told p, pendingOf h route waiting = [p] ∧ Waits env ls told t p) ∧
      (t.signed.map SignResult.ticket).Nodup ∧ ∀ r ∈ t.signed, Rests env ls t.log r := by
  have hfailed : ∀ {s : Desk} {e : Thrown}, Unsigned signed op told s → Unsigned signed op told (s.failed h e) :=
    fun hs => hs.add rfl
  have hends := hsettles.sound (fun s hs => ?_) hout
  · cases waiting with
    | some w =>
      -- it waits, and nothing new is signed
      have hs : Unsigned signed op told t := hends.1
      refine ⟨.inr ⟨told, ⟨h, route, w⟩, rfl, ?_, ?_, ⟨request, hasked, hbody⟩, ?_, ?_⟩, hs.rests hnodup hrests⟩
      · rw [hs.signed_eq, hs.state_eq]
        exact hends
      · rw [hs.signed_eq]
        exact hrests
      · rw [hs.signed_eq]
        exact hfresh
      · rw [hs.state_eq]
        exact hbusy
    | none =>
      rcases hends with ⟨s, hs, rfl⟩ | ⟨e, s, hs, rfl⟩
      · refine ⟨.inl ⟨rfl, rfl⟩, ?_⟩
        rcases hs with hs | ⟨txB64, hroute, hs | ⟨-, result, hs, hticket, hid, hauthorized⟩⟩
        · exact hs.rests hnodup hrests
        · exact hs.rests hnodup hrests
        · have hresult : Rests env ls s.log result := by
            refine ⟨request, txB64, ?_, hbody txB64 hroute, hauthorized⟩
            rw [hticket, hid]
            exact hasked
          exact rests_concat hs.signed_eq hs.told hresult (fun r hr => hticket ▸ hfresh r hr) hnodup hrests
      · refine ⟨.inl ⟨rfl, rfl⟩, ?_⟩
        rcases hs with hs | ⟨txB64, hroute, hs | ⟨hne, -⟩⟩
        · exact (hfailed hs).rests hnodup hrests
        · exact (hfailed hs).rests hnodup hrests
        · cases hne
  · rcases hs with hs | ⟨txB64, hroute, hs | ⟨hne, -⟩⟩
    · exact Route.spec hs
    · exact Route.spec hs
    · cases hne

theorem SignInv.start (store : LocalStore) : SignInv env [] (.start store) where
  rejected _ h := nomatch h
  received := rfl
  pool := .inl ⟨rfl, rfl⟩
  nodup := List.nodup_nil
  rests _ hr := nomatch hr

/-- A message that the listener answers itself. -/
theorem SignInv.reject {data : ValidationResult} {now : ℚ} {seen : SeenRequests} {message : Outgoing}
    (hmessage : message.isSuccess = false) (hi : SignInv env ls w) :
    SignInv env (ls ++ [.message data now]) (w.reject seen message) where
  rejected answer h := by
    rcases List.mem_append.1 h with h | h
    · exact hi.rejected answer h
    · rw [List.mem_singleton.1 h]
      exact hmessage
  received := by
    rw [messages_append, List.length_append, ← hi.received]
    rfl
  pool := hi.pool.imp id fun ⟨told, p, hpool, hwaits⟩ => ⟨told, p, hpool, hwaits.append⟩
  nodup := hi.nodup
  rests r hr := (hi.rests r hr).append

/-- A tap, or a change of the storage. -/
theorem SignInv.meanwhile {e : Event} {t : Desk} (hmessage : messageOf e = none) (hi : SignInv env ls w)
    (hmeanwhile : Meanwhile w.desk t) : SignInv env (ls ++ [e]) { w with desk := t } := by
  have hmessages : messages (ls ++ [e]) = messages ls := by
    rw [messages_append]
    show messages ls ++ List.filterMap messageOf [e] = _
    rw [List.filterMap_cons_none hmessage]
    exact List.append_nil _
  have hself : Unsigned w.desk.signed w.desk.op.state w.desk.log w.desk := ⟨rfl, rfl, fun _ he => he⟩
  obtain ⟨hsigned, hstate, hlog⟩ := hself.meanwhile hmeanwhile
  refine ⟨hi.rejected, hi.received.trans (congrArg List.length hmessages.symm), ?_, ?_, ?_⟩
  · rcases hi.pool with ⟨hpool, hidle⟩ | ⟨told, p, hpool, hwaits⟩
    · exact .inl ⟨hpool, hstate.trans hidle⟩
    · exact .inr ⟨told, p, hpool, (hwaits.meanwhile hmeanwhile).1.append⟩
  · show (t.signed.map SignResult.ticket).Nodup
    rw [hsigned]
    exact hi.nodup
  · intro r hr
    have hr' : r ∈ w.desk.signed := hsigned ▸ hr
    exact ((hi.rests r hr').mono fun _ he => hlog _ he).append

/-- An operation begins only where no handler waits. -/
theorem SignInv.pool_eq_nil {operation : OperationState} {requestId : String} {op : ActiveOperation}
    (hi : SignInv env ls w) (hbegin : w.desk.op.begin operation requestId = some op) : w.pool = [] := by
  obtain ⟨hidle, -⟩ := ActiveOperation.begin_eq_some.1 hbegin
  rcases hi.pool with ⟨hpool, -⟩ | ⟨told, p, -, hwaits⟩
  · exact hpool
  · exact absurd hidle hwaits.busy

/-- A handler that waits is the only one. -/
theorem SignInv.alone {before after : List Pending} {p : Pending} (hi : SignInv env ls w)
    (hpool : w.pool = before ++ p :: after) : before = [] ∧ after = [] ∧ ∃ told, Waits env ls told w.desk p := by
  rcases hi.pool with ⟨hnone, -⟩ | ⟨told, p', hone, hwaits⟩
  · rw [hnone] at hpool
    exact absurd hpool.symm (by simp)
  · rw [hone] at hpool
    cases before with
    | nil =>
      obtain ⟨rfl, hafter⟩ := List.cons.inj hpool
      exact ⟨rfl, hafter.symm, told, hwaits⟩
    | cons q before => exact absurd (List.cons.inj hpool).2.symm (by simp)

/-- Only a request to sign is routed there. -/
theorem routeOf_sign {store : LocalStore} {body : RequestBody} {txB64 : String} (h : routeOf store body = .sign txB64) :
    body = .signTransaction txB64 := by
  unfold routeOf at h
  split at h
  · split at h <;> cases h
  · split at h <;> cases h
  · cases h
    rfl
  · cases h

/-- A message that begins an operation. -/
theorem SignInv.accepted {now : ℚ} {op : ActiveOperation} {desk : Desk} {seen : SeenRequests}
    {waiting : Option (Waiting Desk Thrown Site Site.Reply Flow)} (hi : SignInv env ls w)
    (hbegin : w.desk.op.begin request.body.operation request.requestId = some op)
    (hsettles : Settles env ⟨w.received, request.requestId⟩ (routeOf w.desk.store request.body)
      (((routeOf w.desk.store request.body).prog env ⟨w.received, request.requestId⟩).segment { w.desk with op := op })
      waiting desk) :
    SignInv env (ls ++ [.message (.ok request) now])
      { seen := seen, desk := desk,
        pool := w.pool ++ pendingOf ⟨w.received, request.requestId⟩ (routeOf w.desk.store request.body) waiting,
        rejected := w.rejected, received := w.received + 1 } := by
  have hop : op.state ≠ .idle := by
    obtain ⟨-, rfl⟩ := ActiveOperation.begin_eq_some.1 hbegin
    show request.body.operation ≠ .idle
    cases request.body <;> exact fun h => nomatch h
  have hasked : Asked (ls ++ [.message (.ok request) now]) ⟨w.received, request.requestId⟩ request := by
    refine ⟨?_, rfl⟩
    rw [messages_append, hi.received, List.getElem?_append_right le_rfl, Nat.sub_self]
    rfl
  have hstart : Unsigned w.desk.signed op.state w.desk.log { w.desk with op := op } := ⟨rfl, rfl, fun _ he => he⟩
  have hfresh : ∀ r ∈ w.desk.signed, r.ticket ≠ w.received := by
    intro r hr
    have hlt := (hi.rests r hr).lt
    rw [← hi.received] at hlt
    exact hlt.ne
  obtain ⟨hends, hnodup, hrests⟩ := settles_inv hsettles (wp_segment.1 (Route.spec hstart)) hasked
    (fun _ hroute => routeOf_sign hroute) (fun r hr => (hi.rests r hr).append) hfresh hi.nodup hop
  refine ⟨hi.rejected, ?_, ?_, hnodup, hrests⟩
  · rw [messages_append, List.length_append, ← hi.received]
    rfl
  · rw [hi.pool_eq_nil hbegin, List.nil_append]
    exact hends

/-- A reply to the handler that waits. -/
theorem SignInv.replied {told : List (Nat × Entry)} {p : Pending} {r : Except Thrown p.waiting.site.Reply} {desk : Desk}
    {waiting : Option (Waiting Desk Thrown Site Site.Reply Flow)} (hi : SignInv env ls w)
    (hwaits : Waits env ls told w.desk p)
    (hsettles : Settles env p.handling p.route
      ((p.waiting.resume r).segment (w.desk.add p.handling.ticket (.answered p.waiting.site r))) waiting desk) :
    SignInv env (ls ++ [.reply p.handling.ticket p.waiting.site r])
      { w with desk := desk, pool := pendingOf p.handling p.route waiting } := by
  obtain ⟨request, hasked, hbody⟩ := hwaits.asked
  have hresume := hwaits.waiting.2 r _ ⟨w.desk, .refl, trivial, rfl⟩
  obtain ⟨hends, hnodup, hrests⟩ := settles_inv hsettles (wp_segment.1 hresume) hasked hbody hwaits.rests hwaits.fresh
    hi.nodup hwaits.busy
  refine ⟨hi.rejected, ?_, ?_, hnodup, fun r hr => (hrests r hr).append⟩
  · rw [messages_append, List.length_append, ← hi.received]
    rfl
  · exact hends.imp id fun ⟨told, p, hp, hw⟩ => ⟨told, p, hp, hw.append⟩

/-- **One step of the signer.** -/
theorem SignInv.step {e : Event} (hi : SignInv env ls w) (hstep : Step env e w w') : SignInv env (ls ++ [e]) w' := by
  cases hstep with
  | invalid => exact hi.reject rfl
  | replayed _ => exact hi.reject rfl
  | pending _ _ => exact hi.reject rfl
  | dismiss => exact hi.meanwhile rfl (.dismiss .refl)
  | storage => exact hi.meanwhile rfl (.storage _ .refl)
  | accepted _ hbegin hsettles => exact hi.accepted hbegin hsettles
  | reply hpool hsettles =>
    obtain ⟨rfl, rfl, told, hwaits⟩ := hi.alone hpool
    rw [List.nil_append, List.append_nil]
    exact hi.replied hwaits hsettles

/-- **Every run of the signer.** -/
theorem Run.signInv {store : LocalStore} (hrun : Runs.Run (Step env) (.start store) ls w) : SignInv env ls w :=
  hrun.tracked (SignInv.start store) fun _ _ _ _ _ hi hstep => hi.step hstep

/-- At most one handler waits. -/
theorem SignInv.pool_le_one (hi : SignInv env ls w) : w.pool.length ≤ 1 := by
  rcases hi.pool with ⟨hpool, -⟩ | ⟨told, p, hpool, -⟩
  · rw [hpool]
    exact Nat.zero_le 1
  · rw [hpool]
    exact le_rfl

/-! ## Messages while a handler waits -/

/-- A message changes neither the desk nor the handler that waits. -/
theorem SignInv.message_pending {e : Event} (hi : SignInv env ls w) (hpool : w.pool ≠ [])
    (hmessage : (messageOf e).isSome = true) (hstep : Step env e w w') : w'.desk = w.desk ∧ w'.pool = w.pool := by
  cases hstep with
  | invalid => exact ⟨rfl, rfl⟩
  | replayed _ => exact ⟨rfl, rfl⟩
  | pending _ _ => exact ⟨rfl, rfl⟩
  | accepted _ hbegin _ =>
    exact absurd (hi.pool_eq_nil hbegin) hpool
  | reply _ _ => cases hmessage
  | dismiss => cases hmessage
  | storage => cases hmessage

/-- The other steps depend on the desk and the pool only. -/
theorem Step.congr {e : Event} {u : World} (hstep : Step env e w w') (hmessage : messageOf e = none)
    (hdesk : u.desk = w.desk) (hpool : u.pool = w.pool) :
    ∃ u', Step env e u u' ∧ u'.desk = w'.desk ∧ u'.pool = w'.pool := by
  cases hstep with
  | invalid => cases hmessage
  | replayed _ => cases hmessage
  | pending _ _ => cases hmessage
  | accepted _ _ _ => cases hmessage
  | reply hw hsettles =>
    rw [← hdesk] at hsettles
    exact ⟨_, .reply (hpool.trans hw) hsettles, rfl, rfl⟩
  | dismiss => exact ⟨_, .dismiss, congrArg Desk.dismiss hdesk, hpool⟩
  | storage => exact ⟨_, .storage, by rw [hdesk], hpool⟩

/-- Steps where messages arrive only while a handler waits. -/
def StepWhilePending (env : SignerEnv) (e : Event) (w w' : World) : Prop :=
  Step env e w w' ∧ ((messageOf e).isSome = true → w.pool ≠ [])

/-- **Messages that arrive while a handler waits do not change its run.** -/
theorem SignInv.erase_messages (hi : SignInv env ls w) (hrun : Runs.Run (StepWhilePending env) w ls' w') :
    SignInv env (ls ++ ls') w' ∧ ∃ u, Runs.Run (Step env) w (ls'.filter fun e => (messageOf e).isNone) u ∧
      u.desk = w'.desk ∧ u.pool = w'.pool := by
  induction hrun with
  | nil => exact ⟨by rwa [List.append_nil], w, .nil, rfl, rfl⟩
  | @snoc ls' v e v' _ hstep ih =>
    obtain ⟨hv, u, hrun, hdesk, hpool⟩ := ih
    refine ⟨by rw [← List.append_assoc]; exact hv.step hstep.1, ?_⟩
    rw [List.filter_append]
    cases hmessage : messageOf e with
    | some data =>
      obtain ⟨hdesk', hpool'⟩ := hv.message_pending (hstep.2 (by rw [hmessage]; rfl)) (by rw [hmessage]; rfl) hstep.1
      have hnone : ([e].filter fun e => (messageOf e).isNone) = [] := by rw [List.filter_cons, hmessage]; rfl
      rw [hnone, List.append_nil]
      exact ⟨u, hrun, hdesk.trans hdesk'.symm, hpool.trans hpool'.symm⟩
    | none =>
      obtain ⟨u', hstep', hdesk', hpool'⟩ := hstep.1.congr hmessage hdesk hpool
      have hsome : ([e].filter fun e => (messageOf e).isNone) = [e] := by rw [List.filter_cons, hmessage]; rfl
      rw [hsome]
      exact ⟨u', hrun.snoc hstep', hdesk', hpool'⟩

end Inv

/-- **Signing authorization.** In every run of the signer at most one handler waits; no request gets two signatures; each
signature that was posted is over the message bytes of its own request, by a key that the policy accepted these bytes for,
after the user confirmed, and the listener itself posts errors only; and messages that arrive while a handler waits change
nothing of what becomes of it. -/
theorem signing_authorization {env : SignerEnv} {store : LocalStore} {ls : List Event} {w : World}
    (hrun : Runs.Run (Step env) (.start store) ls w) :
    w.pool.length ≤ 1 ∧ (w.desk.signed.map SignResult.ticket).Nodup ∧
      (∀ result ∈ w.desk.signed, Rests env ls w.desk.log result) ∧ (∀ answer ∈ w.rejected, answer.2.isSuccess = false) ∧
      ∀ ls' w', Runs.Run (StepWhilePending env) w ls' w' →
        ∃ u, Runs.Run (Step env) w (ls'.filter fun e => (messageOf e).isNone) u ∧ u.desk = w'.desk ∧ u.pool = w'.pool := by
  have hi := Run.signInv hrun
  exact ⟨hi.pool_le_one, hi.nodup, hi.rests, hi.rejected, fun _ _ hwhile => (hi.erase_messages hwhile).2⟩

/-! ## An example -/

/-- A seed with its public key, and the key's signature of the message below. -/
def exampleSeed : Bytes :=
  [157, 97, 177, 157, 239, 253, 90, 96, 186, 132, 74, 244, 146, 236, 44, 196, 68, 73, 197, 105, 123, 50, 105, 25,
    112, 59, 172, 3, 28, 174, 127, 96]

def exampleKey : Pubkey where
  bytes :=
    [215, 90, 152, 1, 130, 177, 10, 183, 213, 75, 254, 211, 201, 100, 7, 58, 14, 225, 114, 243, 218, 166, 35, 37, 175,
      2, 26, 104, 247, 7, 81, 26]
  length_eq := rfl

def exampleSignature : Bytes :=
  [14, 12, 145, 47, 106, 225, 127, 221, 15, 52, 144, 101, 48, 112, 12, 17, 103, 68, 26, 116, 37, 147, 39, 103, 171,
    170, 184, 88, 70, 130, 114, 118, 180, 199, 228, 75, 10, 237, 254, 40, 247, 220, 125, 238, 1, 238, 81, 196, 87,
    15, 205, 181, 112, 157, 182, 167, 183, 35, 119, 157, 53, 144, 189, 8]

/-- The owner clears the authority; to keep the message short the other accounts are the owner, too. -/
def exampleKeys : List Pubkey := [exampleKey, crateId]

def exampleMetas : List Client.AccountMeta := List.replicate 5 ⟨exampleKey, .writableSigner⟩

def exampleMessage : DecodedMessage where
  version := .v1
  signers := [exampleKey]
  compiled :=
    { accountKeys := exampleKeys
      instructions := [⟨crateId, some exampleMetas, some PhygitalWalletInstruction.clearAuthority.discriminator⟩]
      length_le := by decide
      mem := by decide +kernel
      feePayer_role := by decide +kernel
      coherent := by decide +kernel }
  config := none
  signer_role := by decide +kernel

/-- The bytes of the message: header, no configuration, blockhash, keys, the instruction. -/
def exampleMessageBytes : Bytes :=
  [129, 1, 0, 1, 0, 0, 0, 0] ++ List.replicate 32 3 ++ [1, 2] ++ exampleKeys.flatMap Pubkey.bytes ++ [1, 5, 8, 0] ++
    [0, 0, 0, 0, 0] ++ PhygitalWalletInstruction.clearAuthority.discriminator

/-- The signature is still missing. -/
def exampleTransaction : Bytes := exampleMessageBytes ++ List.replicate 64 0

/-- What kit and Ed25519 make of these bytes; no others are given to them. -/
def exampleEnv : SignerEnv where
  rpId := "localhost"
  kit :=
    { txDecoder := fun bytes => if bytes = exampleTransaction then .ok exampleMessageBytes else throwText [.text "no transaction"]
      messageDecoder := fun bytes =>
        if bytes = exampleMessageBytes then .ok (exampleMessage, exampleMessageBytes.length) else throwText [.text "no message"]
      policyData := fun _ => throwText [.text "no policy"] }
  getPublicKey seed := if seed = exampleSeed then .ok exampleKey.bytes else .error .other
  ed25519Sign message seed :=
    if message = exampleMessageBytes ∧ seed = exampleSeed then .ok exampleSignature else .error .other
  randomBytes _ n := List.replicate n 0

def exampleBlob : Bytes :=
  blobMagic ++ [blobVersion] ++ exampleKey.bytes ++ [0, 2, 1, 2] ++ List.replicate 32 4 ++ List.replicate 12 5 ++ [0, 48] ++
    List.replicate 48 6

/-- A phone with a wallet. -/
def exampleStore : LocalStore := ⟨true, true, .stores, some (bytesToBinary exampleBlob)⟩

/-- The user agrees, and every request is answered. -/
def exampleAnswers : ∀ c : Site, Except Thrown c.Reply
  | ⟨_, .confirmFinishCreate⟩ | ⟨_, .confirmImport⟩ | ⟨_, .confirmSignTransaction _⟩ | ⟨_, .confirmExportPrivateKey⟩ => .ok true
  | ⟨_, .showRecoverable⟩ => .ok .cancel
  | ⟨_, .showSuccess _ _⟩ | ⟨_, .showExportedSecret _ _⟩ | ⟨_, .digestHex _⟩ => .ok ()
  | ⟨_, .issueBackupChallenge⟩ | ⟨_, .issueRestoreChallenge⟩ => .ok ⟨"c", "AAAA"⟩
  | ⟨_, .issueBothChallenges⟩ => .ok (⟨"c", "AAAA"⟩, ⟨"d", "AAAA"⟩)
  | ⟨_, .prfGet _⟩ => .ok (List.replicate 32 7)
  | ⟨_, .getDiscoverable _⟩ => .ok ⟨[1, 2], List.replicate 32 7, "response"⟩
  | ⟨_, .deriveWrappingKey _ _⟩ => .ok (List.replicate 32 8)
  | ⟨_, .aesGcmEncrypt _ _ _ _⟩ => .ok (List.replicate 48 6)
  | ⟨_, .aesGcmDecrypt _ _ _⟩ => .ok exampleSeed
  | ⟨_, .restoreOwnerWalletBlob _ _⟩ => .ok (some (bytesToBase64 exampleBlob .url))
  | ⟨_, .backupOwnerWalletBlob _⟩ => .ok (0 : Nat)

/-- The request, the confirmation, the passkey, and then another request while the wallet is unlocked. -/
def exampleMoves : List Move :=
  [.message (.ok ⟨"request-1", 0, .signTransaction (bytesToBase64 exampleTransaction .std)⟩) 0, .answer, .answer, .answer,
    .message (.ok ⟨"request-2", 0, .exportPrivateKey⟩) 0, .answer, .answer, .answer]

def exampleResult : SignResult := ⟨0, "request-1", bytesToBase64 exampleSignature .std, exampleKey.text⟩

/-- Once its text is decoded, the request goes on with the bytes. -/
theorem handleSign_decoded {env : SignerEnv} {h : Handling} {txB64 : String} {txBytes : Bytes}
    (hdecode : base64ToBytes txB64 maxTxBytes .std = .ok txBytes) :
    handleSign env h txB64 = (ofOutcome (.ok txBytes) >>= fun txBytes =>
      match decodeV1Transaction env.kit txBytes with
      | .error _ => failDone h .malformedTransaction
      | .ok tx => signDecoded env h tx) := by
  rw [handleSign, decodeText, hdecode]
  rfl

theorem signing_authorization_example : ∃ ls w, Runs.Run (Step exampleEnv) (.start exampleStore) ls w ∧
    w.desk.signed = [exampleResult] ∧ Rests exampleEnv ls w.desk.log exampleResult := by
  have hsigned : (World.execAll exampleEnv exampleAnswers (fun _ _ => true) (.start exampleStore) exampleMoves).map
      (fun w => w.desk.signed) = some [exampleResult] := by
    have hfresh : (World.start exampleStore).seen.checkFreshnessAndReplay 0 "request-1" 0 = none := by decide +kernel
    have hbegin : (World.start exampleStore).desk.op.begin .signPending "request-1" =
        some ⟨.signPending, some "request-1", none⟩ := by decide +kernel
    have hdecode : base64ToBytes (bytesToBase64 exampleTransaction .std) maxTxBytes .std = .ok exampleTransaction :=
      base64ToBytes_bytesToBase64 (by decide +kernel)
    have hprog : (routeOf (World.start exampleStore).desk.store
        (.signTransaction (bytesToBase64 exampleTransaction .std))).prog exampleEnv
          ⟨(World.start exampleStore).received, "request-1"⟩ = _ := handleSign_decoded hdecode
    rw [exampleMoves, World.execAll, if_pos rfl, exec_message hfresh hbegin]
    simp only
    rw [hprog]
    decide +kernel
  obtain ⟨w, hexec, hsigned⟩ := Option.map_eq_some_iff.1 hsigned
  obtain ⟨ls, hrun⟩ := run_of_execAll (P := fun _ _ => True) (fun _ _ _ => trivial) .nil hexec
  have hrun' := hrun.mono fun _ _ _ hstep => hstep.1
  obtain ⟨-, -, hrests, -⟩ := signing_authorization hrun'
  exact ⟨ls, w, hrun', hsigned, hrests _ (by rw [hsigned]; exact List.mem_singleton.2 rfl)⟩

end PhygitalWallet.Secure
