import PhygitalWallet.Lib.Async

/-!
# Sending a transaction (`lib/wallet/wallet-transaction.ts`)

The run calls the network and its caller's callbacks, each of which may return, reject or throw. What was called, and what
came back, is the log of the run.

- `runWalletTransaction`: the run, up to the handlers that wait for the confirmation;
- `onSettled`: these handlers;
- `OneOutcome`: what the contract of the run asks for;
- `send_pipeline`: the runs that keep the contract.
-/

namespace PhygitalWallet.App

open Async Prog

/-! ## What is thrown -/

/-- The SDK's error for a simulation that a policy denies. -/
structure PolicyDeniedError where
  code : String
deriving DecidableEq, Repr

inductive Thrown
  | policyDenied (error : PolicyDeniedError)
  | error (name : String)
  | domException (name : String)
  | value
deriving DecidableEq, Repr

/-- Denials an authority signature cannot bypass (paymaster funding, not policy). -/
def fundingDenialCodes : List String := ["insufficient_fee_balance"]

def isFundingDenial (error : PolicyDeniedError) : Bool := fundingDenialCodes.contains error.code

def defaultIsAbortError : Thrown → Bool
  | .domException name => name = "AbortError"
  | .error name => name = "AbortError"
  | _ => false

/-! ## Calls -/

inductive WalletTransactionMode
  | policy | authority
deriving DecidableEq, Repr

/-- Authority may bypass via executeWithAuthority, or the send is rejected. -/
inductive PolicyDenialDecision
  | authority | rejected
deriving DecidableEq, Repr

inductive WalletTransactionOutcome
  | sent (signature : String) (mode : WalletTransactionMode)
  | rejected (error : PolicyDeniedError)
  | aborted
  | error (error : Thrown)
deriving DecidableEq, Repr

section Calls

variable (P S : Type)

/-- A transaction that the RPC has accepted, with the promise `P` of its confirmation. -/
structure SentTransaction where
  signature : String
  confirmed : P
deriving DecidableEq

/-- What the run calls; `S` is the type of the snapshots. -/
inductive Call
  | send (mode : WalletTransactionMode)
  | apply (signature : String)
  | onSent (signature : String) (mode : WalletTransactionMode)
  | isAbortError (error : Thrown)
  | resolvePolicyDenial (error : PolicyDeniedError)
  | onFundingDenial (error : PolicyDeniedError)
  | onError (error : Thrown)
  | confirm (snapshot : S)
  | rollback (snapshot : S)
  | onConfirmError (error : Thrown)

variable {S}

/-- What a call returns. -/
@[reducible] def Reply : Call S → Type
  | .send _ => SentTransaction P
  | .apply _ => S
  | .isAbortError _ => Bool
  | .resolvePolicyDenial _ => PolicyDenialDecision
  | _ => Unit

variable (S)

/-- A call that has ended, or handlers that wait for a promise. -/
inductive Event
  | call (call : Call S) (reply : Except Thrown (Reply P call))
  | watch (confirmed : P) (snapshot : S)

abbrev SendProg := Prog (List (Event P S)) Thrown (Call S) (Reply P)

end Calls

variable {P S : Type}

/-! ## The run -/

def invoke (c : Call S) : SendProg P S (Reply P c) := awaitOk c

/-- `isAbortError` is the caller's, where the caller has one. -/
structure RunArgs where
  isAbortError : Bool
  preferredMode : Option WalletTransactionMode
deriving DecidableEq, Repr

def isAbort (args : RunArgs) (e : Thrown) : SendProg P S Bool :=
  if args.isAbortError then invoke (.isAbortError e) else return defaultIsAbortError e

/-- `void sent.confirmed.then(..)` keeps the handlers. -/
def applyOptimistic (sent : SentTransaction P) (mode : WalletTransactionMode) : SendProg P S Unit := do
  let snapshot ← invoke (.apply sent.signature)
  invoke (.onSent sent.signature mode)
  modify fun log => log ++ [.watch sent.confirmed snapshot]

def sendAndApply (mode : WalletTransactionMode) : SendProg P S WalletTransactionOutcome := do
  let sent ← invoke (.send mode)
  applyOptimistic sent mode
  return .sent sent.signature mode

/-- The `catch` of the path that signs with the authority. -/
def authorityFailed (args : RunArgs) (e : Thrown) : SendProg P S WalletTransactionOutcome := do
  if ← isAbort args e then return .aborted
  else do
    invoke (.onError e)
    return .error e

/-- The `catch` of the path that signs with the policy. -/
def policyFailed (args : RunArgs) (e : Thrown) : SendProg P S WalletTransactionOutcome := do
  if ← isAbort args e then return .aborted
  else match e with
  | .policyDenied error =>
    if isFundingDenial error then do
      invoke (.onFundingDenial error)
      return .rejected error
    else do
      match ← invoke (.resolvePolicyDenial error) with
      | .rejected => return .rejected error
      | .authority => (sendAndApply .authority).tryCatch (authorityFailed args)
  | e => do
    invoke (.onError e)
    return .error e

def runWalletTransaction (args : RunArgs) : SendProg P S WalletTransactionOutcome :=
  match args.preferredMode.getD .policy with
  | .authority => (sendAndApply .authority).tryCatch (authorityFailed args)
  | .policy => (sendAndApply .policy).tryCatch (policyFailed args)

/-- The handlers, when the confirmation has settled. -/
def onSettled (outcome : Except Thrown Unit) (snapshot : S) : SendProg P S Unit :=
  match outcome with
  | .ok () => invoke (.confirm snapshot)
  | .error err => do
    invoke (.rollback snapshot)
    invoke (.onConfirmError err)

/-- Every call may end in every way. -/
def anyReply : Env (List (Event P S)) Thrown (Call S) (Reply P) := fun c r log log' => log' = log ++ [.call c r]

/-! ## The contract -/

/-- The transactions that the network has accepted. -/
def accepted (log : List (Event P S)) : List (SentTransaction P) :=
  log.filterMap fun
    | .call (.send _) (.ok sent) => some sent
    | _ => none

/-- The snapshots, with the signature they were taken for. -/
def applied (log : List (Event P S)) : List (String × S) :=
  log.filterMap fun
    | .call (.apply signature) (.ok snapshot) => some (signature, snapshot)
    | _ => none

/-- The handlers that wait, with the promise they wait for. -/
def watches (log : List (Event P S)) : List (P × S) :=
  log.filterMap fun
    | .watch confirmed snapshot => some (confirmed, snapshot)
    | _ => none

def reported (log : List (Event P S)) : List Thrown :=
  log.filterMap fun
    | .call (.onError e) _ => some e
    | _ => none

/-- The calls of `apply` and `onSent` that threw. -/
def thrownCallbacks (log : List (Event P S)) : List Thrown :=
  log.filterMap fun
    | .call (.apply _) (.error e) => some e
    | .call (.onSent _ _) (.error e) => some e
    | _ => none

def confirms (log : List (Event P S)) : List S :=
  log.filterMap fun
    | .call (.confirm snapshot) _ => some snapshot
    | _ => none

def rollbacks (log : List (Event P S)) : List S :=
  log.filterMap fun
    | .call (.rollback snapshot) _ => some snapshot
    | _ => none

/-- At most one transaction; an error only where there is none; handlers for each on its own confirmation, with the
snapshot that its own `apply` has returned. -/
structure OneOutcome (out : Except Thrown WalletTransactionOutcome) (log : List (Event P S)) : Prop where
  atMostOne : (accepted log).length ≤ 1
  error : (∃ e, out = .ok (.error e)) ∨ reported log ≠ [] → accepted log = []
  wired : ∀ sent ∈ accepted log, ∃ snapshot, (sent.signature, snapshot) ∈ applied log ∧
    watches log = [(sent.confirmed, snapshot)]

/-! ## What a run comes to -/

/-- Nothing was accepted. -/
structure Unsent (log : List (Event P S)) : Prop where
  accepted : accepted log = []
  watches : watches log = []
  thrown : thrownCallbacks log = []

/-- A transaction was accepted whose confirmation nobody waits for. -/
structure Unwatched (log : List (Event P S)) : Prop where
  lost : (watches log).length < (accepted log).length
  thrown : thrownCallbacks log ≠ []

/-- One transaction was accepted, and its handlers wait. -/
structure Watched (log : List (Event P S)) : Prop where
  one : ∃ sent snapshot, accepted log = [sent] ∧ watches log = [(sent.confirmed, snapshot)] ∧
    (sent.signature, snapshot) ∈ applied log
  reported : reported log = []
  thrown : thrownCallbacks log = []

def Comes (out : Except Thrown WalletTransactionOutcome) (log : List (Event P S)) : Prop :=
  Unsent log ∨ Unwatched log ∨ (Watched log ∧ ∃ signature mode, out = .ok (.sent signature mode))

/-- Before the end: nothing was accepted and nothing reported, or handlers are missing. -/
def Open (log : List (Event P S)) : Prop := (Unsent log ∧ reported log = []) ∨ Unwatched log

theorem wp_invoke (c : Call S) {Q : Except Thrown (Reply P c) → List (Event P S) → Prop} {log : List (Event P S)} :
    (invoke c).wp anyReply (fun _ _ => True) Q log ↔ ∀ r, Q r (log ++ [.call c r]) := by
  unfold invoke
  rw [wp_awaitOk]
  constructor
  · intro h r
    exact h.2 r _ rfl
  · rintro h
    refine ⟨trivial, ?_⟩
    rintro r _ rfl
    exact h r

/-- More accepted transactions than handlers stay more. -/
theorem Unwatched.append {log new : List (Event P S)} (h : Unwatched log)
    (hnew : (watches new).length ≤ (accepted new).length) : Unwatched (log ++ new) := by
  obtain ⟨hlost, hthrown⟩ := h
  constructor
  · simp only [watches, accepted, List.filterMap_append, List.length_append] at hlost hnew ⊢
    omega
  · simp only [thrownCallbacks, List.filterMap_append, ne_eq, List.append_eq_nil_iff, not_and] at hthrown ⊢
    intro h
    exact absurd h hthrown

/-- Events that say nothing of a transaction. -/
theorem Open.append {log new : List (Event P S)} (h : Open log) (haccepted : accepted new = []) (hwatches : watches new = [])
    (hthrown : thrownCallbacks new = []) (hreported : reported new = []) : Open (log ++ new) := by
  rcases h with ⟨hunsent, hquiet⟩ | hlost
  · refine Or.inl ⟨⟨?_, ?_, ?_⟩, ?_⟩
    · rw [accepted, List.filterMap_append]
      exact List.append_eq_nil_iff.2 ⟨hunsent.accepted, haccepted⟩
    · rw [watches, List.filterMap_append]
      exact List.append_eq_nil_iff.2 ⟨hunsent.watches, hwatches⟩
    · rw [thrownCallbacks, List.filterMap_append]
      exact List.append_eq_nil_iff.2 ⟨hunsent.thrown, hthrown⟩
    · rw [reported, List.filterMap_append]
      exact List.append_eq_nil_iff.2 ⟨hquiet, hreported⟩
  · refine Or.inr (hlost.append ?_)
    rw [hwatches, haccepted]
    exact Nat.le_refl _

/-- An accepted transaction whose callback throws before its handlers wait. -/
theorem Open.lose {log new : List (Event P S)} (h : Open log) (hlost : (watches new).length < (accepted new).length)
    (hthrown : thrownCallbacks new ≠ []) : Unwatched (log ++ new) := by
  rcases h with ⟨hunsent, -⟩ | hbefore
  · have haccepted : accepted (log ++ new) = accepted new := by
      rw [accepted, List.filterMap_append]
      exact congrArg (· ++ accepted new) hunsent.accepted
    have hwatches : watches (log ++ new) = watches new := by
      rw [watches, List.filterMap_append]
      exact congrArg (· ++ watches new) hunsent.watches
    have hcallbacks : thrownCallbacks (log ++ new) = thrownCallbacks new := by
      rw [thrownCallbacks, List.filterMap_append]
      exact congrArg (· ++ thrownCallbacks new) hunsent.thrown
    exact ⟨by rw [haccepted, hwatches]; exact hlost, by rw [hcallbacks]; exact hthrown⟩
  · exact hbefore.append (Nat.le_of_lt hlost)

/-- A send that throws leaves the run open; one that returns has accepted a transaction. -/
theorem wp_sendAndApply {mode : WalletTransactionMode} {log : List (Event P S)} (h : Open log) :
    (sendAndApply mode : SendProg P S WalletTransactionOutcome).wp anyReply (fun _ _ => True) (fun out log =>
      match out with
      | .ok outcome => Comes (.ok outcome) log
      | .error _ => Open log) log := by
  unfold sendAndApply applyOptimistic
  refine wp_bind.2 ((wp_invoke (.send mode)).2 fun r => ?_)
  cases r with
  | error e => exact h.append rfl rfl rfl rfl
  | ok sent =>
    rw [follows_ok, wp_bind, wp_bind]
    refine (wp_invoke (.apply sent.signature)).2 fun r => ?_
    cases r with
    | error e =>
      rw [List.append_assoc]
      exact Or.inr (h.lose Nat.zero_lt_one (by simp [thrownCallbacks]))
    | ok snapshot =>
      rw [follows_ok, wp_bind]
      refine (wp_invoke (.onSent sent.signature mode)).2 fun r => ?_
      cases r with
      | error e =>
        rw [List.append_assoc, List.append_assoc]
        exact Or.inr (h.lose Nat.zero_lt_one (by simp [thrownCallbacks]))
      | ok =>
        rw [follows_ok, wp_modify, follows_ok, wp_pure, List.append_assoc, List.append_assoc, List.append_assoc]
        rcases h with ⟨hunsent, hreported⟩ | hlost
        · obtain ⟨haccepted, hwatches, hthrown⟩ := hunsent
          refine Or.inr (Or.inr ⟨⟨⟨sent, snapshot, ?_, ?_, ?_⟩, ?_, ?_⟩, _, _, rfl⟩)
          · simp_all [accepted]
          · simp_all [watches]
          · simp [applied]
          · simp_all [reported]
          · simp_all [thrownCallbacks]
        · exact Or.inr (Or.inl (hlost.append (Nat.le_refl _)))

/-- The question whether an error is an abort. -/
theorem wp_isAbort {args : RunArgs} {e : Thrown} {log : List (Event P S)} (h : Open log) :
    (isAbort args e : SendProg P S Bool).wp anyReply (fun _ _ => True) (fun _ log => Open log) log := by
  unfold isAbort
  split
  · exact (wp_invoke (.isAbortError e)).2 fun r => h.append rfl rfl rfl rfl
  · exact h

theorem Open.comes {out : Except Thrown WalletTransactionOutcome} {log : List (Event P S)} (h : Open log) : Comes out log := by
  rcases h with ⟨hunsent, -⟩ | hlost
  · exact Or.inl hunsent
  · exact Or.inr (Or.inl hlost)

/-- A report of an error ends the run. -/
theorem Open.report {out : Except Thrown WalletTransactionOutcome} {log : List (Event P S)} {e : Thrown}
    {r : Except Thrown Unit} (h : Open log) : Comes out (log ++ [.call (.onError e) r]) := by
  rcases h with ⟨⟨haccepted, hwatches, hthrown⟩, -⟩ | hlost
  · refine Or.inl ⟨?_, ?_, ?_⟩
    · simp_all [accepted]
    · simp_all [watches]
    · simp_all [thrownCallbacks]
  · exact Or.inr (Or.inl (hlost.append (Nat.le_refl _)))

theorem wp_onError {e : Thrown} {log : List (Event P S)} (h : Open log) :
    (do invoke (.onError e); return .error e : SendProg P S WalletTransactionOutcome).wp anyReply (fun _ _ => True) Comes
      log := by
  refine wp_bind.2 ((wp_invoke (.onError e)).2 fun r => ?_)
  cases r with
  | error _ => exact h.report
  | ok => exact h.report

theorem wp_authorityFailed {args : RunArgs} {e : Thrown} {log : List (Event P S)} (h : Open log) :
    (authorityFailed args e : SendProg P S WalletTransactionOutcome).wp anyReply (fun _ _ => True) Comes log := by
  unfold authorityFailed
  refine wp_seq (wp_isAbort h) (fun abort log h => ?_) fun _ log h => h.comes
  cases abort with
  | true => exact h.comes
  | false => exact wp_onError h

theorem wp_authority {args : RunArgs} {log : List (Event P S)} (h : Open log) :
    ((sendAndApply .authority).tryCatch (authorityFailed args) : SendProg P S WalletTransactionOutcome).wp anyReply
      (fun _ _ => True) Comes log :=
  wp_tryCatch (wp_sendAndApply h) (fun _ _ h => h) fun _ _ h => wp_authorityFailed h

theorem wp_policyFailed {args : RunArgs} {e : Thrown} {log : List (Event P S)} (h : Open log) :
    (policyFailed args e : SendProg P S WalletTransactionOutcome).wp anyReply (fun _ _ => True) Comes log := by
  unfold policyFailed
  refine wp_seq (wp_isAbort h) (fun abort log h => ?_) fun _ log h => h.comes
  cases abort with
  | true => exact h.comes
  | false =>
    cases e with
    | policyDenied error =>
      simp only [Bool.false_eq_true, if_false]
      split
      · refine wp_bind.2 ((wp_invoke (.onFundingDenial error)).2 fun r => ?_)
        have hopen : Open (log ++ [.call (.onFundingDenial error) r]) := h.append rfl rfl rfl rfl
        cases r <;> exact hopen.comes
      · refine wp_bind.2 ((wp_invoke (.resolvePolicyDenial error)).2 fun r => ?_)
        have hopen : Open (log ++ [.call (.resolvePolicyDenial error) r]) := h.append rfl rfl rfl rfl
        cases r with
        | error _ => exact hopen.comes
        | ok decision =>
          cases decision with
          | rejected => exact hopen.comes
          | authority => exact wp_authority hopen
    | error name => exact wp_onError h
    | domException name => exact wp_onError h
    | value => exact wp_onError h

theorem wp_runWalletTransaction (args : RunArgs) :
    (runWalletTransaction args : SendProg P S WalletTransactionOutcome).wp anyReply (fun _ _ => True) Comes [] := by
  have h : Open ([] : List (Event P S)) := Or.inl ⟨⟨rfl, rfl, rfl⟩, rfl⟩
  unfold runWalletTransaction
  split
  · exact wp_authority h
  · exact wp_tryCatch (wp_sendAndApply h) (fun _ _ h => h) fun _ _ h => wp_policyFailed h

/-! ## The runs that keep the contract -/

theorem Comes.oneOutcome {out : Except Thrown WalletTransactionOutcome} {log : List (Event P S)} (h : Comes out log) :
    OneOutcome out log ↔ thrownCallbacks log = [] := by
  rcases h with ⟨haccepted, -, hthrown⟩ | ⟨hlost, hthrown⟩ | ⟨hwatched, signature, mode, rfl⟩
  · refine iff_of_true ⟨?_, fun _ => haccepted, ?_⟩ hthrown
    · simp [haccepted]
    · simp [haccepted]
  · refine iff_of_false (fun hone => ?_) hthrown
    obtain ⟨sent, hsent⟩ := List.exists_mem_of_length_pos (Nat.zero_lt_of_lt hlost)
    obtain ⟨snapshot, -, hwatches⟩ := hone.wired sent hsent
    have hle := hone.atMostOne
    rw [hwatches, List.length_singleton] at hlost
    omega
  · obtain ⟨⟨sent, snapshot, haccepted, hwatches, happlied⟩, hreported, hthrown⟩ := hwatched
    refine iff_of_true ⟨by simp [haccepted], ?_, ?_⟩ hthrown
    · rintro (⟨e, he⟩ | hne)
      · cases he
      · exact absurd hreported hne
    · intro sent' hsent'
      rw [haccepted, List.mem_singleton] at hsent'
      subst hsent'
      exact ⟨snapshot, happlied, hwatches⟩

/-- The handlers call exactly one of `confirm` and `rollback`, with the snapshot that they were given. -/
theorem onSettled_calls {outcome out : Except Thrown Unit} {snapshot : S} {log : List (Event P S)}
    (h : Runs anyReply (onSettled outcome snapshot : SendProg P S Unit) [] out log) :
    confirms log = (if outcome.isOk then [snapshot] else []) ∧ rollbacks log = if outcome.isOk then [] else [snapshot] := by
  refine h.sound (I := fun _ _ => True) (Q := fun _ log => confirms log = (if outcome.isOk then [snapshot] else []) ∧
    rollbacks log = if outcome.isOk then [] else [snapshot]) ?_
  unfold onSettled
  cases outcome with
  | ok => exact (wp_invoke (.confirm snapshot)).2 fun r => ⟨rfl, rfl⟩
  | error err =>
    refine wp_bind.2 ((wp_invoke (.rollback snapshot)).2 fun r => ?_)
    cases r with
    | error _ => exact ⟨rfl, rfl⟩
    | ok => exact (wp_invoke (.onConfirmError err)).2 fun r => ⟨rfl, rfl⟩

/-- **The contract of a send** is kept by exactly the runs in which neither `apply` nor `onSent` throws; and the handlers
that wait for a confirmation call exactly one of `confirm` and `rollback`. -/
theorem send_pipeline {args : RunArgs} {out : Except Thrown WalletTransactionOutcome} {log : List (Event P S)}
    (h : Runs anyReply (runWalletTransaction args) [] out log) :
    (OneOutcome out log ↔ thrownCallbacks log = []) ∧
      ∀ (outcome out : Except Thrown Unit) (snapshot : S) (log : List (Event P S)),
        Runs anyReply (onSettled outcome snapshot) [] out log →
          confirms log = (if outcome.isOk then [snapshot] else []) ∧
            rollbacks log = if outcome.isOk then [] else [snapshot] :=
  ⟨(h.sound (wp_runWalletTransaction args)).oneOutcome, fun _ _ _ _ => onSettled_calls⟩

/-! ## Examples -/

/-- The transaction is confirmed by the promise 7. -/
def sentExample : SentTransaction Nat := ⟨"5h6x", 7⟩

def sentArgs : RunArgs := ⟨false, none⟩

theorem send_pipeline_sent : ∃ log : List (Event Nat String),
    Runs anyReply (runWalletTransaction sentArgs) [] (.ok (.sent "5h6x" .policy)) log ∧ watches log = [(7, "before")] ∧
      OneOutcome (.ok (.sent "5h6x" .policy)) log := by
  have hrun : Runs anyReply (runWalletTransaction sentArgs : SendProg Nat String _) [] (.ok (.sent "5h6x" .policy))
      [.call (.send .policy) (.ok sentExample), .call (.apply "5h6x") (.ok "before"),
        .call (.onSent "5h6x" .policy) (.ok ()), .watch 7 "before"] :=
    .await (.ok sentExample) rfl (.await (.ok "before") rfl (.await (.ok ()) rfl (.read (.write .ret))))
  exact ⟨_, hrun, rfl, (send_pipeline hrun).1.2 rfl⟩

/-- A callback that throws after the transaction was accepted: the run reports an error, and nobody waits for the
confirmation. -/
theorem send_pipeline_unwatched : ∃ log : List (Event Nat String),
    Runs anyReply (runWalletTransaction sentArgs) [] (.ok (.error (.error "TypeError"))) log ∧
      accepted log = [sentExample] ∧ reported log = [.error "TypeError"] ∧ watches log = [] ∧
      ¬OneOutcome (.ok (.error (.error "TypeError"))) log := by
  refine ⟨[.call (.send .policy) (.ok sentExample), .call (.apply "5h6x") (.ok "before"),
    .call (.onSent "5h6x" .policy) (.error (.error "TypeError")), .call (.onError (.error "TypeError")) (.ok ())],
    ?_, rfl, rfl, rfl, fun h => ?_⟩
  · exact .await (.ok sentExample) rfl (.await (.ok "before") rfl (.await (.error (.error "TypeError")) rfl
      (.await (.ok ()) rfl .ret)))
  · have hnone := h.error (Or.inl ⟨_, rfl⟩)
    cases hnone

end PhygitalWallet.App
