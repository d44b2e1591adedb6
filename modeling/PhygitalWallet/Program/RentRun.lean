import PhygitalWallet.Program.Rent

/-!
# The rent of an authority account over a run

The payer that the header names gets back what is above the rent; others may pay for what the account grows by. The rent
that a run has moved is recorded event by event, and read off without the bytes of the account.

- `RentCall`, `RentStep`: the instructions that move rent, and all other transactions;
- `RentStep.shape`: who the header names, and what the account holds, before and after a step;
- `Balanced`, `Balanced.step`: what is refunded to outsiders was paid by outsiders, or lent to them;
- `rent_run`: every run.
-/

namespace PhygitalWallet

open ByteSeq Balances Runs

/-! ## Calls -/

/-- An instruction that moves the rent of an authority account. -/
inductive RentCall
  | setAuthority (accounts : SetAuthority) (authority : Pubkey) (args : Secp256r1VerifyArgs) (slotNumber : UInt64)
  | setWalletPolicy (accounts : SetWalletPolicy) (args : WalletPolicyArgs)
  | clearWalletPolicy (accounts : ClearWalletPolicy)
  | clearAuthority (accounts : ClearAuthority)
deriving DecidableEq, Repr

def RentCall.key : RentCall → Pubkey
  | .setAuthority accounts _ _ _ => accounts.authorityAccount.key
  | .setWalletPolicy accounts _ => accounts.authorityAccount.key
  | .clearWalletPolicy accounts => accounts.authorityAccount.key
  | .clearAuthority accounts => accounts.authorityAccount.key

def RentCall.run [HeapSizes] (rt : Runtime) : RentCall → Bank → Result Bank
  | .setAuthority accounts authority args slotNumber => PhygitalWallet.setAuthority rt accounts authority args slotNumber
  | .setWalletPolicy accounts args => PhygitalWallet.setWalletPolicy rt accounts args
  | .clearWalletPolicy accounts => PhygitalWallet.clearWalletPolicy rt accounts
  | .clearAuthority accounts => PhygitalWallet.clearAuthority rt accounts

/-- The payer that the header of an account names. -/
def headerPayer (account : Account) : Option Pubkey :=
  match readAuthorityHeader account with
  | .ok header => some header.payer
  | .error _ => none

/-- Who paid how much into the account, who got how much out of it, and whom its header names afterwards. -/
structure RentEvent where
  payer : Pubkey
  paid : ℕ
  receiver : Pubkey
  refunded : ℕ
  named : Option Pubkey
deriving DecidableEq, Repr

def RentCall.event (rt : Runtime) (call : RentCall) (bank bank' : Bank) : RentEvent :=
  let held := balances bank call.key
  let left := balances bank' call.key
  let named := headerPayer (bank' call.key)
  match call with
  | .setAuthority accounts _ _ _ => ⟨accounts.payer.key, left - held, accounts.payer.key, 0, named⟩
  | .setWalletPolicy accounts _ =>
    let paid := (rt.minimumBalance (bank' accounts.authorityAccount.key).data.length).toNat - held
    ⟨accounts.payer.key, paid, accounts.rentReceiver.key, held + paid - left, named⟩
  | .clearWalletPolicy accounts => ⟨accounts.rentReceiver.key, 0, accounts.rentReceiver.key, held - left, named⟩
  | .clearAuthority accounts => ⟨accounts.rentReceiver.key, 0, accounts.rentReceiver.key, held - left, named⟩

/-- What the program relies on for lamports: the System program creates an account at the payer's cost, and a verification
leaves the accounts of this program alone. -/
structure Runtime.Funds (rt : Runtime) : Prop extends rt.MovesLamports where
  createAccount : ∀ payer key space before after, rt.createAccount payer key space before = .ok after →
    ∃ n, Moves n payer key (balances before) (balances after)
  verify : ∀ token args message before after, rt.verify token args message before = .ok after →
    ∀ k, (before k).owner = crateId → balances after k = balances before k

/-- A transaction on the account at `key`: a call that was sent, or another that pays in at most. -/
inductive RentStep [HeapSizes] (sent : RentCall → Prop) (key : Pubkey) : RentEvent → Bank → Bank → Prop
  | call {rt : Runtime} {call : RentCall} {bank bank' : Bank} (hrt : rt.Lawful) (hfunds : rt.Funds) (hkey : call.key = key)
      (hsent : sent call) (h : call.run rt bank = .ok bank') : RentStep sent key (call.event rt bank bank') bank bank'
  | other {event : LifeEvent} {bank bank' : Bank} (hstep : LifeStep key event bank bank')
      (hevent : event = .execute ∨ event = .elsewhere) (source : Pubkey) (paid : ℕ)
      (hpaid : balances bank' key = balances bank key + paid) :
      RentStep sent key ⟨source, paid, source, 0, headerPayer (bank' key)⟩ bank bank'

/-! ## The book -/

/-- What a step does: an account that names its payer is created, kept or closed. -/
inductive RentShape (event : RentEvent) (named : Option Pubkey) (held left : ℕ) : Prop
  | created (hnamed : named = none) (hpayer : event.named = some event.payer) (hback : event.refunded = 0)
      (hheld : left = held + event.paid)
  | kept (hnamed : event.named = named) (hreceiver : event.refunded = 0 ∨ named = some event.receiver)
      (hheld : left + event.refunded = held + event.paid)
  | closed (hreceiver : named = some event.receiver) (hnamed : event.named = none) (hheld : event.refunded = held + event.paid)
      (hleft : left = 0)

section Book

variable (serves : Pubkey → Bool)

/-- What outsiders paid. -/
def paidOutside (events : List RentEvent) : ℕ := (events.map fun e => if serves e.payer then 0 else e.paid).sum

/-- What outsiders were refunded. -/
def refundedOutside (events : List RentEvent) : ℕ :=
  (events.map fun e => if serves e.receiver then 0 else e.refunded).sum

/-- What the service paid into an account that names none of its keys. -/
def lent (events : List RentEvent) : ℕ :=
  (events.map fun e => if serves e.payer = true ∧ e.named.any serves = false then e.paid else 0).sum

/-- Refunds to outsiders are covered, and so is what an account holds that names none of the service's keys. -/
structure Balanced (events : List RentEvent) (named : Option Pubkey) (held : ℕ) : Prop where
  refunds : refundedOutside serves events ≤ paidOutside serves events + lent serves events
  holds : named.any serves = false →
    held + refundedOutside serves events ≤ paidOutside serves events + lent serves events

variable {serves}

theorem balanced_nil (named : Option Pubkey) : Balanced serves [] named 0 := by
  constructor <;> simp [refundedOutside, paidOutside, lent]

@[simp] theorem paidOutside_concat (events : List RentEvent) (event : RentEvent) :
    paidOutside serves (events ++ [event]) =
      paidOutside serves events + if serves event.payer then 0 else event.paid := by
  simp [paidOutside]

@[simp] theorem refundedOutside_concat (events : List RentEvent) (event : RentEvent) :
    refundedOutside serves (events ++ [event]) =
      refundedOutside serves events + if serves event.receiver then 0 else event.refunded := by
  simp [refundedOutside]

@[simp] theorem lent_concat (events : List RentEvent) (event : RentEvent) :
    lent serves (events ++ [event]) = lent serves events +
      if serves event.payer = true ∧ event.named.any serves = false then event.paid else 0 := by
  simp [lent]

/-- A refund is at most what was refunded. -/
theorem outside_le (serves : Pubkey → Bool) (event : RentEvent) :
    (if serves event.receiver then 0 else event.refunded) ≤ event.refunded := by
  split <;> omega

/-- Where the header names no key of the service, what is paid is paid by outsiders, or lent. -/
theorem paid_or_lent {event : RentEvent} (hnone : event.named.any serves = false) :
    (if serves event.payer then 0 else event.paid) +
      (if serves event.payer = true ∧ event.named.any serves = false then event.paid else 0) = event.paid := by
  rw [hnone]
  cases serves event.payer <;> simp

/-- A new account, from which nothing is refunded. -/
theorem Balanced.created {events : List RentEvent} {event : RentEvent} {held left : ℕ}
    (h : Balanced serves events none held) (hback : event.refunded = 0) (hheld : left = held + event.paid) :
    Balanced serves (events ++ [event]) event.named left := by
  have hrefunds := h.refunds
  have hcovered := h.holds rfl
  have hzero : (if serves event.receiver then 0 else event.refunded) = 0 := by
    have hout := outside_le serves event
    omega
  constructor
  · rw [paidOutside_concat, refundedOutside_concat, lent_concat, hzero]
    omega
  · intro hnone
    have hin := paid_or_lent hnone
    rw [paidOutside_concat, refundedOutside_concat, lent_concat, hzero]
    omega

/-- A call on an account that stays; what is refunded goes to the payer that it names. -/
theorem Balanced.kept {events : List RentEvent} {event : RentEvent} {held left : ℕ}
    (h : Balanced serves events event.named held)
    (hreceiver : event.refunded = 0 ∨ event.named = some event.receiver)
    (hheld : left + event.refunded = held + event.paid) : Balanced serves (events ++ [event]) event.named left := by
  have hrefunds := h.refunds
  cases hserves : event.named.any serves with
  | true =>
    have hnone : (if serves event.receiver then 0 else event.refunded) = 0 := by
      rcases hreceiver with hzero | hsome
      · have hout := outside_le serves event
        omega
      · rw [hsome, Option.any_some] at hserves
        rw [if_pos hserves]
    constructor
    · rw [paidOutside_concat, refundedOutside_concat, lent_concat, hnone]
      omega
    · intro hfalse
      cases hserves.symm.trans hfalse
  | false =>
    have hcovered := h.holds hserves
    have hin := paid_or_lent hserves
    have hout := outside_le serves event
    constructor
    · rw [paidOutside_concat, refundedOutside_concat, lent_concat]
      omega
    · intro _
      rw [paidOutside_concat, refundedOutside_concat, lent_concat]
      omega

/-- All that an account holds goes to the payer that it named. -/
theorem Balanced.closed {events : List RentEvent} {event : RentEvent} {held : ℕ}
    (h : Balanced serves events (some event.receiver) held) (hnamed : event.named = none)
    (hheld : event.refunded = held + event.paid) : Balanced serves (events ++ [event]) event.named 0 := by
  have hrefunds := h.refunds
  have hnone : event.named.any serves = false := by
    rw [hnamed]
    rfl
  have hin := paid_or_lent hnone
  have hlaw : refundedOutside serves (events ++ [event]) ≤
      paidOutside serves (events ++ [event]) + lent serves (events ++ [event]) := by
    rw [paidOutside_concat, refundedOutside_concat, lent_concat]
    cases hserves : serves event.receiver with
    | true =>
      rw [if_pos rfl]
      omega
    | false =>
      have hcovered := h.holds (by rw [Option.any_some, hserves])
      rw [if_neg (by decide)]
      omega
  refine ⟨hlaw, fun _ => ?_⟩
  rw [Nat.zero_add]
  exact hlaw

theorem Balanced.step {events : List RentEvent} {event : RentEvent} {named : Option Pubkey} {held left : ℕ}
    (h : Balanced serves events named held) (hshape : RentShape event named held left) :
    Balanced serves (events ++ [event]) event.named left := by
  cases hshape with
  | created hnamed _ hback hheld =>
    subst hnamed
    exact h.created hback hheld
  | kept hnamed hreceiver hheld =>
    subst hnamed
    exact h.kept hreceiver hheld
  | closed hreceiver hnamed hheld hleft =>
    subst hreceiver hleft
    exact h.closed hnamed hheld

end Book

/-! ## Steps -/

section Steps

variable {rt : Runtime} {bank bank' : Bank} {key : Pubkey} {l : Life}

theorem Stored.headerPayer [HeapSizes] {account : Account} (hs : Stored account l) :
    PhygitalWallet.headerPayer account = some l.header.payer := by
  have hread : readAuthorityHeader account = .ok l.header := by
    rw [readAuthorityHeader, require_of hs.owner]
    exact hs.readHeader
  rw [PhygitalWallet.headerPayer, hread]

theorem headerPayer_of_owner {account : Account} (h : account.owner ≠ crateId) : headerPayer account = none := by
  rw [headerPayer, readAuthorityHeader, require_of_not h]
  rfl

/-- The receiver of the rent is the payer that the header names. -/
theorem validateOwnerAccounts_payer {token receiver account : AccountInfo} {u : Unit}
    (h : validateOwnerAccounts rt token receiver account bank = .ok u) :
    headerPayer (bank account.key) = some receiver.key := by
  simp only [validateOwnerAccounts, bind_eq_ok, require_eq_ok, exists_const] at h
  obtain ⟨_, -, -, header, hread, hpayer, -⟩ := h
  rw [headerPayer, hread, hpayer]

/-- Creation leaves at least what was there. -/
theorem setAuthority_held (hrt : rt.Lawful) (hfunds : rt.Funds) {accounts : SetAuthority} {authority : Pubkey}
    {args : Secp256r1VerifyArgs} {slotNumber : UInt64} (h : setAuthority rt accounts authority args slotNumber bank = .ok bank') :
    balances bank accounts.authorityAccount.key ≤ balances bank' accounts.authorityAccount.key := by
  simp only [setAuthority, bind_eq_ok, pure_eq_ok] at h
  obtain ⟨created, hvalidate, _, -, _, -, slotHash, -, verified, hverify, data, -, rfl⟩ := h
  simp only [SetAuthority.validate, bind_eq_ok, pure_eq_ok] at hvalidate
  obtain ⟨_, -, _, -, _, -, _, -, b, hcreate, _, -, _, -, _, -, _, -, _, -, _, -, _, -, _, -, _, -, _, -, rfl⟩ := hvalidate
  obtain ⟨n, hmoves⟩ := hfunds.createAccount _ _ _ _ _ hcreate
  have howner := (hrt.createAccount _ _ _ _ _ hcreate).2.1
  rw [balances_setData, hfunds.verify _ _ _ _ _ hverify _ howner]
  have hbalance := hmoves.balance accounts.authorityAccount.key
  rw [if_pos rfl] at hbalance
  split at hbalance <;> omega

/-- A save leaves at most what was there and what was paid in. -/
theorem SaveMoves.held {payer receiver : Pubkey} (h : SaveMoves rt payer key receiver bank bank') :
    balances bank' key ≤ balances bank key + ((rt.minimumBalance (bank' key).data.length).toNat - balances bank key) := by
  obtain ⟨hne, -, mid, n, hpaid, hback, -⟩ := h
  have hin := hpaid.balance key
  have hout := hback.source hne
  rw [if_pos rfl] at hin
  have hsame : (bank key).lamports.toNat = balances bank key := rfl
  omega

theorem ClearMoves.held {receiver : Pubkey} {left : ℕ} (h : ClearMoves key receiver left bank bank') :
    balances bank' key ≤ balances bank key := by
  obtain ⟨hne, ⟨n, hmoves⟩, -⟩ := h
  have hout := hmoves.source hne
  omega

theorem clearWalletPolicy_receiver {accounts : ClearWalletPolicy} (h : clearWalletPolicy rt accounts bank = .ok bank') :
    headerPayer (bank accounts.authorityAccount.key) = some accounts.rentReceiver.key := by
  simp only [clearWalletPolicy, ClearWalletPolicy.validate, bind_eq_ok] at h
  obtain ⟨_, ⟨_, -, _, hvalid, -⟩, -⟩ := h
  exact validateOwnerAccounts_payer hvalid

theorem clearAuthority_receiver {accounts : ClearAuthority} (h : clearAuthority rt accounts bank = .ok bank') :
    headerPayer (bank accounts.authorityAccount.key) = some accounts.rentReceiver.key := by
  simp only [clearAuthority, ClearAuthority.validate, bind_eq_ok] at h
  obtain ⟨_, ⟨_, -, _, hvalid, -⟩, -⟩ := h
  exact validateOwnerAccounts_payer hvalid

variable [HeapSizes]

theorem setWalletPolicy_receiver {accounts : SetWalletPolicy} {args : WalletPolicyArgs}
    (h : setWalletPolicy rt accounts args bank = .ok bank') :
    headerPayer (bank accounts.authorityAccount.key) = some accounts.rentReceiver.key := by
  simp only [setWalletPolicy, SetWalletPolicy.validate, bind_eq_ok] at h
  obtain ⟨_, ⟨_, -, _, -, _, -, _, -, _, -, _, hvalid, -⟩, -⟩ := h
  exact validateOwnerAccounts_payer hvalid

/-- There is no account of this program at the key, or it is stored. -/
def Lives (key : Pubkey) (bank : Bank) : Prop := (bank key).owner ≠ crateId ∨ ∃ l, Stored (bank key) l

theorem Lives.stored (h : Lives key bank) {payer : Pubkey} (hpayer : headerPayer (bank key) = some payer) :
    ∃ l, Stored (bank key) l ∧ l.header.payer = payer := by
  rcases h with howner | ⟨l, hs⟩
  · rw [headerPayer_of_owner howner] at hpayer
    cases hpayer
  · rw [hs.headerPayer] at hpayer
    exact ⟨l, hs, Option.some.inj hpayer⟩

/-- **One call.** -/
theorem call_shape (hrt : rt.Lawful) (hfunds : rt.Funds) {call : RentCall} (hlives : Lives call.key bank)
    (h : call.run rt bank = .ok bank') : Lives call.key bank' ∧
      RentShape (call.event rt bank bank') (headerPayer (bank call.key)) (balances bank call.key)
        (balances bank' call.key) := by
  cases call with
  | setAuthority accounts authority args slotNumber =>
    obtain ⟨hnew, hs⟩ := setAuthority_stored hrt h
    have hle := setAuthority_held hrt hfunds h
    exact ⟨Or.inr ⟨_, hs⟩, .created (headerPayer_of_owner hnew) hs.headerPayer rfl (Nat.add_sub_of_le hle).symm⟩
  | setWalletPolicy accounts args =>
    have hreceiver := setWalletPolicy_receiver h
    obtain ⟨l, hl, hpayer⟩ := hlives.stored hreceiver
    obtain ⟨p, -, hs⟩ := setWalletPolicy_stored hrt hl h
    have hle := (setWalletPolicy_moves hfunds.toMovesLamports h).held
    refine ⟨Or.inr ⟨_, hs⟩, .kept ?_ (Or.inr hreceiver) (Nat.add_sub_of_le hle)⟩
    exact hs.headerPayer.trans hl.headerPayer.symm
  | clearWalletPolicy accounts =>
    have hreceiver := clearWalletPolicy_receiver h
    obtain ⟨l, hl, hpayer⟩ := hlives.stored hreceiver
    obtain ⟨-, hs⟩ := clearWalletPolicy_stored hl h
    have hle := (clearWalletPolicy_moves h).held
    refine ⟨Or.inr ⟨_, hs⟩, .kept ?_ (Or.inr hreceiver) (Nat.add_sub_of_le hle)⟩
    exact hs.headerPayer.trans hl.headerPayer.symm
  | clearAuthority accounts =>
    have hreceiver := clearAuthority_receiver h
    have hgone : (bank' accounts.authorityAccount.key).owner ≠ crateId := by
      rw [clearAuthority_cleared h]
      decide
    have hleft : balances bank' accounts.authorityAccount.key = 0 := (clearAuthority_moves h).left
    refine ⟨Or.inl hgone, .closed hreceiver (headerPayer_of_owner hgone) ?_ hleft⟩
    show balances bank accounts.authorityAccount.key - balances bank' accounts.authorityAccount.key = _
    rw [hleft]
    rfl

/-- Executes and other transactions keep the header. -/
theorem other_named {event : LifeEvent} (hstep : LifeStep key event bank bank')
    (hevent : event = .execute ∨ event = .elsewhere) (hlives : Lives key bank) :
    Lives key bank' ∧ headerPayer (bank' key) = headerPayer (bank key) := by
  have hkeep : ∀ {l : Life} {policy : Option Policy}, Stored (bank key) l → Stored (bank' key) ⟨l.header, policy⟩ →
      Lives key bank' ∧ headerPayer (bank' key) = headerPayer (bank key) := fun hl hs =>
    ⟨Or.inr ⟨_, hs⟩, hs.headerPayer.trans hl.headerPayer.symm⟩
  cases hstep with
  | setAuthority => rcases hevent with hevent | hevent <;> cases hevent
  | clearAuthority => rcases hevent with hevent | hevent <;> cases hevent
  | setWalletPolicy => rcases hevent with hevent | hevent <;> cases hevent
  | clearWalletPolicy => rcases hevent with hevent | hevent <;> cases hevent
  | execute hrt hkey hexec =>
    subst hkey
    obtain ⟨l, hl⟩ := hlives.resolve_left (not_not.2 (execute_owner hexec))
    obtain ⟨policy, hs, -⟩ := execute_stored hrt hl hexec
    exact hkeep hl hs
  | executeWithAuthority hrt hkey hexec =>
    subst hkey
    obtain ⟨l, hl⟩ := hlives.resolve_left (not_not.2 (executeWithAuthority_owner hexec))
    exact hkeep hl (executeWithAuthority_stored hrt hl hexec)
  | executeWithAuthorityUsingPolicies hrt hkey hexec =>
    subst hkey
    rcases hlives with hnew | ⟨l, hl⟩
    · have howner := executeWithAuthorityUsingPolicies_owner hrt hexec
      have hnew' := howner.trans_ne hnew
      exact ⟨Or.inl hnew', (headerPayer_of_owner hnew').trans (headerPayer_of_owner hnew).symm⟩
    · obtain ⟨policy, hs, -⟩ := executeWithAuthorityUsingPolicies_stored hrt hl hexec
      exact hkeep hl hs
  | elsewhere hsame =>
    rcases hlives with hnew | ⟨l, hl⟩
    · have hnew' := hsame.1.trans_ne hnew
      exact ⟨Or.inl hnew', (headerPayer_of_owner hnew').trans (headerPayer_of_owner hnew).symm⟩
    · have hs : Stored (bank' key) ⟨l.header, l.policy⟩ := hl.congr hsame.1 hsame.2
      exact hkeep hl hs

/-- **One step.** -/
theorem RentStep.shape {sent : RentCall → Prop} {event : RentEvent} (hstep : RentStep sent key event bank bank')
    (hlives : Lives key bank) : Lives key bank' ∧ event.named = headerPayer (bank' key) ∧
      RentShape event (headerPayer (bank key)) (balances bank key) (balances bank' key) := by
  cases hstep with
  | @call rt call _ _ hrt hfunds hkey hsent h =>
    subst hkey
    obtain ⟨hlives', hshape⟩ := call_shape hrt hfunds hlives h
    refine ⟨hlives', ?_, hshape⟩
    cases call <;> rfl
  | other hstep hevent source paid hpaid =>
    obtain ⟨hlives', hnamed⟩ := other_named hstep hevent hlives
    exact ⟨hlives', rfl, .kept hnamed (Or.inl rfl) hpaid⟩

end Steps

/-! ## Every run -/

/-- Of an account that is new and empty, a run refunds outsiders no more than outsiders paid or were lent. -/
theorem rent_run [HeapSizes] {sent : RentCall → Prop} {key : Pubkey} {bank₀ bank : Bank} {events : List RentEvent}
    (serves : Pubkey → Bool) (hnew : (bank₀ key).owner ≠ crateId) (hempty : balances bank₀ key = 0)
    (hrun : Run (RentStep sent key) bank₀ events bank) :
    Lives key bank ∧ Balanced serves events (headerPayer (bank key)) (balances bank key) := by
  refine hrun.tracked (I := fun events bank => Lives key bank ∧
    Balanced serves events (headerPayer (bank key)) (balances bank key)) ⟨Or.inl hnew, ?_⟩ ?_
  · rw [hempty]
    exact balanced_nil _
  · rintro events event bank bank' - ⟨hlives, hbalanced⟩ hstep
    obtain ⟨hlives', hnamed, hshape⟩ := hstep.shape hlives
    exact ⟨hlives', hnamed ▸ hbalanced.step hshape⟩

end PhygitalWallet
