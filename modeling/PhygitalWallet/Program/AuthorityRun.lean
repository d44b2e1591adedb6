import PhygitalWallet.Program.NoPanic

/-!
# Runs of an authority account

An account lives through the instructions of this program that name it; between them, other transactions leave its owner
and its data alone. `History` says what a run has left: the life that is stored, the header that was written last, and
where the policy comes from.

- `LifeStep.history`: one instruction;
- `authority_lifecycle`: every run.
-/

namespace PhygitalWallet

open ByteSeq Runs

/-- What happens to an authority account. -/
inductive LifeEvent
  | setAuthority (header : AuthorityHeader)
  | clearAuthority
  | setWalletPolicy (args : WalletPolicyArgs) (now : Int64)
  | clearWalletPolicy
  | execute
  | elsewhere

/-- The header that an event writes. -/
def LifeEvent.written : LifeEvent → Option AuthorityHeader
  | .setAuthority header => some header
  | _ => none

/-- The events that decide whether a policy is present, and which. -/
def LifeEvent.policyStep : LifeEvent → Option LifeEvent
  | .setAuthority header => some (.setAuthority header)
  | .setWalletPolicy args now => some (.setWalletPolicy args now)
  | .clearWalletPolicy => some .clearWalletPolicy
  | _ => none

/-! ## Events, limits and owners -/

theorem concat_split {es pre post : List LifeEvent} {e e' : LifeEvent} (h : es = pre ++ e :: post) :
    es ++ [e'] = pre ++ e :: (post ++ [e']) := by
  rw [h, List.append_assoc, List.cons_append]

theorem forall_concat {post : List LifeEvent} {e' : LifeEvent} (h : ∀ e ∈ post, e.policyStep = none)
    (h' : e'.policyStep = none) : ∀ e ∈ post ++ [e'], e.policyStep = none := by
  intro e he
  rcases List.mem_append.1 he with he | he
  · exact h e he
  · rw [List.mem_singleton.1 he]
    exact h'

theorem option_rel_refl (o : Option Policy) : Option.Rel SameLimits o o := by
  cases o with
  | none => exact .none
  | some p => exact .some (.refl p)

theorem clearAuthority_cleared {rt : Runtime} {accounts : ClearAuthority} {bank bank' : Bank}
    (h : clearAuthority rt accounts bank = .ok bank') : (bank' accounts.authorityAccount.key).owner = systemProgramId := by
  simp only [clearAuthority, bind_eq_ok, pure_eq_ok] at h
  obtain ⟨_, -, _, -, _, -, _, -, _, -, rfl⟩ := h
  rw [Function.update_self]

theorem authorizeAuthoritySigner_owner {rt : Runtime} {key : Pubkey} {account : Account}
    {signer programId : Pubkey} {header : AuthorityHeader}
    (h : authorizeAuthoritySigner rt key account signer programId = .ok header) : account.owner = crateId := by
  simp only [authorizeAuthoritySigner, assertCanonicalAuthorityPda, readAuthorityHeader, bind_eq_ok, require_eq_ok] at h
  obtain ⟨_, ⟨_, ⟨_, howner, -⟩, -⟩, -⟩ := h
  exact howner

theorem clearWalletPolicy_owner {rt : Runtime} {accounts : ClearWalletPolicy} {bank bank' : Bank}
    (h : clearWalletPolicy rt accounts bank = .ok bank') : (bank accounts.authorityAccount.key).owner = crateId := by
  simp only [clearWalletPolicy, bind_eq_ok] at h
  obtain ⟨_, -, _, -, _, -, header, hauth, -⟩ := h
  exact authorizeAuthoritySigner_owner hauth

theorem executeWithAuthority_owner {rt : Runtime} {accounts : ExecuteWithAuthority} {remaining : List AccountInfo}
    {compacts : List CompactInstruction} {bank : Bank} {x : Executed}
    (h : executeWithAuthority rt accounts remaining compacts bank = .ok x) :
    (bank accounts.authorityAccount.key).owner = crateId := by
  simp only [executeWithAuthority, bind_eq_ok] at h
  obtain ⟨_, -, _, -, _, -, header, hauth, -⟩ := h
  exact authorizeAuthoritySigner_owner hauth

/-! ## Steps -/

section Sizes

variable [HeapSizes]

/-- One successful instruction on the account at `key`. -/
inductive LifeStep (key : Pubkey) : LifeEvent → Bank → Bank → Prop
  | setAuthority {rt : Runtime} {accounts : SetAuthority} {authority : Pubkey} {args : Secp256r1VerifyArgs}
      {slotNumber : UInt64} {bank bank' : Bank} (hrt : rt.Lawful) (hkey : accounts.authorityAccount.key = key)
      (h : setAuthority rt accounts authority args slotNumber bank = .ok bank') :
      LifeStep key (.setAuthority (accounts.header rt authority)) bank bank'
  | clearAuthority {rt : Runtime} {accounts : ClearAuthority} {bank bank' : Bank}
      (hkey : accounts.authorityAccount.key = key) (h : clearAuthority rt accounts bank = .ok bank') :
      LifeStep key .clearAuthority bank bank'
  | setWalletPolicy {rt : Runtime} {accounts : SetWalletPolicy} {args : WalletPolicyArgs} {bank bank' : Bank}
      (hrt : rt.Lawful) (hkey : accounts.authorityAccount.key = key)
      (h : setWalletPolicy rt accounts args bank = .ok bank') :
      LifeStep key (.setWalletPolicy args rt.unixTimestamp) bank bank'
  | clearWalletPolicy {rt : Runtime} {accounts : ClearWalletPolicy} {bank bank' : Bank}
      (hkey : accounts.authorityAccount.key = key) (h : clearWalletPolicy rt accounts bank = .ok bank') :
      LifeStep key .clearWalletPolicy bank bank'
  | execute {rt : Runtime} {accounts : Execute} {remaining : List AccountInfo} {compacts : List CompactInstruction}
      {args : Secp256r1VerifyArgs} {slotNumber : UInt64} {bank : Bank} {x : Executed} (hrt : rt.Lawful)
      (hkey : accounts.authorityAccount.key = key)
      (h : execute rt accounts remaining compacts args slotNumber bank = .ok x) : LifeStep key .execute bank x.bank
  | executeWithAuthority {rt : Runtime} {accounts : ExecuteWithAuthority} {remaining : List AccountInfo}
      {compacts : List CompactInstruction} {bank : Bank} {x : Executed} (hrt : rt.Lawful)
      (hkey : accounts.authorityAccount.key = key)
      (h : executeWithAuthority rt accounts remaining compacts bank = .ok x) : LifeStep key .execute bank x.bank
  | executeWithAuthorityUsingPolicies {rt : Runtime} {accounts : ExecuteWithAuthority} {remaining : List AccountInfo}
      {compacts : List CompactInstruction} {bank : Bank} {x : Executed} (hrt : rt.Lawful)
      (hkey : accounts.authorityAccount.key = key)
      (h : executeWithAuthorityUsingPolicies rt accounts remaining compacts bank = .ok x) :
      LifeStep key .execute bank x.bank
  | elsewhere {bank bank' : Bank} (h : (bank' key).owner = (bank key).owner ∧ (bank' key).data = (bank key).data) :
      LifeStep key .elsewhere bank bank'

variable {key : Pubkey} {bank₀ bank bank' : Bank} {es : List LifeEvent} {l : Life}

theorem Stored.congr {a b : Account} (h : Stored a l) (ho : b.owner = a.owner) (hd : b.data = a.data) : Stored b l :=
  ⟨ho.trans h.owner, hd.trans h.data, h.version, h.policyVersion, h.sound, hd ▸ h.length_le⟩

theorem Stored.read_eq {header : AuthorityHeader} {policyPresent : Bool} (hs : Stored (bank key) l)
    (h : Authority.read (bank key).data = .ok (header, policyPresent)) :
    header = l.header ∧ policyPresent = l.policy.isSome := by
  rw [hs.read] at h
  cases h
  exact ⟨rfl, rfl⟩

/-- No execute does more than charge the caps. -/
theorem execute_stored {rt : Runtime} (hrt : rt.Lawful) {accounts : Execute} {remaining : List AccountInfo}
    {compacts : List CompactInstruction} {args : Secp256r1VerifyArgs} {slotNumber : UInt64} {x : Executed}
    (hs : Stored (bank accounts.authorityAccount.key) l)
    (h : execute rt accounts remaining compacts args slotNumber bank = .ok x) :
    ∃ policy, Stored (x.bank accounts.authorityAccount.key) ⟨l.header, policy⟩ ∧
      Option.Rel SameLimits l.policy policy := by
  simp only [execute, bind_eq_ok] at h
  obtain ⟨⟨header, policyPresent, before⟩, hverified, h⟩ := h
  simp only [verifyExecute, bind_eq_ok, pure_eq_ok] at hverified
  obtain ⟨_, -, _, -, ⟨header', present⟩, hread, _, -, _, -, slotHash, -, message, -, verified, hverify, hret⟩ := hverified
  cases hret
  obtain ⟨rfl, rfl⟩ := hs.read_eq hread
  obtain ⟨ho, hd⟩ := hrt.verify _ _ _ _ _ hverify _ hs.owner
  exact executePolicied_stored hrt (hs.congr (ho.trans hs.owner.symm) hd) h

theorem executeWithAuthority_stored {rt : Runtime} (hrt : rt.Lawful) {accounts : ExecuteWithAuthority}
    {remaining : List AccountInfo} {compacts : List CompactInstruction} {x : Executed}
    (hs : Stored (bank accounts.authorityAccount.key) l)
    (h : executeWithAuthority rt accounts remaining compacts bank = .ok x) :
    Stored (x.bank accounts.authorityAccount.key) l := by
  simp only [executeWithAuthority, bind_eq_ok, pure_eq_ok] at h
  obtain ⟨_, -, _, -, _, -, header, -, _, -, after, hcpis, rfl⟩ := h
  have hsame := executeCompactInstructions_frame (k := accounts.authorityAccount.key) hrt.invokeSigned hcpis
    (Or.inr (by simp))
  simp only [hsame]
  exact hs

theorem executeWithAuthorityUsingPolicies_stored {rt : Runtime} (hrt : rt.Lawful) {accounts : ExecuteWithAuthority}
    {remaining : List AccountInfo} {compacts : List CompactInstruction} {x : Executed}
    (hs : Stored (bank accounts.authorityAccount.key) l)
    (h : executeWithAuthorityUsingPolicies rt accounts remaining compacts bank = .ok x) :
    ∃ policy, Stored (x.bank accounts.authorityAccount.key) ⟨l.header, policy⟩ ∧
      Option.Rel SameLimits l.policy policy := by
  simp only [executeWithAuthorityUsingPolicies, bind_eq_ok] at h
  obtain ⟨_, -, _, -, _, -, ⟨header, present⟩, hread, h⟩ := h
  obtain ⟨rfl, rfl⟩ := hs.read_eq hread
  obtain ⟨_, -, _, -, _, -, h⟩ := h
  exact executePolicied_stored hrt hs h

/-! ## Where a policy comes from -/

/-- The policy goes back to the creation of the account. -/
def FromCreation (es : List LifeEvent) (p : Policy) : Prop :=
  ∃ pre header post, es = pre ++ .setAuthority header :: post ∧ (∀ e ∈ post, e.policyStep = none) ∧
    SameLimits .initial p

/-- The policy goes back to a save, in the state that the run had reached by then. -/
def FromSave (key : Pubkey) (bank₀ : Bank) (es : List LifeEvent) (p : Policy) : Prop :=
  ∃ pre args now post bankBefore lifeBefore saved, es = pre ++ .setWalletPolicy args now :: post ∧
    (∀ e ∈ post, e.policyStep = none) ∧ Run (LifeStep key) bank₀ pre bankBefore ∧ Stored (bankBefore key) lifeBefore ∧
    Saved args now lifeBefore.policy saved ∧ SameLimits saved p

/-- What a run has left of the account. -/
structure History (key : Pubkey) (bank₀ : Bank) (es : List LifeEvent) (bank : Bank) (l : Life) : Prop where
  stored : Stored (bank key) l
  header : ∃ written, lastMatch LifeEvent.written es = some written ∧ l.header = written.withPolicy l.policy.isSome
  absent : l.policy = none ↔ lastMatch LifeEvent.policyStep es = some .clearWalletPolicy
  origin : ∀ p, l.policy = some p → FromCreation es p ∨ FromSave key bank₀ es p

/-- An event that is no policy step keeps the origin, while it only charges the caps. -/
theorem History.keep {e : LifeEvent} (h : History key bank₀ es bank l) (hw : e.written = none) (hp : e.policyStep = none)
    {policy : Option Policy} (hs : Stored (bank' key) ⟨l.header, policy⟩) (hrel : Option.Rel SameLimits l.policy policy) :
    History key bank₀ (es ++ [e]) bank' ⟨l.header, policy⟩ := by
  obtain ⟨header, old⟩ := l
  have hsome : old.isSome = policy.isSome := by
    cases hrel <;> rfl
  have hnone : policy = none ↔ old = none := by
    cases hrel <;> simp
  refine ⟨hs, ?_, ?_, fun q hq => ?_⟩
  · rw [lastMatch_snoc_none hw, ← hsome]
    exact h.header
  · rw [lastMatch_snoc_none hp, ← h.absent]
    exact hnone
  · cases hrel with
    | none => cases hq
    | @some p q' hlim =>
      cases hq
      rcases h.origin p rfl with ⟨pre, header, post, hes, hpost, hsame⟩ |
        ⟨pre, args, now, post, bankBefore, lifeBefore, saved, hes, hpost, hrun, hbefore, hsaved, hsame⟩
      · exact Or.inl ⟨pre, header, _, concat_split hes, forall_concat hpost hp, hsame.trans hlim⟩
      · exact Or.inr ⟨pre, args, now, _, bankBefore, lifeBefore, saved, concat_split hes, forall_concat hpost hp, hrun,
          hbefore, hsaved, hsame.trans hlim⟩

/-! ## The owner of the account -/

theorem setWalletPolicy_owner {rt : Runtime} {accounts : SetWalletPolicy} {args : WalletPolicyArgs}
    (h : setWalletPolicy rt accounts args bank = .ok bank') : (bank accounts.authorityAccount.key).owner = crateId := by
  simp only [setWalletPolicy, bind_eq_ok] at h
  obtain ⟨_, -, _, -, _, -, _, -, _, -, _, -, header, hauth, -⟩ := h
  exact authorizeAuthoritySigner_owner hauth

theorem execute_owner {rt : Runtime} {accounts : Execute} {remaining : List AccountInfo}
    {compacts : List CompactInstruction} {args : Secp256r1VerifyArgs} {slotNumber : UInt64} {x : Executed}
    (h : execute rt accounts remaining compacts args slotNumber bank = .ok x) :
    (bank accounts.authorityAccount.key).owner = crateId := by
  simp only [execute, verifyExecute, Execute.validate, bind_eq_ok, require_eq_ok] at h
  obtain ⟨_, ⟨_, ⟨_, -, _, -, _, -, _, -, _, -, _, -, _, howner, -⟩, -⟩, -⟩ := h
  exact howner

/-- A policied execute leaves the owner, whatever the account holds. -/
theorem executeWithAuthorityUsingPolicies_owner {rt : Runtime} (hrt : rt.Lawful) {accounts : ExecuteWithAuthority}
    {remaining : List AccountInfo} {compacts : List CompactInstruction} {x : Executed}
    (h : executeWithAuthorityUsingPolicies rt accounts remaining compacts bank = .ok x) :
    (x.bank accounts.authorityAccount.key).owner = (bank accounts.authorityAccount.key).owner := by
  simp only [executeWithAuthorityUsingPolicies, bind_eq_ok] at h
  obtain ⟨_, -, _, -, _, -, ⟨header, policyPresent⟩, -, _, -, _, -, _, -, h⟩ := h
  cases policyPresent with
  | false =>
    simp only [executePolicied, Bool.false_eq_true, if_false, bind_eq_ok, pure_eq_ok] at h
    obtain ⟨after, hcpis, rfl⟩ := h
    have hsame := executeCompactInstructions_frame (k := accounts.authorityAccount.key) hrt.invokeSigned hcpis
      (Or.inr (by simp))
    simp only [hsame]
  | true =>
    obtain ⟨_, _, _, after, _, data, -, hcpis, -, -, rfl⟩ := executePolicied_ok h
    have hsame := executeCompactInstructions_frame (k := accounts.authorityAccount.key) hrt.invokeSigned hcpis
      (Or.inr (by simp))
    simp only [setData_self, hsame]

/-! ## One instruction -/

/-- There is no account of this program at the key, or a history of it. -/
def Tracked (key : Pubkey) (bank₀ : Bank) (es : List LifeEvent) (bank : Bank) : Prop :=
  (bank key).owner ≠ crateId ∨ ∃ l, History key bank₀ es bank l

theorem Tracked.history (h : Tracked key bank₀ es bank) (hown : (bank key).owner = crateId) :
    ∃ l, History key bank₀ es bank l := h.resolve_left (not_not.2 hown)

/-- **One instruction.** -/
theorem LifeStep.tracked {e : LifeEvent} (hrun : Run (LifeStep key) bank₀ es bank) (h : Tracked key bank₀ es bank)
    (hstep : LifeStep key e bank bank') : Tracked key bank₀ (es ++ [e]) bank' := by
  cases hstep with
  | @setAuthority rt accounts authority args slotNumber _ _ hrt hkey hset =>
    subst hkey
    obtain ⟨-, hs⟩ := setAuthority_stored hrt hset
    refine Or.inr ⟨_, hs, ⟨_, lastMatch_snoc_some (p := LifeEvent.written) rfl es, rfl⟩, ?_, fun p hp => ?_⟩
    · rw [lastMatch_snoc_some (p := LifeEvent.policyStep) rfl]
      simp
    · cases hp
      exact Or.inl ⟨es, _, [], rfl, by simp, .refl _⟩
  | clearAuthority hkey hclear =>
    subst hkey
    left
    rw [clearAuthority_cleared hclear]
    decide
  | @setWalletPolicy rt accounts args _ _ hrt hkey hset =>
    subst hkey
    obtain ⟨l, hl⟩ := h.history (setWalletPolicy_owner hset)
    obtain ⟨p, hsaved, hs⟩ := setWalletPolicy_stored hrt hl.stored hset
    obtain ⟨written, hlast, hheader⟩ := hl.header
    refine Or.inr ⟨_, hs, ⟨written, by rw [lastMatch_snoc_none rfl, hlast], ?_⟩, ?_, fun q hq => ?_⟩
    · simp [hheader, AuthorityHeader.withPolicy]
    · rw [lastMatch_snoc_some (p := LifeEvent.policyStep) rfl]
      simp
    · cases hq
      exact Or.inr ⟨es, args, _, [], bank, l, p, rfl, by simp, hrun, hl.stored, hsaved, .refl _⟩
  | @clearWalletPolicy rt accounts _ _ hkey hclear =>
    subst hkey
    obtain ⟨l, hl⟩ := h.history (clearWalletPolicy_owner hclear)
    obtain ⟨-, hs⟩ := clearWalletPolicy_stored hl.stored hclear
    obtain ⟨written, hlast, hheader⟩ := hl.header
    refine Or.inr ⟨_, hs, ⟨written, by rw [lastMatch_snoc_none rfl, hlast], ?_⟩, ?_, fun q hq => by cases hq⟩
    · simp [hheader, AuthorityHeader.withPolicy]
    · rw [lastMatch_snoc_some (p := LifeEvent.policyStep) rfl]
      simp
  | @execute rt accounts remaining compacts args slotNumber _ x hrt hkey hexec =>
    subst hkey
    obtain ⟨l, hl⟩ := h.history (execute_owner hexec)
    obtain ⟨policy, hs, hrel⟩ := execute_stored hrt hl.stored hexec
    exact Or.inr ⟨_, hl.keep rfl rfl hs hrel⟩
  | @executeWithAuthority rt accounts remaining compacts _ x hrt hkey hexec =>
    subst hkey
    obtain ⟨l, hl⟩ := h.history (executeWithAuthority_owner hexec)
    have hs := executeWithAuthority_stored hrt hl.stored hexec
    exact Or.inr ⟨_, hl.keep rfl rfl hs (option_rel_refl _)⟩
  | @executeWithAuthorityUsingPolicies rt accounts remaining compacts _ x hrt hkey hexec =>
    subst hkey
    rcases h with hnew | ⟨l, hl⟩
    · left
      rw [executeWithAuthorityUsingPolicies_owner hrt hexec]
      exact hnew
    · obtain ⟨policy, hs, hrel⟩ := executeWithAuthorityUsingPolicies_stored hrt hl.stored hexec
      exact Or.inr ⟨_, hl.keep rfl rfl hs hrel⟩
  | elsewhere hsame =>
    rcases h with hnew | ⟨l, hl⟩
    · left
      rw [hsame.1]
      exact hnew
    · exact Or.inr ⟨_, hl.keep rfl rfl (hl.stored.congr hsame.1 hsame.2) (option_rel_refl _)⟩

/-! ## Every run -/

/-- **The life of an authority account.** After every run that ends with the account in place: `read` reports the header
as it was written last, and a policy unless the last policy step cleared it; a policy is the one of that step but for what
the charges took, it is sound, and it fills the account exactly; without a policy all policy bytes are zero; and no
further save, clear or charge panics. -/
theorem authority_lifecycle (hnew : (bank₀ key).owner ≠ crateId) (hrun : Run (LifeStep key) bank₀ es bank)
    (hexists : (bank key).owner = crateId) :
    ∃ header policy, Authority.read (bank key).data = .ok (header, policy.isSome) ∧
      (∃ written, lastMatch LifeEvent.written es = some written ∧ header = written.withPolicy policy.isSome) ∧
      (policy = none ↔ lastMatch LifeEvent.policyStep es = some .clearWalletPolicy) ∧
      (∀ p, policy = some p → readPolicy (bank key).data = .ok (p.sol, p.mints, p.permissions) ∧
        (FromCreation es p ∨ FromSave key bank₀ es p) ∧ p.Sound ∧
        (bank key).data.length = baseLen + 64 * p.mints.length + ((encodePermissions p.permissions).length - 4)) ∧
      (policy = none → (bank key).data.length = baseLen ∧ ∀ b ∈ sliceFrom (bank key).data solCapOffset, b = 0) ∧
      (∀ rt : Runtime, rt.Lawful → ∀ accounts args, accounts.authorityAccount.key = key →
        NoPanic (setWalletPolicy rt accounts args bank)) ∧
      (∀ rt accounts, accounts.authorityAccount.key = key → NoPanic (clearWalletPolicy rt accounts bank)) ∧
      ∀ wallet before after remaining snapshot now,
        checkPolicyAndSnapshot (bank key).data wallet before remaining = .ok snapshot →
        NoPanic (chargePolicyDeltas (bank key).data wallet after remaining snapshot now) := by
  have htracked : Tracked key bank₀ es bank :=
    hrun.tracked (I := Tracked key bank₀) (Or.inl hnew) fun es e s s' hr ht hstep => hstep.tracked hr ht
  obtain ⟨l, hl⟩ := htracked.history hexists
  have hs := hl.stored
  refine ⟨l.header, l.policy, hs.read, hl.header, hl.absent, fun p hp => ?_, fun hp => ?_, ?_, ?_, ?_⟩
  · refine ⟨hs.readPolicy hp, hl.origin p hp, hs.sound p hp, ?_⟩
    rw [hs.length_present hp, Nat.mul_comm p.mints.length]
    rfl
  · rw [hs.bytes_absent hp, sliceFrom, ← length_headBytes l.header, List.drop_left]
    refine ⟨?_, fun b hb => List.eq_of_mem_replicate hb⟩
    rw [List.length_append, length_headBytes, List.length_replicate]
    rfl
  · rintro rt hrt accounts args rfl
    exact setWalletPolicy_noPanic hrt args hs
  · rintro rt accounts rfl
    exact clearWalletPolicy_noPanic hs
  · exact fun wallet before after remaining snapshot now hsnap => chargePolicyDeltas_noPanic hsnap

end Sizes

/-! ## A policy that is saved and charged -/

/-- The System program's transfer. -/
def payLamports (source destination : Pubkey) (lamports : UInt64) (bank : Bank) : Result Bank :=
  if lamports ≤ (bank source).lamports then
    let paid := setLamports bank source ((bank source).lamports - lamports)
    .ok (setLamports paid destination ((paid destination).lamports + lamports))
  else .error (.external 1)

/-- The System program's account creation, for this program, at one lamport a byte. -/
def createPaidAccount (payer key : Pubkey) (space : Nat) (bank : Bank) : Result Bank :=
  if (bank key).owner = systemProgramId then do
    let paid ← payLamports payer key (UInt64.ofNat space) bank
    return Function.update paid key { paid key with owner := crateId, data := List.replicate space 0 }
  else .error (.external 0)

/-- `transferRuntime` where accounts are created and paid for. -/
def lifecycleRuntime : Runtime :=
  { transferRuntime with
    findProgramAddress := fun seeds _ => if seeds.head? = some authoritySeed then (.fill 7, 255) else (.fill 9, 254)
    createAccount := createPaidAccount
    transfer := payLamports
    firstInstruction := fun _ => some (crateId, [])
    minimumBalance := UInt64.ofNat }

theorem lifecycleRuntime_lawful : lifecycleRuntime.Lawful where
  createAccount := by
    intro payer key space before after h
    change createPaidAccount payer key space before = .ok after at h
    unfold createPaidAccount at h
    split at h
    · next howner =>
      simp only [bind_eq_ok, pure_eq_ok] at h
      obtain ⟨paid, -, rfl⟩ := h
      refine ⟨?_, by simp, by simp⟩
      rw [howner]
      decide
    · cases h
  transfer := by
    intro source destination lamports before after h k
    change payLamports source destination lamports before = .ok after at h
    unfold payLamports at h
    split at h
    · cases h
      simp
    · cases h
  transfer_returns := by
    intro source destination lamports bank h
    change payLamports source destination lamports bank = .error .panic at h
    unfold payLamports at h
    split at h <;> cases h
  verify := by
    intro token args message before after h k howner
    cases h
    exact ⟨howner, rfl⟩
  invokeSigned := transferRuntime_writes

/-- `transferBank` before the authority account exists, with a payer. -/
def lifecycleBank : Bank := fun k =>
  if k = .fill 7 then ⟨0, systemProgramId, []⟩
  else if k = .fill 5 then ⟨1000, systemProgramId, []⟩
  else transferBank k

def lifecycleSetAuthority : SetAuthority :=
  ⟨⟨.fill 5, true, true⟩, ⟨.fill 8, false, true⟩, ⟨.fill 9, false, false⟩, ⟨.fill 7, false, true⟩,
    ⟨slotHashesSysvarId, false, false⟩, ⟨instructionsSysvarId, false, false⟩, ⟨phygitalTokenId, false, false⟩,
    ⟨systemProgramId, false, false⟩⟩

def lifecycleSetWalletPolicy : SetWalletPolicy :=
  ⟨⟨.fill 6, true, false⟩, ⟨.fill 5, true, true⟩, ⟨.fill 5, true, true⟩, ⟨.fill 8, false, true⟩, ⟨.fill 7, false, true⟩,
    ⟨instructionsSysvarId, false, false⟩, ⟨systemProgramId, false, false⟩⟩

/-- A daily SOL cap of 50 lamports and a lifetime cap of 10 on one mint. -/
def lifecyclePolicy : WalletPolicyArgs := ⟨some ⟨50, 86400⟩, [⟨.fill 3, 10, 0⟩], []⟩

/-- The bank that a run leaves. -/
def bankOf (r : Result Bank) : Bank :=
  match r with
  | .ok bank => bank
  | .error _ => lifecycleBank

theorem eq_ok_bankOf {r : Result Bank} (h : r.isOk = true) : r = .ok (bankOf r) := by
  cases r with
  | error e => cases h
  | ok bank => rfl

theorem authority_lifecycle_charged : ∃ bank header p,
    Run (@LifeStep targetHeapSizes (.fill 7)) lifecycleBank [.setAuthority (lifecycleSetAuthority.header lifecycleRuntime
      (.fill 6)), .setWalletPolicy lifecyclePolicy 0, .execute] bank ∧
    Authority.read (bank (.fill 7)).data = .ok (header, true) ∧
    @readPolicy targetHeapSizes (bank (.fill 7)).data = .ok (p.sol, p.mints, p.permissions) ∧
    p.sol = ⟨50, 20, 0, 86400⟩ ∧ @Policy.Sound targetHeapSizes p := by
  let _ := targetHeapSizes
  let created := setAuthority lifecycleRuntime lifecycleSetAuthority (.fill 6) ⟨0, 0, []⟩ 3 lifecycleBank
  let saved := setWalletPolicy lifecycleRuntime lifecycleSetWalletPolicy lifecyclePolicy (bankOf created)
  let run := execute lifecycleRuntime transferAccounts (transferRemaining []) [transferInstruction] ⟨0, 0, []⟩ 3
    (bankOf saved)
  have hcreated : created = .ok (bankOf created) := eq_ok_bankOf (by decide +kernel)
  have hsaved : saved = .ok (bankOf saved) := eq_ok_bankOf (by decide +kernel)
  have hread : run.map (fun x => (readPolicy (x.bank (.fill 7)).data).map Prod.fst) = .ok (.ok ⟨50, 20, 0, 86400⟩) := by
    decide +kernel
  have hown : run.map (fun x => (x.bank (.fill 7)).owner) = .ok crateId := by decide +kernel
  obtain ⟨x, hx, hsol⟩ := exists_of_map_eq_ok hread
  have hrun : Run (LifeStep (.fill 7)) lifecycleBank [.setAuthority (lifecycleSetAuthority.header lifecycleRuntime
      (.fill 6)), .setWalletPolicy lifecyclePolicy 0, .execute] x.bank :=
    .snoc (.snoc (.snoc .nil (.setAuthority lifecycleRuntime_lawful rfl hcreated))
      (.setWalletPolicy lifecycleRuntime_lawful rfl hsaved)) (.execute lifecycleRuntime_lawful rfl hx)
  have hnew : (lifecycleBank (.fill 7)).owner ≠ crateId := by decide +kernel
  have hexists : (x.bank (.fill 7)).owner = crateId := by
    rw [hx] at hown
    exact Except.ok.inj hown
  obtain ⟨header, policy, hheader, -, habsent, hpresent, -⟩ := authority_lifecycle hnew hrun hexists
  cases policy with
  | none =>
    have hcleared : some (LifeEvent.setWalletPolicy lifecyclePolicy 0) = some .clearWalletPolicy := habsent.1 rfl
    cases hcleared
  | some p =>
    obtain ⟨hpolicy, -, hsound, -⟩ := hpresent p rfl
    rw [hpolicy] at hsol
    exact ⟨x.bank, header, p, hrun, hheader, hpolicy, Except.ok.inj hsol, hsound⟩

end PhygitalWallet
