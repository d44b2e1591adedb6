import PhygitalWallet.Program.Mandate

/-!
# No call panics

Whatever a relayer sends, and whatever the account has gone through, the program ends with a value or an error. The reads
of a header check the length first, the policy is read as it was written, and the charge reads the account that no CPI has
touched.

- `execute_noPanic`, `setAuthority_noPanic`, `clearAuthority_noPanic`: the handlers that are left;
- `WalletCall.noPanic`: a call on an account that stands for a mandate;
- `no_panic`: every call on an account that a run has left.
-/

namespace PhygitalWallet

open ByteSeq Runs

/-- What a program called by CPI leaves, or an error; a creation leaves the data of the other accounts. -/
structure Runtime.Returns (rt : Runtime) : Prop where
  verify : ∀ token args message bank, NoPanic (rt.verify token args message bank)
  invokeSigned : ∀ ix seeds bank, NoPanic (rt.invokeSigned ix seeds bank)
  createAccount : ∀ payer key space bank, NoPanic (rt.createAccount payer key space bank)
  elsewhere : ∀ payer key space before after, rt.createAccount payer key space before = .ok after →
    ∀ k, k ≠ key → (after k).data = (before k).data

/-- The entries that the sysvar counts fit in the address space. -/
def SlotsFit (data : Bytes) : Prop := 8 + ofLE (slice data 0 8) * entryLen < 2 ^ 64

/-! ## Rules -/

section Rules

variable {α β : Type}

theorem NoPanic.of_bind {x : Result α} {f : α → Result β} (h : NoPanic (x >>= f)) :
    NoPanic x ∧ ∀ a, x = .ok a → NoPanic (f a) := by
  refine ⟨fun hx => h (by rw [hx]; rfl), ?_⟩
  rintro a rfl
  exact h

end Rules

/-! ## Reads and challenges -/

section Reads

theorem parseLayout_noPanic (data : Bytes) : NoPanic (parseLayout data) := by
  refine (NoPanic.require _ _).bind fun u hlen => ?_
  rw [require_eq_ok] at hlen
  have hend : mintsOffset ≤ data.length := le_trans (by decide) hlen
  refine (NoPanic.rangeOf (by decide) (le_trans (by decide) hend)).bind fun padding _ => ?_
  refine (NoPanic.require _ _).bind fun _ _ => (NoPanic.rangeOf (by decide) hend).bind fun count _ => ?_
  exact (NoPanic.okOr _ _).bind fun _ _ => (NoPanic.require _ _).bind fun _ _ => .pure _

theorem read_noPanic (data : Bytes) : NoPanic (Authority.read data) := by
  refine ((readHeaderMut_noPanic _).bind fun _ _ => (NoPanic.require _ _).bind fun _ _ => .pure _).bind fun header _ => ?_
  split
  · exact (NoPanic.require _ _).bind fun _ _ => .pure _
  · split
    · exact (parseLayout_noPanic _).bind fun _ _ => .pure _
    · exact fun h => by cases h

theorem requireCanonicalAuthorityAddress_noPanic (rt : Runtime) (key : Pubkey) (header : AuthorityHeader)
    (programId : Pubkey) : NoPanic (requireCanonicalAuthorityAddress rt key header programId) :=
  (NoPanic.okOr _ _).bind fun _ _ => .require _ _

theorem fetchSlotHash_noPanic {data : Bytes} (hfit : SlotsFit data) (slotNumber : UInt64) :
    NoPanic (fetchSlotHash data slotNumber) := by
  intro h
  have hpanic := fetchSlotHash_panic h
  unfold SlotsFit at hfit
  omega

theorem executeMessageHash_noPanic (rt : Runtime) (slotHash : Bytes) (remaining : List AccountInfo)
    (compacts : List CompactInstruction) : NoPanic (executeMessageHash rt slotHash remaining compacts) := by
  have hpack : NoPanic (packCompactInstructions compacts) := (NoPanic.require _ _).bind fun _ _ =>
    (NoPanic.foldlM (fun _ _ _ => (NoPanic.require _ _).bind fun _ _ => .require _ _) _).bind fun _ _ => .pure _
  have haccounts : NoPanic (hashReferencedAccountsInfos rt remaining compacts) :=
    (NoPanic.foldlM (fun _ _ _ => .foldlM (fun _ _ _ => ((NoPanic.okOr _ _).bind fun _ _ => .pure _).bind fun _ _ => .pure _)
      _) _).bind fun _ _ => .pure _
  exact (hpack.bind fun _ _ => .pure _).bind fun _ _ => haccounts.bind fun _ _ => .pure _

end Reads

/-! ## The CPIs -/

section Cpis

variable {rt : Runtime}

theorem checkInstruction_noPanic (permissions : List ProgramPermission) (program : Pubkey) (ix : CompactInstruction)
    (bank : Bank) (remaining : List AccountInfo) (wallet : Pubkey) :
    NoPanic (checkInstruction permissions program ix bank remaining wallet) := by
  unfold checkInstruction
  split
  · exact fun h => by cases h
  · exact .ok _
  · exact .require _ _
  · exact .require _ _

theorem prepareInstruction_noPanic (programId wallet : Pubkey) (protectedAccounts : List Pubkey)
    (remaining : List AccountInfo) (permissions : Option (List ProgramPermission)) (bank : Bank)
    (compact : CompactInstruction) :
    NoPanic (prepareInstruction programId wallet protectedAccounts remaining permissions bank compact) := by
  refine (NoPanic.okOr _ _).bind fun programAi _ => (NoPanic.require _ _).bind fun _ _ =>
    (NoPanic.require _ _).bind fun _ _ => ?_
  refine NoPanic.bind ?_ fun _ _ => (NoPanic.foldlM (fun metas index _ => ?_) _).bind fun _ _ => .pure _
  · cases permissions with
    | none => exact .ok _
    | some permissions => exact checkInstruction_noPanic _ _ _ _ _ _
  · refine (NoPanic.okOr _ _).bind fun ai _ => ?_
    dsimp only
    split
    · exact (NoPanic.require _ _).bind fun _ _ => .pure _
    · exact .pure _

/-- The loop ends as its turns do. -/
theorem issueInstructions_noPanic (hrt : rt.Returns) {seeds : List Bytes}
    {prepare : Bank → CompactInstruction → Result Instruction} (hprepare : ∀ bank compact, NoPanic (prepare bank compact)) :
    ∀ (compacts : List CompactInstruction) (bank : Bank),
      NoPanic (issueInstructions rt seeds prepare bank compacts).result := by
  intro compacts
  induction compacts with
  | nil => exact fun bank => .ok _
  | cons compact rest ih =>
    intro bank
    unfold issueInstructions
    have hprep := hprepare bank compact
    cases hix : prepare bank compact with
    | error e =>
      rw [hix] at hprep
      exact fun h => hprep (congrArg _ (Except.error.inj h))
    | ok ix =>
      have hcpi := hrt.invokeSigned ix seeds bank
      simp only
      cases hafter : rt.invokeSigned ix seeds bank with
      | error e =>
        rw [hafter] at hcpi
        exact fun h => hcpi (congrArg _ (Except.error.inj h))
      | ok after => exact ih after

theorem executeCompactInstructions_noPanic (hrt : rt.Returns) (programId wallet : Pubkey) (walletBump : UInt8) (token : Pubkey)
    (protectedAccounts : List Pubkey) (remaining : List AccountInfo) (compacts : List CompactInstruction)
    (permissions : Option (List ProgramPermission)) (bank : Bank) :
    NoPanic (executeCompactInstructions rt programId wallet walletBump token protectedAccounts remaining compacts permissions
      bank) :=
  (issueInstructions_noPanic hrt (prepareInstruction_noPanic _ _ _ _ _) _ _).bind fun _ _ =>
    (NoPanic.require _ _).bind fun _ _ => .pure _

end Cpis

/-! ## The handlers -/

section Handlers

variable {rt : Runtime} {bank : Bank} {l : Life} {key : Pubkey} {remaining : List AccountInfo}
  {compacts : List CompactInstruction}

theorem validateExecuteWithAuthority_noPanic (usingPolicies : Bool) (accounts : ExecuteWithAuthority) :
    NoPanic (accounts.validate rt usingPolicies bank) :=
  (NoPanic.anchorRequire _ _).bind fun _ _ => (NoPanic.require _ _).bind fun _ _ =>
  (NoPanic.anchorRequire _ _).bind fun _ _ => (NoPanic.anchorRequire _ _).bind fun _ _ =>
  (NoPanic.anchorRequire _ _).bind fun _ _ => (NoPanic.require _ _).bind fun _ _ => .anchorRequire _ _

theorem executeWithAuthority_noPanic (hreturns : rt.Returns) (accounts : ExecuteWithAuthority) :
    NoPanic (executeWithAuthority rt accounts remaining compacts bank) := by
  refine (validateExecuteWithAuthority_noPanic _ _).bind fun _ _ => (NoPanic.require _ _).bind fun _ _ => ?_
  refine (rejectDurableNonce_noPanic _ _).bind fun _ _ => (authorizeAuthoritySigner_noPanic _ _ _ _ _).bind fun _ _ => ?_
  refine (NoPanic.require _ _).bind fun _ _ => ?_
  exact (executeCompactInstructions_noPanic hreturns _ _ _ _ _ _ _ _ _).bind fun _ _ => .pure _

theorem setAuthority_noPanic (hrt : rt.Lawful) (hreturns : rt.Returns) (hslots : SlotsFit (bank slotHashesSysvarId).data)
    {accounts : SetAuthority} {authority : Pubkey} {args : Secp256r1VerifyArgs} {slotNumber : UInt64} :
    NoPanic (setAuthority rt accounts authority args slotNumber bank) := by
  refine NoPanic.bind ?_ fun created hvalid => ?_
  · refine (NoPanic.anchorRequire _ _).bind fun _ _ => (NoPanic.anchorRequire _ _).bind fun _ _ => ?_
    refine (NoPanic.anchorRequire _ _).bind fun _ _ => (NoPanic.anchorRequire _ _).bind fun _ _ => ?_
    refine (hreturns.createAccount _ _ _ _).bind fun _ _ => (NoPanic.anchorRequire _ _).bind fun _ _ => ?_
    refine (NoPanic.anchorRequire _ _).bind fun _ _ => (NoPanic.require _ _).bind fun _ _ => ?_
    refine (NoPanic.anchorRequire _ _).bind fun _ _ => (NoPanic.anchorRequire _ _).bind fun _ _ => ?_
    refine (NoPanic.require _ _).bind fun _ _ => (NoPanic.anchorRequire _ _).bind fun _ _ => ?_
    refine (NoPanic.anchorRequire _ _).bind fun _ _ => (NoPanic.anchorRequire _ _).bind fun _ _ => ?_
    exact (NoPanic.anchorRequire _ _).bind fun _ _ => .pure _
  · have hfit : SlotsFit (created accounts.slotHashes.key).data := by
      simp only [SetAuthority.validate, bind_eq_ok, anchorRequire_eq_ok, pure_eq_ok] at hvalid
      obtain ⟨_, -, _, -, _, -, _, -, b, hcreate, _, -, _, -, _, -, _, -, _, -, _, -, _, hsysvar, _, -, _, -, _, -, rfl⟩ :=
        hvalid
      rw [hsysvar]
      by_cases hkey : slotHashesSysvarId = accounts.authorityAccount.key
      · -- a new account counts no entries
        rw [hkey, (hrt.createAccount _ _ _ _ _ hcreate).2.2]
        unfold SlotsFit
        decide +kernel
      · rw [hreturns.elsewhere _ _ _ _ _ hcreate _ hkey]
        exact hslots
    refine (NoPanic.require _ _).bind fun _ _ => (NoPanic.require _ _).bind fun _ _ => ?_
    refine (fetchSlotHash_noPanic hfit _).bind fun _ _ => (hreturns.verify _ _ _ _).bind fun _ _ => ?_
    exact ((NoPanic.anchorRequire _ _).bind fun _ _ => .pure _).bind fun _ _ => .pure _

theorem clearAuthority_noPanic (accounts : ClearAuthority) : NoPanic (clearAuthority rt accounts bank) := by
  have hvalidate : NoPanic (accounts.validate rt bank) := (NoPanic.anchorRequire _ _).bind fun _ _ =>
    (validateOwnerAccounts_noPanic _ _ _ _ _).bind fun _ _ => .anchorRequire _ _
  refine hvalidate.bind fun _ _ => (NoPanic.require _ _).bind fun _ _ => (rejectDurableNonce_noPanic _ _).bind fun _ _ => ?_
  exact (authorizeAuthoritySigner_noPanic _ _ _ _ _).bind fun _ _ => (NoPanic.okOr _ _).bind fun _ _ => .pure _

theorem clearWalletPolicy_noPanic_absent {accounts : ClearWalletPolicy}
    (hnone : (bank accounts.authorityAccount.key).owner ≠ crateId) : NoPanic (clearWalletPolicy rt accounts bank) := by
  have hvalidate : NoPanic (accounts.validate rt bank) :=
    (NoPanic.anchorRequire _ _).bind fun _ _ => (validateOwnerAccounts_noPanic _ _ _ _ _).bind fun _ _ =>
    .anchorRequire _ _
  refine hvalidate.bind fun _ hvalid => absurd ?_ hnone
  simp only [ClearWalletPolicy.validate, validateOwnerAccounts, readAuthorityHeader, bind_eq_ok, require_eq_ok] at hvalid
  obtain ⟨_, -, _, ⟨_, -, _, -, _, ⟨_, howner, -⟩, -⟩, -⟩ := hvalid
  exact howner

section Sizes

variable [HeapSizes]

/-- From the snapshot to the charge, on an account that is stored. -/
theorem executePolicied_noPanic (hrt : rt.Lawful) (hreturns : rt.Returns) {token wallet : Pubkey} {walletBump : UInt8}
    (hs : Stored (bank key) l) :
    NoPanic (executePolicied rt token wallet key walletBump l.policy.isSome remaining compacts bank) := by
  cases hp : l.policy with
  | none => exact (executeCompactInstructions_noPanic hreturns _ _ _ _ _ _ _ _ _).bind fun _ _ => .pure _
  | some p =>
    have hsnapshot : NoPanic (checkPolicyAndSnapshot (bank key).data wallet bank remaining) :=
      (NoPanic.of_eq_ok (hs.readPolicy hp)).bind fun _ _ => .pure _
    refine hsnapshot.bind fun snapshot hsnap => ?_
    refine (executeCompactInstructions_noPanic hreturns _ _ _ _ _ _ _ _ _).bind fun after hcpis => ?_
    have hsame : after key = bank key := executeCompactInstructions_frame hrt.invokeSigned hcpis (Or.inr (by simp))
    have hcharge : NoPanic (chargePolicyDeltas (bank key).data wallet after remaining snapshot rt.unixTimestamp) :=
      chargePolicyDeltas_noPanic hsnap
    obtain ⟨hmeasure, happly⟩ := NoPanic.of_bind hcharge
    refine hmeasure.bind fun charges hcharges => ?_
    rw [hsame]
    exact (happly charges hcharges).bind fun _ _ => .pure _

theorem execute_noPanic (hrt : rt.Lawful) (hreturns : rt.Returns) (hslots : SlotsFit (bank slotHashesSysvarId).data)
    {accounts : Execute} {args : Secp256r1VerifyArgs} {slotNumber : UInt64}
    (hs : (bank accounts.authorityAccount.key).owner = crateId → ∃ l, Stored (bank accounts.authorityAccount.key) l) :
    NoPanic (execute rt accounts remaining compacts args slotNumber bank) := by
  have hvalidate : NoPanic (accounts.validate rt bank) :=
    (NoPanic.anchorRequire _ _).bind fun _ _ => (NoPanic.require _ _).bind fun _ _ =>
    (NoPanic.anchorRequire _ _).bind fun _ _ => (NoPanic.anchorRequire _ _).bind fun _ _ =>
    (NoPanic.require _ _).bind fun _ _ => (NoPanic.anchorRequire _ _).bind fun _ _ =>
    (NoPanic.require _ _).bind fun _ _ => (NoPanic.anchorRequire _ _).bind fun _ _ =>
    (NoPanic.anchorRequire _ _).bind fun _ _ => (NoPanic.anchorRequire _ _).bind fun _ _ => .anchorRequire _ _
  refine NoPanic.bind ?_ fun verified hverified => ?_
  · refine hvalidate.bind fun _ hvalid => (NoPanic.require _ _).bind fun _ _ => (read_noPanic _).bind fun header _ => ?_
    refine (requireCanonicalAuthorityAddress_noPanic _ _ _ _).bind fun _ _ => (NoPanic.require _ _).bind fun _ _ => ?_
    simp only [Execute.validate, bind_eq_ok, require_eq_ok, anchorRequire_eq_ok] at hvalid
    obtain ⟨_, -, _, -, _, -, _, -, _, -, _, -, _, -, _, hsysvar, -⟩ := hvalid
    rw [hsysvar]
    refine (fetchSlotHash_noPanic hslots _).bind fun _ _ => (executeMessageHash_noPanic _ _ _ _).bind fun _ _ => ?_
    exact (hreturns.verify _ _ _ _).bind fun _ _ => .pure _
  · obtain ⟨header, policyPresent, before⟩ := verified
    have howner : (bank accounts.authorityAccount.key).owner = crateId := by
      simp only [verifyExecute, Execute.validate, bind_eq_ok, require_eq_ok] at hverified
      obtain ⟨_, ⟨_, -, _, -, _, -, _, -, _, -, _, -, _, howner, -⟩, -⟩ := hverified
      exact howner
    obtain ⟨l, hl⟩ := hs howner
    obtain ⟨hl', rfl⟩ := verifyExecute_stored hrt hl hverified
    exact executePolicied_noPanic hrt hreturns hl'

theorem executeWithAuthorityUsingPolicies_noPanic (hrt : rt.Lawful) (hreturns : rt.Returns) {accounts : ExecuteWithAuthority}
    (hs : Authority.read (bank accounts.authorityAccount.key).data = .error (.error .invalidAccountData) ∨
      ∃ l, Stored (bank accounts.authorityAccount.key) l) :
    NoPanic (executeWithAuthorityUsingPolicies rt accounts remaining compacts bank) := by
  refine (validateExecuteWithAuthority_noPanic _ _).bind fun _ _ => (NoPanic.require _ _).bind fun _ _ => ?_
  refine (rejectDurableNonce_noPanic _ _).bind fun _ _ => (read_noPanic _).bind fun ⟨header, policyPresent⟩ hread => ?_
  refine (requireCanonicalAuthorityAddress_noPanic _ _ _ _).bind fun _ _ => (NoPanic.require _ _).bind fun _ _ => ?_
  refine (NoPanic.require _ _).bind fun _ _ => ?_
  rcases hs with hnone | ⟨l, hl⟩
  · rw [hnone] at hread
    cases hread
  · obtain ⟨-, rfl⟩ := hl.read_eq hread
    exact executePolicied_noPanic hrt hreturns hl

/-- A save where there is no account of this program. -/
theorem setWalletPolicy_noPanic_absent {accounts : SetWalletPolicy} (args : WalletPolicyArgs)
    (hnone : (bank accounts.authorityAccount.key).owner ≠ crateId) : NoPanic (setWalletPolicy rt accounts args bank) := by
  have hvalidate : NoPanic (accounts.validate rt bank) :=
    (NoPanic.anchorRequire _ _).bind fun _ _ => (NoPanic.anchorRequire _ _).bind fun _ _ =>
    (NoPanic.anchorRequire _ _).bind fun _ _ => (NoPanic.anchorRequire _ _).bind fun _ _ =>
    (NoPanic.anchorRequire _ _).bind fun _ _ => (validateOwnerAccounts_noPanic _ _ _ _ _).bind fun _ _ =>
    .anchorRequire _ _
  refine hvalidate.bind fun _ hvalid => absurd ?_ hnone
  simp only [SetWalletPolicy.validate, validateOwnerAccounts, readAuthorityHeader, bind_eq_ok, require_eq_ok] at hvalid
  obtain ⟨_, -, _, -, _, -, _, -, _, -, _, ⟨_, -, _, -, _, ⟨_, howner, -⟩, -⟩, -⟩ := hvalid
  exact howner

/-! ## Every call -/

/-- A call on an account that stands for a mandate, or for none. -/
theorem WalletCall.noPanic (hrt : rt.Lawful) (hreturns : rt.Returns) (hslots : SlotsFit (bank slotHashesSysvarId).data)
    {m : Option Mandate} (call : WalletCall) (hm : StandsFor m (bank call.key)) : NoPanic (call.run rt bank) := by
  have hstored : (bank call.key).owner = crateId → ∃ l, Stored (bank call.key) l := fun howner =>
    (hm.stored howner).imp fun _ h => h.1
  cases call with
  | rent call =>
    cases call with
    | setAuthority accounts authority args slotNumber => exact setAuthority_noPanic hrt hreturns hslots
    | setWalletPolicy accounts args =>
      by_cases howner : (bank accounts.authorityAccount.key).owner = crateId
      · obtain ⟨l, hl⟩ := hstored howner
        exact setWalletPolicy_noPanic hrt args hl
      · exact setWalletPolicy_noPanic_absent args howner
    | clearWalletPolicy accounts =>
      by_cases howner : (bank accounts.authorityAccount.key).owner = crateId
      · obtain ⟨l, hl⟩ := hstored howner
        exact clearWalletPolicy_noPanic hl
      · exact clearWalletPolicy_noPanic_absent howner
    | clearAuthority accounts => exact clearAuthority_noPanic accounts
  | execute call =>
    obtain ⟨handler, remaining, compacts⟩ := call
    cases handler with
    | execute accounts args slotNumber => exact (execute_noPanic hrt hreturns hslots hstored).map
    | executeWithAuthority accounts => exact (executeWithAuthority_noPanic hreturns accounts).map
    | executeWithAuthorityUsingPolicies accounts =>
      refine (executeWithAuthorityUsingPolicies_noPanic hrt hreturns ?_).map
      cases m with
      | none =>
        have hempty : (bank accounts.authorityAccount.key).data = [] := hm.2
        exact .inl (by rw [hempty, read_nil])
      | some m => exact .inr (hm.imp fun _ h => h.1)

/-- **No call panics.** On an account that any run has left, from before it was created, every call of the program ends with
a value or an error. -/
theorem no_panic {bank₀ : Bank} {calls : List (Option (Runtime × WalletCall))}
    (hnew : (bank₀ key).owner ≠ crateId ∧ (bank₀ key).data = []) (hrun : Run (WalletStep key) bank₀ calls bank)
    (hrt : rt.Lawful) (hreturns : rt.Returns) (hslots : SlotsFit (bank slotHashesSysvarId).data) (call : WalletCall)
    (hkey : call.key = key) : call.run rt bank ≠ .error .panic := by
  subst hkey
  obtain ⟨-, m, -, -, hm⟩ := walletRun_decided hnew hrun
  exact call.noPanic hrt hreturns hslots hm

end Sizes

end Handlers

/-! ## A call that names no account -/

theorem payLamports_noPanic (source destination : Pubkey) (lamports : UInt64) (bank : Bank) :
    NoPanic (payLamports source destination lamports bank) := lifecycleRuntime_lawful.transfer_returns _ _ _ _

theorem lifecycleRuntime_returns : lifecycleRuntime.Returns where
  verify _ _ _ _ := .ok _
  invokeSigned ix _ bank := by
    change NoPanic (systemTransfer ix bank)
    unfold systemTransfer
    split
    · split
      · exact .ok _
      · exact fun h => by cases h
    · exact fun h => by cases h
  createAccount payer key space bank := by
    change NoPanic (createPaidAccount payer key space bank)
    unfold createPaidAccount
    split
    · exact (payLamports_noPanic _ _ _ _).bind fun _ _ => .pure _
    · exact fun h => by cases h
  elsewhere payer key space before after h k hk := by
    change createPaidAccount payer key space before = .ok after at h
    unfold createPaidAccount at h
    split at h
    · simp only [bind_eq_ok, pure_eq_ok] at h
      obtain ⟨paid, hpaid, rfl⟩ := h
      rw [Function.update_of_ne hk]
      exact (lifecycleRuntime_lawful.transfer _ _ _ _ _ hpaid k).2
    · cases h

/-- After the authority was appointed, a relayer sends an execute whose program index is past the accounts. -/
theorem no_panic_bad_index : ∃ bank, Run (@WalletStep targetHeapSizes (.fill 7)) lifecycleBank
      [some (lifecycleRuntime, .rent (.setAuthority lifecycleSetAuthority (.fill 6) ⟨0, 0, []⟩ 3))] bank ∧
    @WalletCall.run targetHeapSizes lifecycleRuntime
      (.execute ⟨.execute transferAccounts ⟨0, 0, []⟩ 3, [], [⟨9, [], []⟩]⟩) bank ≠ .error .panic := by
  let _ := targetHeapSizes
  let created := setAuthority lifecycleRuntime lifecycleSetAuthority (.fill 6) ⟨0, 0, []⟩ 3 lifecycleBank
  have hcreated : created = .ok (bankOf created) := eq_ok_bankOf (by decide +kernel)
  have hrun : Run (WalletStep (.fill 7)) lifecycleBank
      [some (lifecycleRuntime, .rent (.setAuthority lifecycleSetAuthority (.fill 6) ⟨0, 0, []⟩ 3))] (bankOf created) :=
    .snoc .nil (.call lifecycleRuntime_lawful rfl hcreated)
  have hslots : SlotsFit (bankOf created slotHashesSysvarId).data := by
    unfold SlotsFit
    decide +kernel
  exact ⟨_, hrun, no_panic (by decide +kernel) hrun lifecycleRuntime_lawful lifecycleRuntime_returns hslots _ rfl⟩

end PhygitalWallet
