import PhygitalWallet.Program.Execute
import PhygitalWallet.Program.Gate
import PhygitalWallet.Program.Metering

/-!
# The relayer cannot change the charge

The passkey signs the accounts that the compact instructions name; whoever submits the transaction chooses the rest of
the list. Two lists that agree where an instruction looks give the same message, the same CPIs and, since a CPI leaves
the other accounts alone, the same measure.

- `verifyExecute_congr`, `executeCompactInstructions_congr`: what reads the list only at the named indexes;
- `executeCompactInstructions_frame`: what the CPIs leave alone;
- `Measured.sameCharges`, `Measured.control_of_error`: two lists measure the same, or one fails a control check;
- `relayer_cannot_change_charge`.
-/

namespace PhygitalWallet

open ListLoop

/-! ## The indexes that are named -/

def referencedIndexes (compacts : List CompactInstruction) : List UInt8 :=
  compacts.flatMap fun c => c.programIdIndex :: c.accountIndexes

/-- The same account stands at every index that a compact instruction names. -/
def SameReferenced (compacts : List CompactInstruction) (r₁ r₂ : List AccountInfo) : Prop :=
  ∀ i ∈ referencedIndexes compacts, r₁[i.toNat]? = r₂[i.toNat]?

/-- The keys of the accounts that the compact instructions name. -/
def referencedKeys (compacts : List CompactInstruction) (remaining : List AccountInfo) : Finset Pubkey :=
  ((referencedIndexes compacts).filterMap fun i => remaining[i.toNat]?.map AccountInfo.key).toFinset

variable {compacts : List CompactInstruction} {r₁ r₂ remaining : List AccountInfo}

theorem SameReferenced.symm (h : SameReferenced compacts r₁ r₂) : SameReferenced compacts r₂ r₁ :=
  fun i hi => (h i hi).symm

theorem referencedKeys_congr (h : SameReferenced compacts r₁ r₂) :
    referencedKeys compacts r₁ = referencedKeys compacts r₂ := by
  unfold referencedKeys
  congr 1
  apply List.filterMap_congr
  intro i hi
  rw [h i hi]

theorem mem_referencedKeys {i : UInt8} {ai : AccountInfo} (hi : i ∈ referencedIndexes compacts)
    (h : remaining[i.toNat]? = some ai) : ai.key ∈ referencedKeys compacts remaining := by
  rw [referencedKeys, List.mem_toFinset, List.mem_filterMap]
  exact ⟨i, hi, by rw [h]; rfl⟩

theorem referencedKeys_subset : referencedKeys compacts remaining ⊆ listedKeys remaining := by
  intro k hk
  rw [referencedKeys, List.mem_toFinset, List.mem_filterMap] at hk
  obtain ⟨i, -, hk⟩ := hk
  obtain ⟨ai, hai, rfl⟩ := Option.map_eq_some_iff.1 hk
  exact List.mem_toFinset.2 (List.mem_map_of_mem (List.mem_of_getElem? hai))

/-- The indexes of one compact instruction are named. -/
theorem index_mem {compact : CompactInstruction} (hc : compact ∈ compacts) {i : UInt8}
    (hi : i ∈ compact.programIdIndex :: compact.accountIndexes) : i ∈ referencedIndexes compacts :=
  List.mem_flatMap.2 ⟨compact, hc, hi⟩

/-! ## What reads the list only there -/

section Congr

variable {compact : CompactInstruction}

/-- The lists agree at the indexes of one compact instruction. -/
def SameAt (compact : CompactInstruction) (r₁ r₂ : List AccountInfo) : Prop :=
  ∀ i ∈ compact.programIdIndex :: compact.accountIndexes, r₁[i.toNat]? = r₂[i.toNat]?

theorem SameReferenced.at (h : SameReferenced compacts r₁ r₂) (hc : compact ∈ compacts) : SameAt compact r₁ r₂ :=
  fun i hi => h i (index_mem hc hi)

theorem referencedAccounts_congr (h : SameAt compact r₁ r₂) (parts : ByteSeq.Bytes) :
    referencedAccounts r₁ parts compact = referencedAccounts r₂ parts compact := by
  apply foldlM_congr
  intro parts i hi
  rw [referencedAccount, referencedAccount, h i hi]

/-- The message that the passkey signs. -/
theorem executeMessageHash_congr (rt : Runtime) (slotHash : ByteSeq.Bytes) (h : SameReferenced compacts r₁ r₂) :
    executeMessageHash rt slotHash r₁ compacts = executeMessageHash rt slotHash r₂ compacts := by
  have hloop : compacts.foldlM (referencedAccounts r₁) [] = compacts.foldlM (referencedAccounts r₂) [] :=
    foldlM_congr (fun parts compact hc => referencedAccounts_congr (h.at hc) parts) []
  rw [executeMessageHash, executeMessageHash, hashReferencedAccountsInfos, hashReferencedAccountsInfos, hloop]

theorem verifyExecute_congr (rt : Runtime) (accounts : Execute) (args : Secp256r1VerifyArgs) (slotNumber : UInt64)
    (bank : Bank) (h : SameReferenced compacts r₁ r₂) :
    verifyExecute rt accounts r₁ compacts args slotNumber bank =
      verifyExecute rt accounts r₂ compacts args slotNumber bank := by
  unfold verifyExecute
  simp only [executeMessageHash_congr rt _ h]

variable {wallet : Pubkey} {bank : Bank}

theorem AccountConstraint.matches_congr (c : AccountConstraint) (h : SameAt compact r₁ r₂) :
    c.matches compact bank r₁ wallet = c.matches compact bank r₂ wallet := by
  unfold AccountConstraint.matches
  cases hi : compact.accountIndexes[c.index.toNat]? with
  | none => rfl
  | some index =>
    have hindex := h index (List.mem_cons_of_mem _ (List.mem_of_getElem? hi))
    simp only [hindex]

theorem checkProgramPermissions_congr (permissions : Option (List ProgramPermission)) (program : Pubkey)
    (h : SameAt compact r₁ r₂) : checkProgramPermissions permissions program compact bank r₁ wallet =
      checkProgramPermissions permissions program compact bank r₂ wallet := by
  unfold checkProgramPermissions checkInstruction InstructionRule.matches
  simp only [AccountConstraint.matches_congr _ h]

/-- What is built for one compact instruction. -/
theorem prepareInstruction_congr (programId : Pubkey) (protectedAccounts : List Pubkey)
    (permissions : Option (List ProgramPermission)) (h : SameAt compact r₁ r₂) :
    prepareInstruction programId wallet protectedAccounts r₁ permissions bank compact =
      prepareInstruction programId wallet protectedAccounts r₂ permissions bank compact := by
  have hmetas : compact.accountIndexes.foldlM (pushMeta wallet protectedAccounts r₁) [] =
      compact.accountIndexes.foldlM (pushMeta wallet protectedAccounts r₂) [] := by
    apply foldlM_congr
    intro metas i hi
    rw [pushMeta, pushMeta, h i (List.mem_cons_of_mem _ hi)]
  unfold prepareInstruction
  rw [h compact.programIdIndex List.mem_cons_self, hmetas]
  simp only [checkProgramPermissions_congr permissions _ h]

theorem issueInstructions_congr (rt : Runtime) (seeds : List ByteSeq.Bytes)
    {prepare₁ prepare₂ : Bank → CompactInstruction → Result Instruction} (bank : Bank)
    (h : ∀ b, ∀ compact ∈ compacts, prepare₁ b compact = prepare₂ b compact) :
    issueInstructions rt seeds prepare₁ bank compacts = issueInstructions rt seeds prepare₂ bank compacts := by
  induction compacts generalizing bank with
  | nil => rfl
  | cons compact rest ih =>
    have ih' := fun b => ih b fun b c hc => h b c (List.mem_cons_of_mem _ hc)
    rw [issueInstructions, issueInstructions, h bank compact List.mem_cons_self]
    simp only [ih']

/-- The CPIs. -/
theorem executeCompactInstructions_congr (rt : Runtime) (programId wallet : Pubkey) (walletBump : UInt8) (token : Pubkey)
    (protectedAccounts : List Pubkey) (permissions : Option (List ProgramPermission)) (bank : Bank)
    (h : SameReferenced compacts r₁ r₂) :
    executeCompactInstructions rt programId wallet walletBump token protectedAccounts r₁ compacts permissions bank =
      executeCompactInstructions rt programId wallet walletBump token protectedAccounts r₂ compacts permissions bank := by
  unfold executeCompactInstructions issueCompactInstructions
  rw [issueInstructions_congr rt _ bank fun b compact hc =>
    prepareInstruction_congr programId protectedAccounts permissions (h.at hc)]

end Congr

/-! ## What the CPIs leave alone -/

/-- A CPI changes only accounts that it passes as writable. -/
def Runtime.WritesOnlyWritable (rt : Runtime) : Prop :=
  ∀ ix seeds before after, rt.invokeSigned ix seeds before = .ok after →
    ∀ k, (∀ m ∈ ix.accounts, m.pubkey = k → m.isWritable = false) → after k = before k

theorem issueInstructions_frame {rt : Runtime} (hrt : rt.WritesOnlyWritable) {seeds : List ByteSeq.Bytes}
    {prepare : Bank → CompactInstruction → Result Instruction} {k : Pubkey}
    (hprep : ∀ b, ∀ compact ∈ compacts, ∀ ix, prepare b compact = .ok ix →
      ∀ m ∈ ix.accounts, m.pubkey = k → m.isWritable = false) {before after : Bank}
    (h : (issueInstructions rt seeds prepare before compacts).result = .ok after) : after k = before k := by
  induction compacts generalizing before with
  | nil =>
    cases h
    rfl
  | cons compact rest ih =>
    rw [issueInstructions] at h
    cases hp : prepare before compact with
    | error e => simp [hp] at h
    | ok ix =>
      simp only [hp] at h
      cases hcpi : rt.invokeSigned ix seeds before with
      | error e => simp [hcpi] at h
      | ok next =>
        simp only [hcpi] at h
        rw [ih (fun b c hc => hprep b c (List.mem_cons_of_mem _ hc)) h]
        exact hrt ix seeds before next hcpi k (hprep before compact List.mem_cons_self ix hp)

/-- The accounts that no compact instruction names, and the protected ones, stay as they are. -/
theorem executeCompactInstructions_frame {rt : Runtime} (hrt : rt.WritesOnlyWritable) {programId wallet : Pubkey}
    {walletBump : UInt8} {token : Pubkey} {protectedAccounts : List Pubkey}
    {permissions : Option (List ProgramPermission)} {before after : Bank}
    (h : executeCompactInstructions rt programId wallet walletBump token protectedAccounts remaining compacts permissions
      before = .ok after) {k : Pubkey} (hk : k ∉ referencedKeys compacts remaining ∨ k ∈ protectedAccounts) :
    after k = before k := by
  simp only [executeCompactInstructions, bind_eq_ok, pure_eq_ok] at h
  obtain ⟨bank', hrun, _, -, rfl⟩ := h
  refine issueInstructions_frame hrt (fun b compact hc ix hprep m hm hmk => ?_) hrun
  obtain ⟨hbuilt, -, hu⟩ := prepareInstruction_iff.1 hprep
  obtain ⟨index, hindex, ai, hget, rfl⟩ := (mem_builtInstruction hbuilt).1 hm
  have hkey : ai.key = k := hmk
  rcases hk with hk | hk
  · have hmem := mem_referencedKeys (index_mem hc (List.mem_cons_of_mem _ hindex)) hget
    exact absurd (hkey ▸ hmem) hk
  · obtain ⟨program, -, hbuilt⟩ := Option.bind_eq_some_iff.1 hbuilt
    obtain ⟨ais, hres, -⟩ := Option.bind_eq_some_iff.1 hbuilt
    exact (hu ais hres ai ((mem_resolveAccounts hres).2 ⟨index, hindex, hget⟩) (hkey ▸ hk)).2

/-! ## The measure of two lists -/

/-- The same amount is charged to the SOL cap and to every mint cap. -/
structure SameCharges (c₁ c₂ : Charges) : Prop where
  sol : c₁.solSpent = c₂.solSpent
  mint : ∀ slot, spentOn c₁.mintSpent slot = spentOn c₂.mintSpent slot

section Measure

variable {sol : SpendCap} {mintCaps : List MintCap} {permissions : List ProgramPermission} {wallet : Pubkey}
  {before after : Bank} {keys named : Finset Pubkey} {c₁ c₂ : Charges}

theorem mintLoss_of_eq {k : Pubkey} (h : after k = before k) (slot : Nat) :
    mintLoss mintCaps wallet before after slot k = 0 := by
  unfold mintLoss
  cases hv : spendableView wallet before k with
  | none => rfl
  | some v =>
    rw [amountAt_congr h, amountAt_of_view (spendableView_eq_some.1 hv).1]
    simp

theorem uncapped_of_eq {k : Pubkey} {chargeSol : Bool} (h : after k = before k) :
    Uncapped mintCaps chargeSol wallet before after k := by
  intro v hv _ _
  rw [amountAt_congr h, amountAt_of_view (spendableView_eq_some.1 hv).1]

/-- The keys that are not named lose nothing. -/
theorem sum_mintLoss_named (hsub : named ⊆ keys) (hframe : ∀ k, k ∉ named → after k = before k) (slot : Nat) :
    ∑ k ∈ keys, mintLoss mintCaps wallet before after slot k =
      ∑ k ∈ named, mintLoss mintCaps wallet before after slot k :=
  (Finset.sum_subset hsub fun k _ hk => mintLoss_of_eq (hframe k hk) slot).symm

theorem wsolAmount_congr {k : Pubkey} (h : after k = before k) : wsolAmount wallet after k = wsolAmount wallet before k := by
  rw [wsolAmount, wsolAmount, ownedView_congr h]

/-- The keys that are not named hold the same wrapped SOL before and after. -/
theorem solHoldings_named (wallet : Pubkey) (hsub : named ⊆ keys) (hframe : ∀ k, k ∉ named → after k = before k) :
    ∃ rest, solHoldings wallet before keys = solHoldings wallet before named + rest ∧
      solHoldings wallet after keys = solHoldings wallet after named + rest := by
  refine ⟨∑ k ∈ keys \ named, (wsolAmount wallet before k).toNat, ?_, ?_⟩
  · rw [solHoldings, ← Finset.sum_sdiff hsub, solHoldings]
    omega
  · have hrest : ∑ k ∈ keys \ named, (wsolAmount wallet after k).toNat =
        ∑ k ∈ keys \ named, (wsolAmount wallet before k).toNat := by
      apply Finset.sum_congr rfl
      intro k hk
      rw [wsolAmount_congr (hframe k (Finset.mem_sdiff.1 hk).2)]
    rw [solHoldings, ← Finset.sum_sdiff hsub, hrest, solHoldings]
    omega

/-- What a measure finds is a matter of the named keys. -/
theorem Measured.spent_named (h : Measured sol mintCaps wallet before after keys c₁) (hsub : named ⊆ keys)
    (hframe : ∀ k, k ∉ named → after k = before k)
    (hfit : solHoldings wallet before keys < 2 ^ 64 ∧ solHoldings wallet after keys < 2 ^ 64) :
    c₁.solSpent.toNat = solTotal wallet sol.isActive before named - solTotal wallet sol.isActive after named ∧
      ∀ slot, (spentOn c₁.mintSpent slot).toNat = ∑ k ∈ named, mintLoss mintCaps wallet before after slot k := by
  refine ⟨?_, fun slot => by rw [h.spent, sum_mintLoss_named hsub hframe]⟩
  cases ha : sol.isActive with
  | true =>
    obtain ⟨rest, hb, hf⟩ := solHoldings_named wallet hsub hframe
    rw [h.solSpent_eq ha hfit.1 hfit.2, hb, hf, solTotal_true, solTotal_true]
    omega
  | false => rw [h.solSpent_lamports ha, solTotal_false, solTotal_false]

/-- **Two lists measure the same.** -/
theorem Measured.sameCharges (h₁ : Measured sol mintCaps wallet before after (listedKeys r₁) c₁)
    (h₂ : Measured sol mintCaps wallet before after (listedKeys r₂) c₂)
    (hsub₁ : named ⊆ listedKeys r₁) (hsub₂ : named ⊆ listedKeys r₂) (hframe : ∀ k, k ∉ named → after k = before k)
    (hfit₁ : solHoldings wallet before (listedKeys r₁) < 2 ^ 64 ∧ solHoldings wallet after (listedKeys r₁) < 2 ^ 64)
    (hfit₂ : solHoldings wallet before (listedKeys r₂) < 2 ^ 64 ∧ solHoldings wallet after (listedKeys r₂) < 2 ^ 64) :
    SameCharges c₁ c₂ := by
  obtain ⟨hsol₁, hmint₁⟩ := h₁.spent_named hsub₁ hframe hfit₁
  obtain ⟨hsol₂, hmint₂⟩ := h₂.spent_named hsub₂ hframe hfit₂
  refine ⟨UInt64.toNat_inj.1 (hsol₁.trans hsol₂.symm), fun slot => ?_⟩
  exact UInt64.toNat_inj.1 ((hmint₁ slot).trans (hmint₂ slot).symm)

/-- **Or one list fails a control check.** -/
theorem Measured.control_of_error (h₁ : Measured sol mintCaps wallet before after (listedKeys r₁) c₁)
    (hsub₁ : named ⊆ listedKeys r₁) (hsub₂ : named ⊆ listedKeys r₂) (hframe : ∀ k, k ∉ named → after k = before k)
    {e : Failure}
    (h₂ : measureDeltas wallet after r₂ (snapshotOf sol mintCaps permissions wallet before r₂) = .error e) :
    IsControlError e := by
  rcases measureDeltas_error h₂ with hc | ⟨-, ⟨hl, k, -, hu⟩ | ⟨slot, hover⟩⟩
  · exact hc
  · by_cases hk : k ∈ named
    · exact absurd (h₁.uncapped hl k (hsub₁ hk)) hu
    · exact absurd (uncapped_of_eq (hframe k hk)) hu
  · -- the same loss has been recorded in 64 bits by the first measure
    rw [sum_mintLoss_named hsub₂ hframe, ← sum_mintLoss_named hsub₁ hframe, ← h₁.spent] at hover
    have := (spentOn c₁.mintSpent slot).toNat_lt
    omega

/-- The same charges give the same policy. -/
theorem applyCharges_congr {policyData policyData' : ByteSeq.Bytes} {now : Int64}
    (hread : readPolicyMut policyData = .ok (sol, mintCaps))
    (h₁ : Measured sol mintCaps wallet before after (listedKeys r₁) c₁)
    (h₂ : Measured sol mintCaps wallet before after (listedKeys r₂) c₂) (hsame : SameCharges c₁ c₂)
    (happly : applyCharges policyData (snapshotOf sol mintCaps permissions wallet before r₁) c₁ now = .ok policyData') :
    applyCharges policyData (snapshotOf sol mintCaps permissions wallet before r₂) c₂ now = .ok policyData' := by
  have hlimits : sol.isActive = true → limitsActive sol mintCaps = true := fun h => by simp [limitsActive, h]
  obtain ⟨sol', mintCaps', hs, hc, rfl⟩ :=
    (applyCharges_iff hread rfl hlimits h₁.slots_lt h₁.slots_nodup).1 happly
  refine (applyCharges_iff hread rfl hlimits h₂.slots_lt h₂.slots_nodup).2 ⟨sol', mintCaps', ?_, ?_, rfl⟩
  · rw [← hsame.sol]
    exact hs
  · rw [← funext hsame.mint]
    exact hc

end Measure

/-! ## Two runs of an execute -/

/-- The same record: nothing charged without a policy, the same amounts under one. -/
def SameRecord : Option Charges → Option Charges → Prop
  | some c₁, some c₂ => SameCharges c₁ c₂
  | none, none => True
  | _, _ => False

section Run

variable [HeapSizes] {rt : Runtime} {token wallet authorityAccount : Pubkey} {walletBump : UInt8}
  {policyPresent : Bool} {bank : Bank}

/-- The SOL sums of a policied run fit in 64 bits: over the listed accounts, in the bank before the CPIs and in the one
after them. -/
def SolSumsFit (rt : Runtime) (token wallet authorityAccount : Pubkey) (walletBump : UInt8)
    (remaining : List AccountInfo) (compacts : List CompactInstruction) (before : Bank) : Prop :=
  ∀ snapshot after, checkPolicyAndSnapshot (before authorityAccount).data wallet before remaining = .ok snapshot →
    executeCompactInstructions rt crateId wallet walletBump token [token, authorityAccount] remaining compacts
      (some snapshot.programPermissions) before = .ok after →
    solHoldings wallet before (listedKeys remaining) < 2 ^ 64 ∧ solHoldings wallet after (listedKeys remaining) < 2 ^ 64

/-- What a policied run that succeeds went through. -/
theorem executePolicied_ok {x : Executed}
    (h : executePolicied rt token wallet authorityAccount walletBump true remaining compacts bank = .ok x) :
    ∃ sol mintCaps permissions after charges policyData,
      readPolicy (bank authorityAccount).data = .ok (sol, mintCaps, permissions) ∧
      executeCompactInstructions rt crateId wallet walletBump token [token, authorityAccount] remaining compacts
        (some permissions) bank = .ok after ∧
      measureDeltas wallet after remaining (snapshotOf sol mintCaps permissions wallet bank remaining) = .ok charges ∧
      applyCharges (after authorityAccount).data (snapshotOf sol mintCaps permissions wallet bank remaining) charges
        rt.unixTimestamp = .ok policyData ∧
      x = ⟨setData after authorityAccount policyData, some charges⟩ := by
  simp only [executePolicied, if_true, bind_eq_ok, pure_eq_ok] at h
  obtain ⟨snapshot, hsnap, after, hcpis, charges, hmeasure, policyData, happly, rfl⟩ := h
  obtain ⟨sol, mintCaps, permissions, hread, rfl⟩ := checkPolicyAndSnapshot_ok hsnap
  exact ⟨sol, mintCaps, permissions, after, charges, policyData, hread, hcpis, hmeasure, happly, rfl⟩

/-- **A second list.** Where one list is accepted, another that agrees at the named indexes gives the same bank and the
same charges, or fails a control check. -/
theorem executePolicied_agree (hrt : rt.WritesOnlyWritable) (hsame : SameReferenced compacts r₁ r₂)
    (hfit : policyPresent = true → SolSumsFit rt token wallet authorityAccount walletBump r₁ compacts bank ∧
      SolSumsFit rt token wallet authorityAccount walletBump r₂ compacts bank) {x₁ : Executed}
    (h₁ : executePolicied rt token wallet authorityAccount walletBump policyPresent r₁ compacts bank = .ok x₁) :
    (∃ x₂, executePolicied rt token wallet authorityAccount walletBump policyPresent r₂ compacts bank = .ok x₂ ∧
      x₁.bank = x₂.bank ∧ SameRecord x₁.charges x₂.charges) ∨
    ∃ e, executePolicied rt token wallet authorityAccount walletBump policyPresent r₂ compacts bank = .error e ∧
      IsControlError e := by
  cases policyPresent with
  | false =>
    -- without a policy nothing looks at the list besides the CPIs
    simp only [executePolicied, Bool.false_eq_true, if_false] at h₁ ⊢
    rw [executeCompactInstructions_congr rt crateId wallet walletBump token _ none bank hsame] at h₁
    obtain ⟨after, hcpis, hret⟩ := bind_eq_ok.1 h₁
    cases hret
    exact Or.inl ⟨⟨after, none⟩, by rw [hcpis]; rfl, rfl, trivial⟩
  | true =>
    obtain ⟨sol, mintCaps, permissions, after, c₁, policyData, hread, hcpis₁, hmeasure₁, happly₁, rfl⟩ :=
      executePolicied_ok h₁
    have hcpis₂ := executeCompactInstructions_congr rt crateId wallet walletBump token
      [token, authorityAccount] (some permissions) bank hsame
    rw [hcpis₁] at hcpis₂
    have hsnap := fun r => checkPolicyAndSnapshot_eq hread wallet bank r
    have hframe : ∀ k, k ∉ referencedKeys compacts r₁ → after k = bank k := fun k hk =>
      executeCompactInstructions_frame hrt hcpis₁ (Or.inl hk)
    have hpolicy : after authorityAccount = bank authorityAccount :=
      executeCompactInstructions_frame hrt hcpis₁ (Or.inr (by simp))
    have hsub₁ : referencedKeys compacts r₁ ⊆ listedKeys r₁ := referencedKeys_subset
    have hsub₂ : referencedKeys compacts r₁ ⊆ listedKeys r₂ := by
      rw [referencedKeys_congr hsame]
      exact referencedKeys_subset
    have hm₁ := measureDeltas_ok hmeasure₁
    have hrun₂ : executePolicied rt token wallet authorityAccount walletBump true r₂ compacts bank = (do
        let charges ← measureDeltas wallet after r₂ (snapshotOf sol mintCaps permissions wallet bank r₂)
        let policyData ← applyCharges (after authorityAccount).data
          (snapshotOf sol mintCaps permissions wallet bank r₂) charges rt.unixTimestamp
        return { bank := setData after authorityAccount policyData, charges := some charges }) := by
      simp only [executePolicied, if_true, hsnap, ok_bind]
      have hperm : (snapshotOf sol mintCaps permissions wallet bank r₂).programPermissions = permissions := rfl
      rw [hperm, ← hcpis₂, ok_bind]
    cases hmeasure₂ : measureDeltas wallet after r₂ (snapshotOf sol mintCaps permissions wallet bank r₂) with
    | error e =>
      rw [hrun₂, hmeasure₂]
      exact Or.inr ⟨e, rfl, hm₁.control_of_error hsub₁ hsub₂ hframe hmeasure₂⟩
    | ok c₂ =>
      have hm₂ := measureDeltas_ok hmeasure₂
      have hcharges : SameCharges c₁ c₂ := hm₁.sameCharges hm₂ hsub₁ hsub₂ hframe
        ((hfit rfl).1 _ after (hsnap r₁) hcpis₁) ((hfit rfl).2 _ after (hsnap r₂) hcpis₂.symm)
      rw [hpolicy] at happly₁
      have happly₂ := applyCharges_congr (readPolicyMut_of_readPolicy hread) hm₁ hm₂ hcharges happly₁
      rw [hrun₂, hmeasure₂, ok_bind, hpolicy, happly₂]
      exact Or.inl ⟨_, rfl, rfl, hcharges⟩

end Run

/-- **The relayer cannot change the charge.** Of two runs of one execute whose lists agree at the named indexes, both
succeed with the same bank and the same charges, or one is rejected by a control check, or both are rejected; so no
refusal by the meter becomes an acceptance. -/
theorem relayer_cannot_change_charge [HeapSizes] {rt : Runtime} (hrt : rt.WritesOnlyWritable) {accounts : Execute}
    {compacts : List CompactInstruction} {args : Secp256r1VerifyArgs} {slotNumber : UInt64} {bank : Bank}
    {r₁ r₂ : List AccountInfo} (hsame : SameReferenced compacts r₁ r₂)
    (hfit : ∀ header before, verifyExecute rt accounts r₁ compacts args slotNumber bank = .ok (header, true, before) →
      ∀ r ∈ [r₁, r₂], SolSumsFit rt accounts.phygitalToken.key accounts.wallet.key accounts.authorityAccount.key
        header.walletBump r compacts before) :
    let run := fun r => execute rt accounts r compacts args slotNumber bank
    (∀ x₁ x₂, run r₁ = .ok x₁ → run r₂ = .ok x₂ → x₁.bank = x₂.bank ∧ SameRecord x₁.charges x₂.charges) ∧
    (∀ x₁ e, run r₁ = .ok x₁ → run r₂ = .error e → IsControlError e) ∧
    (∀ x₂ e, run r₂ = .ok x₂ → run r₁ = .error e → IsControlError e) ∧
    ∀ e, IsSpendError e → (run r₁ = .error e → ∀ x, run r₂ ≠ .ok x) ∧ (run r₂ = .error e → ∀ x, run r₁ ≠ .ok x) := by
  intro run
  have hverify := verifyExecute_congr rt accounts args slotNumber bank hsame
  -- either list may come first
  have hagree : ∀ r r', r ∈ [r₁, r₂] → r' ∈ [r₁, r₂] → SameReferenced compacts r r' → ∀ x, run r = .ok x →
      (∃ x', run r' = .ok x' ∧ x.bank = x'.bank ∧ SameRecord x.charges x'.charges) ∨
        ∃ e, run r' = .error e ∧ IsControlError e := by
    intro r r' hr hr' hs x hx
    have hv : ∀ q ∈ [r₁, r₂], verifyExecute rt accounts q compacts args slotNumber bank =
        verifyExecute rt accounts r₁ compacts args slotNumber bank := by
      intro q hq
      rcases List.mem_pair.1 hq with rfl | rfl
      · rfl
      · exact hverify.symm
    simp only [run, execute, hv r hr, hv r' hr'] at hx ⊢
    obtain ⟨⟨header, policyPresent, before⟩, hverified, hx⟩ := bind_eq_ok.1 hx
    simp only [hverified, ok_bind]
    refine executePolicied_agree hrt hs (fun hp => ?_) hx
    subst hp
    exact ⟨hfit header before hverified r hr, hfit header before hverified r' hr'⟩
  have h₁₂ := hagree r₁ r₂ (by simp) (by simp) hsame
  have h₂₁ := hagree r₂ r₁ (by simp) (by simp) hsame.symm
  have hcontrol : ∀ r r', (∀ x, run r = .ok x → (∃ x', run r' = .ok x' ∧ x.bank = x'.bank ∧
      SameRecord x.charges x'.charges) ∨ ∃ e, run r' = .error e ∧ IsControlError e) →
      ∀ x e, run r = .ok x → run r' = .error e → IsControlError e := by
    intro r r' h x e hx he
    rcases h x hx with ⟨x', hx', -⟩ | ⟨e', he', hc⟩
    · rw [hx'] at he
      cases he
    · rw [he'] at he
      cases he
      exact hc
  have hspend : ∀ e, IsSpendError e → ¬IsControlError e := by
    rintro e (rfl | rfl) (h | h) <;> cases h
  refine ⟨fun x₁ x₂ hx₁ hx₂ => ?_, hcontrol r₁ r₂ h₁₂, hcontrol r₂ r₁ h₂₁, fun e he => ⟨fun h x hx => ?_, fun h x hx => ?_⟩⟩
  · rcases h₁₂ x₁ hx₁ with ⟨x', hx', hbank, hcharges⟩ | ⟨e, he, -⟩
    · rw [hx'] at hx₂
      cases hx₂
      exact ⟨hbank, hcharges⟩
    · rw [he] at hx₂
      cases hx₂
  · exact hspend e he (hcontrol r₂ r₁ h₂₁ x e hx h)
  · exact hspend e he (hcontrol r₁ r₂ h₁₂ x e hx h)

/-! ## A transfer with and without an extra account -/

/-- The System program's `Transfer`. -/
def systemTransfer (ix : Instruction) (bank : Bank) : Result Bank :=
  match ix.accounts, ix.data with
  | [source, destination], 2 :: 0 :: 0 :: 0 :: amount =>
    if source.isSigner = true ∧ source.isWritable = true ∧ destination.isWritable = true ∧ amount.length = 8
        ∧ u64Of amount ≤ (bank source.pubkey).lamports then
      let paid := Function.update bank source.pubkey
        { bank source.pubkey with lamports := (bank source.pubkey).lamports - u64Of amount }
      .ok (Function.update paid destination.pubkey
        { paid destination.pubkey with lamports := (paid destination.pubkey).lamports + u64Of amount })
    else .error (.external 1)
  | _, _ => .error (.external 2)

/-- A runtime where every CPI is a System transfer, and the authority account is at one address. -/
def transferRuntime : Runtime :=
  { idleRuntime with
    createProgramAddress := fun _ _ => some (.fill 7)
    invokeSigned := fun ix _ bank => systemTransfer ix bank }

theorem transferRuntime_writes : transferRuntime.WritesOnlyWritable := by
  intro ix seeds before after h k hk
  change systemTransfer ix before = .ok after at h
  unfold systemTransfer at h
  split at h
  · next source destination amount haccounts hdata =>
    split at h
    · next hc =>
      cases h
      have hne : ∀ m ∈ [source, destination], m.isWritable = true → k ≠ m.pubkey := by
        rintro m hm hw rfl
        rw [hk m (haccounts ▸ hm) rfl] at hw
        cases hw
      rw [Function.update_of_ne (hne destination (by simp) hc.2.2.1), Function.update_of_ne (hne source (by simp) hc.2.1)]
    · cases h
  · cases h

/-- The header of the authority account in the example. -/
def transferHeader : AuthorityHeader := ⟨.fill 6, .fill 8, .fill 5, 255, 254, authorityVersion, walletPolicyVersion, 0⟩

/-- A token, its wallet with 100 lamports, an authority account with a SOL cap of 50, one slot hash. -/
def transferBank : Bank := fun k =>
  if k = .fill 8 then
    ⟨1, phygitalTokenId, List.replicate 8 0 ++ (Pubkey.fill 9).bytes ++ List.replicate 36 0 ++ [0, 1]⟩
  else if k = .fill 9 then ⟨100, systemProgramId, []⟩
  else if k = .fill 7 then
    ⟨1, crateId, policyBytes (discriminator ++ encodeHeader transferHeader) (lifetimeCap 50 50) [] [0, 0, 0, 0]⟩
  else if k = slotHashesSysvarId then
    ⟨1, systemProgramId, ByteSeq.toLE 8 1 ++ ByteSeq.toLE 8 3 ++ List.replicate 32 4⟩
  else ⟨0, systemProgramId, []⟩

def transferAccounts : Execute :=
  ⟨⟨.fill 8, false, true⟩, ⟨.fill 9, false, true⟩, ⟨.fill 7, false, true⟩, ⟨slotHashesSysvarId, false, false⟩,
    ⟨instructionsSysvarId, false, false⟩, ⟨phygitalTokenId, false, false⟩⟩

/-- 30 lamports from the wallet. -/
def transferInstruction : CompactInstruction := ⟨0, [1, 2], [2, 0, 0, 0, 30, 0, 0, 0, 0, 0, 0, 0]⟩

def transferRemaining (extra : List AccountInfo) : List AccountInfo :=
  [⟨systemProgramId, false, false⟩, ⟨.fill 9, false, true⟩, ⟨.fill 1, false, true⟩] ++ extra

/-- What an intermediate result shows when the run that contains it is evaluated. -/
theorem eq_of_map_eq_ok {α β : Type} {x : Result α} {f : α → β} {a : α} {b : β} (hx : x = .ok a)
    (h : x.map f = .ok b) : f a = b := by
  rw [hx] at h
  exact Except.ok.inj h

theorem exists_of_map_eq_ok {α β : Type} {x : Result α} {f : α → β} {b : β} (h : x.map f = .ok b) :
    ∃ a, x = .ok a ∧ f a = b := by
  cases x with
  | error e => cases h
  | ok a => exact ⟨a, rfl, Except.ok.inj h⟩

/-- A `Verify` that changes nothing. -/
theorem verifyExecute_bank {rt : Runtime} (hidle : ∀ k args message bank, rt.verify k args message bank = .ok bank)
    {accounts : Execute} {args : Secp256r1VerifyArgs} {slotNumber : UInt64} {bank before : Bank}
    {header : AuthorityHeader} {policyPresent : Bool}
    (h : verifyExecute rt accounts remaining compacts args slotNumber bank = .ok (header, policyPresent, before)) :
    before = bank := by
  simp only [verifyExecute, bind_eq_ok, hidle, pure_eq_ok, Except.ok.injEq, Prod.mk.injEq] at h
  obtain ⟨_, -, _, -, _, -, _, -, _, -, _, -, _, -, b, hb, -, -, rfl⟩ := h
  exact hb.symm

/-- The example's sums fit, with any extra account that is one of the two here. -/
theorem transfer_fits {extra : List AccountInfo} (hextra : extra = [] ∨ extra = [⟨.fill 2, false, false⟩]) :
    @SolSumsFit targetHeapSizes transferRuntime (.fill 8) (.fill 9) (.fill 7) 254 (transferRemaining extra)
      [transferInstruction] transferBank := by
  intro snapshot after hsnap hcpis
  have hperm : snapshot.programPermissions = [] := by
    refine eq_of_map_eq_ok (f := PolicySnapshot.programPermissions) hsnap ?_
    rcases hextra with rfl | rfl <;> decide +kernel
  rw [hperm] at hcpis
  have hafter : solHoldings (.fill 9) after (listedKeys (transferRemaining extra)) = 70 := by
    refine eq_of_map_eq_ok (f := fun b => solHoldings (.fill 9) b (listedKeys (transferRemaining extra))) hcpis ?_
    rcases hextra with rfl | rfl <;> decide +kernel
  have hbefore : solHoldings (.fill 9) transferBank (listedKeys (transferRemaining extra)) = 100 := by
    rcases hextra with rfl | rfl <;> decide +kernel
  omega

theorem relayer_cannot_change_charge_transfer : ∃ x₁ x₂ : Executed,
    @execute targetHeapSizes transferRuntime transferAccounts (transferRemaining []) [transferInstruction] ⟨0, 0, []⟩ 3
      transferBank = .ok x₁ ∧
    @execute targetHeapSizes transferRuntime transferAccounts (transferRemaining [⟨.fill 2, false, false⟩])
      [transferInstruction] ⟨0, 0, []⟩ 3 transferBank = .ok x₂ ∧
    x₁.charges = some ⟨30, []⟩ ∧ x₁.bank = x₂.bank ∧ SameRecord x₁.charges x₂.charges := by
  let _ := targetHeapSizes
  have hrun₁ : (execute transferRuntime transferAccounts (transferRemaining []) [transferInstruction] ⟨0, 0, []⟩ 3
      transferBank).map Executed.charges = .ok (some ⟨30, []⟩) := by decide +kernel
  have hrun₂ : (execute transferRuntime transferAccounts (transferRemaining [⟨.fill 2, false, false⟩])
      [transferInstruction] ⟨0, 0, []⟩ 3 transferBank).map Executed.charges = .ok (some ⟨30, []⟩) := by decide +kernel
  obtain ⟨x₁, hx₁, hc₁⟩ := exists_of_map_eq_ok hrun₁
  obtain ⟨x₂, hx₂, -⟩ := exists_of_map_eq_ok hrun₂
  have hsame : SameReferenced [transferInstruction] (transferRemaining []) (transferRemaining [⟨.fill 2, false, false⟩]) := by
    unfold SameReferenced
    decide +kernel
  have h := @relayer_cannot_change_charge targetHeapSizes transferRuntime transferRuntime_writes transferAccounts
    [transferInstruction] ⟨0, 0, []⟩ 3 transferBank _ _ hsame fun header before hv r hr => by
      have hheader : header.walletBump = 254 := by
        refine eq_of_map_eq_ok (f := fun v => v.1.walletBump) hv ?_
        decide +kernel
      obtain rfl := verifyExecute_bank (fun _ _ _ _ => rfl) hv
      rw [hheader]
      rcases List.mem_pair.1 hr with rfl | rfl
      · exact transfer_fits (Or.inl rfl)
      · exact transfer_fits (Or.inr rfl)
  exact ⟨x₁, x₂, hx₁, hx₂, hc₁, h.1 x₁ x₂ hx₁ hx₂⟩

end PhygitalWallet
