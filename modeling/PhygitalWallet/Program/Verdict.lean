import PhygitalWallet.Lib.Agreement
import PhygitalWallet.Program.Binding

/-!
# One verdict over two lists (`utils/policy.rs`, `utils/compact.rs`, `instructions/execute.rs`)

`executePolicied` over two lists of remaining accounts with the same keys, in two states that agree on these keys. The
meter reads keys only; the gate and the CPIs read the metas that the named accounts become.

- `checkPolicyAndSnapshot_agree`, `measureDeltas_agree`: the meter;
- `prepareInstruction_agree`, `issueInstructions_agree`: the gate and the CPIs;
- `executePolicied_same`: from the snapshot to the charge;
- `executePolicied_privileged`: a protected account with a privilege fails every run;
- `executePolicied_screened`: the runs of a runtime whose CPIs only refuse.
-/

namespace PhygitalWallet

open Agreement ListLoop

/-- A CPI reads and writes only what it is given. -/
def Runtime.Local (rt : Runtime) : Prop :=
  ∀ (ix : Instruction) (seeds : List ByteSeq.Bytes) (keys : Set Pubkey) (before₁ before₂ : Bank), ix.programId ∈ keys →
    (∀ m ∈ ix.accounts, m.pubkey ∈ keys) → Set.EqOn before₁ before₂ keys →
    Agree (fun after₁ after₂ => Set.EqOn after₁ after₂ keys) (rt.invokeSigned ix seeds before₁)
      (rt.invokeSigned ix seeds before₂)

/-- What two executions leave, as far as the keys go. -/
def SameExecuted (keys : Set Pubkey) (x₁ x₂ : Executed) : Prop :=
  Set.EqOn x₁.bank x₂.bank keys ∧ x₁.charges = x₂.charges

section Lists

variable {r₁ r₂ : List AccountInfo} {b₁ b₂ : Bank} {keys : Set Pubkey} {wallet : Pubkey} {compact : CompactInstruction}

/-- Two lists with the same keys, item by item. -/
theorem forall₂_of_keys (hkeys : r₁.map AccountInfo.key = r₂.map AccountInfo.key) (hmem : ∀ ai ∈ r₁, ai.key ∈ keys) :
    List.Forall₂ (fun x y => x.key = y.key ∧ x.key ∈ keys) r₁ r₂ := by
  have hrel : List.Forall₂ Eq (r₁.map AccountInfo.key) (r₂.map AccountInfo.key) := by
    rw [List.forall₂_eq_eq_eq]
    exact hkeys
  rw [List.forall₂_map_left_iff, List.forall₂_map_right_iff] at hrel
  have hand := (List.forall₂_and_left (p := fun ai => ai ∈ r₁) _ _).2 ⟨fun _ h => h, hrel⟩
  exact hand.imp fun x y h => ⟨h.2, hmem x h.1⟩

theorem isDup_of_keys (hkeys : r₁.map AccountInfo.key = r₂.map AccountInfo.key) {x y : AccountInfo}
    (hxy : x.key = y.key) (i : Nat) : isDup AccountInfo.key r₁ x i = isDup AccountInfo.key r₂ y i := by
  have hmap : ∀ (r : List AccountInfo) (ai : AccountInfo), isDup AccountInfo.key r ai i =
      ((r.map AccountInfo.key).take i).any fun k => decide (k = ai.key) := by
    intro r ai
    rw [isDup, ← List.map_take, List.any_map]
    rfl
  rw [hmap, hmap, hkeys, hxy]

theorem getElem?_key (hkeys : r₁.map AccountInfo.key = r₂.map AccountInfo.key) (i : Nat) :
    (r₁[i]?).map AccountInfo.key = (r₂[i]?).map AccountInfo.key := by
  rw [← List.getElem?_map, hkeys, List.getElem?_map]

/-! ## The meter -/

section Sizes

variable [HeapSizes]

theorem checkPolicyAndSnapshot_agree (hkeys : r₁.map AccountInfo.key = r₂.map AccountInfo.key)
    (hmem : ∀ ai ∈ r₁, ai.key ∈ keys) (hbank : Set.EqOn b₁ b₂ keys) (hwallet : wallet ∈ keys) (policyData : Bytes) :
    checkPolicyAndSnapshot policyData wallet b₁ r₁ = checkPolicyAndSnapshot policyData wallet b₂ r₂ := by
  have hloop : ∀ mintCaps snapshot, r₁.zipIdx.foldl (snapshotAccount mintCaps wallet b₁ r₁) snapshot =
      r₂.zipIdx.foldl (snapshotAccount mintCaps wallet b₂ r₂) snapshot := by
    intro mintCaps snapshot
    refine foldl_forall₂ (forall₂_zipIdx (forall₂_of_keys hkeys hmem) 0) ?_ snapshot
    rintro snapshot ⟨x, i⟩ ⟨y, j⟩ ⟨⟨hxy, hx⟩, hij⟩
    dsimp only at hxy hx hij
    subst hij
    unfold snapshotAccount
    simp only [hbank hx, isDup_of_keys hkeys hxy i]
    rw [hxy]
  unfold checkPolicyAndSnapshot
  simp only [hbank hwallet, hloop]

end Sizes

/-- One tracked account after the CPIs. -/
theorem measureTracked_agree (hkeys : r₁.map AccountInfo.key = r₂.map AccountInfo.key) (hmem : ∀ ai ∈ r₁, ai.key ∈ keys)
    (hbank : Set.EqOn b₁ b₂ keys) (snapshot : PolicySnapshot) (mintSpent : List (Nat × UInt64))
    (tracked : TrackedAccount) : measureTracked wallet b₁ r₁ snapshot mintSpent tracked =
      measureTracked wallet b₂ r₂ snapshot mintSpent tracked := by
  have hat := getElem?_key hkeys tracked.remainingIndex
  unfold measureTracked
  cases h₁ : r₁[tracked.remainingIndex]? with
  | none =>
    rw [h₁, Option.map_none, eq_comm, Option.map_eq_none_iff] at hat
    rw [hat]
    rfl
  | some x =>
    rw [h₁, Option.map_some, eq_comm, Option.map_eq_some_iff] at hat
    obtain ⟨y, h₂, hyx⟩ := hat
    rw [h₂]
    show (do
      if tracked.walletOwned then requireControl wallet (b₁ x.key) (tokenAccountView (b₁ x.key).data) tracked
      recordSpent snapshot mintSpent tracked _) = _
    rw [hbank (hmem x (List.mem_of_getElem? h₁)), ← hyx]
    rfl

theorem measureDeltas_agree (hkeys : r₁.map AccountInfo.key = r₂.map AccountInfo.key) (hmem : ∀ ai ∈ r₁, ai.key ∈ keys)
    (hbank : Set.EqOn b₁ b₂ keys) (hwallet : wallet ∈ keys) (snapshot : PolicySnapshot) :
    measureDeltas wallet b₁ r₁ snapshot = measureDeltas wallet b₂ r₂ snapshot := by
  have htracked : snapshot.tracked.foldlM (measureTracked wallet b₁ r₁ snapshot) [] =
      snapshot.tracked.foldlM (measureTracked wallet b₂ r₂ snapshot) [] :=
    foldlM_congr (fun mintSpent tracked _ => measureTracked_agree hkeys hmem hbank snapshot mintSpent tracked) []
  have howned : ∀ tracked key, trackedAsOwned r₁ tracked key = trackedAsOwned r₂ tracked key := by
    intro tracked key
    unfold trackedAsOwned
    simp only [getElem?_key hkeys]
  have hscan : r₁.zipIdx.foldlM (scanAccount wallet b₁ r₁ snapshot) (b₂ wallet).lamports =
      r₂.zipIdx.foldlM (scanAccount wallet b₂ r₂ snapshot) (b₂ wallet).lamports := by
    refine foldlM_forall₂ (forall₂_zipIdx (forall₂_of_keys hkeys hmem) 0) ?_ _
    rintro solAfter ⟨x, i⟩ ⟨y, j⟩ ⟨⟨hxy, hx⟩, hij⟩
    dsimp only at hxy hx hij
    subst hij
    unfold scanAccount
    simp only [hbank hx, isDup_of_keys hkeys hxy i, howned]
    rw [hxy]
  unfold measureDeltas
  rw [htracked, hbank hwallet, hscan]

/-! ## The gate -/

/-- The accounts that an instruction names are unprotected, and become the same metas from both lists. -/
structure SameMetas (wallet : Pubkey) (protectedAccounts : List Pubkey) (r₁ r₂ : List AccountInfo)
    (compact : CompactInstruction) : Prop where
  metas_eq : ∀ i ∈ compact.accountIndexes, (r₁[i.toNat]?).map (metaOf wallet) = (r₂[i.toNat]?).map (metaOf wallet)
  free : ∀ i ∈ compact.accountIndexes, ∀ ai, r₁[i.toNat]? = some ai → ai.key ∉ protectedAccounts

variable {protectedAccounts : List Pubkey}

/-- Both indexes exist or neither does. -/
theorem SameMetas.lookup (h : SameMetas wallet protectedAccounts r₁ r₂ compact) {i : UInt8}
    (hi : i ∈ compact.accountIndexes) : (r₁[i.toNat]? = none ∧ r₂[i.toNat]? = none) ∨
      ∃ x y, r₁[i.toNat]? = some x ∧ r₂[i.toNat]? = some y ∧ metaOf wallet x = metaOf wallet y ∧ x.key = y.key ∧
        x.key ∉ protectedAccounts := by
  have heq := h.metas_eq i hi
  have hfree := h.free i hi
  cases h₁ : r₁[i.toNat]? with
  | none =>
    rw [h₁, Option.map_none, eq_comm, Option.map_eq_none_iff] at heq
    exact Or.inl ⟨rfl, heq⟩
  | some x =>
    rw [h₁, Option.map_some, eq_comm, Option.map_eq_some_iff] at heq
    obtain ⟨y, h₂, hyx⟩ := heq
    exact Or.inr ⟨x, y, rfl, h₂, hyx.symm, congrArg AccountMeta.pubkey hyx.symm, hfree x h₁⟩

/-- A rule reads the metas of the accounts that the instruction names. -/
theorem AccountConstraint.matches_agree (hmem : ∀ ai ∈ r₁, ai.key ∈ keys) (hbank : Set.EqOn b₁ b₂ keys)
    (hsame : SameMetas wallet protectedAccounts r₁ r₂ compact) (c : AccountConstraint) :
    c.matches compact b₁ r₁ wallet = c.matches compact b₂ r₂ wallet := by
  unfold AccountConstraint.matches
  cases hi : compact.accountIndexes[c.index.toNat]? with
  | none => rfl
  | some index =>
    rcases hsame.lookup (List.mem_of_getElem? hi) with ⟨h₁, h₂⟩ | ⟨x, y, h₁, h₂, hmeta, hkey, -⟩
    · simp only [h₁, h₂]
    · have hsigner : (x.isSigner || decide (x.key = wallet)) = (y.isSigner || decide (y.key = wallet)) :=
        congrArg AccountMeta.isSigner hmeta
      have hwritable : x.isWritable = y.isWritable := congrArg AccountMeta.isWritable hmeta
      simp only [h₁, h₂, hsigner, hwritable, hbank (hmem x (List.mem_of_getElem? h₁))]
      rw [hkey]

theorem prepareInstruction_agree (hkeys : r₁.map AccountInfo.key = r₂.map AccountInfo.key)
    (hmem : ∀ ai ∈ r₁, ai.key ∈ keys) (hbank : Set.EqOn b₁ b₂ keys)
    (hsame : SameMetas wallet protectedAccounts r₁ r₂ compact) (programId : Pubkey)
    (permissions : Option (List ProgramPermission)) :
    prepareInstruction programId wallet protectedAccounts r₁ permissions b₁ compact =
      prepareInstruction programId wallet protectedAccounts r₂ permissions b₂ compact := by
  have hmetas : compact.accountIndexes.foldlM (pushMeta wallet protectedAccounts r₁) [] =
      compact.accountIndexes.foldlM (pushMeta wallet protectedAccounts r₂) [] := by
    apply foldlM_congr
    intro metas i hi
    rcases hsame.lookup hi with ⟨h₁, h₂⟩ | ⟨x, y, h₁, h₂, hmeta, hkey, hfree⟩
    · rw [pushMeta, pushMeta, h₁, h₂]
    · have hx : pushMeta wallet protectedAccounts r₁ metas i = .ok (metas ++ [metaOf wallet x]) :=
        pushMeta_iff.2 ⟨x, h₁, fun hp => absurd hp hfree, rfl⟩
      have hy : pushMeta wallet protectedAccounts r₂ metas i = .ok (metas ++ [metaOf wallet y]) :=
        pushMeta_iff.2 ⟨y, h₂, fun hp => absurd hp (hkey ▸ hfree), rfl⟩
      rw [hx, hy, hmeta]
  have hgate : ∀ program, checkProgramPermissions permissions program compact b₁ r₁ wallet =
      checkProgramPermissions permissions program compact b₂ r₂ wallet := by
    intro program
    unfold checkProgramPermissions checkInstruction InstructionRule.matches
    simp only [AccountConstraint.matches_agree hmem hbank hsame]
  have hat := getElem?_key hkeys compact.programIdIndex.toNat
  unfold prepareInstruction
  rw [hmetas]
  simp only [hgate]
  cases h₁ : r₁[compact.programIdIndex.toNat]? with
  | none =>
    rw [h₁, Option.map_none, eq_comm, Option.map_eq_none_iff] at hat
    rw [hat]
  | some x =>
    rw [h₁, Option.map_some, eq_comm, Option.map_eq_some_iff] at hat
    obtain ⟨y, h₂, hyx⟩ := hat
    rw [h₂]
    show (do
      let _ ← require (x.key ≠ programId) .selfReentrancyNotAllowed
      _) = _
    rw [← hyx]
    rfl

/-- A CPI that was prepared names accounts of the list. -/
theorem prepareInstruction_keys {programId : Pubkey} {permissions : Option (List ProgramPermission)}
    {ix : Instruction} (hmem : ∀ ai ∈ r₁, ai.key ∈ keys)
    (h : prepareInstruction programId wallet protectedAccounts r₁ permissions b₁ compact = .ok ix) :
    ix.programId ∈ keys ∧ ∀ m ∈ ix.accounts, m.pubkey ∈ keys := by
  have hbuilt := (prepareInstruction_iff.1 h).1
  constructor
  · obtain ⟨program, hprogram, hbuilt⟩ := Option.bind_eq_some_iff.1 hbuilt
    obtain ⟨ais, -, hix⟩ := Option.bind_eq_some_iff.1 hbuilt
    cases hix
    exact hmem program (List.mem_of_getElem? hprogram)
  · intro m hm
    obtain ⟨index, -, ai, hai, rfl⟩ := (mem_builtInstruction hbuilt).1 hm
    exact hmem ai (List.mem_of_getElem? hai)

end Lists

/-! ## The CPIs -/

section Loop

variable {rt : Runtime} {seeds : List ByteSeq.Bytes} {keys : Set Pubkey} {compacts : List CompactInstruction}

theorem issueInstructions_agree (hlocal : rt.Local) {prepare₁ prepare₂ : Bank → CompactInstruction → Result Instruction}
    (hprepare : ∀ compact ∈ compacts, ∀ b₁ b₂ : Bank, Set.EqOn b₁ b₂ keys → prepare₁ b₁ compact = prepare₂ b₂ compact)
    (hnamed : ∀ b compact ix, prepare₁ b compact = .ok ix → ix.programId ∈ keys ∧ ∀ m ∈ ix.accounts, m.pubkey ∈ keys)
    {b₁ b₂ : Bank} (hbank : Set.EqOn b₁ b₂ keys) :
    Agree (fun after₁ after₂ => Set.EqOn after₁ after₂ keys) (issueInstructions rt seeds prepare₁ b₁ compacts).result
      (issueInstructions rt seeds prepare₂ b₂ compacts).result := by
  induction compacts generalizing b₁ b₂ with
  | nil => exact hbank
  | cons compact rest ih =>
    have ih' := fun {b₁ b₂ : Bank} => @ih (fun c hc => hprepare c (List.mem_cons_of_mem _ hc)) b₁ b₂
    rw [issueInstructions, issueInstructions, ← hprepare compact List.mem_cons_self b₁ b₂ hbank]
    cases hprep : prepare₁ b₁ compact with
    | error e => trivial
    | ok ix =>
      obtain ⟨hprogram, haccounts⟩ := hnamed b₁ compact ix hprep
      have hcpi := hlocal ix seeds keys b₁ b₂ hprogram haccounts hbank
      dsimp only
      revert hcpi
      cases rt.invokeSigned ix seeds b₁ with
      | error e =>
        cases rt.invokeSigned ix seeds b₂ with
        | error e' => exact fun _ => trivial
        | ok after₂ => exact False.elim
      | ok after₁ =>
        cases rt.invokeSigned ix seeds b₂ with
        | error e' => exact False.elim
        | ok after₂ => exact ih'

/-- A loop that ends well has prepared every instruction, and every CPI went through. -/
theorem issueInstructions_ok {prepare : Bank → CompactInstruction → Result Instruction} {bank after : Bank}
    (h : (issueInstructions rt seeds prepare bank compacts).result = .ok after) :
    ∀ compact ∈ compacts, ∃ b ix b', prepare b compact = .ok ix ∧ rt.invokeSigned ix seeds b = .ok b' := by
  induction compacts generalizing bank with
  | nil => simp
  | cons compact rest ih =>
    rw [issueInstructions] at h
    cases hprep : prepare bank compact with
    | error e =>
      rw [hprep] at h
      cases h
    | ok ix =>
      simp only [hprep] at h
      cases hcpi : rt.invokeSigned ix seeds bank with
      | error e =>
        rw [hcpi] at h
        cases h
      | ok bank' =>
        simp only [hcpi] at h
        exact List.forall_mem_cons.2 ⟨⟨bank, ix, bank', hprep, hcpi⟩, ih h⟩

end Loop

/-! ## From the snapshot to the charge -/

section Policied

variable {rt : Runtime} {keys : Set Pubkey} {token wallet authorityAccount : Pubkey} {walletBump : UInt8}
  {policyPresent : Bool} {r₁ r₂ : List AccountInfo} {compacts : List CompactInstruction} {b₁ b₂ : Bank}

theorem executeCompactInstructions_agree (hlocal : rt.Local)
    (hkeys : r₁.map AccountInfo.key = r₂.map AccountInfo.key) (hmem : ∀ ai ∈ r₁, ai.key ∈ keys)
    (hsame : ∀ compact ∈ compacts, SameMetas wallet [token, authorityAccount] r₁ r₂ compact) (hwallet : wallet ∈ keys)
    (hbank : Set.EqOn b₁ b₂ keys) (permissions : Option (List ProgramPermission)) :
    Agree (fun after₁ after₂ => Set.EqOn after₁ after₂ keys)
      (executeCompactInstructions rt crateId wallet walletBump token [token, authorityAccount] r₁ compacts permissions
        b₁)
      (executeCompactInstructions rt crateId wallet walletBump token [token, authorityAccount] r₂ compacts permissions
        b₂) := by
  refine (issueInstructions_agree hlocal
    (fun compact hc b₁ b₂ hbank => prepareInstruction_agree hkeys hmem hbank (hsame compact hc) crateId permissions)
    (fun b compact ix hprep => prepareInstruction_keys hmem hprep) hbank).bind fun after₁ after₂ hafter => ?_
  rw [hbank hwallet, hafter hwallet]
  exact (Agree.refl (R := Eq) (fun _ => rfl) _).bind fun _ _ _ => hafter

variable [HeapSizes]

/-- **One verdict.** Lists with the same keys, the same metas where an instruction names an account, and states that
agree: both runs fail, or both leave the same state and charge the same. -/
theorem executePolicied_same (hlocal : rt.Local) (hkeys : r₁.map AccountInfo.key = r₂.map AccountInfo.key)
    (hmem : ∀ ai ∈ r₁, ai.key ∈ keys)
    (hsame : ∀ compact ∈ compacts, SameMetas wallet [token, authorityAccount] r₁ r₂ compact) (hwallet : wallet ∈ keys)
    (hauthority : authorityAccount ∈ keys) (hbank : Set.EqOn b₁ b₂ keys) :
    Agree (SameExecuted keys)
      (executePolicied rt token wallet authorityAccount walletBump policyPresent r₁ compacts b₁)
      (executePolicied rt token wallet authorityAccount walletBump policyPresent r₂ compacts b₂) := by
  have hcpis := fun permissions => @executeCompactInstructions_agree rt keys token wallet authorityAccount walletBump r₁
    r₂ compacts b₁ b₂ hlocal hkeys hmem hsame hwallet hbank permissions
  unfold executePolicied
  cases policyPresent with
  | false =>
    rw [if_neg Bool.false_ne_true, if_neg Bool.false_ne_true]
    exact (hcpis none).bind fun after₁ after₂ hafter => ⟨hafter, rfl⟩
  | true =>
    rw [if_pos rfl, if_pos rfl, hbank hauthority, checkPolicyAndSnapshot_agree hkeys hmem hbank hwallet]
    refine (Agree.refl (R := Eq) (fun _ => rfl) _).bind ?_
    rintro snapshot _ rfl
    refine (hcpis _).bind fun after₁ after₂ hafter => ?_
    rw [measureDeltas_agree hkeys hmem hafter hwallet, hafter hauthority]
    refine (Agree.refl (R := Eq) (fun _ => rfl) _).bind ?_
    rintro charges _ rfl
    refine (Agree.refl (R := Eq) (fun _ => rfl) _).bind ?_
    rintro policyData _ rfl
    refine ⟨fun key hkey => ?_, rfl⟩
    by_cases heq : key = authorityAccount
    · subst heq
      simp [setData, hafter hkey]
    · simp [setData, heq, hafter hkey]

/-- **A protected account with a privilege** at an index that an instruction names: no run succeeds. -/
theorem executePolicied_privileged {compact : CompactInstruction} (hc : compact ∈ compacts) {i : UInt8}
    (hi : i ∈ compact.accountIndexes) {ai : AccountInfo} (hai : r₁[i.toNat]? = some ai)
    (hprotected : ai.key ∈ [token, authorityAccount]) (hwritable : ai.isWritable = true) (executed : Executed) :
    executePolicied rt token wallet authorityAccount walletBump policyPresent r₁ compacts b₁ ≠ .ok executed := by
  have hcpis : ∀ permissions after, executeCompactInstructions rt crateId wallet walletBump token
      [token, authorityAccount] r₁ compacts permissions b₁ ≠ .ok after := by
    intro permissions after h
    obtain ⟨after', hissued, -⟩ := bind_eq_ok.1 h
    obtain ⟨b, ix, -, hprep, -⟩ := issueInstructions_ok hissued compact hc
    obtain ⟨hbuilt, -, hu⟩ := prepareInstruction_iff.1 hprep
    obtain ⟨program, -, hbuilt⟩ := Option.bind_eq_some_iff.1 hbuilt
    obtain ⟨ais, hres, -⟩ := Option.bind_eq_some_iff.1 hbuilt
    have hfalse := (hu ais hres ai ((mem_resolveAccounts hres).2 ⟨i, hi, hai⟩) hprotected).2
    rw [hwritable] at hfalse
    cases hfalse
  intro h
  unfold executePolicied at h
  split at h
  · obtain ⟨snapshot, -, h⟩ := bind_eq_ok.1 h
    obtain ⟨after, hafter, -⟩ := bind_eq_ok.1 h
    exact hcpis _ _ hafter
  · obtain ⟨after, hafter, -⟩ := bind_eq_ok.1 h
    exact hcpis _ _ hafter

end Policied

/-! ## A runtime that only refuses -/

/-- Every CPI is refused or changes nothing. -/
def screeningRuntime (refuses : Instruction → Bank → Bool) : Runtime :=
  { idleRuntime with invokeSigned := fun ix _ bank => if refuses ix bank then .error (.external 0) else .ok bank }

section Screened

variable {refuses : Instruction → Bank → Bool} {bank : Bank}

/-- A refusal that looks only at what the CPI is given. -/
theorem screeningRuntime_local (h : ∀ (ix : Instruction) (keys : Set Pubkey) (b₁ b₂ : Bank), ix.programId ∈ keys →
    (∀ m ∈ ix.accounts, m.pubkey ∈ keys) → Set.EqOn b₁ b₂ keys → refuses ix b₁ = refuses ix b₂) :
    (screeningRuntime refuses).Local := by
  intro ix seeds keys b₁ b₂ hprogram haccounts hbank
  show Agree _ (if refuses ix b₁ then _ else _) (if refuses ix b₂ then _ else _)
  rw [h ix keys b₁ b₂ hprogram haccounts hbank]
  split
  · trivial
  · exact hbank

theorem issueInstructions_screened {seeds : List ByteSeq.Bytes}
    {prepare : Bank → CompactInstruction → Result Instruction} {compacts : List CompactInstruction}
    {built : CompactInstruction → Option Instruction} {cpis : List Instruction}
    (hcpis : compacts.mapM built = some cpis)
    (hprepare : ∀ compact ∈ compacts, ∀ ix, built compact = some ix → prepare bank compact = .ok ix)
    {after : Bank} : (issueInstructions (screeningRuntime refuses) seeds prepare bank compacts).result = .ok after ↔
      (∀ ix ∈ cpis, refuses ix bank = false) ∧ after = bank := by
  induction compacts generalizing cpis with
  | nil =>
    obtain rfl : [] = cpis := Option.some.inj hcpis
    simp [issueInstructions, eq_comm (a := after)]
  | cons compact rest ih =>
    rw [List.mapM_cons] at hcpis
    obtain ⟨ix, hix, hcpis⟩ := Option.bind_eq_some_iff.1 hcpis
    obtain ⟨tail, htail, hcpis⟩ := Option.bind_eq_some_iff.1 hcpis
    cases hcpis
    have ih' := ih htail fun c hc => hprepare c (List.mem_cons_of_mem _ hc)
    rw [issueInstructions, hprepare compact List.mem_cons_self ix hix, List.forall_mem_cons]
    by_cases href : refuses ix bank = true
    · have hcpi : (screeningRuntime refuses).invokeSigned ix seeds bank = .error (.external 0) := if_pos href
      simp only [hcpi, href]
      simp
    · have hcpi : (screeningRuntime refuses).invokeSigned ix seeds bank = .ok bank := if_neg href
      simp only [hcpi, Bool.eq_false_iff.2 href, true_and]
      exact ih'

/-- **Without a policy** the run succeeds exactly when no CPI is refused. -/
theorem executePolicied_screened [HeapSizes] {token wallet authorityAccount : Pubkey} {walletBump : UInt8}
    {remaining : List AccountInfo} {compacts : List CompactInstruction} {cpis : List Instruction}
    (hcpis : resolvedInstructions wallet remaining compacts = some cpis)
    (hprograms : ∀ ix ∈ cpis, ix.programId ≠ crateId ∧ ix.programId ≠ phygitalTokenId)
    (haccounts : ∀ ix ∈ cpis, ∀ m ∈ ix.accounts, m.pubkey ∉ [token, authorityAccount]) :
    (∃ executed, executePolicied (screeningRuntime refuses) token wallet authorityAccount walletBump false remaining
      compacts bank = .ok executed) ↔ ∀ ix ∈ cpis, refuses ix bank = false := by
  have hprepare : ∀ compact ∈ compacts, ∀ ix, builtInstruction wallet remaining compact = some ix →
      prepareInstruction crateId wallet [token, authorityAccount] remaining none bank compact = .ok ix := by
    intro compact hc ix hbuilt
    obtain ⟨j, hj⟩ := List.getElem?_of_mem hc
    have hget := (getElem?_mapM hcpis).2 j
    rw [hj, Option.bind_some, hbuilt] at hget
    have hix := List.mem_of_getElem? hget
    refine prepareInstruction_iff.2 ⟨hbuilt, ⟨(hprograms ix hix).1, (hprograms ix hix).2, by simp⟩, ?_⟩
    intro ais hres ai hai hprotected
    obtain ⟨index, hindex, hat⟩ := (mem_resolveAccounts hres).1 hai
    have hmeta := (mem_builtInstruction hbuilt).2 ⟨index, hindex, ai, hat, rfl⟩
    exact absurd hprotected (haccounts ix hix _ hmeta)
  have hissued := fun seeds after => @issueInstructions_screened refuses bank seeds _ _ _ _ hcpis hprepare after
  constructor
  · rintro ⟨executed, h⟩
    obtain ⟨after, hrun, -⟩ := bind_eq_ok.1 h
    obtain ⟨after', hissue, -⟩ := bind_eq_ok.1 hrun
    exact ((hissued _ _).1 hissue).1
  · intro h
    have hrun : executeCompactInstructions (screeningRuntime refuses) crateId wallet walletBump token
        [token, authorityAccount] remaining compacts none bank = .ok bank :=
      bind_eq_ok.2 ⟨bank, (hissued _ _).2 ⟨h, rfl⟩, by simp⟩
    exact ⟨⟨bank, none⟩, bind_eq_ok.2 ⟨bank, hrun, rfl⟩⟩

end Screened

end PhygitalWallet
