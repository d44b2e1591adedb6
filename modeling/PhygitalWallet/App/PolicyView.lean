import PhygitalWallet.Client.AuthorityAccount
import PhygitalWallet.Program.AuthorityRun

/-!
# The policy that the app shows (`hooks/token/use-wallet-policy.ts`, `lib/queries/mutations.ts`)

- `useWalletPolicy`: the view of an account;
- `buildOptimisticWalletPolicyView`: the view that a save leaves in the cache, before the account is read again;
- `lifeView`: what the app reads of a stored account;
- `CapSettled`: a saved cap whose reset time the optimistic view gets right;
- `optimistic_policy_view`: the optimistic view against the account after the save.
-/

namespace PhygitalWallet.App

open ByteSeq Client Runs

/-! ## Views -/

structure SpendCapView where
  cap : Int
  remaining : Int
  lastReset : Int
  windowSeconds : Int
deriving DecidableEq, Repr

inductive ProgramAccessKind
  | allow | deny | custom
deriving DecidableEq, Repr

structure ProgramPermissionView where
  programId : Pubkey
  kind : ProgramAccessKind
  access : ProgramAccess
deriving DecidableEq, Repr

/-- `unchecked` is the source's `open`. -/
inductive WalletPolicyStatus
  | none | unchecked | standard | limited
deriving DecidableEq, Repr

structure MintCapView extends SpendCapView where
  mint : Pubkey
deriving DecidableEq, Repr

structure WalletPolicyView where
  status : WalletPolicyStatus
  hasLimits : Bool
  solCap : Option SpendCapView
  mintCaps : List MintCapView
  programPermissions : List ProgramPermissionView
deriving DecidableEq, Repr

def accessKind : ProgramAccess → ProgramAccessKind
  | .allInstructions => .allow
  | .denied => .deny
  | .restricted _ => .custom

def spendCapView (c : SpendCap) : SpendCapView :=
  ⟨c.cap.toNat, c.remaining.toNat, c.lastReset.toInt, c.windowSeconds.toInt⟩

def permissionView (p : ProgramPermission) : ProgramPermissionView := ⟨p.programId, accessKind p.access, p.access⟩

/-- The view of the account that was fetched. -/
def useWalletPolicy : Option Authority → WalletPolicyView
  | none => ⟨.none, false, none, [], []⟩
  | some account =>
    let policyActive : Bool := account.header.policyVersion ≠ 0
    let solActive : Bool := account.solCap.cap ≠ 0
    let activeMintCaps := (account.mintCaps.filter fun m => m.cap.cap ≠ 0).map fun m =>
      ({ spendCapView m.cap with mint := m.mint } : MintCapView)
    let permissions := account.programPermissions.map permissionView
    let hasLimits := solActive || 0 < activeMintCaps.length || 0 < permissions.length
    { status := if !policyActive then .unchecked else if hasLimits then .limited else .standard
      hasLimits
      solCap := if solActive then some (spendCapView account.solCap) else none
      mintCaps := activeMintCaps
      programPermissions := permissions }

/-- The view of the bytes of an existing account. -/
def viewOfData (kit : KitDecoders) (data : Bytes) : Option WalletPolicyView :=
  (decodeAuthority kit data).map fun decoded => useWalletPolicy (some decoded.authority)

/-! ## The optimistic view -/

structure SolCapInput where
  cap : Int
  windowSeconds : Int
deriving DecidableEq, Repr

structure MintCapInput extends SolCapInput where
  mint : Pubkey
deriving DecidableEq, Repr

structure WalletPolicyInput where
  solCap : Option SolCapInput
  mintCaps : List MintCapInput
  programPermissions : List ProgramPermission
deriving DecidableEq, Repr

def optimisticCapView (next : SolCapInput) (previous : Option SpendCapView) (nowSeconds : Int) : SpendCapView :=
  match previous with
  | some prev =>
    if prev.cap = next.cap ∧ prev.windowSeconds = next.windowSeconds then prev
    else ⟨next.cap, next.cap, nowSeconds, next.windowSeconds⟩
  | none => ⟨next.cap, next.cap, nowSeconds, next.windowSeconds⟩

/-- `previousByMint.get(mint)`: the last entry of a `Map` stays. -/
def previousByMint (previous : Option WalletPolicyView) (mint : Pubkey) : Option SpendCapView :=
  (((previous.map WalletPolicyView.mintCaps).getD []).reverse.find? fun m => m.mint = mint).map
    MintCapView.toSpendCapView

def previousSol (previous : Option WalletPolicyView) : Option SpendCapView := previous.bind WalletPolicyView.solCap

/-- Unchanged caps keep remaining/lastReset; changed caps refill + reanchor. -/
def buildOptimisticWalletPolicyView (input : WalletPolicyInput) (previous : Option WalletPolicyView)
    (nowSeconds : Int) : WalletPolicyView :=
  let solCap := input.solCap.map fun s => optimisticCapView s (previousSol previous) nowSeconds
  let mintCaps := input.mintCaps.map fun m =>
    ({ optimisticCapView m.toSolCapInput (previousByMint previous m.mint) nowSeconds with
        mint := m.mint } : MintCapView)
  let programPermissions := input.programPermissions.map permissionView
  let hasLimits : Bool := solCap.isSome || 0 < mintCaps.length || 0 < programPermissions.length
  { status := if hasLimits then .limited else .standard
    hasLimits, solCap, mintCaps, programPermissions }

/-- The input that the client encodes as these arguments. -/
def policyInput (args : WalletPolicyArgs) : WalletPolicyInput where
  solCap := args.solCap.map fun s => ⟨s.cap.toNat, s.windowSeconds.toInt⟩
  mintCaps := args.mintCaps.map fun m => ⟨⟨m.cap.toNat, m.windowSeconds.toInt⟩, m.mint⟩
  programPermissions := args.programPermissions

/-! ## Saved caps -/

/-- The cap is kept, or its window is for life or starts now. -/
def CapSettled (previous : Option SpendCapView) (next : SolCapInput) (now : Int) : Prop :=
  (∃ prev ∈ previous, prev.cap = next.cap ∧ prev.windowSeconds = next.windowSeconds) ∨
    next.windowSeconds = 0 ∨ next.windowSeconds ∣ now

/-- All caps of the input are. -/
def PolicySettled (input : WalletPolicyInput) (previous : WalletPolicyView) (now : Int) : Prop :=
  (∀ s ∈ input.solCap, CapSettled previous.solCap s now) ∧
    ∀ m ∈ input.mintCaps, CapSettled (previousByMint (some previous) m.mint) m.toSolCapInput now

theorem alignToWindow_ok {now windowSeconds r : Int64} (h : alignToWindow now windowSeconds = .ok r) :
    r.toInt = if windowSeconds.toInt ≤ 0 then now.toInt else now.toInt - now.toInt.tmod windowSeconds.toInt := by
  unfold alignToWindow at h
  by_cases hw : windowSeconds.toInt ≤ 0
  · rw [if_pos hw] at h ⊢
    cases h
    rfl
  · rw [if_neg hw] at h ⊢
    simp only [bind_eq_ok, okOr_eq_ok] at h
    obtain ⟨offset, hoffset, hr⟩ := h
    rw [checkedI64_eq_some.1 hr]
    unfold checkedRem at hoffset
    split at hoffset
    · cases hoffset
    · rw [checkedI64_eq_some.1 hoffset]

/-- A new cap starts at the clock when its window does. -/
theorem newSpendCap_now {cap : UInt64} {windowSeconds now : Int64} {c : SpendCap}
    (h : newSpendCap cap windowSeconds now = .ok c) :
    c.cap = cap ∧ c.remaining = cap ∧ c.windowSeconds = windowSeconds ∧
      (c.lastReset.toInt = now.toInt ↔ windowSeconds.toInt = 0 ∨ windowSeconds.toInt ∣ now.toInt) := by
  simp only [newSpendCap, bind_eq_ok, require_eq_ok, exists_const, pure_eq_ok] at h
  obtain ⟨⟨-, hw⟩, r, hr, rfl⟩ := h
  refine ⟨rfl, rfl, rfl, ?_⟩
  rw [alignToWindow_ok hr]
  by_cases hzero : windowSeconds.toInt = 0
  · simp [hzero]
  · rw [if_neg (by omega), Int.dvd_iff_tmod_eq_zero]
    omega

theorem spendCapView_cap_eq {c : SpendCap} {cap : UInt64} {windowSeconds : Int64} :
    ((spendCapView c).cap = cap.toNat ∧ (spendCapView c).windowSeconds = windowSeconds.toInt) ↔
      c.cap = cap ∧ c.windowSeconds = windowSeconds := by
  rw [spendCapView, Int.natCast_inj, UInt64.toNat_inj, Int64.toInt_inj]

/-- **A saved cap** has the optimistic view when it is settled. -/
theorem optimisticCapView_eq_iff {cap : UInt64} {windowSeconds now : Int64} {old : Option SpendCap} {new : SpendCap}
    (h : SavedCap cap windowSeconds now old new) :
    optimisticCapView ⟨cap.toNat, windowSeconds.toInt⟩ (old.map spendCapView) now.toInt = spendCapView new ↔
      CapSettled (old.map spendCapView) ⟨cap.toNat, windowSeconds.toInt⟩ now.toInt := by
  obtain ⟨fresh, hfresh, rfl⟩ := h
  obtain ⟨hcap, hremaining, hwindow, hnow⟩ := newSpendCap_now hfresh
  have hnew : (⟨cap.toNat, cap.toNat, now.toInt, windowSeconds.toInt⟩ : SpendCapView) = spendCapView fresh ↔
      windowSeconds.toInt = 0 ∨ windowSeconds.toInt ∣ now.toInt := by
    rw [← hnow, spendCapView, hcap, hremaining, hwindow]
    simp [eq_comm]
  cases old with
  | none =>
    have hkept : ¬ ∃ prev ∈ (none : Option SpendCapView), prev.cap = cap.toNat ∧
        prev.windowSeconds = windowSeconds.toInt := by simp
    exact hnew.trans (or_iff_right hkept).symm
  | some prev =>
    rw [Option.map_some, optimisticCapView]
    by_cases hsame : prev.cap = cap ∧ prev.windowSeconds = windowSeconds
    · rw [if_pos (spendCapView_cap_eq.2 hsame), preserveSpendCap_same prev fresh (hsame.1.trans hcap.symm)
        (hsame.2.trans hwindow.symm)]
      exact iff_of_true rfl (Or.inl ⟨_, rfl, spendCapView_cap_eq.2 hsame⟩)
    · have hkept : ¬ ∃ v ∈ some (spendCapView prev), v.cap = cap.toNat ∧ v.windowSeconds = windowSeconds.toInt := by
        rintro ⟨_, hv, hkeep⟩
        cases hv
        exact hsame (spendCapView_cap_eq.1 hkeep)
      have hfresh' : preserveSpendCap fresh (some prev) = fresh := by
        rw [preserveSpendCap, if_neg (by rw [hcap, hwindow]; exact hsame)]
      rw [if_neg fun hkeep => hsame (spendCapView_cap_eq.1 hkeep), hfresh']
      exact hnew.trans (or_iff_right hkept).symm

/-! ## The view of a stored account -/

/-- What the app shows of an account with this life. -/
def lifeView (l : Life) : WalletPolicyView :=
  let p := l.policy.getD .initial
  useWalletPolicy (some ⟨l.header, p.sol, 0, p.mints, p.permissions⟩)

/-- A sound policy has no mint cap of zero. -/
theorem filter_mints {mints : List MintCap} (h : ∀ m ∈ mints, m.cap.Sound) :
    (mints.filter fun m => m.cap.cap ≠ 0) = mints := by
  refine List.filter_eq_self.2 fun m hm => ?_
  have hpos := (h m hm).1
  rw [decide_eq_true_iff]
  rintro hzero
  rw [hzero] at hpos
  exact absurd hpos (by decide)

theorem lifeView_solCap (l : Life) :
    (lifeView l).solCap = ((l.policy.map Policy.sol).filter SpendCap.isActive).map spendCapView := by
  cases hp : l.policy with
  | none => simp [lifeView, hp, useWalletPolicy, Policy.initial, SpendCap.empty]
  | some p =>
    by_cases hzero : p.sol.cap = 0
    · simp [lifeView, hp, useWalletPolicy, SpendCap.isActive, hzero]
    · simp [lifeView, hp, useWalletPolicy, SpendCap.isActive, hzero]

/-- The last entry of a mint is its only one. -/
theorem find?_reverse_of_nodup {mints : List MintCap} (h : (mints.map MintCap.mint).Nodup) (mint : Pubkey) :
    (mints.reverse.find? fun m => m.mint = mint) = mints.find? fun m => m.mint = mint := by
  induction mints with
  | nil => rfl
  | cons m mints ih =>
    rw [List.map_cons, List.nodup_cons] at h
    rw [List.reverse_cons, List.find?_append, ih h.2, List.find?_cons]
    by_cases hm : m.mint = mint
    · have hnone : (mints.find? fun m => m.mint = mint) = none := by
        rw [List.find?_eq_none]
        intro m' hm' heq
        exact h.1 (List.mem_map.2 ⟨m', hm', (of_decide_eq_true heq).trans hm.symm⟩)
      simp [hm, hnone]
    · simp [hm]

/-- The mint caps of a save agree when each of them does. -/
theorem optimisticMints_eq_iff {cs : List MintCapArg} {ms : List MintCap} {now : Int64}
    (old : Pubkey → Option SpendCap) (h : List.Forall₂ (fun c m => m.mint = c.mint ∧
      SavedCap c.cap c.windowSeconds now (old c.mint) m.cap) cs ms) :
    (cs.map fun c => ({ optimisticCapView ⟨c.cap.toNat, c.windowSeconds.toInt⟩ ((old c.mint).map spendCapView)
        now.toInt with mint := c.mint } : MintCapView)) =
      (ms.map fun m => ({ spendCapView m.cap with mint := m.mint } : MintCapView)) ↔
      ∀ c ∈ cs, CapSettled ((old c.mint).map spendCapView) ⟨c.cap.toNat, c.windowSeconds.toInt⟩ now.toInt := by
  induction h with
  | nil => simp
  | @cons c m cs ms hm _ ih =>
    rw [List.map_cons, List.map_cons, List.cons.injEq, ih, List.forall_mem_cons, ← optimisticCapView_eq_iff hm.2]
    refine and_congr_left fun _ => ?_
    rw [MintCapView.mk.injEq, hm.1]
    exact and_iff_left rfl

/-- The view of an active policy with these limits. -/
def activeView (solCap : Option SpendCapView) (mintCaps : List MintCapView)
    (programPermissions : List ProgramPermissionView) : WalletPolicyView :=
  let hasLimits : Bool := solCap.isSome || 0 < mintCaps.length || 0 < programPermissions.length
  ⟨if hasLimits then .limited else .standard, hasLimits, solCap, mintCaps, programPermissions⟩

theorem activeView_eq_iff {sol sol' : Option SpendCapView} {mints mints' : List MintCapView}
    {permissions : List ProgramPermissionView} :
    activeView sol mints permissions = activeView sol' mints' permissions ↔ sol = sol' ∧ mints = mints' := by
  constructor
  · intro h
    exact ⟨congrArg WalletPolicyView.solCap h, congrArg WalletPolicyView.mintCaps h⟩
  · rintro ⟨rfl, rfl⟩
    rfl

theorem lifeView_active (header : AuthorityHeader) (p : Policy) : lifeView ⟨header.withPolicy true, some p⟩ =
    activeView (lifeView ⟨header.withPolicy true, some p⟩).solCap (lifeView ⟨header.withPolicy true, some p⟩).mintCaps
      (p.permissions.map permissionView) := by
  have hversion : ((header.withPolicy true).policyVersion ≠ 0) = True := by
    simp [AuthorityHeader.withPolicy, walletPolicyVersion]
  by_cases hzero : p.sol.cap = 0
  · simp [lifeView, useWalletPolicy, activeView, hversion, hzero]
  · simp [lifeView, useWalletPolicy, activeView, hversion, hzero]

theorem savedCap_active {cap : UInt64} {windowSeconds now : Int64} {old : Option SpendCap} {new : SpendCap}
    (h : SavedCap cap windowSeconds now old new) : new.cap = cap ∧ new.isActive = true := by
  obtain ⟨fresh, hfresh, rfl⟩ := h
  obtain ⟨hpos, hcap, -⟩ := newSpendCap_ok hfresh
  have hnew : (preserveSpendCap fresh old).cap = cap := by
    rcases preserveSpendCap_cases fresh old with heq | ⟨prev, -, heq, hsame, -⟩
    · rw [heq, hcap]
    · rw [heq, hsame, hcap]
  refine ⟨hnew, ?_⟩
  rw [SpendCap.isActive, hnew]
  rw [decide_eq_true_iff]
  rintro rfl
  exact absurd hpos (by decide)

section Sizes

variable [HeapSizes]

variable {kit : KitDecoders} {account : Account} {l : Life}

/-- The bytes of a cleared policy read as the empty one. -/
theorem readPolicy_stored (hs : Stored account l) : readPolicy account.data =
    .ok ((l.policy.getD .initial).sol, (l.policy.getD .initial).mints, (l.policy.getD .initial).permissions) := by
  cases hp : l.policy with
  | some p => exact hs.readPolicy hp
  | none =>
    refine readPolicy_iff.2 ⟨headBytes l.header, [0, 0, 0, 0], ⟨?_, length_headBytes _, by decide, le_rfl⟩, ?_⟩
    · rw [hs.data, Life.bytes, hp]
      rfl
    · have hempty : ([0, 0, 0, 0] : Bytes) = encodePermissions [] := by decide
      rw [hempty, Option.getD_none]
      refine (decodePermissions_iff _ _).2 ⟨⟨?_, by decide⟩, rfl⟩
      simp [Policy.initial, validatePermissions, require_of, pure, Except.pure]

/-- **The app reads the life of the account.** -/
theorem viewOfData_stored (hkit : kit.Documented) (hs : Stored account l) :
    viewOfData kit account.data = some (lifeView l) := by
  obtain ⟨rest, hrest, -⟩ := hs.head
  rw [viewOfData, decodeAuthority_readPolicy hkit (readHeaderMut_iff.2 ⟨rest, hrest⟩) (readPolicy_stored hs)]
  rfl

theorem lifeView_mintCaps {l : Life} (hsound : ∀ p, l.policy = some p → p.Sound) :
    (lifeView l).mintCaps = ((l.policy.map Policy.mints).getD []).map fun m =>
      ({ spendCapView m.cap with mint := m.mint } : MintCapView) := by
  cases hp : l.policy with
  | none => simp [lifeView, hp, useWalletPolicy, Policy.initial]
  | some p =>
    have hmints := filter_mints fun m hm => ((hsound p hp).mints m hm).2.2
    simp only [lifeView, hp, useWalletPolicy, Option.getD_some, Option.map_some]
    rw [hmints]

theorem previousByMint_lifeView {l : Life} (hsound : ∀ p, l.policy = some p → p.Sound) (mint : Pubkey) :
    previousByMint (some (lifeView l)) mint =
      ((((l.policy.map Policy.mints).getD []).find? fun m => m.mint = mint).map MintCap.cap).map spendCapView := by
  have hnodup : (((l.policy.map Policy.mints).getD []).map MintCap.mint).Nodup := by
    cases hp : l.policy with
    | none => exact List.nodup_nil
    | some p => exact (hsound p hp).distinct
  rw [previousByMint, Option.map_some, Option.getD_some, lifeView_mintCaps hsound, ← List.map_reverse, List.find?_map,
    ← find?_reverse_of_nodup hnodup, Option.map_map, Option.map_map]
  rfl

/-- **The optimistic view of a save** is the view of the saved policy, when its caps are settled. -/
theorem optimistic_eq_iff {l : Life} {args : WalletPolicyArgs} {now : Int64} {p : Policy} {header : AuthorityHeader}
    (hsound : ∀ p, l.policy = some p → p.Sound) (hsaved : Saved args now l.policy p) (hp : p.Sound) :
    buildOptimisticWalletPolicyView (policyInput args) (some (lifeView l)) now.toInt =
        lifeView ⟨header.withPolicy true, some p⟩ ↔ PolicySettled (policyInput args) (lifeView l) now.toInt := by
  have hsol : ((policyInput args).solCap.map fun s => optimisticCapView s (lifeView l).solCap now.toInt) =
      (lifeView ⟨header.withPolicy true, some p⟩).solCap ↔
        ∀ s ∈ (policyInput args).solCap, CapSettled (lifeView l).solCap s now.toInt := by
    rw [lifeView_solCap, lifeView_solCap, policyInput]
    cases hargs : args.solCap with
    | none => simp [hsaved.noSol hargs, SpendCap.isActive, SpendCap.empty]
    | some s =>
      have hcap := hsaved.sol s hargs
      simp only [Option.map_some, Option.filter_some, (savedCap_active hcap).2, if_true, Option.some.injEq]
      rw [optimisticCapView_eq_iff hcap]
      simp
  have hmints : ((policyInput args).mintCaps.map fun m => ({ optimisticCapView m.toSolCapInput
        (previousByMint (some (lifeView l)) m.mint) now.toInt with mint := m.mint } : MintCapView)) =
      (lifeView ⟨header.withPolicy true, some p⟩).mintCaps ↔ ∀ m ∈ (policyInput args).mintCaps,
        CapSettled (previousByMint (some (lifeView l)) m.mint) m.toSolCapInput now.toInt := by
    have hsaved' : ∀ q, some p = some q → q.Sound := fun q hq => Option.some.inj hq ▸ hp
    rw [lifeView_mintCaps hsaved', policyInput]
    simp only [List.map_map, List.forall_mem_map, previousByMint_lifeView hsound]
    exact optimisticMints_eq_iff (fun mint => (((l.policy.map Policy.mints).getD []).find? fun o => o.mint = mint).map
      MintCap.cap) hsaved.mints
  rw [lifeView_active, ← hsaved.permissions.symm]
  exact activeView_eq_iff.trans (and_congr hsol hmints)

variable {key : Pubkey} {bank₀ bank bank' : Bank} {es : List LifeEvent}

/-- **The optimistic policy view**: in every state of an authority account, after every save that the program accepts,
the view that was built at the clock of the save is the view of the account, if and only if every cap is settled. -/
theorem optimistic_policy_view (hkit : kit.Documented) (hnew : (bank₀ key).owner ≠ crateId)
    (hrun : Run (LifeStep key) bank₀ es bank) {rt : Runtime} (hrt : rt.Lawful) {accounts : SetWalletPolicy}
    {args : WalletPolicyArgs} (hkey : accounts.authorityAccount.key = key)
    (hsave : setWalletPolicy rt accounts args bank = .ok bank') :
    ∃ before after, viewOfData kit (bank key).data = some before ∧ viewOfData kit (bank' key).data = some after ∧
      (buildOptimisticWalletPolicyView (policyInput args) (some before) rt.unixTimestamp.toInt = after ↔
        PolicySettled (policyInput args) before rt.unixTimestamp.toInt) := by
  have htracked : Tracked key bank₀ es bank :=
    hrun.tracked (I := Tracked key bank₀) (Or.inl hnew) fun es e s s' hr ht hstep => hstep.tracked hr ht
  subst hkey
  obtain ⟨l, hl⟩ := htracked.history (setWalletPolicy_owner hsave)
  obtain ⟨p, hsaved, hs⟩ := setWalletPolicy_stored hrt hl.stored hsave
  exact ⟨lifeView l, _, viewOfData_stored hkit hl.stored, viewOfData_stored hkit hs,
    optimistic_eq_iff hl.stored.sound hsaved (hs.sound p rfl)⟩

end Sizes

/-- `lifecycleRuntime` in the second minute. -/
def minuteRuntime : Runtime := { lifecycleRuntime with unixTimestamp := 100 }

theorem minuteRuntime_lawful : minuteRuntime.Lawful :=
  ⟨lifecycleRuntime_lawful.createAccount, lifecycleRuntime_lawful.transfer, lifecycleRuntime_lawful.transfer_returns,
    lifecycleRuntime_lawful.verify, lifecycleRuntime_lawful.invokeSigned⟩

/-- The account after its creation. -/
def createdBank : Bank :=
  bankOf (setAuthority lifecycleRuntime lifecycleSetAuthority (.fill 6) ⟨0, 0, []⟩ 3 lifecycleBank)

theorem createdBank_run : Run (@LifeStep targetHeapSizes (.fill 7)) lifecycleBank
    [.setAuthority (lifecycleSetAuthority.header lifecycleRuntime (.fill 6))] createdBank := by
  let _ := targetHeapSizes
  exact .snoc .nil (.setAuthority lifecycleRuntime_lawful rfl (eq_ok_bankOf (by decide +kernel)))

/-- The account after a save of `lifecyclePolicy`. -/
def savedBank (rt : Runtime) : Bank :=
  bankOf (@setWalletPolicy targetHeapSizes rt lifecycleSetWalletPolicy lifecyclePolicy createdBank)

/-- A save at the start of a day. -/
theorem optimistic_policy_view_midnight : ∃ before after,
    viewOfData kitDecoders (createdBank (.fill 7)).data = some before ∧
    viewOfData kitDecoders (savedBank lifecycleRuntime (.fill 7)).data = some after ∧
    (buildOptimisticWalletPolicyView (policyInput lifecyclePolicy) (some before) 0 = after ↔
      PolicySettled (policyInput lifecyclePolicy) before 0) := by
  let _ := targetHeapSizes
  have hsave : setWalletPolicy lifecycleRuntime lifecycleSetWalletPolicy lifecyclePolicy createdBank =
      .ok (savedBank lifecycleRuntime) := eq_ok_bankOf (by decide +kernel)
  exact optimistic_policy_view kitDecoders_documented (by decide +kernel) createdBank_run lifecycleRuntime_lawful rfl
    hsave

/-- A daily cap that is set in the second minute: the account is reset at midnight, the view when it was built. -/
theorem optimistic_policy_view_minute : minuteRuntime.Lawful ∧
    Run (@LifeStep targetHeapSizes (.fill 7)) lifecycleBank
      [.setAuthority (lifecycleSetAuthority.header lifecycleRuntime (.fill 6))] createdBank ∧
    @setWalletPolicy targetHeapSizes minuteRuntime lifecycleSetWalletPolicy lifecyclePolicy createdBank =
      .ok (savedBank minuteRuntime) ∧
    ∃ before after, viewOfData kitDecoders (createdBank (.fill 7)).data = some before ∧
      viewOfData kitDecoders (savedBank minuteRuntime (.fill 7)).data = some after ∧
      after.solCap = some ⟨50, 50, 0, 86400⟩ ∧
      (buildOptimisticWalletPolicyView (policyInput lifecyclePolicy) (some before) 100).solCap =
        some ⟨50, 50, 100, 86400⟩ := by
  refine ⟨minuteRuntime_lawful, createdBank_run, eq_ok_bankOf (by decide +kernel), ?_⟩
  have hbefore : (viewOfData kitDecoders (createdBank (.fill 7)).data).map (fun before =>
      (buildOptimisticWalletPolicyView (policyInput lifecyclePolicy) (some before) 100).solCap) =
        some (some ⟨50, 50, 100, 86400⟩) := by decide +kernel
  have hafter : (viewOfData kitDecoders (savedBank minuteRuntime (.fill 7)).data).map WalletPolicyView.solCap =
      some (some ⟨50, 50, 0, 86400⟩) := by decide +kernel
  obtain ⟨before, hread, hview⟩ := Option.map_eq_some_iff.1 hbefore
  obtain ⟨after, hread', hview'⟩ := Option.map_eq_some_iff.1 hafter
  exact ⟨before, after, hread, hread', hview', hview⟩

end PhygitalWallet.App
