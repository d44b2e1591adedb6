import PhygitalWallet.App.Amount
import PhygitalWallet.App.PolicyView
import PhygitalWallet.Client.Kit

/-!
# The policy editor (`components/wallet/policy-limit-editor.tsx`)

- `initialDrafts`, `initialPrograms`: what the editor opens with;
- `commitSave`: what a save submits;
- `openAndSave`: both, without an edit between them;
- `KeepsPolicy`: the arguments that say what is stored already;
- `noop_save`: such a save submits them, and leaves what the account stores.
-/

namespace PhygitalWallet.App

open ByteSeq Client Runs

/-! ## Tokens -/

/-- SOL has 9 decimals; spend caps are stored in lamports. -/
def solDecimals : Nat := 9

/-- `So11111111111111111111111111111111111111112`. -/
def nativeSolMint : Pubkey := wsolMint

def isSolLikeMint (mint : Pubkey) : Bool := mint = nativeSolMint || mint = wsolMint2022

def lamportsToSol (lamports : Int) : String := formatTokenAmount lamports solDecimals

structure PaymentToken where
  mint : Pubkey
  symbol : String
  icon : Option String
  decimals : Nat
deriving DecidableEq, Repr

def solToken : PaymentToken := ⟨nativeSolMint, "SOL", some "/tokens/sol.png", solDecimals⟩

def assetCatalog (tokens : List PaymentToken) : List PaymentToken :=
  let withoutWrappedSol := tokens.filter fun t => !(isSolLikeMint t.mint && t.mint ≠ nativeSolMint)
  if withoutWrappedSol.any fun t => t.mint = nativeSolMint then withoutWrappedSol else solToken :: withoutWrappedSol

/-- `indexByMint(tokens).get(mint)`: the last entry of a `Map` stays. -/
def tokenOf (tokens : List PaymentToken) (mint : Pubkey) : Option PaymentToken :=
  tokens.reverse.find? fun t => t.mint = mint

def shortAddress (value : String) : String :=
  let chars := value.toList
  if chars.length ≤ 9 then value else String.ofList (chars.take 4 ++ ['…'] ++ chars.drop (chars.length - 4))

/-! ## Opening -/

/-- UI draft for one spendable asset. -/
structure AssetCapDraft where
  mint : Pubkey
  symbol : String
  icon : Option String
  decimals : Option Nat
  amount : String
  windowSeconds : Int
  /-- Exact raw cap to preserve when `decimals` is unknown. -/
  rawFallback : Int
deriving DecidableEq, Repr

structure ProgramPermissionDraft where
  programId : Pubkey
  kind : ProgramAccessKind
  access : Option ProgramAccess
deriving DecidableEq, Repr

def solDraft (solCap : SpendCapView) : AssetCapDraft where
  mint := nativeSolMint
  symbol := solToken.symbol
  icon := solToken.icon
  decimals := some solDecimals
  amount := lamportsToSol solCap.cap
  windowSeconds := solCap.windowSeconds
  rawFallback := solCap.cap

def mintDraft (tokens : List PaymentToken) (m : MintCapView) : AssetCapDraft :=
  let token := tokenOf tokens m.mint
  let decimals := token.map PaymentToken.decimals
  { mint := m.mint
    symbol := (token.map PaymentToken.symbol).getD (shortAddress m.mint.text)
    icon := token.bind PaymentToken.icon
    decimals
    amount := (decimals.map fun decimals => formatTokenAmount m.cap decimals).getD ""
    windowSeconds := m.windowSeconds
    rawFallback := m.cap }

def initialDrafts (solCap : Option SpendCapView) (mintCaps : List MintCapView) (tokens : List PaymentToken) :
    List AssetCapDraft :=
  (solCap.map solDraft).toList ++ mintCaps.map (mintDraft tokens)

def initialPrograms (programPermissions : List ProgramPermissionView) : List ProgramPermissionDraft :=
  programPermissions.map fun p => ⟨p.programId, p.kind, some p.access⟩

/-! ## Saving -/

/-- The encoder refuses a custom draft without rules. -/
def programAccessArg (draft : ProgramPermissionDraft) : Option ProgramAccess :=
  match draft.kind with
  | .allow => some .allInstructions
  | .deny => some .denied
  | .custom => draft.access

/-- What the loop over the drafts collects. -/
structure SaveArgs where
  solCapArg : Option SolCapInput
  mintCapArgs : List MintCapInput
  nextErrors : List (Pubkey × AmountError)
deriving DecidableEq, Repr

def SaveArgs.addMint (s : SaveArgs) (d : AssetCapDraft) (cap : Int) : SaveArgs :=
  { s with mintCapArgs := s.mintCapArgs ++ [⟨⟨cap, d.windowSeconds⟩, d.mint⟩] }

def SaveArgs.fail (s : SaveArgs) (d : AssetCapDraft) (e : AmountError) : SaveArgs :=
  { s with nextErrors := s.nextErrors ++ [(d.mint, e)] }

def saveDraft (s : SaveArgs) (d : AssetCapDraft) : SaveArgs :=
  if d.mint = nativeSolMint then
    match uiAmountToRaw d.amount solDecimals with
    | .ok cap => { s with solCapArg := some ⟨cap, d.windowSeconds⟩ }
    | .error e => s.fail d e
  else
    match d.decimals with
    | none => s.addMint d d.rawFallback
    | some decimals =>
      match uiAmountToRaw d.amount decimals with
      | .ok cap => s.addMint d cap
      | .error e => s.fail d e

/-- The errors of the drafts, or what is submitted. -/
def commitSave (drafts : List AssetCapDraft) (programs : List ProgramPermissionDraft) :
    Except (List (Pubkey × AmountError)) (Option WalletPolicyInput) :=
  let s := drafts.foldl saveDraft ⟨none, [], []⟩
  let programArgs := programs.mapM fun p =>
    (programAccessArg p).map fun access => (⟨p.programId, access⟩ : ProgramPermission)
  if s.nextErrors ≠ [] then .error s.nextErrors else .ok (programArgs.map fun ps => ⟨s.solCapArg, s.mintCapArgs, ps⟩)

/-- The editor is opened and saved, without an edit. -/
def openAndSave (tokens : List PaymentToken) (view : WalletPolicyView) :
    Except (List (Pubkey × AmountError)) (Option WalletPolicyInput) :=
  commitSave (initialDrafts view.solCap view.mintCaps (assetCatalog tokens)) (initialPrograms view.programPermissions)

example : openAndSave [] ⟨.limited, true, some ⟨1500, 7, 3, 60⟩, [], []⟩ = .ok (some ⟨some ⟨1500, 60⟩, [], []⟩) := by
  decide +kernel

/-! ## What an open editor submits -/

/-- The limits of a view, without what is used of them. -/
def limitsOf (view : WalletPolicyView) : WalletPolicyInput where
  solCap := view.solCap.map fun c => ⟨c.cap, c.windowSeconds⟩
  mintCaps := view.mintCaps.map fun m => ⟨⟨m.cap, m.windowSeconds⟩, m.mint⟩
  programPermissions := view.programPermissions.map fun p => ⟨p.programId, p.access⟩

theorem saveDraft_sol {s : SaveArgs} {c : SpendCapView} (h : 0 < c.cap) :
    saveDraft s (solDraft c) = { s with solCapArg := some ⟨c.cap, c.windowSeconds⟩ } := by
  obtain ⟨raw, hraw⟩ := Int.eq_ofNat_of_zero_le h.le
  have hround : uiAmountToRaw (lamportsToSol c.cap) solDecimals = .ok c.cap := by
    rw [hraw]
    exact uiAmountToRaw_formatTokenAmount (by omega) solDecimals
  have hamount : (solDraft c).amount = lamportsToSol c.cap := rfl
  unfold saveDraft
  rw [if_pos (show (solDraft c).mint = nativeSolMint from rfl), hamount, hround]
  rfl

/-- **A draft of a mint** submits its cap, whether the mint is known or not. -/
theorem saveDraft_mint {s : SaveArgs} {tokens : List PaymentToken} {m : MintCapView} (h : 0 < m.cap)
    (hmint : m.mint ≠ nativeSolMint) :
    saveDraft s (mintDraft tokens m) =
      { s with mintCapArgs := s.mintCapArgs ++ [⟨⟨m.cap, m.windowSeconds⟩, m.mint⟩] } := by
  unfold saveDraft
  rw [if_neg (show (mintDraft tokens m).mint ≠ nativeSolMint from hmint)]
  cases htoken : tokenOf tokens m.mint with
  | none => simp [mintDraft, htoken, SaveArgs.addMint]
  | some token =>
    obtain ⟨raw, hraw⟩ := Int.eq_ofNat_of_zero_le h.le
    have hround : uiAmountToRaw (formatTokenAmount m.cap token.decimals) token.decimals = .ok m.cap := by
      rw [hraw]
      exact uiAmountToRaw_formatTokenAmount (by omega) token.decimals
    simp [mintDraft, htoken, hround, SaveArgs.addMint]

theorem foldl_mintDrafts {tokens : List PaymentToken} {mints : List MintCapView}
    (h : ∀ m ∈ mints, 0 < m.cap ∧ m.mint ≠ nativeSolMint) (s : SaveArgs) :
    (mints.map (mintDraft tokens)).foldl saveDraft s =
      { s with mintCapArgs := s.mintCapArgs ++ mints.map fun m => ⟨⟨m.cap, m.windowSeconds⟩, m.mint⟩ } := by
  induction mints generalizing s with
  | nil => simp
  | cons m mints ih =>
    have hm := h m List.mem_cons_self
    rw [List.map_cons, List.foldl_cons, saveDraft_mint hm.1 hm.2, ih fun m' hm' => h m' (List.mem_cons_of_mem _ hm')]
    simp

/-- The access that is submitted is the one that was opened. -/
theorem programAccessArg_initial (access : ProgramAccess) (programId : Pubkey) :
    programAccessArg ⟨programId, accessKind access, some access⟩ = some access := by
  cases access <;> rfl

theorem programArgs_initial (permissions : List ProgramPermission) :
    ((initialPrograms (permissions.map permissionView)).mapM fun p =>
      (programAccessArg p).map fun access => (⟨p.programId, access⟩ : ProgramPermission)) = some permissions := by
  induction permissions with
  | nil => rfl
  | cons p permissions ih =>
    rw [initialPrograms, List.map_cons, List.map_cons, List.mapM_cons]
    simp only [permissionView, programAccessArg_initial]
    rw [← initialPrograms, ih]
    rfl

/-- **Without an edit**, the editor submits the limits that it was opened with. -/
theorem openAndSave_limits {tokens : List PaymentToken} {view : WalletPolicyView} {permissions : List ProgramPermission}
    (hsol : ∀ c ∈ view.solCap, 0 < c.cap) (hmints : ∀ m ∈ view.mintCaps, 0 < m.cap ∧ m.mint ≠ nativeSolMint)
    (hpermissions : view.programPermissions = permissions.map permissionView) :
    openAndSave tokens view = .ok (some (limitsOf view)) := by
  have hlimits : (view.programPermissions.map fun p => (⟨p.programId, p.access⟩ : ProgramPermission)) =
      permissions := by
    rw [hpermissions, List.map_map]
    exact List.map_id permissions
  unfold openAndSave commitSave initialDrafts limitsOf
  rw [List.foldl_append, hlimits]
  cases hcap : view.solCap with
  | none => simp [foldl_mintDrafts hmints, hpermissions, programArgs_initial]
  | some c => simp [saveDraft_sol (hsol c hcap), foldl_mintDrafts hmints, hpermissions, programArgs_initial]

/-! ## What such a save does -/

/-- The arguments say what the policy has already. -/
structure KeepsPolicy (args : WalletPolicyArgs) (p : Policy) : Prop where
  sol : args.solCap = if p.sol.isActive then some ⟨p.sol.cap, p.sol.windowSeconds⟩ else none
  mints : args.mintCaps = p.mints.map fun m => ⟨m.mint, m.cap.cap, m.cap.windowSeconds⟩
  permissions : args.programPermissions = p.permissions

theorem solCapInput_injective : Function.Injective fun s : SolCapArg =>
    (⟨s.cap.toNat, s.windowSeconds.toInt⟩ : SolCapInput) := by
  rintro ⟨cap, window⟩ ⟨cap', window'⟩ h
  rw [SolCapInput.mk.injEq, Int.natCast_inj, UInt64.toNat_inj, Int64.toInt_inj] at h
  exact congr (congrArg SolCapArg.mk h.1) h.2

theorem mintCapInput_injective : Function.Injective fun m : MintCapArg =>
    (⟨⟨m.cap.toNat, m.windowSeconds.toInt⟩, m.mint⟩ : MintCapInput) := by
  rintro ⟨mint, cap, window⟩ ⟨mint', cap', window'⟩ h
  rw [MintCapInput.mk.injEq, SolCapInput.mk.injEq, Int.natCast_inj, UInt64.toNat_inj, Int64.toInt_inj] at h
  exact congr (congr (congrArg MintCapArg.mk h.2) h.1.1) h.1.2

/-- An unchanged cap stays as it is. -/
theorem savedCap_same {c new : SpendCap} {now : Int64} (h : SavedCap c.cap c.windowSeconds now (some c) new) :
    new = c := by
  obtain ⟨fresh, hfresh, rfl⟩ := h
  obtain ⟨-, hcap, -, hwindow⟩ := newSpendCap_ok hfresh
  exact preserveSpendCap_same c fresh hcap.symm hwindow.symm

theorem find?_of_nodup {mints : List MintCap} (h : (mints.map MintCap.mint).Nodup) {m : MintCap} (hm : m ∈ mints) :
    (mints.find? fun o => o.mint = m.mint) = some m := by
  induction mints with
  | nil => cases hm
  | cons o mints ih =>
    rw [List.map_cons, List.nodup_cons] at h
    rcases List.mem_cons.1 hm with rfl | hm
    · rw [List.find?_cons_of_pos (by simp)]
    · rw [List.find?_cons_of_neg, ih h.2 hm]
      rw [decide_eq_true_iff]
      intro heq
      exact h.1 (heq ▸ List.mem_map_of_mem hm)

/-- The policy that an account reads as. -/
def policyOf (l : Life) : Policy := l.policy.getD .initial

theorem lifeView_sol (l : Life) :
    (lifeView l).solCap = if (policyOf l).sol.isActive then some (spendCapView (policyOf l).sol) else none := by
  rw [lifeView_solCap, policyOf]
  cases l.policy with
  | none => rfl
  | some p => cases hactive : p.sol.isActive <;> simp [hactive]

theorem toNat_pos {x : UInt64} (h : 0 < x) : (0 : Int) < x.toNat := by
  have hlt := UInt64.lt_iff_toNat_lt.1 h
  exact_mod_cast hlt

section Sizes

variable [HeapSizes] {l : Life}

theorem policyOf_sound (hsound : ∀ p, l.policy = some p → p.Sound) :
    ((policyOf l).sol = .empty ∨ (policyOf l).sol.Sound) ∧ (∀ m ∈ (policyOf l).mints, isWsolMint m.mint = false ∧
      m.cap.Sound) ∧ ((policyOf l).mints.map MintCap.mint).Nodup := by
  cases hp : l.policy with
  | none => simp [policyOf, hp, Policy.initial]
  | some p =>
    have hs := hsound p hp
    rw [policyOf, hp, Option.getD_some]
    exact ⟨hs.sol, fun m hm => (hs.mints m hm).2, hs.distinct⟩

theorem lifeView_mints (hsound : ∀ p, l.policy = some p → p.Sound) : (lifeView l).mintCaps =
    (policyOf l).mints.map fun m => ({ spendCapView m.cap with mint := m.mint } : MintCapView) := by
  rw [lifeView_mintCaps hsound, policyOf]
  cases l.policy <;> rfl

theorem openAndSave_lifeView (hsound : ∀ p, l.policy = some p → p.Sound) (tokens : List PaymentToken) :
    openAndSave tokens (lifeView l) = .ok (some (limitsOf (lifeView l))) := by
  obtain ⟨hsol, hmints, -⟩ := policyOf_sound hsound
  have hpermissions : (lifeView l).programPermissions = (policyOf l).permissions.map permissionView := rfl
  refine openAndSave_limits ?_ ?_ hpermissions
  · intro c hc
    rw [lifeView_sol] at hc
    split at hc
    · next hactive =>
      obtain rfl := Option.some.inj hc
      rcases hsol with hempty | hcap
      · rw [hempty] at hactive
        cases hactive
      · exact toNat_pos hcap.1
    · cases hc
  · intro m hm
    rw [lifeView_mints hsound] at hm
    obtain ⟨stored, hstored, rfl⟩ := List.mem_map.1 hm
    refine ⟨toNat_pos (hmints stored hstored).2.1, ?_⟩
    rintro heq
    have hwsol := (hmints stored hstored).1
    rw [show stored.mint = nativeSolMint from heq] at hwsol
    exact absurd hwsol (by decide)

/-- The arguments that encode what was submitted. -/
theorem keepsPolicy_of_limits {args : WalletPolicyArgs} (hsound : ∀ p, l.policy = some p → p.Sound)
    (h : policyInput args = limitsOf (lifeView l)) : KeepsPolicy args (policyOf l) := by
  have hsol := congrArg WalletPolicyInput.solCap h
  have hmints := congrArg WalletPolicyInput.mintCaps h
  have hpermissions := congrArg WalletPolicyInput.programPermissions h
  refine ⟨?_, ?_, ?_⟩
  · refine Option.map_injective solCapInput_injective (hsol.trans ?_)
    rw [limitsOf, lifeView_sol]
    split <;> rfl
  · refine List.map_injective_iff.2 mintCapInput_injective (hmints.trans ?_)
    rw [limitsOf, lifeView_mints hsound, List.map_map, List.map_map]
    rfl
  · refine hpermissions.trans ?_
    rw [limitsOf]
    show ((policyOf l).permissions.map permissionView).map _ = _
    rw [List.map_map]
    exact List.map_id _

/-- **A save that changes nothing** keeps what is left of every cap, and when it was reset. -/
theorem saved_keeps {args : WalletPolicyArgs} {now : Int64} {p : Policy} (hsound : ∀ p, l.policy = some p → p.Sound)
    (hkeeps : KeepsPolicy args (policyOf l)) (hsaved : Saved args now l.policy p) : p = policyOf l := by
  obtain ⟨hsol, -, hnodup⟩ := policyOf_sound hsound
  have hold : (l.policy.map Policy.sol).filter SpendCap.isActive =
      if (policyOf l).sol.isActive then some (policyOf l).sol else none := by
    rw [policyOf]
    cases l.policy with
    | none => rfl
    | some p => cases hactive : p.sol.isActive <;> simp [hactive]
  have holdMints : (l.policy.map Policy.mints).getD [] = (policyOf l).mints := by
    rw [policyOf]
    cases l.policy <;> rfl
  have hsolEq : p.sol = (policyOf l).sol := by
    cases hactive : (policyOf l).sol.isActive with
    | true =>
      have hargs := hkeeps.sol
      rw [if_pos hactive] at hargs
      have hcap := hsaved.sol _ hargs
      rw [hold, if_pos hactive] at hcap
      exact savedCap_same hcap
    | false =>
      have hargs := hkeeps.sol
      rw [hactive] at hargs
      rw [hsaved.noSol hargs]
      rcases hsol with hempty | hcap
      · exact hempty.symm
      · have hpos := hcap.1
        have hzero : (policyOf l).sol.cap = 0 := by simpa [SpendCap.isActive] using hactive
        rw [hzero] at hpos
        exact absurd hpos (by decide)
  have hmintsEq : (policyOf l).mints = p.mints := by
    have hmints := hsaved.mints
    rw [hkeeps.mints, List.forall₂_map_left_iff, holdMints] at hmints
    refine List.forall₂_eq_eq_eq ▸ (List.forall₂_iff_get.2 ⟨hmints.length_eq, fun i hi hi' => ?_⟩)
    obtain ⟨hmint, hcap⟩ := (List.forall₂_iff_get.1 hmints).2 i hi hi'
    simp only [List.get_eq_getElem] at hmint hcap ⊢
    rw [find?_of_nodup hnodup (List.getElem_mem hi), Option.map_some] at hcap
    have hsame := savedCap_same hcap
    cases hget : p.mints[i] with
    | mk mint cap =>
      rw [hget] at hmint hsame
      cases hstored : (policyOf l).mints[i] with
      | mk mint' cap' =>
        rw [hstored] at hmint hsame
        rw [show mint = mint' from hmint, show cap = cap' from hsame]
  cases hq : policyOf l with
  | mk sol mints permissions =>
    rw [hq] at hsolEq hmintsEq hkeeps
    cases p with
    | mk sol' mints' permissions' =>
      have hperm := hsaved.permissions.trans hkeeps.permissions
      rw [show sol' = sol from hsolEq, show mints' = mints from hmintsEq.symm,
        show permissions' = permissions from hperm]

theorem readPolicy_of_life {account : Account} (hs : Stored account l) :
    readPolicy account.data = .ok ((policyOf l).sol, (policyOf l).mints, (policyOf l).permissions) :=
  readPolicy_stored hs

variable {kit : KitDecoders} {key : Pubkey} {bank₀ bank : Bank} {es : List LifeEvent}

/-- **A save without an edit**: every positive amount is parsed back from its text, and in every state of an authority
account, for every token list, the editor that is opened and saved submits the limits that are stored; the program then
leaves the policy with all that remains of it. -/
theorem noop_save (hkit : kit.Documented) (hnew : (bank₀ key).owner ≠ crateId)
    (hrun : Run (LifeStep key) bank₀ es bank) (hexists : (bank key).owner = crateId) (tokens : List PaymentToken) :
    (∀ raw decimals : Nat, 0 < raw → uiAmountToRaw (formatTokenAmount raw decimals) decimals = .ok raw) ∧
    ∃ view, viewOfData kit (bank key).data = some view ∧ openAndSave tokens view = .ok (some (limitsOf view)) ∧
      ∀ rt : Runtime, rt.Lawful → ∀ accounts args bank', accounts.authorityAccount.key = key →
        policyInput args = limitsOf view → setWalletPolicy rt accounts args bank = .ok bank' →
        readPolicy (bank' key).data = readPolicy (bank key).data := by
  have htracked : Tracked key bank₀ es bank :=
    hrun.tracked (I := Tracked key bank₀) (Or.inl hnew) fun es e s s' hr ht hstep => hstep.tracked hr ht
  obtain ⟨l, hl⟩ := htracked.history hexists
  refine ⟨fun raw decimals h => uiAmountToRaw_formatTokenAmount h decimals, lifeView l,
    viewOfData_stored hkit hl.stored, openAndSave_lifeView hl.stored.sound tokens, ?_⟩
  rintro rt hrt accounts args bank' rfl hargs hsave
  obtain ⟨p, hsaved, hs⟩ := setWalletPolicy_stored hrt hl.stored hsave
  have hkeeps := keepsPolicy_of_limits hl.stored.sound hargs
  have hp := saved_keeps hl.stored.sound hkeeps hsaved
  rw [hs.readPolicy rfl, readPolicy_of_life hl.stored, hp]

end Sizes

theorem savedBank_run : Run (@LifeStep targetHeapSizes (.fill 7)) lifecycleBank
    [.setAuthority (lifecycleSetAuthority.header lifecycleRuntime (.fill 6)),
      .setWalletPolicy lifecyclePolicy lifecycleRuntime.unixTimestamp] (savedBank lifecycleRuntime) := by
  let _ := targetHeapSizes
  exact .snoc createdBank_run (.setWalletPolicy lifecycleRuntime_lawful rfl (eq_ok_bankOf (by decide +kernel)))

/-- The account after 30 of the 50 are spent. -/
def spentBank : Bank :=
  bankOf ((@execute targetHeapSizes lifecycleRuntime transferAccounts (transferRemaining []) [transferInstruction]
    ⟨0, 0, []⟩ 3 (savedBank lifecycleRuntime)).map Executed.bank)

theorem spentBank_run : Run (@LifeStep targetHeapSizes (.fill 7)) lifecycleBank
    [.setAuthority (lifecycleSetAuthority.header lifecycleRuntime (.fill 6)),
      .setWalletPolicy lifecyclePolicy lifecycleRuntime.unixTimestamp, .execute] spentBank := by
  let _ := targetHeapSizes
  have hspent : (execute lifecycleRuntime transferAccounts (transferRemaining []) [transferInstruction] ⟨0, 0, []⟩ 3
      (savedBank lifecycleRuntime)).map Executed.bank = .ok spentBank := eq_ok_bankOf (by decide +kernel)
  obtain ⟨x, hx, hbank⟩ := exists_of_map_eq_ok hspent
  exact hbank ▸ .snoc savedBank_run (.execute lifecycleRuntime_lawful rfl hx)

/-- A save without an edit where 30 of the 50 are spent leaves the other 20, and the window as it was. -/
theorem noop_save_spent :
    (∀ raw decimals : Nat, 0 < raw → uiAmountToRaw (formatTokenAmount raw decimals) decimals = .ok raw) ∧
    ∃ view bank', viewOfData kitDecoders (spentBank (.fill 7)).data = some view ∧
      openAndSave [] view = .ok (some (policyInput lifecyclePolicy)) ∧
      @setWalletPolicy targetHeapSizes lifecycleRuntime lifecycleSetWalletPolicy lifecyclePolicy spentBank = .ok bank' ∧
      (@readPolicy targetHeapSizes (bank' (.fill 7)).data).map Prod.fst = .ok ⟨50, 20, 0, 86400⟩ := by
  let _ := targetHeapSizes
  obtain ⟨htext, view, hview, hopen, hkept⟩ :=
    noop_save kitDecoders_documented (by decide +kernel) spentBank_run (by decide +kernel) []
  have hlimits : (viewOfData kitDecoders (spentBank (.fill 7)).data).map limitsOf = some (policyInput lifecyclePolicy) := by
    decide +kernel
  rw [hview, Option.map_some] at hlimits
  have hsame := Option.some.inj hlimits
  have hsave : setWalletPolicy lifecycleRuntime lifecycleSetWalletPolicy lifecyclePolicy spentBank = .ok _ :=
    eq_ok_bankOf (by decide +kernel)
  have hread : (readPolicy (spentBank (.fill 7)).data).map Prod.fst = .ok ⟨50, 20, 0, 86400⟩ := by decide +kernel
  refine ⟨htext, view, _, hview, by rw [hopen, hsame], hsave, ?_⟩
  rw [← hread]
  exact congrArg _ (hkept lifecycleRuntime lifecycleRuntime_lawful _ _ _ rfl hsame.symm hsave)

end PhygitalWallet.App
