import PhygitalWallet.Program.Policy

/-!
# What the meter measures

The loops of the meter walk a list of accounts that can repeat. This module says what they compute as sums and
conditions over the set of listed keys: `ownedView` and `spendableView` are the token accounts that the wallet owns or
can spend, `mintLoss` and `solTotal` are what the caps meter, `ControlKept` and `Uncapped` are the conditions.

- `checkPolicyAndSnapshot_ok`: the snapshot;
- `measureDeltas_ok`, `measureDeltas_error`: what a measure that succeeds has found, and what one that fails has found.
-/

namespace PhygitalWallet

open ListLoop

/-! ## Token accounts of the wallet -/

/-- The token account at a key. -/
def tokenViewAt (bank : Bank) (k : Pubkey) : Option TokenAccountView :=
  if isTokenProgram (bank k).owner then tokenAccountView (bank k).data else none

/-- The token account at a key, where the wallet owns it. -/
def ownedView (wallet : Pubkey) (bank : Bank) (k : Pubkey) : Option TokenAccountView :=
  (tokenViewAt bank k).filter fun v => v.owner = wallet

/-- The token account at a key, where the wallet owns it or is its delegate. -/
def spendableView (wallet : Pubkey) (bank : Bank) (k : Pubkey) : Option TokenAccountView :=
  (tokenViewAt bank k).filter fun v => v.owner = wallet || v.delegate = some wallet

/-- The amount that `token_account_view` reads, and zero where it reads none. -/
def amountAt (bank : Bank) (k : Pubkey) : Nat :=
  (((tokenAccountView (bank k).data).map TokenAccountView.amount).getD 0).toNat

/-- The wrapped SOL that the wallet owns at a key. -/
def wsolAmount (wallet : Pubkey) (bank : Bank) (k : Pubkey) : UInt64 :=
  match ownedView wallet bank k with
  | some v => if isWsolMint v.mint then v.amount else 0
  | none => 0

theorem ownedView_eq_some {wallet : Pubkey} {bank : Bank} {k : Pubkey} {v : TokenAccountView} :
    ownedView wallet bank k = some v ↔ tokenViewAt bank k = some v ∧ v.owner = wallet := by
  simp [ownedView, Option.filter_eq_some_iff]

theorem spendableView_eq_some {wallet : Pubkey} {bank : Bank} {k : Pubkey} {v : TokenAccountView} :
    spendableView wallet bank k = some v ↔
      tokenViewAt bank k = some v ∧ (v.owner = wallet ∨ v.delegate = some wallet) := by
  simp [spendableView, Option.filter_eq_some_iff]

theorem tokenViewAt_eq_some {bank : Bank} {k : Pubkey} {v : TokenAccountView} :
    tokenViewAt bank k = some v ↔ isTokenProgram (bank k).owner = true ∧ tokenAccountView (bank k).data = some v := by
  unfold tokenViewAt
  split <;> simp_all

theorem amountAt_of_view {bank : Bank} {k : Pubkey} {v : TokenAccountView} (h : tokenViewAt bank k = some v) :
    amountAt bank k = v.amount.toNat := by
  simp [amountAt, (tokenViewAt_eq_some.1 h).2]

/-! ## Saturating sums -/

@[simp] theorem saturatingAdd_zero (a : UInt64) : saturatingAdd a 0 = a := by
  have := a.toNat_lt
  simp [saturatingAdd]
  omega

theorem toNat_saturatingAdd (a b : UInt64) : (saturatingAdd a b).toNat = min (a.toNat + b.toNat) (2 ^ 64 - 1) := by
  unfold saturatingAdd
  split
  · next h =>
    rw [UInt64.toNat_add, Nat.mod_eq_of_lt h]
    omega
  · next h =>
    have : (UInt64.ofNat (2 ^ 64 - 1)).toNat = 2 ^ 64 - 1 := rfl
    omega

theorem toNat_saturatingSub (a b : UInt64) : (saturatingSub a b).toNat = a.toNat - b.toNat := by
  unfold saturatingSub
  split
  · next h => rw [UInt64.toNat_sub_of_le a b h]
  · next h =>
    have : ¬b.toNat ≤ a.toNat := h
    simp
    omega

/-- A saturating sum stops at the largest number. -/
theorem toNat_foldl_saturatingAdd (l : List UInt64) (a : UInt64) :
    (l.foldl saturatingAdd a).toNat = min (a.toNat + (l.map UInt64.toNat).sum) (2 ^ 64 - 1) := by
  induction l generalizing a with
  | nil =>
    have := a.toNat_lt
    simp
    omega
  | cons b l ih =>
    rw [List.foldl_cons, ih, toNat_saturatingAdd, List.map_cons, List.sum_cons]
    omega

/-! ## The snapshot -/

/-- What the snapshot loop tracks of an account. -/
def trackOf (mintCaps : List MintCap) (wallet : Pubkey) (bank : Bank) (chargeSol limits : Bool)
    (entry : AccountInfo × Nat) : Option TrackedAccount :=
  match tokenViewAt bank entry.1.key with
  | none => none
  | some view =>
    let walletOwned : Bool := view.owner = wallet
    let spendable : Bool := walletOwned || view.delegate = some wallet
    if !(walletOwned || limits && spendable) then none
    else some
      { remainingIndex := entry.2, capSlot := if spendable then capPosition mintCaps view.mint else none,
        amountBefore := view.amount, walletOwned, isSol := chargeSol && walletOwned && isWsolMint view.mint,
        mint := view.mint, closeAuthority := view.closeAuthority }

/-- The wrapped SOL that folds into the SOL cap. -/
def foldedSol (wallet : Pubkey) (bank : Bank) (chargeSol : Bool) (k : Pubkey) : UInt64 :=
  if chargeSol then wsolAmount wallet bank k else 0

theorem snapshotAccount_eq (mintCaps : List MintCap) (wallet : Pubkey) (bank : Bank) (remaining : List AccountInfo)
    (s : PolicySnapshot) (e : AccountInfo × Nat) :
    snapshotAccount mintCaps wallet bank remaining s e =
      if isDup AccountInfo.key remaining e.1 e.2 then s
      else { s with
        solBefore := saturatingAdd s.solBefore (foldedSol wallet bank s.chargeSol e.1.key)
        tracked := s.tracked ++ (trackOf mintCaps wallet bank s.chargeSol s.spendingLimitsActive e).toList } := by
  obtain ⟨acc, idx⟩ := e
  have hpos : ∀ m, mintCaps = [] → none = capPosition mintCaps m := by
    rintro m rfl
    rfl
  unfold snapshotAccount trackOf foldedSol wsolAmount ownedView tokenViewAt
  by_cases hprog : isTokenProgram (bank acc.key).owner
  · by_cases hdup : isDup AccountInfo.key remaining acc idx
    · simp [hprog, hdup]
    · cases hview : tokenAccountView (bank acc.key).data with
      | none => simp [hprog, hdup, hview]
      | some view =>
        by_cases hown : view.owner = wallet
        · cases hw : isWsolMint view.mint <;> simp [hprog, hdup, hview, hown, hw, Option.filter]
          · exact hpos _
          · exact ⟨by split <;> simp, hpos _⟩
        · by_cases hdel : view.delegate = some wallet
          · cases hl : s.spendingLimitsActive <;> simp [hprog, hdup, hview, hown, hdel, Option.filter]
            exact hpos _
          · simp [hprog, hdup, hview, hown, hdel, Option.filter]
  · simp [hprog]

/-- The snapshot as one value. -/
def snapshotOf (sol : SpendCap) (mintCaps : List MintCap) (permissions : List ProgramPermission) (wallet : Pubkey)
    (bank : Bank) (remaining : List AccountInfo) : PolicySnapshot where
  solBefore := ((firsts AccountInfo.key remaining).map fun e => foldedSol wallet bank sol.isActive e.1.key).foldl
    saturatingAdd (bank wallet).lamports
  chargeSol := sol.isActive
  spendingLimitsActive := sol.isActive || 0 < mintCaps.length
  tracked := (firsts AccountInfo.key remaining).filterMap
    (trackOf mintCaps wallet bank sol.isActive (sol.isActive || 0 < mintCaps.length))
  programPermissions := permissions

theorem foldl_snapshotAccount (mintCaps : List MintCap) (wallet : Pubkey) (bank : Bank) (remaining : List AccountInfo)
    (es : List (AccountInfo × Nat)) (s : PolicySnapshot) :
    es.foldl (snapshotAccount mintCaps wallet bank remaining) s = { s with
      solBefore := ((es.filter fun e => !isDup AccountInfo.key remaining e.1 e.2).map fun e =>
        foldedSol wallet bank s.chargeSol e.1.key).foldl saturatingAdd s.solBefore
      tracked := s.tracked ++ (es.filter fun e => !isDup AccountInfo.key remaining e.1 e.2).filterMap
        (trackOf mintCaps wallet bank s.chargeSol s.spendingLimitsActive) } := by
  induction es generalizing s with
  | nil => simp
  | cons e es ih =>
    rw [List.foldl_cons, snapshotAccount_eq]
    by_cases hdup : isDup AccountInfo.key remaining e.1 e.2
    · rw [if_pos hdup, ih, List.filter_cons_of_neg (by simp [hdup])]
    · rw [if_neg hdup, ih, List.filter_cons_of_pos (by simp [hdup]), List.map_cons, List.foldl_cons,
        List.filterMap_cons]
      cases trackOf mintCaps wallet bank s.chargeSol s.spendingLimitsActive e with
      | none => simp
      | some t => simp

theorem checkPolicyAndSnapshot_eq [HeapSizes] {policyData : Bytes} {sol : SpendCap} {mintCaps : List MintCap}
    {permissions : List ProgramPermission} (h : readPolicy policyData = .ok (sol, mintCaps, permissions))
    (wallet : Pubkey) (bank : Bank) (remaining : List AccountInfo) :
    checkPolicyAndSnapshot policyData wallet bank remaining =
      .ok (snapshotOf sol mintCaps permissions wallet bank remaining) := by
  rw [checkPolicyAndSnapshot, h]
  simp only [ok_bind, foldl_snapshotAccount, List.nil_append]
  rfl

theorem checkPolicyAndSnapshot_ok [HeapSizes] {policyData : Bytes} {wallet : Pubkey} {bank : Bank}
    {remaining : List AccountInfo} {snapshot : PolicySnapshot}
    (h : checkPolicyAndSnapshot policyData wallet bank remaining = .ok snapshot) :
    ∃ sol mintCaps permissions, readPolicy policyData = .ok (sol, mintCaps, permissions) ∧
      snapshot = snapshotOf sol mintCaps permissions wallet bank remaining := by
  have h' := h
  rw [checkPolicyAndSnapshot, bind_eq_ok] at h'
  obtain ⟨⟨sol, mintCaps, permissions⟩, hread, -⟩ := h'
  refine ⟨sol, mintCaps, permissions, hread, ?_⟩
  rw [checkPolicyAndSnapshot_eq hread] at h
  exact (Except.ok.inj h).symm

/-! ## Sums over the listed keys -/

/-- The accounts that a list names. -/
def listedKeys (remaining : List AccountInfo) : Finset Pubkey := (remaining.map AccountInfo.key).toFinset

/-- Native lamports plus the wrapped SOL that folds into the SOL cap. -/
def solTotal (wallet : Pubkey) (chargeSol : Bool) (bank : Bank) (keys : Finset Pubkey) : Nat :=
  (bank wallet).lamports.toNat + ∑ k ∈ keys, (foldedSol wallet bank chargeSol k).toNat

theorem foldl_foldedSol (wallet : Pubkey) (chargeSol : Bool) (bank : Bank) (remaining : List AccountInfo) :
    (((firsts AccountInfo.key remaining).map fun e => foldedSol wallet bank chargeSol e.1.key).foldl saturatingAdd
      (bank wallet).lamports).toNat = min (solTotal wallet chargeSol bank (listedKeys remaining)) (2 ^ 64 - 1) := by
  rw [toNat_foldl_saturatingAdd, List.map_map, solTotal, listedKeys,
    ← sum_firsts AccountInfo.key remaining fun k => (foldedSol wallet bank chargeSol k).toNat]
  rfl

/-- What a key adds to the spend of a cap slot. -/
def mintLoss (mintCaps : List MintCap) (wallet : Pubkey) (before after : Bank) (slot : Nat) (k : Pubkey) : Nat :=
  match spendableView wallet before k with
  | some v => if capPosition mintCaps v.mint = some slot then v.amount.toNat - amountAt after k else 0
  | none => 0

/-! ## Conditions on a key -/

/-- The account is closed, or still a token account of the wallet with this mint and close authority. -/
def KeepsControl (wallet : Pubkey) (account : Account) (mint : Pubkey) (closeAuthority : Option Pubkey) : Prop :=
  match tokenAccountView account.data with
  | some w => isTokenProgram account.owner = true ∧ w.owner = wallet ∧ w.mint = mint ∧ w.closeAuthority = closeAuthority
  | none => account.data = []

/-- A token account of the wallet is closed, or keeps its program, owner, mint and close authority. -/
def ControlKept (wallet : Pubkey) (before after : Bank) (k : Pubkey) : Prop :=
  ∀ v, ownedView wallet before k = some v → KeepsControl wallet (after k) v.mint v.closeAuthority

/-- An account the wallet can spend, of a mint without a cap and not folded into SOL, keeps its amount. -/
def Uncapped (mintCaps : List MintCap) (chargeSol : Bool) (wallet : Pubkey) (before after : Bank) (k : Pubkey) : Prop :=
  ∀ v, spendableView wallet before k = some v → capPosition mintCaps v.mint = none →
    ¬(chargeSol = true ∧ v.owner = wallet ∧ isWsolMint v.mint = true) → v.amount.toNat ≤ amountAt after k

/-- The conditions that protect control of the wallet's token accounts. -/
structure Controlled (wallet : Pubkey) (before after : Bank) (keys : Finset Pubkey) : Prop where
  kept : ∀ k ∈ keys, ControlKept wallet before after k
  undelegated : ∀ k ∈ keys, ∀ w, ownedView wallet after k = some w → w.delegatedAmount = 0
  closable : ∀ k ∈ keys, ownedView wallet before k = none → ∀ w, ownedView wallet after k = some w →
    w.closeAuthority = none ∨ w.closeAuthority = some wallet

/-- A rejection by a control check. -/
def IsControlError (e : Failure) : Prop := e = .error .tokenAuthorityChanged ∨ e = .error .delegationNotAllowed

/-- A rejection by the meter. -/
def IsSpendError (e : Failure) : Prop := e = .error .mintNotAllowed ∨ e = .error .spendLimitExceeded

/-! ## The loop over the tracked accounts -/

/-- The amount recorded for a slot. -/
def spentOn : List (Nat × UInt64) → Nat → UInt64
  | [], _ => 0
  | (s, total) :: rest, slot => if s = slot then total else spentOn rest slot

theorem toNat_checkedAddU64 {a b c : UInt64} (h : checkedAddU64 a b = some c) : c.toNat = a.toNat + b.toNat := by
  unfold checkedAddU64 at h
  split at h
  · next hlt =>
    cases h
    rw [UInt64.toNat_add, Nat.mod_eq_of_lt hlt]
  · cases h

theorem addSpent_ok {ms ms' : List (Nat × UInt64)} {slot : Nat} {spent : UInt64} (h : addSpent ms slot spent = .ok ms') :
    (∀ j, (spentOn ms' j).toNat = (spentOn ms j).toNat + if j = slot then spent.toNat else 0) ∧
      (∀ j, j ∈ ms'.map Prod.fst ↔ j ∈ ms.map Prod.fst ∨ j = slot) ∧
      ((ms.map Prod.fst).Nodup → (ms'.map Prod.fst).Nodup) := by
  induction ms generalizing ms' with
  | nil =>
    cases h
    refine ⟨fun j => ?_, by simp, by simp⟩
    by_cases hj : j = slot
    · simp [spentOn, hj]
    · simp [spentOn, hj, Ne.symm hj]
  | cons m ms ih =>
    obtain ⟨s, total⟩ := m
    rw [addSpent] at h
    split at h
    · next hs =>
      subst hs
      simp only [bind_eq_ok, okOr_eq_ok, pure_eq_ok] at h
      obtain ⟨c, hc, rfl⟩ := h
      refine ⟨fun j => ?_, by simp, by simp⟩
      by_cases hj : j = s
      · simp [spentOn, hj, toNat_checkedAddU64 hc]
      · simp [spentOn, hj, Ne.symm hj]
    · next hs =>
      simp only [bind_eq_ok, pure_eq_ok] at h
      obtain ⟨rest, hrest, rfl⟩ := h
      obtain ⟨hspent, hmem, hnd⟩ := ih hrest
      refine ⟨fun j => ?_, fun j => ?_, fun h => ?_⟩
      · by_cases hj : s = j
        · subst hj
          simp [spentOn, hs]
        · simp only [spentOn, if_neg hj]
          exact hspent j
      · rw [List.map_cons, List.mem_cons, hmem, List.map_cons, List.mem_cons]
        tauto
      · rw [List.map_cons, List.nodup_cons] at h ⊢
        refine ⟨fun hin => ?_, hnd h.2⟩
        rcases (hmem s).1 hin with hin | rfl
        · exact h.1 hin
        · exact hs rfl

theorem addSpent_error {ms : List (Nat × UInt64)} {slot : Nat} {spent : UInt64} {e : Failure}
    (h : addSpent ms slot spent = .error e) :
    e = .error .spendLimitExceeded ∧ 2 ^ 64 ≤ (spentOn ms slot).toNat + spent.toNat := by
  induction ms with
  | nil => cases h
  | cons m ms ih =>
    obtain ⟨s, total⟩ := m
    rw [addSpent] at h
    split at h
    · next hs =>
      subst hs
      unfold checkedAddU64 at h
      split at h
      · cases h
      · next hlt =>
        cases h
        exact ⟨rfl, by simpa [spentOn] using hlt⟩
    · next hs =>
      cases hrest : addSpent ms slot spent with
      | ok rest =>
        rw [hrest] at h
        cases h
      | error e' =>
        rw [hrest] at h
        cases h
        rw [spentOn, if_neg hs]
        exact ih hrest

/-- The amount an account has lost, as the loop computes it. -/
def lossOf (after : Bank) (k : Pubkey) (amount : UInt64) : UInt64 :=
  saturatingSub amount (((tokenAccountView (after k).data).map TokenAccountView.amount).getD 0)

theorem toNat_lossOf (after : Bank) (k : Pubkey) (amount : UInt64) :
    (lossOf after k amount).toNat = amount.toNat - amountAt after k := toNat_saturatingSub _ _

section Measure

variable {wallet : Pubkey} {before after : Bank} {remaining : List AccountInfo} {mintCaps : List MintCap}
  {chargeSol limits : Bool} {snapshot : PolicySnapshot} {e : AccountInfo × Nat} {t : TrackedAccount}
  {ms ms' : List (Nat × UInt64)}

/-- What `trackOf` records, with the account it records it of. -/
theorem trackOf_eq_some (h : trackOf mintCaps wallet before chargeSol limits e = some t) :
    ∃ v, tokenViewAt before e.1.key = some v ∧ (v.owner = wallet ∨ limits = true ∧ v.delegate = some wallet) ∧
      t.remainingIndex = e.2 ∧ t.capSlot = capPosition mintCaps v.mint ∧ t.amountBefore = v.amount ∧
      (t.walletOwned = true ↔ v.owner = wallet) ∧
      (t.isSol = true ↔ chargeSol = true ∧ v.owner = wallet ∧ isWsolMint v.mint = true) ∧
      t.mint = v.mint ∧ t.closeAuthority = v.closeAuthority := by
  unfold trackOf at h
  cases hv : tokenViewAt before e.1.key with
  | none =>
    rw [hv] at h
    cases h
  | some v =>
    simp only [hv] at h
    split at h
    · cases h
    · next hcond =>
      cases h
      have hspend : v.owner = wallet ∨ limits = true ∧ v.delegate = some wallet := by
        by_cases hown : v.owner = wallet
        · exact Or.inl hown
        · refine Or.inr ?_
          simpa [hown] using hcond
      refine ⟨v, rfl, hspend, rfl, ?_, rfl, by simp, by simp [and_assoc], rfl, rfl⟩
      rw [if_pos]
      rcases hspend with hown | ⟨-, hdel⟩
      · simp [hown]
      · simp [hdel]

/-- What is not tracked the wallet does not own, and cannot spend while a cap is active. -/
theorem trackOf_eq_none (h : trackOf mintCaps wallet before chargeSol limits e = none) :
    ownedView wallet before e.1.key = none ∧ (limits = true → spendableView wallet before e.1.key = none) := by
  unfold trackOf at h
  cases hv : tokenViewAt before e.1.key with
  | none => simp [ownedView, spendableView, hv]
  | some v =>
    simp only [hv] at h
    split at h
    · next hcond =>
      have hcond : ¬v.owner = wallet ∧ (limits = true → ¬v.delegate = some wallet) := by
        cases limits <;> simp_all
      simp [ownedView, spendableView, hv, hcond.1]
      exact hcond.2
    · cases h

theorem requireControl_ok {account : Account}
    (h : requireControl wallet account (tokenAccountView account.data) t = .ok ()) :
    KeepsControl wallet account t.mint t.closeAuthority := by
  unfold KeepsControl
  cases hv : tokenAccountView account.data <;> simpa [hv, requireControl] using h

theorem requireControl_error {account : Account} {view : Option TokenAccountView} {f : Failure}
    (h : requireControl wallet account view t = .error f) : IsControlError f := by
  unfold requireControl require at h
  split at h
  · split at h
    · cases h
    · cases h
      exact Or.inl rfl
  · split at h
    · cases h
    · cases h
      exact Or.inl rfl

theorem recordSpent_ok {spent : UInt64} (h : recordSpent snapshot ms t spent = .ok ms') :
    (t.capSlot = none → snapshot.spendingLimitsActive = true → ¬t.isSol = true → spent = 0) ∧
      (∀ slot, (spentOn ms' slot).toNat =
        (spentOn ms slot).toNat + if t.capSlot = some slot then spent.toNat else 0) ∧
      (∀ j, j ∈ ms'.map Prod.fst → j ∈ ms.map Prod.fst ∨ t.capSlot = some j) ∧
      ((ms.map Prod.fst).Nodup → (ms'.map Prod.fst).Nodup) := by
  unfold recordSpent at h
  split at h
  · next slot hslot =>
    rw [hslot]
    split at h
    · obtain ⟨hspent, hmem, hnd⟩ := addSpent_ok h
      refine ⟨fun h => (by cases h), fun j => ?_, fun j hj => ?_, hnd⟩
      · rw [hspent]
        simp [eq_comm]
      · exact ((hmem j).1 hj).imp_right fun h => by rw [h]
    · next hzero =>
      cases h
      have : spent.toNat = 0 := by
        by_contra hne
        exact hzero (Nat.pos_of_ne_zero hne)
      exact ⟨fun h => (by cases h), fun j => by simp [this], fun j hj => Or.inl hj, id⟩
  · next hslot =>
    rw [hslot]
    have hms : ms' = ms ∧ (snapshot.spendingLimitsActive = true → ¬t.isSol = true → spent = 0) := by
      split at h
      · next hc =>
        simp only [unit_bind_eq_ok, require_eq_ok, pure_eq_ok] at h
        exact ⟨h.2.symm, fun _ _ => h.1⟩
      · next hc =>
        cases h
        exact ⟨rfl, fun h₁ h₂ => absurd ⟨h₁, h₂⟩ hc⟩
    obtain ⟨rfl, hzero⟩ := hms
    exact ⟨fun _ => hzero, fun j => by simp, fun j hj => Or.inl hj, id⟩

theorem recordSpent_error {spent : UInt64} {f : Failure} (h : recordSpent snapshot ms t spent = .error f) :
    IsSpendError f ∧
      ((t.capSlot = none ∧ snapshot.spendingLimitsActive = true ∧ ¬t.isSol = true ∧ spent ≠ 0) ∨
        ∃ slot, t.capSlot = some slot ∧ 2 ^ 64 ≤ (spentOn ms slot).toNat + spent.toNat) := by
  unfold recordSpent at h
  split at h
  · next slot hslot =>
    split at h
    · obtain ⟨rfl, hover⟩ := addSpent_error h
      exact ⟨Or.inr rfl, Or.inr ⟨slot, hslot, hover⟩⟩
    · cases h
  · next hslot =>
    split at h
    · next hc =>
      by_cases hz : spent = 0
      · rw [require_of hz] at h
        cases h
      · rw [require_of_not hz] at h
        cases h
        exact ⟨Or.inl rfl, Or.inl ⟨hslot, hc.1, hc.2, hz⟩⟩
    · cases h

/-- A turn reaches its account. -/
theorem measureTracked_eq (he : remaining[t.remainingIndex]? = some e.1) :
    measureTracked wallet after remaining snapshot ms t =
      (if t.walletOwned then
        requireControl wallet (after e.1.key) (tokenAccountView (after e.1.key).data) t
      else pure ()) >>= fun _ => recordSpent snapshot ms t (lossOf after e.1.key t.amountBefore) := by
  rw [measureTracked, he]
  cases t.walletOwned <;> rfl

/-- What a successful turn has checked and added. -/
theorem measureTracked_ok (he : remaining[e.2]? = some e.1) (hlimits : snapshot.spendingLimitsActive = limits)
    (ht : trackOf mintCaps wallet before chargeSol limits e = some t)
    (h : measureTracked wallet after remaining snapshot ms t = .ok ms') :
    ControlKept wallet before after e.1.key ∧
      (limits = true → Uncapped mintCaps chargeSol wallet before after e.1.key) ∧
      (∀ slot, (spentOn ms' slot).toNat = (spentOn ms slot).toNat
        + mintLoss mintCaps wallet before after slot e.1.key) ∧
      (∀ j, j ∈ ms'.map Prod.fst → j ∈ ms.map Prod.fst ∨ j < mintCaps.length) ∧
      ((ms.map Prod.fst).Nodup → (ms'.map Prod.fst).Nodup) := by
  obtain ⟨v, hv, hspend, hidx, hslot, hamount, howned, hsol, hmint, hclose⟩ := trackOf_eq_some ht
  have hspendable : spendableView wallet before e.1.key = some v :=
    spendableView_eq_some.2 ⟨hv, hspend.imp_right And.right⟩
  rw [measureTracked_eq (e := e) (by rw [hidx, he]), unit_bind_eq_ok] at h
  obtain ⟨hcontrol, hrecord⟩ := h
  obtain ⟨hzero, hspent, hmem, hnd⟩ := recordSpent_ok hrecord
  rw [hslot] at hzero hspent hmem
  rw [hamount] at hzero hspent
  refine ⟨?_, ?_, fun slot => ?_, fun j hj => (hmem j hj).imp_right fun hs => ?_, hnd⟩
  · intro v' hv'
    obtain ⟨hv', hown⟩ := ownedView_eq_some.1 hv'
    obtain rfl : v = v' := Option.some.inj (hv.symm.trans hv')
    rw [if_pos (howned.2 hown)] at hcontrol
    rw [← hmint, ← hclose]
    exact requireControl_ok hcontrol
  · intro hl v' hv' hnone hns
    obtain rfl : v = v' := Option.some.inj (hspendable.symm.trans hv')
    have hz := hzero hnone (hlimits.trans hl) (fun h => hns (hsol.1 h))
    have := toNat_lossOf after e.1.key v.amount
    rw [hz] at this
    simp only [UInt64.toNat_zero] at this
    omega
  · rw [hspent, mintLoss, hspendable, toNat_lossOf]
  · exact List.findIdx?_eq_some_iff_getElem.1 hs |>.1

/-- What a failing turn has found. -/
theorem measureTracked_error {f : Failure} (he : remaining[e.2]? = some e.1)
    (hlimits : snapshot.spendingLimitsActive = limits)
    (ht : trackOf mintCaps wallet before chargeSol limits e = some t)
    (h : measureTracked wallet after remaining snapshot ms t = .error f) :
    IsControlError f ∨ IsSpendError f ∧
      ((limits = true ∧ ¬Uncapped mintCaps chargeSol wallet before after e.1.key) ∨
        ∃ slot, 2 ^ 64 ≤ (spentOn ms slot).toNat + mintLoss mintCaps wallet before after slot e.1.key) := by
  obtain ⟨v, hv, hspend, hidx, hslot, hamount, howned, hsol, hmint, hclose⟩ := trackOf_eq_some ht
  have hspendable : spendableView wallet before e.1.key = some v :=
    spendableView_eq_some.2 ⟨hv, hspend.imp_right And.right⟩
  rw [measureTracked_eq (e := e) (by rw [hidx, he])] at h
  cases hcontrol : (if t.walletOwned then
      requireControl wallet (after e.1.key) (tokenAccountView (after e.1.key).data) t else pure () : Result Unit) with
  | error f' =>
    rw [hcontrol] at h
    cases h
    split at hcontrol
    · exact Or.inl (requireControl_error hcontrol)
    · cases hcontrol
  | ok u =>
    rw [hcontrol, ok_bind] at h
    obtain ⟨hf, hcase⟩ := recordSpent_error h
    refine Or.inr ⟨hf, ?_⟩
    rw [hslot, hamount] at hcase
    rcases hcase with ⟨hnone, hl, hns, hne⟩ | ⟨slot, hs, hover⟩
    · refine Or.inl ⟨hlimits.symm.trans hl, fun hun => hne ?_⟩
      have hle := hun v hspendable hnone (fun h => hns (hsol.2 h))
      apply UInt64.toNat_inj.1
      rw [toNat_lossOf]
      simp only [UInt64.toNat_zero]
      omega
    · refine Or.inr ⟨slot, ?_⟩
      rw [mintLoss, hspendable]
      simp only [hs, if_true]
      rw [toNat_lossOf] at hover
      exact hover

/-- What is not tracked cannot fail a check and adds nothing. -/
theorem untracked_spec (after : Bank) (hcaps : limits = false → mintCaps = [])
    (h : trackOf mintCaps wallet before chargeSol limits e = none) :
    ControlKept wallet before after e.1.key ∧
      (limits = true → Uncapped mintCaps chargeSol wallet before after e.1.key) ∧
      ∀ slot, mintLoss mintCaps wallet before after slot e.1.key = 0 := by
  obtain ⟨howned, hspend⟩ := trackOf_eq_none h
  refine ⟨fun v hv => ?_, fun hl v hv => ?_, fun slot => ?_⟩
  · rw [howned] at hv
    cases hv
  · rw [hspend hl] at hv
    cases hv
  · cases hl : limits with
    | true => rw [mintLoss, hspend hl]
    | false =>
      rw [hcaps hl, mintLoss]
      split <;> simp [capPosition]

/-- The loop over the tracked accounts, when it succeeds. -/
theorem measureLoop_ok (hlimits : snapshot.spendingLimitsActive = limits) (hcaps : limits = false → mintCaps = [])
    {es : List (AccountInfo × Nat)} (hes : ∀ e ∈ es, remaining[e.2]? = some e.1)
    (h : (es.filterMap (trackOf mintCaps wallet before chargeSol limits)).foldlM
      (measureTracked wallet after remaining snapshot) ms = .ok ms') :
    (∀ e ∈ es, ControlKept wallet before after e.1.key ∧
        (limits = true → Uncapped mintCaps chargeSol wallet before after e.1.key)) ∧
      (∀ slot, (spentOn ms' slot).toNat = (spentOn ms slot).toNat
        + (es.map fun e => mintLoss mintCaps wallet before after slot e.1.key).sum) ∧
      (∀ j, j ∈ ms'.map Prod.fst → j ∈ ms.map Prod.fst ∨ j < mintCaps.length) ∧
      ((ms.map Prod.fst).Nodup → (ms'.map Prod.fst).Nodup) := by
  induction es generalizing ms with
  | nil =>
    cases h
    exact ⟨by simp, by simp, fun j hj => Or.inl hj, id⟩
  | cons e es ih =>
    have hes' : ∀ e ∈ es, remaining[e.2]? = some e.1 := fun e he => hes e (List.mem_cons_of_mem _ he)
    rw [List.filterMap_cons] at h
    cases ht : trackOf mintCaps wallet before chargeSol limits e with
    | none =>
      rw [ht] at h
      obtain ⟨hall, hsum, hmem, hnd⟩ := ih hes' h
      obtain ⟨hk, hu, hz⟩ := untracked_spec after hcaps ht
      refine ⟨List.forall_mem_cons.2 ⟨⟨hk, hu⟩, hall⟩, fun slot => ?_, hmem, hnd⟩
      rw [hsum, List.map_cons, List.sum_cons, hz, Nat.zero_add]
    | some t =>
      rw [ht] at h
      simp only [List.foldlM_cons] at h
      obtain ⟨ms₁, hstep, hrest⟩ := bind_eq_ok.1 h
      obtain ⟨hk, hu, hadd, hmem₁, hnd₁⟩ := measureTracked_ok (hes e List.mem_cons_self) hlimits ht hstep
      obtain ⟨hall, hsum, hmem, hnd⟩ := ih hes' hrest
      refine ⟨List.forall_mem_cons.2 ⟨⟨hk, hu⟩, hall⟩, fun slot => ?_, fun j hj => ?_, fun h => hnd (hnd₁ h)⟩
      · rw [hsum, hadd, List.map_cons, List.sum_cons, Nat.add_assoc]
      · rcases hmem j hj with hj | hj
        · exact hmem₁ j hj
        · exact Or.inr hj

/-- The loop over the tracked accounts, when it fails. -/
theorem measureLoop_error {f : Failure} (hlimits : snapshot.spendingLimitsActive = limits)
    (hcaps : limits = false → mintCaps = []) {es : List (AccountInfo × Nat)}
    (hes : ∀ e ∈ es, remaining[e.2]? = some e.1)
    (h : (es.filterMap (trackOf mintCaps wallet before chargeSol limits)).foldlM
      (measureTracked wallet after remaining snapshot) ms = .error f) :
    IsControlError f ∨ IsSpendError f ∧
      ((limits = true ∧ ∃ e ∈ es, ¬Uncapped mintCaps chargeSol wallet before after e.1.key) ∨
        ∃ slot, 2 ^ 64 ≤ (spentOn ms slot).toNat
          + (es.map fun e => mintLoss mintCaps wallet before after slot e.1.key).sum) := by
  induction es generalizing ms with
  | nil => cases h
  | cons e es ih =>
    have hes' : ∀ e ∈ es, remaining[e.2]? = some e.1 := fun e he => hes e (List.mem_cons_of_mem _ he)
    rw [List.filterMap_cons] at h
    simp only [List.map_cons, List.sum_cons]
    cases ht : trackOf mintCaps wallet before chargeSol limits e with
    | none =>
      rw [ht] at h
      obtain ⟨-, -, hz⟩ := untracked_spec after hcaps ht
      rcases ih hes' h with hf | ⟨hf, ⟨hl, e', he', hu⟩ | ⟨slot, hover⟩⟩
      · exact Or.inl hf
      · exact Or.inr ⟨hf, Or.inl ⟨hl, e', List.mem_cons_of_mem _ he', hu⟩⟩
      · exact Or.inr ⟨hf, Or.inr ⟨slot, by rw [hz]; omega⟩⟩
    | some t =>
      rw [ht] at h
      simp only [List.foldlM_cons] at h
      cases hstep : measureTracked wallet after remaining snapshot ms t with
      | error f' =>
        rw [hstep] at h
        cases h
        rcases measureTracked_error (hes e List.mem_cons_self) hlimits ht hstep with hf | ⟨hf, ⟨hl, hu⟩ | ⟨slot, hover⟩⟩
        · exact Or.inl hf
        · exact Or.inr ⟨hf, Or.inl ⟨hl, e, List.mem_cons_self, hu⟩⟩
        · exact Or.inr ⟨hf, Or.inr ⟨slot, by omega⟩⟩
      | ok ms₁ =>
        rw [hstep, ok_bind] at h
        obtain ⟨-, -, hadd, -⟩ := measureTracked_ok (hes e List.mem_cons_self) hlimits ht hstep
        rcases ih hes' h with hf | ⟨hf, ⟨hl, e', he', hu⟩ | ⟨slot, hover⟩⟩
        · exact Or.inl hf
        · exact Or.inr ⟨hf, Or.inl ⟨hl, e', List.mem_cons_of_mem _ he', hu⟩⟩
        · rw [hadd] at hover
          exact Or.inr ⟨hf, Or.inr ⟨slot, by omega⟩⟩

/-! ## The loop over the live accounts -/

/-- What the scan requires of a key. -/
def ScanOK (wallet : Pubkey) (before after : Bank) (k : Pubkey) : Prop :=
  ∀ w, ownedView wallet after k = some w → w.delegatedAmount = 0 ∧
    (ownedView wallet before k = none → w.closeAuthority = none ∨ w.closeAuthority = some wallet)

theorem trackedAsOwned_iff {k : Pubkey} (hk : k ∈ remaining.map AccountInfo.key) :
    trackedAsOwned remaining ((firsts AccountInfo.key remaining).filterMap
      (trackOf mintCaps wallet before chargeSol limits)) k = true ↔ ownedView wallet before k ≠ none := by
  rw [trackedAsOwned, List.any_eq_true]
  constructor
  · rintro ⟨t, ht, hc⟩
    obtain ⟨e, he, ht⟩ := List.mem_filterMap.1 ht
    obtain ⟨v, hv, -, hidx, -, -, howned, -⟩ := trackOf_eq_some ht
    rw [Bool.and_eq_true, decide_eq_true_eq, hidx, mem_firsts he] at hc
    obtain rfl : e.1.key = k := Option.some.inj hc.2
    rw [ownedView_eq_some.2 ⟨hv, howned.1 hc.1⟩]
    exact Option.some_ne_none v
  · intro hne
    obtain ⟨v, hv⟩ := Option.ne_none_iff_exists'.1 hne
    obtain ⟨hv, hown⟩ := ownedView_eq_some.1 hv
    obtain ⟨e, he, rfl⟩ := List.mem_map.1 (((keys_firsts AccountInfo.key remaining).2 k).2 hk)
    cases ht : trackOf mintCaps wallet before chargeSol limits e with
    | none => exact absurd (trackOf_eq_none ht).1 hne
    | some t =>
      obtain ⟨v', hv', -, hidx, -, -, howned, -⟩ := trackOf_eq_some ht
      obtain rfl : v = v' := Option.some.inj (hv.symm.trans hv')
      refine ⟨t, List.mem_filterMap.2 ⟨e, he, ht⟩, ?_⟩
      rw [Bool.and_eq_true, decide_eq_true_eq, hidx, mem_firsts he]
      exact ⟨howned.2 hown, rfl⟩

/-- One turn of the scan. -/
theorem scanAccount_iff {a b : UInt64} (hk : e.1.key ∈ remaining.map AccountInfo.key)
    (htracked : snapshot.tracked = (firsts AccountInfo.key remaining).filterMap
      (trackOf mintCaps wallet before chargeSol limits)) :
    scanAccount wallet after remaining snapshot a e = .ok b ↔ ScanOK wallet before after e.1.key ∧
      b = saturatingAdd a (if isDup AccountInfo.key remaining e.1 e.2 then 0
        else foldedSol wallet after snapshot.chargeSol e.1.key) := by
  have howned : trackedAsOwned remaining snapshot.tracked e.1.key = true ↔ ownedView wallet before e.1.key ≠ none := by
    rw [htracked]
    exact trackedAsOwned_iff hk
  obtain ⟨acc, i⟩ := e
  unfold scanAccount ScanOK foldedSol wsolAmount
  cases hv : ownedView wallet after acc.key with
  | none =>
    have hnone : ∀ v, tokenViewAt after acc.key = some v → v.owner ≠ wallet := fun v hv' hown => by
      rw [ownedView_eq_some.2 ⟨hv', hown⟩] at hv
      cases hv
    by_cases hprog : isTokenProgram (after acc.key).owner
    · cases hview : tokenAccountView (after acc.key).data with
      | none => simp [hprog, hview, eq_comm (a := b)]
      | some v =>
        have := hnone v (tokenViewAt_eq_some.2 ⟨hprog, hview⟩)
        simp [hprog, hview, this, eq_comm (a := b)]
    · simp [hprog, eq_comm (a := b)]
  | some v =>
    obtain ⟨hv', hown⟩ := ownedView_eq_some.1 hv
    obtain ⟨hprog, hview⟩ := tokenViewAt_eq_some.1 hv'
    have hsol : (if (snapshot.chargeSol && !isDup AccountInfo.key remaining acc i && isWsolMint v.mint) = true
        then saturatingAdd a v.amount else a) = saturatingAdd a (if isDup AccountInfo.key remaining acc i = true then 0
          else if snapshot.chargeSol = true then if isWsolMint v.mint = true then v.amount else 0 else 0) := by
      cases snapshot.chargeSol <;> cases isDup AccountInfo.key remaining acc i <;> cases isWsolMint v.mint <;> simp
    simp only [hprog, hview, hown, hsol]
    by_cases htr : trackedAsOwned remaining snapshot.tracked acc.key = true
    · have hne := howned.1 htr
      simp [htr, hne, eq_comm (a := b)]
    · have hnone : ownedView wallet before acc.key = none := by
        by_contra hne
        exact htr (howned.2 hne)
      simp [htr, hnone, and_assoc, eq_comm (a := b)]

theorem scanAccount_error {a : UInt64} {f : Failure} (h : scanAccount wallet after remaining snapshot a e = .error f) :
    IsControlError f := by
  obtain ⟨acc, i⟩ := e
  unfold scanAccount at h
  simp only at h
  split at h
  · cases h
  · split at h
    · cases h
    · next v hv =>
      split at h
      · by_cases hd : v.delegatedAmount = 0
        · rw [require_of hd, ok_bind] at h
          split at h
          · by_cases hc : v.closeAuthority = none ∨ v.closeAuthority = some wallet
            · rw [require_of hc] at h
              cases h
            · rw [require_of_not hc] at h
              cases h
              exact Or.inl rfl
          · cases h
        · rw [require_of_not hd] at h
          cases h
          exact Or.inr rfl
      · cases h

/-- The scan counts every key once. -/
theorem foldl_zipIdx_firsts (f : Pubkey → UInt64) (a : UInt64) :
    remaining.zipIdx.foldl (fun a e => saturatingAdd a (if isDup AccountInfo.key remaining e.1 e.2 then 0
      else f e.1.key)) a = ((firsts AccountInfo.key remaining).map fun e => f e.1.key).foldl saturatingAdd a := by
  rw [List.foldl_map, firsts, List.foldl_filter]
  congr 1
  funext a e
  cases isDup AccountInfo.key remaining e.1 e.2 <;> simp

theorem scanLoop_iff {a b : UInt64} (htracked : snapshot.tracked = (firsts AccountInfo.key remaining).filterMap
      (trackOf mintCaps wallet before chargeSol limits)) :
    remaining.zipIdx.foldlM (scanAccount wallet after remaining snapshot) a = .ok b ↔
      (∀ k ∈ listedKeys remaining, ScanOK wallet before after k) ∧
        b = ((firsts AccountInfo.key remaining).map fun e => foldedSol wallet after snapshot.chargeSol e.1.key).foldl
          saturatingAdd a := by
  have hkey : ∀ e ∈ remaining.zipIdx, e.1.key ∈ remaining.map AccountInfo.key := fun e he =>
    List.mem_map_of_mem (List.fst_mem_of_mem_zipIdx he)
  rw [foldlM_iff (f := scanAccount wallet after remaining snapshot)
    (P := fun e => ScanOK wallet before after e.1.key)
    (fun a e he b => scanAccount_iff (hkey e he) htracked), foldl_zipIdx_firsts]
  refine and_congr_left fun _ => ?_
  constructor
  · intro h k hk
    obtain ⟨acc, hacc, rfl⟩ := List.mem_map.1 (List.mem_toFinset.1 hk)
    obtain ⟨i, hi⟩ := List.getElem?_of_mem hacc
    exact h (acc, i) (List.mk_mem_zipIdx_iff_getElem?.2 hi)
  · exact fun h e he => h _ (List.mem_toFinset.2 (hkey e he))

end Measure

/-! ## The whole measure -/

/-- Some cap is active. -/
def limitsActive (sol : SpendCap) (mintCaps : List MintCap) : Bool := sol.isActive || 0 < mintCaps.length

/-- What a measure that succeeds has found. -/
structure Measured (sol : SpendCap) (mintCaps : List MintCap) (wallet : Pubkey) (before after : Bank)
    (keys : Finset Pubkey) (charges : Charges) : Prop where
  controlled : Controlled wallet before after keys
  uncapped : limitsActive sol mintCaps = true → ∀ k ∈ keys, Uncapped mintCaps sol.isActive wallet before after k
  spent : ∀ slot, (spentOn charges.mintSpent slot).toNat = ∑ k ∈ keys, mintLoss mintCaps wallet before after slot k
  slots_lt : ∀ j ∈ charges.mintSpent.map Prod.fst, j < mintCaps.length
  slots_nodup : (charges.mintSpent.map Prod.fst).Nodup
  solSpent : charges.solSpent.toNat = min (solTotal wallet sol.isActive before keys) (2 ^ 64 - 1)
    - min (solTotal wallet sol.isActive after keys) (2 ^ 64 - 1)

theorem limitsActive_eq_false {sol : SpendCap} {mintCaps : List MintCap} (h : limitsActive sol mintCaps = false) :
    mintCaps = [] := by
  cases mintCaps with
  | nil => rfl
  | cons m ms => simp [limitsActive] at h

section Whole

variable {sol : SpendCap} {mintCaps : List MintCap} {permissions : List ProgramPermission} {wallet : Pubkey}
  {before after : Bank} {remaining : List AccountInfo} {charges : Charges}

theorem snapshotOf_limits : (snapshotOf sol mintCaps permissions wallet before remaining).spendingLimitsActive =
    limitsActive sol mintCaps := rfl

theorem snapshotOf_tracked : (snapshotOf sol mintCaps permissions wallet before remaining).tracked =
    (firsts AccountInfo.key remaining).filterMap
      (trackOf mintCaps wallet before sol.isActive (limitsActive sol mintCaps)) := rfl

/-- **The measure, when it succeeds.** -/
theorem measureDeltas_ok
    (h : measureDeltas wallet after remaining (snapshotOf sol mintCaps permissions wallet before remaining) = .ok charges) :
    Measured sol mintCaps wallet before after (listedKeys remaining) charges := by
  simp only [measureDeltas, bind_eq_ok, pure_eq_ok] at h
  obtain ⟨mintSpent, hmeasure, solAfter, hscan, rfl⟩ := h
  obtain ⟨hall, hsum, hmem, hnd⟩ := measureLoop_ok snapshotOf_limits limitsActive_eq_false (fun e he => mem_firsts he) hmeasure
  obtain ⟨hok, rfl⟩ := (scanLoop_iff snapshotOf_tracked).1 hscan
  have hkeys : ∀ k ∈ listedKeys remaining, ∃ e ∈ firsts AccountInfo.key remaining, e.1.key = k := fun k hk =>
    List.mem_map.1 (((keys_firsts AccountInfo.key remaining).2 k).2 (List.mem_toFinset.1 hk))
  refine ⟨⟨fun k hk => ?_, fun k hk w hw => (hok k hk w hw).1, fun k hk hn w hw => (hok k hk w hw).2 hn⟩,
    fun hl k hk => ?_, fun slot => ?_, fun j hj => ?_, hnd (by simp), ?_⟩
  · obtain ⟨e, he, rfl⟩ := hkeys k hk
    exact (hall e he).1
  · obtain ⟨e, he, rfl⟩ := hkeys k hk
    exact (hall e he).2 hl
  · rw [hsum, sum_firsts AccountInfo.key remaining fun k => mintLoss mintCaps wallet before after slot k]
    simp [spentOn, listedKeys]
  · rcases hmem j hj with hj | hj
    · cases hj
    · exact hj
  · simp only [toNat_saturatingSub]
    rw [snapshotOf]
    simp only [foldl_foldedSol]

/-- **The measure, when it fails.** -/
theorem measureDeltas_error {f : Failure}
    (h : measureDeltas wallet after remaining (snapshotOf sol mintCaps permissions wallet before remaining) = .error f) :
    IsControlError f ∨ IsSpendError f ∧
      ((limitsActive sol mintCaps = true ∧
          ∃ k ∈ listedKeys remaining, ¬Uncapped mintCaps sol.isActive wallet before after k) ∨
        ∃ slot, 2 ^ 64 ≤ ∑ k ∈ listedKeys remaining, mintLoss mintCaps wallet before after slot k) := by
  rw [measureDeltas] at h
  cases hmeasure : (snapshotOf sol mintCaps permissions wallet before remaining).tracked.foldlM
      (measureTracked wallet after remaining (snapshotOf sol mintCaps permissions wallet before remaining)) [] with
  | ok mintSpent =>
    rw [hmeasure, ok_bind] at h
    cases hscan : remaining.zipIdx.foldlM
        (scanAccount wallet after remaining (snapshotOf sol mintCaps permissions wallet before remaining))
        (after wallet).lamports with
    | ok solAfter =>
      rw [hscan] at h
      cases h
    | error f' =>
      rw [hscan] at h
      cases h
      exact Or.inl (foldlM_error (fun a e _ f => scanAccount_error) hscan)
  | error f' =>
    rw [hmeasure] at h
    cases h
    rcases measureLoop_error snapshotOf_limits limitsActive_eq_false (fun e he => mem_firsts he) hmeasure with
      hf | ⟨hf, ⟨hl, e, he, hu⟩ | ⟨slot, hover⟩⟩
    · exact Or.inl hf
    · refine Or.inr ⟨hf, Or.inl ⟨hl, e.1.key, List.mem_toFinset.2 ?_, hu⟩⟩
      exact ((keys_firsts AccountInfo.key remaining).2 _).1 (List.mem_map_of_mem he)
    · refine Or.inr ⟨hf, Or.inr ⟨slot, ?_⟩⟩
      rw [sum_firsts AccountInfo.key remaining fun k => mintLoss mintCaps wallet before after slot k] at hover
      simpa [spentOn, listedKeys] using hover

end Whole

end PhygitalWallet
