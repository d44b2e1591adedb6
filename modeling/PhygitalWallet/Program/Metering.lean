import PhygitalWallet.Program.Charge
import Mathlib.Algebra.Order.BigOperators.Group.Finset

/-!
# No loss goes uncharged

`holdings` is what the wallet owns of a mint over a set of accounts, `spendLoss` what one account has lost of it. The
measure charges a capped mint the total of `spendLoss`, and the control checks keep an account the wallet owned from
leaving `holdings` in any other way.

- `token_metering_sound`: a capped mint is charged at least the net loss, an uncapped one has none;
- `sol_metering_exact`: the SOL cap is charged the exact decrease of lamports plus wrapped SOL.
-/

namespace PhygitalWallet

/-! ## Amounts of one account -/

/-- What the wallet owns of a mint at a key. -/
def ownAmount (wallet mint : Pubkey) (bank : Bank) (k : Pubkey) : Nat :=
  match ownedView wallet bank k with
  | some v => if v.mint = mint then v.amount.toNat else 0
  | none => 0

/-- What an account of the mint that the wallet could spend has lost. -/
def spendLoss (wallet mint : Pubkey) (before after : Bank) (k : Pubkey) : Nat :=
  match spendableView wallet before k with
  | some v => if v.mint = mint then amountAt before k - amountAt after k else 0
  | none => 0

/-- What the wallet owns of a mint over a set of accounts. -/
def holdings (wallet mint : Pubkey) (bank : Bank) (keys : Finset Pubkey) : Nat :=
  ∑ k ∈ keys, ownAmount wallet mint bank k

variable {wallet mint : Pubkey} {before after : Bank} {k : Pubkey} {mintCaps : List MintCap} {slot : Nat}

theorem tokenViewAt_congr (h : after k = before k) : tokenViewAt after k = tokenViewAt before k := by
  rw [tokenViewAt, tokenViewAt, h]

theorem ownedView_congr (h : after k = before k) : ownedView wallet after k = ownedView wallet before k := by
  rw [ownedView, ownedView, tokenViewAt_congr h]

theorem amountAt_congr (h : after k = before k) : amountAt after k = amountAt before k := by
  rw [amountAt, amountAt, h]

theorem spendableView_of_ownedView {v : TokenAccountView} (h : ownedView wallet before k = some v) :
    spendableView wallet before k = some v := by
  obtain ⟨hv, hown⟩ := ownedView_eq_some.1 h
  exact spendableView_eq_some.2 ⟨hv, Or.inl hown⟩

/-- Control is kept, so what the wallet no longer owns at a key was lost there. -/
theorem ownAmount_le (h : ControlKept wallet before after k) :
    ownAmount wallet mint before k ≤ ownAmount wallet mint after k + spendLoss wallet mint before after k := by
  cases hv : ownedView wallet before k with
  | none => simp [ownAmount, hv]
  | some v =>
    have hbefore := amountAt_of_view (ownedView_eq_some.1 hv).1
    have hkeep := h v hv
    rw [spendLoss, spendableView_of_ownedView hv, ownAmount, hv]
    by_cases hm : v.mint = mint
    · simp only [if_pos hm]
      cases hw : tokenAccountView (after k).data with
      | none =>
        have : amountAt after k = 0 := by simp [amountAt, hw]
        omega
      | some w =>
        simp only [KeepsControl, hw] at hkeep
        obtain ⟨hprog, hown, hmint, -⟩ := hkeep
        have hview : tokenViewAt after k = some w := tokenViewAt_eq_some.2 ⟨hprog, hw⟩
        have hafter := amountAt_of_view hview
        rw [ownAmount, ownedView_eq_some.2 ⟨hview, hown⟩]
        simp only [if_pos (hmint.trans hm)]
        omega
    · simp [hm]

theorem spendLoss_of_eq (h : after k = before k) : spendLoss wallet mint before after k = 0 := by
  rw [spendLoss, amountAt_congr h]
  split
  · split <;> omega
  · rfl

/-! ## Sums over accounts -/

/-- The mint at the position of a cap. -/
theorem capPosition_eq_some (h : capPosition mintCaps mint = some slot) (m : Pubkey) :
    capPosition mintCaps m = some slot ↔ m = mint := by
  constructor
  · intro hm
    obtain ⟨hlt, hmint, -⟩ := List.findIdx?_eq_some_iff_getElem.1 h
    obtain ⟨hlt', hm, -⟩ := List.findIdx?_eq_some_iff_getElem.1 hm
    exact (of_decide_eq_true hm).symm.trans (of_decide_eq_true hmint)
  · rintro rfl
    exact h

/-- A capped mint is charged what its accounts lost. -/
theorem mintLoss_eq_spendLoss (h : capPosition mintCaps mint = some slot) :
    mintLoss mintCaps wallet before after slot k = spendLoss wallet mint before after k := by
  unfold mintLoss spendLoss
  cases hv : spendableView wallet before k with
  | none => rfl
  | some v => simp only [capPosition_eq_some h, amountAt_of_view (spendableView_eq_some.1 hv).1]

/-- An uncapped mint other than wrapped SOL loses nothing. -/
theorem spendLoss_of_uncapped {chargeSol : Bool} (h : Uncapped mintCaps chargeSol wallet before after k)
    (hcap : capPosition mintCaps mint = none) (hsol : isWsolMint mint = false) :
    spendLoss wallet mint before after k = 0 := by
  unfold spendLoss
  cases hv : spendableView wallet before k with
  | none => rfl
  | some v =>
    by_cases hm : v.mint = mint
    · subst hm
      have hle := h v hv hcap (by simp [hsol])
      have := amountAt_of_view (spendableView_eq_some.1 hv).1
      simp only [if_true]
      omega
    · simp [hm]

variable {listed keys : Finset Pubkey}

theorem sum_spendLoss_subset (hsub : listed ⊆ keys) (hframe : ∀ k, k ∉ listed → after k = before k) :
    ∑ k ∈ listed, spendLoss wallet mint before after k = ∑ k ∈ keys, spendLoss wallet mint before after k :=
  Finset.sum_subset hsub fun k _ hk => spendLoss_of_eq (hframe k hk)

/-- The net loss of a mint is at most the total loss of its accounts. -/
theorem holdings_le (hframe : ∀ k, k ∉ listed → after k = before k)
    (hkept : ∀ k ∈ listed, ControlKept wallet before after k) :
    holdings wallet mint before keys ≤ holdings wallet mint after keys
      + ∑ k ∈ keys, spendLoss wallet mint before after k := by
  rw [holdings, holdings, ← Finset.sum_add_distrib]
  apply Finset.sum_le_sum
  intro k _
  by_cases hk : k ∈ listed
  · exact ownAmount_le (hkept k hk)
  · rw [ownAmount, ownAmount, ownedView_congr (hframe k hk)]
    exact Nat.le_add_right _ _

/-! ## A transfer of one token account -/

/-- The sizes on the 64-bit target. -/
@[reducible] def targetHeapSizes : HeapSizes := ⟨56, 80, 96, 32⟩

/-- An initialized token account without delegate or close authority. -/
def plainTokenData (mint owner : Pubkey) (amount : UInt64) : Bytes :=
  mint.bytes ++ owner.bytes ++ Borsh.encodeU64 amount ++ List.replicate 36 0 ++ [1] ++ List.replicate 56 0

/-- One token account of a wallet, next to nothing else. -/
def oneTokenBank (mint : Pubkey) (amount : UInt64) : Bank := fun k =>
  if k = .fill 1 then ⟨2039280, splTokenProgramId, plainTokenData mint (.fill 9) amount⟩ else ⟨0, systemProgramId, []⟩

/-- A policy with the given caps and no permissions. -/
def plainPolicy (sol : SpendCap) (mintCaps : List MintCap) : Bytes :=
  policyBytes (List.replicate 112 0) sol mintCaps [0, 0, 0, 0]

def lifetimeCap (cap remaining : UInt64) : SpendCap := ⟨cap, remaining, 0, 0⟩

theorem listedKeys_singleton (a : AccountInfo) : listedKeys [a] = {a.key} := by simp [listedKeys]

theorem frame_oneTokenBank (mint : Pubkey) (a b : UInt64) (k : Pubkey) (hk : k ∉ listedKeys [⟨.fill 1, false, true⟩]) :
    oneTokenBank mint b k = oneTokenBank mint a k := by
  have hne : k ≠ .fill 1 := by
    rintro rfl
    exact hk (by rw [listedKeys_singleton]; exact Finset.mem_singleton_self _)
  rw [oneTokenBank, oneTokenBank, if_neg hne, if_neg hne]

/-! ## Token metering -/

/-- **Token metering soundness.** Under an active cap, in every successful execution that changed listed accounts only:
a capped mint is charged exactly what its spendable accounts lost, which covers the wallet's net loss; an uncapped mint
has no net loss, and no account of it that was delegated to the wallet ends with less. -/
theorem token_metering_sound [HeapSizes] {policyData policyData' : Bytes} {sol : SpendCap} {mintCaps : List MintCap}
    {permissions : List ProgramPermission} {wallet : Pubkey} {before after : Bank} {remaining : List AccountInfo}
    {snapshot : PolicySnapshot} {now : Int64}
    (hpolicy : readPolicy policyData = .ok (sol, mintCaps, permissions))
    (hactive : limitsActive sol mintCaps = true)
    (hframe : ∀ k, k ∉ listedKeys remaining → after k = before k)
    (hsnap : checkPolicyAndSnapshot policyData wallet before remaining = .ok snapshot)
    (hcharge : chargePolicyDeltas policyData wallet after remaining snapshot now = .ok policyData') :
    ∃ charges sol' mintCaps', measureDeltas wallet after remaining snapshot = .ok charges ∧
      readPolicy policyData' = .ok (sol', mintCaps', permissions) ∧
      ChargedCaps now (spentOn charges.mintSpent) mintCaps mintCaps' ∧
      (∀ mint slot, capPosition mintCaps mint = some slot → ∀ keys, listedKeys remaining ⊆ keys →
        (spentOn charges.mintSpent slot).toNat = ∑ k ∈ keys, spendLoss wallet mint before after k ∧
        holdings wallet mint before keys ≤ holdings wallet mint after keys + (spentOn charges.mintSpent slot).toNat) ∧
      (∀ mint, capPosition mintCaps mint = none → isWsolMint mint = false → ∀ keys, listedKeys remaining ⊆ keys →
        holdings wallet mint before keys ≤ holdings wallet mint after keys) ∧
      (∀ k v, tokenViewAt before k = some v → v.delegate = some wallet → capPosition mintCaps v.mint = none →
        v.owner ≠ wallet ∨ isWsolMint v.mint = false → amountAt before k ≤ amountAt after k) := by
  obtain ⟨charges, sol', mintCaps', hmeasure, hm, -, hcaps, -, hread⟩ := chargePolicyDeltas_ok hpolicy hsnap hcharge
  refine ⟨charges, sol', mintCaps', hmeasure, hread, hcaps, ?_, ?_, ?_⟩
  · intro mint slot hslot keys hsub
    have hexact : (spentOn charges.mintSpent slot).toNat = ∑ k ∈ keys, spendLoss wallet mint before after k := by
      rw [hm.spent, ← sum_spendLoss_subset hsub hframe]
      exact Finset.sum_congr rfl fun k _ => mintLoss_eq_spendLoss hslot
    exact ⟨hexact, hexact ▸ holdings_le hframe hm.controlled.kept⟩
  · intro mint hnone hwsol keys hsub
    have hzero : ∑ k ∈ keys, spendLoss wallet mint before after k = 0 := by
      rw [← sum_spendLoss_subset hsub hframe]
      exact Finset.sum_eq_zero fun k hk => spendLoss_of_uncapped (hm.uncapped hactive k hk) hnone hwsol
    have hle : holdings wallet mint before keys ≤ holdings wallet mint after keys
        + ∑ k ∈ keys, spendLoss wallet mint before after k := holdings_le hframe hm.controlled.kept
    omega
  · intro k v hv hdel hnone hns
    by_cases hk : k ∈ listedKeys remaining
    · have hle := hm.uncapped hactive k hk v (spendableView_eq_some.2 ⟨hv, Or.inr hdel⟩) hnone
        (fun h => hns.elim (fun hne => hne h.2.1) (fun hw => by rw [hw] at h; cases h.2.2))
      rw [amountAt_of_view hv]
      exact hle
    · rw [amountAt_congr (hframe k hk)]

theorem token_metering_sound_transfer : ∃ charges : Charges,
    holdings (.fill 9) (.fill 7) (oneTokenBank (.fill 7) 50) {.fill 1} ≤
      holdings (.fill 9) (.fill 7) (oneTokenBank (.fill 7) 30) {.fill 1} + (spentOn charges.mintSpent 0).toNat := by
  obtain ⟨charges, _, _, -, -, -, hcapped, -⟩ := @token_metering_sound targetHeapSizes
    (plainPolicy .empty [⟨.fill 7, lifetimeCap 100 100⟩]) (plainPolicy .empty [⟨.fill 7, lifetimeCap 100 80⟩])
    .empty [⟨.fill 7, lifetimeCap 100 100⟩] [] (.fill 9) (oneTokenBank (.fill 7) 50) (oneTokenBank (.fill 7) 30)
    [⟨.fill 1, false, true⟩] ⟨0, false, true, [⟨0, some 0, 50, true, false, .fill 7, none⟩], []⟩ 0
    (by decide +kernel) (by decide) (frame_oneTokenBank _ _ _) (by decide +kernel) (by decide +kernel)
  have hsub : listedKeys [⟨.fill 1, false, true⟩] ⊆ {.fill 1} := (listedKeys_singleton _).subset
  have hslot : capPosition [⟨.fill 7, lifetimeCap 100 100⟩] (.fill 7) = some 0 := by decide +kernel
  have h := hcapped (.fill 7) 0 hslot {.fill 1} hsub
  exact ⟨charges, h.2⟩

/-! ## SOL metering -/

/-- The wallet's lamports plus the wrapped SOL it owns over a set of accounts. -/
def solHoldings (wallet : Pubkey) (bank : Bank) (keys : Finset Pubkey) : Nat :=
  (bank wallet).lamports.toNat + ∑ k ∈ keys, (wsolAmount wallet bank k).toNat

theorem solTotal_true (wallet : Pubkey) (bank : Bank) (keys : Finset Pubkey) :
    solTotal wallet true bank keys = solHoldings wallet bank keys := rfl

theorem solTotal_false (wallet : Pubkey) (bank : Bank) (keys : Finset Pubkey) :
    solTotal wallet false bank keys = (bank wallet).lamports.toNat := by
  simp [solTotal, foldedSol]

/-- A measure under an active SOL cap finds the exact decrease. -/
theorem Measured.solSpent_eq {sol : SpendCap} {mintCaps : List MintCap} {wallet : Pubkey} {before after : Bank}
    {keys : Finset Pubkey} {charges : Charges} (h : Measured sol mintCaps wallet before after keys charges)
    (hactive : sol.isActive = true) (hbefore : solHoldings wallet before keys < 2 ^ 64)
    (hafter : solHoldings wallet after keys < 2 ^ 64) :
    charges.solSpent.toNat = solHoldings wallet before keys - solHoldings wallet after keys := by
  have hs := h.solSpent
  rw [hactive, solTotal_true, solTotal_true] at hs
  omega

/-- A measure without a SOL cap finds the decrease of the lamports. -/
theorem Measured.solSpent_lamports {sol : SpendCap} {mintCaps : List MintCap} {wallet : Pubkey} {before after : Bank}
    {keys : Finset Pubkey} {charges : Charges} (h : Measured sol mintCaps wallet before after keys charges)
    (hinactive : sol.isActive = false) :
    charges.solSpent.toNat = (before wallet).lamports.toNat - (after wallet).lamports.toNat := by
  have hs := h.solSpent
  rw [hinactive, solTotal_false, solTotal_false] at hs
  have hb := (before wallet).lamports.toNat_lt
  have ha := (after wallet).lamports.toNat_lt
  omega

/-- A mint that no cap names has no position. -/
theorem capPosition_eq_none {mintCaps : List MintCap} {mint : Pubkey} (h : ∀ m ∈ mintCaps, m.mint ≠ mint) :
    capPosition mintCaps mint = none := by
  rw [capPosition, List.findIdx?_eq_none_iff]
  exact fun m hm => decide_eq_false (h m hm)

/-- **SOL metering.** Under an active SOL cap a successful execution charges it the exact decrease of the wallet's
lamports plus wrapped SOL, whatever the order and the repetitions of the list; with mint caps only, neither the lamports
nor any wrapped SOL of the wallet decrease. -/
theorem sol_metering_exact [HeapSizes] {policyData policyData' : Bytes} {sol : SpendCap} {mintCaps : List MintCap}
    {permissions : List ProgramPermission} {wallet : Pubkey} {before after : Bank} {remaining : List AccountInfo}
    {snapshot : PolicySnapshot} {now : Int64}
    (hpolicy : readPolicy policyData = .ok (sol, mintCaps, permissions))
    (hwsol : ∀ m ∈ mintCaps, isWsolMint m.mint = false)
    (hsnap : checkPolicyAndSnapshot policyData wallet before remaining = .ok snapshot)
    (hcharge : chargePolicyDeltas policyData wallet after remaining snapshot now = .ok policyData') :
    ∃ charges sol' mintCaps', measureDeltas wallet after remaining snapshot = .ok charges ∧
      readPolicy policyData' = .ok (sol', mintCaps', permissions) ∧
      (sol.isActive = true → solHoldings wallet before (listedKeys remaining) < 2 ^ 64 →
        solHoldings wallet after (listedKeys remaining) < 2 ^ 64 →
        chargeCap sol charges.solSpent now = .ok sol' ∧
        charges.solSpent.toNat =
          solHoldings wallet before (listedKeys remaining) - solHoldings wallet after (listedKeys remaining) ∧
        ∀ remaining' snapshot' charges', listedKeys remaining' = listedKeys remaining →
          checkPolicyAndSnapshot policyData wallet before remaining' = .ok snapshot' →
          measureDeltas wallet after remaining' snapshot' = .ok charges' → charges'.solSpent = charges.solSpent) ∧
      (sol.isActive = false → mintCaps ≠ [] →
        (before wallet).lamports ≤ (after wallet).lamports ∧
        ∀ k ∈ listedKeys remaining, ∀ v, ownedView wallet before k = some v → isWsolMint v.mint = true →
          amountAt before k ≤ amountAt after k) := by
  obtain ⟨charges, sol', mintCaps', hmeasure, hm, hsol, -, -, hread⟩ := chargePolicyDeltas_ok hpolicy hsnap hcharge
  refine ⟨charges, sol', mintCaps', hmeasure, hread, ?_, ?_⟩
  · intro hactive hbefore hafter
    refine ⟨?_, hm.solSpent_eq hactive hbefore hafter, ?_⟩
    · rcases hsol with ⟨-, hc⟩ | ⟨hna, -⟩
      · exact hc
      · rw [hactive] at hna
        cases hna
    · intro remaining' snapshot' charges' hkeys hsnap' hmeasure'
      rw [checkPolicyAndSnapshot_eq hpolicy] at hsnap'
      cases hsnap'
      have hm' := measureDeltas_ok hmeasure'
      rw [hkeys] at hm'
      apply UInt64.toNat_inj.1
      rw [hm.solSpent_eq hactive hbefore hafter, hm'.solSpent_eq hactive hbefore hafter]
  · intro hinactive hcaps
    have hlimits : limitsActive sol mintCaps = true := by
      simp [limitsActive, List.length_pos_iff.2 hcaps]
    constructor
    · have hzero : charges.solSpent = 0 := by
        rcases hsol with ⟨ha, -⟩ | ⟨-, -, hz⟩
        · rw [hinactive] at ha
          cases ha
        · exact hz hlimits
      have hlam := hm.solSpent_lamports hinactive
      rw [hzero, UInt64.toNat_zero] at hlam
      exact UInt64.le_iff_toNat_le.2 (by omega)
    · intro k hk v hv hw
      have hnone : capPosition mintCaps v.mint = none := capPosition_eq_none fun m hmem heq => by
        rw [← heq, hwsol m hmem] at hw
        cases hw
      rw [amountAt_of_view (ownedView_eq_some.1 hv).1]
      exact hm.uncapped hlimits k hk v (spendableView_of_ownedView hv) hnone (by simp [hinactive])

theorem sol_metering_exact_unwrap : ∃ charges : Charges,
    charges.solSpent.toNat =
      solHoldings (.fill 9) (oneTokenBank wsolMint 50) {.fill 1} - solHoldings (.fill 9) (oneTokenBank wsolMint 30) {.fill 1} := by
  obtain ⟨charges, _, _, -, -, hactive, -⟩ := @sol_metering_exact targetHeapSizes
    (plainPolicy (lifetimeCap 100 100) []) (plainPolicy (lifetimeCap 100 80) []) (lifetimeCap 100 100) [] [] (.fill 9)
    (oneTokenBank wsolMint 50) (oneTokenBank wsolMint 30) [⟨.fill 1, false, true⟩]
    ⟨50, true, true, [⟨0, none, 50, true, true, wsolMint, none⟩], []⟩ 0
    (by decide +kernel) (by simp) (by decide +kernel) (by decide +kernel)
  simp only [listedKeys_singleton] at hactive
  have hbefore : solHoldings (.fill 9) (oneTokenBank wsolMint 50) {.fill 1} < 2 ^ 64 := by decide +kernel
  have hafter : solHoldings (.fill 9) (oneTokenBank wsolMint 30) {.fill 1} < 2 ^ 64 := by decide +kernel
  have h := hactive (by decide) hbefore hafter
  exact ⟨charges, h.2.1⟩

end PhygitalWallet
