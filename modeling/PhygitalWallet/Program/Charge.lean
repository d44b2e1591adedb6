import PhygitalWallet.Program.Meter

/-!
# What the charges do to the caps

`applyCharges` charges the SOL cap and then the mint caps one slot after another. The slots of a measure are distinct,
so the order does not matter: `ChargedCaps` says that every cap is charged the amount recorded for its slot.

- `chargeSlots_iff`, `applyCharges_iff`: the charges go through exactly when every single charge does;
- `chargePolicyDeltas_ok`: what a charged execution has measured and stored.
-/

namespace PhygitalWallet

/-- Every mint cap is charged its amount. -/
structure ChargedCaps (now : Int64) (spent : Nat → UInt64) (mintCaps mintCaps' : List MintCap) : Prop where
  length_eq : mintCaps'.length = mintCaps.length
  charged : ∀ i m, mintCaps[i]? = some m →
    ∃ cap, chargeCap m.cap (spent i) now = .ok cap ∧ mintCaps'[i]? = some { m with cap }

/-- The SOL cap is charged its amount; without one, nothing may have been spent while a cap is active. -/
def ChargedSol (now : Int64) (spent : UInt64) (limits : Bool) (sol sol' : SpendCap) : Prop :=
  (sol.isActive = true ∧ chargeCap sol spent now = .ok sol') ∨
    (sol.isActive = false ∧ sol' = sol ∧ (limits = true → spent = 0))

@[simp] theorem chargeCap_zero (cap : SpendCap) (now : Int64) : chargeCap cap 0 now = .ok cap := rfl

theorem ChargedCaps.unique {now : Int64} {spent : Nat → UInt64} {mintCaps m₁ m₂ : List MintCap}
    (h₁ : ChargedCaps now spent mintCaps m₁) (h₂ : ChargedCaps now spent mintCaps m₂) : m₁ = m₂ := by
  apply List.ext_getElem?
  intro i
  cases hi : mintCaps[i]? with
  | none =>
    have hlen := List.getElem?_eq_none_iff.1 hi
    rw [List.getElem?_eq_none (by rw [h₁.length_eq]; exact hlen), List.getElem?_eq_none (by rw [h₂.length_eq]; exact hlen)]
  | some m =>
    obtain ⟨c₁, hc₁, hm₁⟩ := h₁.charged i m hi
    obtain ⟨c₂, hc₂, hm₂⟩ := h₂.charged i m hi
    obtain rfl := Except.ok.inj (hc₁.symm.trans hc₂)
    rw [hm₁, hm₂]

theorem ChargedSol.unique {now : Int64} {spent : UInt64} {limits : Bool} {sol s₁ s₂ : SpendCap}
    (h₁ : ChargedSol now spent limits sol s₁) (h₂ : ChargedSol now spent limits sol s₂) : s₁ = s₂ := by
  rcases h₁ with ⟨ha, h₁⟩ | ⟨ha, rfl, -⟩
  · rcases h₂ with ⟨-, h₂⟩ | ⟨hb, -⟩
    · exact Except.ok.inj (h₁.symm.trans h₂)
    · rw [ha] at hb
      cases hb
  · rcases h₂ with ⟨hb, -⟩ | ⟨-, rfl, -⟩
    · rw [ha] at hb
      cases hb
    · rfl

theorem spentOn_eq_zero {ms : List (Nat × UInt64)} {slot : Nat} (h : slot ∉ ms.map Prod.fst) : spentOn ms slot = 0 := by
  induction ms with
  | nil => rfl
  | cons m ms ih =>
    rw [List.map_cons, List.mem_cons, not_or] at h
    obtain ⟨s, total⟩ := m
    rw [spentOn, if_neg (Ne.symm h.1), ih h.2]

/-- The charges of distinct slots. -/
theorem chargeSlots_iff {now : Int64} {ms : List (Nat × UInt64)} {mintCaps mintCaps' : List MintCap}
    (hlt : ∀ j ∈ ms.map Prod.fst, j < mintCaps.length) (hnd : (ms.map Prod.fst).Nodup) :
    ms.foldlM (chargeSlot now) mintCaps = .ok mintCaps' ↔ ChargedCaps now (spentOn ms) mintCaps mintCaps' := by
  induction ms generalizing mintCaps with
  | nil =>
    constructor
    · intro h
      cases h
      exact ⟨rfl, fun i m hm => ⟨m.cap, rfl, hm⟩⟩
    · intro h
      have : ChargedCaps now (spentOn []) mintCaps mintCaps := ⟨rfl, fun i m hm => ⟨m.cap, rfl, hm⟩⟩
      rw [h.unique this]
      rfl
  | cons e ms ih =>
    obtain ⟨s, n⟩ := e
    rw [List.map_cons, List.nodup_cons] at hnd
    have hs : s < mintCaps.length := hlt s List.mem_cons_self
    have hget : mintCaps[s]? = some mintCaps[s] := List.getElem?_eq_getElem hs
    have hrest : spentOn ms s = 0 := spentOn_eq_zero hnd.1
    have hstep : ∀ cap, (∀ j ∈ ms.map Prod.fst, j < (mintCaps.set s { mintCaps[s] with cap }).length) := by
      intro cap j hj
      rw [List.length_set]
      exact hlt j (List.mem_cons_of_mem _ hj)
    rw [List.foldlM_cons, bind_eq_ok]
    constructor
    · rintro ⟨mid, hmid, hloop⟩
      simp only [chargeSlot, bind_eq_ok, okOr_eq_ok, pure_eq_ok, hget] at hmid
      obtain ⟨m, hm, cap, hcap, rfl⟩ := hmid
      cases hm
      have h := (ih (hstep cap) hnd.2).1 hloop
      refine ⟨by rw [h.length_eq, List.length_set], fun i m hm => ?_⟩
      by_cases hi : s = i
      · subst hi
        obtain rfl : mintCaps[s] = m := Option.some.inj (hget.symm.trans hm)
        obtain ⟨cap', hcap', hget'⟩ := h.charged s { mintCaps[s] with cap } (by rw [List.getElem?_set_self hs])
        rw [hrest, chargeCap_zero] at hcap'
        cases hcap'
        exact ⟨cap, by rw [spentOn, if_pos rfl]; exact hcap, hget'⟩
      · rw [spentOn, if_neg hi]
        exact h.charged i m (by rw [List.getElem?_set_ne hi]; exact hm)
    · intro h
      obtain ⟨cap, hcap, hget'⟩ := h.charged s _ hget
      rw [spentOn, if_pos rfl] at hcap
      refine ⟨mintCaps.set s { mintCaps[s] with cap }, ?_, (ih (hstep cap) hnd.2).2 ⟨?_, fun i m hm => ?_⟩⟩
      · simp only [chargeSlot, bind_eq_ok, okOr_eq_ok, pure_eq_ok]
        exact ⟨_, hget, cap, hcap, rfl⟩
      · rw [h.length_eq, List.length_set]
      · by_cases hi : s = i
        · subst hi
          rw [List.getElem?_set_self hs] at hm
          cases hm
          exact ⟨cap, by rw [hrest]; rfl, hget'⟩
        · rw [List.getElem?_set_ne hi] at hm
          have := h.charged i m hm
          rw [spentOn, if_neg hi] at this
          exact this

theorem chargeSolCap_iff {snapshot : PolicySnapshot} {sol sol' : SpendCap} {spent : UInt64} {now : Int64}
    (hsol : snapshot.chargeSol = sol.isActive)
    (hlimits : sol.isActive = true → snapshot.spendingLimitsActive = true) :
    chargeSolCap snapshot sol spent now = .ok sol' ↔ ChargedSol now spent snapshot.spendingLimitsActive sol sol' := by
  have hpos : 0 < spent ↔ spent ≠ 0 := UInt64.pos_iff_ne_zero
  unfold chargeSolCap ChargedSol
  cases ha : sol.isActive with
  | true =>
    rw [hlimits ha, hsol, ha]
    by_cases hz : spent = 0
    · rw [if_neg (by simp [hz]), hz]
      simp
    · rw [if_pos ⟨hpos.2 hz, rfl⟩]
      simp
  | false =>
    rw [hsol, ha]
    by_cases hz : spent = 0
    · rw [if_neg (by simp [hz])]
      simp [hz, eq_comm (a := sol')]
    · cases hl : snapshot.spendingLimitsActive
      · rw [if_neg (by simp)]
        simp [eq_comm (a := sol')]
      · rw [if_pos ⟨hpos.2 hz, rfl⟩]
        simp [hz]

theorem applyCharges_iff {policyData policyData' : Bytes} {sol : SpendCap} {mintCaps : List MintCap}
    {snapshot : PolicySnapshot} {charges : Charges} {now : Int64}
    (hread : readPolicyMut policyData = .ok (sol, mintCaps)) (hsol : snapshot.chargeSol = sol.isActive)
    (hlimits : sol.isActive = true → snapshot.spendingLimitsActive = true)
    (hlt : ∀ j ∈ charges.mintSpent.map Prod.fst, j < mintCaps.length) (hnd : (charges.mintSpent.map Prod.fst).Nodup) :
    applyCharges policyData snapshot charges now = .ok policyData' ↔
      ∃ sol' mintCaps', ChargedSol now charges.solSpent snapshot.spendingLimitsActive sol sol' ∧
        ChargedCaps now (spentOn charges.mintSpent) mintCaps mintCaps' ∧
        policyData' = storePolicyMut policyData sol' mintCaps' := by
  simp only [applyCharges, hread, ok_bind, bind_eq_ok (x := chargeSolCap _ _ _ _)]
  constructor
  · rintro ⟨sol', hs, h⟩
    obtain ⟨mintCaps', hm, hret⟩ := bind_eq_ok.1 h
    exact ⟨sol', mintCaps', (chargeSolCap_iff hsol hlimits).1 hs, (chargeSlots_iff hlt hnd).1 hm, (Except.ok.inj hret).symm⟩
  · rintro ⟨sol', mintCaps', hs, hm, rfl⟩
    exact ⟨sol', (chargeSolCap_iff hsol hlimits).2 hs, bind_eq_ok.2 ⟨mintCaps', (chargeSlots_iff hlt hnd).2 hm, rfl⟩⟩

/-- **A charged execution.** What it measured, what it charged, and the policy that it leaves. -/
theorem chargePolicyDeltas_ok [HeapSizes] {policyData policyData' : Bytes} {sol : SpendCap} {mintCaps : List MintCap}
    {permissions : List ProgramPermission} {wallet : Pubkey} {before after : Bank} {remaining : List AccountInfo}
    {snapshot : PolicySnapshot} {now : Int64} (hpolicy : readPolicy policyData = .ok (sol, mintCaps, permissions))
    (hsnap : checkPolicyAndSnapshot policyData wallet before remaining = .ok snapshot)
    (hcharge : chargePolicyDeltas policyData wallet after remaining snapshot now = .ok policyData') :
    ∃ charges sol' mintCaps', measureDeltas wallet after remaining snapshot = .ok charges ∧
      Measured sol mintCaps wallet before after (listedKeys remaining) charges ∧
      ChargedSol now charges.solSpent (limitsActive sol mintCaps) sol sol' ∧
      ChargedCaps now (spentOn charges.mintSpent) mintCaps mintCaps' ∧
      policyData' = storePolicyMut policyData sol' mintCaps' ∧
      readPolicy policyData' = .ok (sol', mintCaps', permissions) := by
  rw [checkPolicyAndSnapshot_eq hpolicy] at hsnap
  cases hsnap
  obtain ⟨charges, hmeasure, happly⟩ := bind_eq_ok.1 hcharge
  have hm := measureDeltas_ok hmeasure
  have hlimits : sol.isActive = true → limitsActive sol mintCaps = true := fun h => by simp [limitsActive, h]
  obtain ⟨sol', mintCaps', hs, hc, rfl⟩ :=
    (applyCharges_iff (readPolicyMut_of_readPolicy hpolicy) rfl hlimits hm.slots_lt hm.slots_nodup).1 happly
  exact ⟨charges, sol', mintCaps', hmeasure, hm, hs, hc, rfl, readPolicy_storePolicyMut hpolicy hc.length_eq⟩

end PhygitalWallet
