import PhygitalWallet.Program.Metering
import Mathlib.Logic.Relation

/-!
# Control of the wallet's token accounts

The two loops of `charge_policy_deltas` look at the same accounts twice, by snapshot entry and by live account. Together
they keep `NoStandingRights`: no token account of the wallet has an approved amount or a close authority other than the
wallet.

- `NoStandingRights.step`: one policied execute keeps it;
- `control_invariant`: what an execute leaves, and what any sequence of them leaves.
-/

namespace PhygitalWallet

/-- Nobody but the wallet can spend from, or close, a token account of the wallet. -/
def NoStandingRights (wallet : Pubkey) (bank : Bank) : Prop :=
  ∀ k v, ownedView wallet bank k = some v →
    v.delegatedAmount = 0 ∧ (v.closeAuthority = none ∨ v.closeAuthority = some wallet)

/-- A policied execute: the snapshot, inner CPIs that change listed accounts only, the charge. The policy account belongs
to this program, so the CPIs leave its owner and data. -/
inductive PoliciedExecute [HeapSizes] (wallet policy : Pubkey) : Bank → Bank → Prop
  | mk {before after : Bank} {remaining : List AccountInfo} {snapshot : PolicySnapshot} {now : Int64}
      {policyData' : Bytes}
      (snap : checkPolicyAndSnapshot (before policy).data wallet before remaining = .ok snapshot)
      (frame : ∀ k, k ∉ listedKeys remaining → after k = before k)
      (kept : (after policy).owner = crateId ∧ (after policy).data = (before policy).data)
      (charge : chargePolicyDeltas (after policy).data wallet after remaining snapshot now = .ok policyData') :
      PoliciedExecute wallet policy before
        (Function.update after policy { after policy with data := policyData' })

/-- The measure of an execute has passed the control checks. -/
theorem controlled_of_charge [HeapSizes] {policyData policyData' : Bytes} {wallet : Pubkey} {before after : Bank}
    {remaining : List AccountInfo} {snapshot : PolicySnapshot} {now : Int64}
    (hsnap : checkPolicyAndSnapshot policyData wallet before remaining = .ok snapshot)
    (hcharge : chargePolicyDeltas policyData wallet after remaining snapshot now = .ok policyData') :
    Controlled wallet before after (listedKeys remaining) := by
  obtain ⟨sol, mintCaps, permissions, hread, rfl⟩ := checkPolicyAndSnapshot_ok hsnap
  obtain ⟨charges, -, -, -, hm, -⟩ := chargePolicyDeltas_ok hread hsnap hcharge
  exact hm.controlled

variable {wallet policy : Pubkey} {before after : Bank}

/-- An account of this program is not a token account. -/
theorem ownedView_of_crate {k : Pubkey} (h : (after k).owner = crateId) : ownedView wallet after k = none := by
  have hprog : isTokenProgram crateId = false := by decide
  simp [ownedView, tokenViewAt, h, hprog]

/-- What a wallet-owned token account was before, told as the claim of its owner. -/
theorem ControlKept.cases {k : Pubkey} (h : ControlKept wallet before after k) {v : TokenAccountView}
    (hv : ownedView wallet before k = some v) :
    (after k).data = [] ∨ ∃ w, ownedView wallet after k = some w ∧ w.mint = v.mint ∧
      w.closeAuthority = v.closeAuthority := by
  have hkeep := h v hv
  unfold KeepsControl at hkeep
  cases hw : tokenAccountView (after k).data with
  | none =>
    rw [hw] at hkeep
    exact Or.inl hkeep
  | some w =>
    rw [hw] at hkeep
    obtain ⟨hprog, hown, hmint, hclose⟩ := hkeep
    exact Or.inr ⟨w, ownedView_eq_some.2 ⟨tokenViewAt_eq_some.2 ⟨hprog, hw⟩, hown⟩, hmint, hclose⟩

/-- The checks on the listed accounts are enough, since the others do not change. -/
theorem NoStandingRights.of_controlled {keys : Finset Pubkey} (h : NoStandingRights wallet before)
    (hc : Controlled wallet before after keys) (hframe : ∀ k, k ∉ keys → after k = before k) :
    NoStandingRights wallet after := by
  intro k w hw
  by_cases hk : k ∈ keys
  · refine ⟨hc.undelegated k hk w hw, ?_⟩
    cases hv : ownedView wallet before k with
    | none => exact hc.closable k hk hv w hw
    | some v =>
      rcases (hc.kept k hk).cases hv with hnil | ⟨w', hw', -, hclose⟩
      · obtain ⟨hview, -⟩ := ownedView_eq_some.1 hw
        have hdata := (tokenViewAt_eq_some.1 hview).2
        rw [hnil, tokenAccountView_nil] at hdata
        cases hdata
      · obtain rfl : w' = w := Option.some.inj (hw'.symm.trans hw)
        rw [hclose]
        exact (h k v hv).2
  · rw [ownedView_congr (hframe k hk)] at hw
    exact h k w hw

/-- One execute keeps the invariant. -/
theorem NoStandingRights.step [HeapSizes] {bank bank' : Bank} (h : NoStandingRights wallet bank)
    (hstep : PoliciedExecute wallet policy bank bank') : NoStandingRights wallet bank' := by
  cases hstep with
  | @mk after remaining snapshot now policyData' snap frame kept charge =>
    rw [kept.2] at charge
    have hafter := h.of_controlled (controlled_of_charge snap charge) frame
    intro k w hw
    by_cases hk : k = policy
    · subst hk
      rw [ownedView_of_crate (by simp [kept.1])] at hw
      cases hw
    · have hsame : Function.update after policy { after policy with data := policyData' } k = after k :=
        Function.update_of_ne hk _ _
      rw [ownedView_congr hsame] at hw
      exact hafter k w hw

/-- **Control invariant.** After a successful execute, listed token accounts of the wallet have no approved amount; those
it had are closed or have kept program, owner, mint and close authority; those it gained have no other close authority.
So no sequence of policied executes gives a third party a standing right. -/
theorem control_invariant [HeapSizes] (wallet policy : Pubkey) :
    (∀ policyData policyData' before after remaining snapshot now,
      checkPolicyAndSnapshot policyData wallet before remaining = .ok snapshot →
      chargePolicyDeltas policyData wallet after remaining snapshot now = .ok policyData' →
      ∀ k ∈ listedKeys remaining,
        (∀ w, ownedView wallet after k = some w → w.delegatedAmount = 0) ∧
        (∀ v, ownedView wallet before k = some v → (after k).data = [] ∨
          ∃ w, ownedView wallet after k = some w ∧ w.mint = v.mint ∧ w.closeAuthority = v.closeAuthority) ∧
        (ownedView wallet before k = none → ∀ w, ownedView wallet after k = some w →
          w.closeAuthority = none ∨ w.closeAuthority = some wallet)) ∧
    (∀ bank bank', Relation.ReflTransGen (PoliciedExecute wallet policy) bank bank' →
      NoStandingRights wallet bank → NoStandingRights wallet bank') := by
  constructor
  · intro policyData policyData' before after remaining snapshot now hsnap hcharge k hk
    have hc := controlled_of_charge hsnap hcharge
    exact ⟨hc.undelegated k hk, fun v hv => (hc.kept k hk).cases hv, hc.closable k hk⟩
  · intro bank bank' hrun h
    induction hrun with
    | refl => exact h
    | tail _ hstep ih => exact ih.step hstep

end PhygitalWallet
