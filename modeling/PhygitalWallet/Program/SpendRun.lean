import PhygitalWallet.Program.AuthorityRun
import PhygitalWallet.Program.Control
import PhygitalWallet.Program.SpendWindow

/-!
# What a spending limit promises

A limit is set by a save, and the caps of an account are charged by the policied executes and kept by later saves. Over a
whole run the wallet loses no more than the limit in any window, whatever else happens on the account in between.

- `PolicyCharge`: what a policied execute measured and charged;
- `Budget.saved`, `executePolicied_charged`: what a save and a policied execute do to one cap;
- `CapsMetered`, `SpendStep.tallied`: every cap meters its charges, whatever happens on the account;
- `Covered`, `SpendStep.covered`: since a save, the charges of one cap cover the losses;
- `spending_limit`: every run.
-/

namespace PhygitalWallet

open WindowBudget Runs

/-! ## Budgets -/

/-- SOL, or a mint. -/
inductive Budget
  | sol
  | mint (mint : Pubkey)

/-- The cap of the policy, if it has one. -/
def Budget.cap : Budget → Policy → Option SpendCap
  | .sol, p => if p.sol.isActive then some p.sol else none
  | .mint key, p => (p.mints.find? fun m => m.mint = key).map MintCap.cap

/-- The limit that a save asks for. -/
def Budget.limit : Budget → WalletPolicyArgs → Option (UInt64 × Int64)
  | .sol, args => args.solCap.map fun s => (s.cap, s.windowSeconds)
  | .mint key, args => (args.mintCaps.find? fun c => c.mint = key).map fun c => (c.cap, c.windowSeconds)

/-- What the wallet has lost over a set of accounts: the decrease of its lamports plus wrapped SOL, or what the accounts
that it can spend from have lost of the mint. -/
def Budget.loss (keys : Finset Pubkey) (wallet : Pubkey) (before after : Bank) : Budget → Nat
  | .sol => solHoldings wallet before keys - solHoldings wallet after keys
  | .mint key => ∑ k ∈ keys, spendLoss wallet key before after k

/-- The sums of SOL fit in 64 bits, as the supply does. -/
def Budget.Fits (keys : Finset Pubkey) (wallet : Pubkey) (before after : Bank) : Budget → Prop
  | .sol => solHoldings wallet before keys < 2 ^ 64 ∧ solHoldings wallet after keys < 2 ^ 64
  | .mint _ => True

/-- Two lists in step have their first matches at the same place. -/
theorem find?_forall₂ {α β : Type} {R : α → β → Prop} {p : α → Bool} {q : β → Bool} {as : List α} {bs : List β}
    (h : List.Forall₂ R as bs) (hpq : ∀ a b, R a b → p a = q b) : Option.Rel R (as.find? p) (bs.find? q) := by
  induction h with
  | nil => exact .none
  | @cons a b as bs hab _ ih =>
    rw [List.find?_cons, List.find?_cons, hpq a b hab]
    cases q b with
    | true => exact .some hab
    | false => exact ih

section Budget

variable {b : Budget} {p p' : Policy} {c : SpendCap} {now : Int64}

/-- An active cap, if there is one. -/
theorem filter_isActive (old : Option Policy) :
    (old.map Policy.sol).filter SpendCap.isActive = old.bind Budget.sol.cap := by
  cases old with
  | none => rfl
  | some p => cases h : p.sol.isActive <;> simp [Budget.cap, h]

/-- A saved cap has the limit that was asked for. -/
theorem SavedCap.limit {C : UInt64} {w : Int64} {old : Option SpendCap} (h : SavedCap C w now old c) :
    0 < C ∧ c.cap = C ∧ c.windowSeconds = w := by
  obtain ⟨fresh, hfresh, rfl⟩ := h
  obtain ⟨hpos, hcap, -, hwin⟩ := newSpendCap_ok hfresh
  rcases preserveSpendCap_cases fresh old with heq | ⟨prev, -, heq, hsame⟩
  · rw [heq]
    exact ⟨hpos, hcap, hwin⟩
  · rw [heq]
    exact ⟨hpos, hsame.1.trans hcap, hsame.2.trans hwin⟩

theorem SavedCap.isActive {C : UInt64} {w : Int64} {old : Option SpendCap} (h : SavedCap C w now old c) :
    c.isActive = true := by
  obtain ⟨hpos, hcap, -⟩ := h.limit
  simp [SpendCap.isActive, hcap, UInt64.pos_iff_ne_zero.1 hpos]

/-- **Save.** The cap is the one asked for, made of the old one. -/
theorem Budget.saved {args : WalletPolicyArgs} {old : Option Policy} (h : Saved args now old p) :
    (b.limit args = none → b.cap p = none) ∧ ∀ C w, b.limit args = some (C, w) →
      ∃ c, b.cap p = some c ∧ SavedCap C w now (old.bind b.cap) c := by
  cases b with
  | sol =>
    cases hs : args.solCap with
    | none => exact ⟨fun _ => by simp [Budget.cap, h.noSol hs, SpendCap.isActive, SpendCap.empty], by simp [Budget.limit, hs]⟩
    | some s =>
      have hsaved := h.sol s hs
      rw [filter_isActive] at hsaved
      refine ⟨by simp [Budget.limit, hs], fun C w hlimit => ⟨p.sol, by simp [Budget.cap, hsaved.isActive], ?_⟩⟩
      simp only [Budget.limit, hs, Option.map_some, Option.some.injEq, Prod.mk.injEq] at hlimit
      rw [← hlimit.1, ← hlimit.2]
      exact hsaved
  | mint key =>
    have hrel := find?_forall₂ (p := fun c : MintCapArg => decide (c.mint = key)) (q := fun m : MintCap => decide (m.mint = key))
      h.mints fun c m hm => by rw [hm.1]
    simp only [Budget.limit, Budget.cap]
    cases ha : args.mintCaps.find? fun c => decide (c.mint = key) with
    | none =>
      rw [ha] at hrel
      cases hfind : p.mints.find? fun m => decide (m.mint = key) with
      | none => simp
      | some m => rw [hfind] at hrel; cases hrel
    | some a =>
      rw [ha] at hrel
      cases hfind : p.mints.find? fun m => decide (m.mint = key) with
      | none => rw [hfind] at hrel; cases hrel
      | some m =>
        rw [hfind] at hrel
        cases hrel with
        | some hm =>
          have hmint : a.mint = key := of_decide_eq_true (List.find?_some (p := fun c : MintCapArg => decide (c.mint = key)) ha)
          have hold : old.bind (Budget.mint key).cap =
              (((old.map Policy.mints).getD []).find? fun o => o.mint = a.mint).map MintCap.cap := by
            rw [hmint]
            cases old <;> rfl
          refine ⟨by simp, fun C w hlimit => ⟨m.cap, rfl, ?_⟩⟩
          simp only [Option.map_some, Option.some.injEq, Prod.mk.injEq] at hlimit
          rw [← hlimit.1, ← hlimit.2]
          exact hold ▸ hm.2

end Budget

/-! ## Losses -/

section Loss

variable {wallet mint key k : Pubkey} {before after : Bank} {data : Bytes} {listed keys : Finset Pubkey}

theorem setData_ne (h : k ≠ key) : setData after key data k = after k := Function.update_of_ne h _ _

/-- What the authority account holds is no token account. -/
theorem spendLoss_setData (howner : (before key).owner = crateId) :
    spendLoss wallet mint before (setData after key data) k = spendLoss wallet mint before after k := by
  by_cases hk : k = key
  · subst hk
    have hprog : isTokenProgram crateId = false := by decide
    simp [spendLoss, spendableView, tokenViewAt, howner, hprog]
  · rw [spendLoss, spendLoss, amountAt_congr (setData_ne hk)]

theorem wsolAmount_setData (howner : (after key).owner = crateId) :
    wsolAmount wallet (setData after key data) k = wsolAmount wallet after k := by
  by_cases hk : k = key
  · subst hk
    rw [wsolAmount, wsolAmount, ownedView_of_crate howner, ownedView_of_crate (by simp [howner])]
  · rw [wsolAmount, wsolAmount, ownedView_congr (setData_ne hk)]

theorem solHoldings_setData (howner : (after key).owner = crateId) :
    solHoldings wallet (setData after key data) keys = solHoldings wallet after keys := by
  have hlamports : (setData after key data wallet).lamports = (after wallet).lamports := by
    by_cases hk : wallet = key
    · subst hk
      simp
    · rw [setData_ne hk]
  rw [solHoldings, solHoldings, hlamports]
  exact congrArg _ (Finset.sum_congr rfl fun k _ => by rw [wsolAmount_setData howner])

/-- The accounts beside the listed ones add the same before and after. -/
theorem solHoldings_diff (hsub : listed ⊆ keys) (hframe : ∀ k, k ∉ listed → after k = before k) :
    ∃ rest, solHoldings wallet before keys = solHoldings wallet before listed + rest ∧
      solHoldings wallet after keys = solHoldings wallet after listed + rest := by
  refine ⟨∑ k ∈ keys \ listed, (wsolAmount wallet before k).toNat, ?_, ?_⟩
  · rw [solHoldings, solHoldings, ← Finset.sum_sdiff hsub]
    omega
  · have hrest : ∑ k ∈ keys \ listed, (wsolAmount wallet after k).toNat =
        ∑ k ∈ keys \ listed, (wsolAmount wallet before k).toNat :=
      Finset.sum_congr rfl fun k hk => by
        rw [wsolAmount, wsolAmount, ownedView_congr (hframe k (Finset.mem_sdiff.1 hk).2)]
    rw [solHoldings, solHoldings, ← Finset.sum_sdiff hsub, hrest]
    omega

end Loss

/-! ## A policied execute -/

/-- In a policy without duplicates each cap has its own position. -/
theorem capPosition_getElem {mints : List MintCap} {i : Nat} {m : MintCap} (hnodup : (mints.map MintCap.mint).Nodup)
    (hi : mints[i]? = some m) : capPosition mints m.mint = some i := by
  obtain ⟨hlt, rfl⟩ := List.getElem?_eq_some_iff.1 hi
  refine List.findIdx?_eq_some_iff_getElem.2 ⟨hlt, decide_eq_true rfl, fun j hj => ?_⟩
  simp only [decide_eq_true_eq]
  intro heq
  have hij := @List.Nodup.getElem_inj_iff _ _ hnodup j (by rw [List.length_map]; omega) i
    (by rw [List.length_map]; exact hlt)
  rw [List.getElem_map, List.getElem_map] at hij
  exact absurd (hij.1 heq) (by omega)

/-- The CPIs of a policied execute, from the listed accounts, and what it charged for them. -/
structure PolicyCharge (now : Int64) (wallet key : Pubkey) (listed : Finset Pubkey) (bank after : Bank) (charges : Charges)
    (p p' : Policy) : Prop where
  frame : ∀ k, k ∉ listed → after k = bank k
  same : after key = bank key
  measured : Measured p.sol p.mints wallet bank after listed charges
  sol : ChargedSol now charges.solSpent (limitsActive p.sol p.mints) p.sol p'.sol
  mints : ChargedCaps now (spentOn charges.mintSpent) p.mints p'.mints

namespace PolicyCharge

variable {now : Int64} {wallet key : Pubkey} {listed keys : Finset Pubkey} {bank after : Bank} {charges : Charges}
  {p p' : Policy} {data : Bytes} {mint : Pubkey} {b : Budget}

/-- Each cap is charged what its own position spent. -/
theorem forall₂_mints (h : PolicyCharge now wallet key listed bank after charges p p')
    (hnodup : (p.mints.map MintCap.mint).Nodup) :
    List.Forall₂ (fun m m' => m'.mint = m.mint ∧ ∃ i, capPosition p.mints m.mint = some i ∧
      chargeCap m.cap (spentOn charges.mintSpent i) now = .ok m'.cap) p.mints p'.mints := by
  refine List.forall₂_iff_get.2 ⟨h.mints.length_eq.symm, fun i hi hi' => ?_⟩
  have hat : p.mints[i]? = some p.mints[i] := List.getElem?_eq_getElem hi
  obtain ⟨cap, hcap, hget⟩ := h.mints.charged i p.mints[i] hat
  rw [List.getElem?_eq_getElem hi', Option.some.injEq] at hget
  simp only [List.get_eq_getElem, hget]
  exact ⟨trivial, i, capPosition_getElem hnodup hat, hcap⟩

/-- The cap of a mint and the charged one. -/
theorem find?_mint (h : PolicyCharge now wallet key listed bank after charges p p')
    (hnodup : (p.mints.map MintCap.mint).Nodup) (mint : Pubkey) :
    Option.Rel (fun m m' => m'.mint = m.mint ∧ ∃ i, capPosition p.mints m.mint = some i ∧
      chargeCap m.cap (spentOn charges.mintSpent i) now = .ok m'.cap)
      (p.mints.find? fun m => decide (m.mint = mint)) (p'.mints.find? fun m => decide (m.mint = mint)) :=
  find?_forall₂ (h.forall₂_mints hnodup) fun m m' hm => by rw [hm.1]

theorem cap_eq_none (h : PolicyCharge now wallet key listed bank after charges p p')
    (hnodup : (p.mints.map MintCap.mint).Nodup) (hb : b.cap p = none) : b.cap p' = none := by
  cases b with
  | sol =>
    rcases h.sol with ⟨hactive, -⟩ | ⟨-, heq, -⟩
    · simp [Budget.cap, hactive] at hb
    · rw [Budget.cap, heq]
      exact hb
  | mint mint =>
    have hmint := h.find?_mint hnodup mint
    simp only [Budget.cap, Option.map_eq_none_iff] at hb ⊢
    rw [hb] at hmint
    cases hfind : p'.mints.find? fun m => decide (m.mint = mint) with
    | none => rfl
    | some m' => rw [hfind] at hmint; cases hmint

/-- An active SOL cap is charged at least what the wallet lost. -/
theorem charge_sol (h : PolicyCharge now wallet key listed bank after charges p p') (howner : (bank key).owner = crateId)
    (hactive : p.sol.isActive = true) :
    p'.sol.isActive = true ∧ chargeCap p.sol charges.solSpent now = .ok p'.sol ∧ ∀ keys, listed ⊆ keys →
      Budget.sol.Fits keys wallet bank (setData after key data) →
      Budget.sol.loss keys wallet bank (setData after key data) ≤ charges.solSpent.toNat := by
  rcases h.sol with ⟨-, hcharge⟩ | ⟨hinactive, -⟩
  · refine ⟨?_, hcharge, fun keys hsub hfits => ?_⟩
    · have hcap := (chargeCap_ok hcharge).1.1
      simpa [SpendCap.isActive, hcap] using hactive
    · have howner' : (after key).owner = crateId := by rw [h.same]; exact howner
      obtain ⟨hbefore, hafter⟩ := hfits
      obtain ⟨rest, hrestBefore, hrestAfter⟩ := @solHoldings_diff wallet _ _ _ _ hsub h.frame
      rw [solHoldings_setData howner'] at hafter
      have hexact := h.measured.solSpent_eq hactive (by omega) (by omega)
      simp only [Budget.loss, solHoldings_setData howner']
      omega
  · rw [hactive] at hinactive
    cases hinactive

/-- The position of a mint is charged what the wallet lost of it. -/
theorem spentOn_eq (h : PolicyCharge now wallet key listed bank after charges p p') (howner : (bank key).owner = crateId)
    {i : Nat} (hslot : capPosition p.mints mint = some i) (hsub : listed ⊆ keys) :
    (Budget.mint mint).loss keys wallet bank (setData after key data) = (spentOn charges.mintSpent i).toNat := by
  rw [h.measured.spent]
  calc ∑ k ∈ keys, spendLoss wallet mint bank (setData after key data) k
      = ∑ k ∈ keys, spendLoss wallet mint bank after k := Finset.sum_congr rfl fun k _ => spendLoss_setData howner
    _ = ∑ k ∈ listed, spendLoss wallet mint bank after k := (sum_spendLoss_subset hsub h.frame).symm
    _ = ∑ k ∈ listed, mintLoss p.mints wallet bank after i k :=
        Finset.sum_congr rfl fun k _ => (mintLoss_eq_spendLoss hslot).symm

/-- Every cap is charged at least what its budget lost. -/
theorem charged (h : PolicyCharge now wallet key listed bank after charges p p') (howner : (bank key).owner = crateId)
    (hnodup : (p.mints.map MintCap.mint).Nodup) {c : SpendCap} (hb : b.cap p = some c) :
    ∃ amount c', b.cap p' = some c' ∧ chargeCap c amount now = .ok c' ∧ ∀ keys, listed ⊆ keys →
      b.Fits keys wallet bank (setData after key data) → b.loss keys wallet bank (setData after key data) ≤ amount.toNat := by
  cases b with
  | sol =>
    cases hactive : p.sol.isActive with
    | false => simp [Budget.cap, hactive] at hb
    | true =>
      obtain ⟨hactive', hcharge, hloss⟩ := h.charge_sol howner hactive
      simp only [Budget.cap, hactive, if_true, Option.some.injEq] at hb
      subst hb
      exact ⟨charges.solSpent, p'.sol, by simp [Budget.cap, hactive'], hcharge, hloss⟩
  | mint mint =>
    have hmint := h.find?_mint hnodup mint
    obtain ⟨m, hm, rfl⟩ := Option.map_eq_some_iff.1 hb
    rw [hm] at hmint
    cases hfind : p'.mints.find? fun m => decide (m.mint = mint) with
    | none => rw [hfind] at hmint; cases hmint
    | some m' =>
      rw [hfind] at hmint
      cases hmint with
      | some hpair =>
        obtain ⟨-, i, hslot, hcharge⟩ := hpair
        have hkey : m.mint = mint := of_decide_eq_true (List.find?_some (p := fun m : MintCap => decide (m.mint = mint)) hm)
        rw [hkey] at hslot
        exact ⟨_, m'.cap, by simp [Budget.cap, hfind], hcharge, fun keys hsub _ => le_of_eq (h.spentOn_eq howner hslot hsub)⟩

end PolicyCharge

section Sizes

variable [HeapSizes] {rt : Runtime} {key token wallet : Pubkey} {walletBump : UInt8} {remaining : List AccountInfo}
  {compacts : List CompactInstruction} {bank : Bank} {l : Life} {p : Policy} {x : Executed}

/-- A policied execute stores the caps that it charged. -/
theorem executePolicied_policyCharge (hrt : rt.Lawful) (hs : Stored (bank key) l) (hp : l.policy = some p)
    (h : executePolicied rt token wallet key walletBump true remaining compacts bank = .ok x) :
    ∃ p' after charges data, x.bank = setData after key data ∧ Stored (x.bank key) ⟨l.header, some p'⟩ ∧
      PolicyCharge rt.unixTimestamp wallet key (listedKeys remaining) bank after charges p p' := by
  obtain ⟨policy, hstored, hrel⟩ := executePolicied_stored hrt hs (by rw [hp]; exact h)
  obtain ⟨sol, mints, permissions, after, charges, data, hread, hcpis, hmeasure, happly, rfl⟩ := executePolicied_ok h
  have hframe : ∀ k, k ∉ listedKeys remaining → after k = bank k := fun k hk =>
    executeCompactInstructions_frame hrt.invokeSigned hcpis (Or.inl fun hmem => hk (referencedKeys_subset hmem))
  have hsame : after key = bank key := executeCompactInstructions_frame hrt.invokeSigned hcpis (Or.inr (by simp))
  rw [hs.readPolicy hp] at hread
  cases hread
  have hm := measureDeltas_ok hmeasure
  have hlimits : p.sol.isActive = true → limitsActive p.sol p.mints = true := fun h => by simp [limitsActive, h]
  rw [hsame] at happly
  obtain ⟨sol', mints', hsol, hmints, rfl⟩ := (applyCharges_iff (readPolicyMut_of_readPolicy (hs.readPolicy hp)) rfl hlimits
    hm.slots_lt hm.slots_nodup).1 happly
  -- the policy that is stored is the one that was charged
  have hpolicy : policy = some ⟨sol', mints', p.permissions⟩ := by
    rw [hp] at hrel
    cases hrel with
    | @some _ q hlim =>
      have hread' := hstored.readPolicy rfl
      simp only [setData_self, readPolicy_storePolicyMut (hs.readPolicy hp) hmints.length_eq] at hread'
      cases q
      cases hread'
      rfl
  subst hpolicy
  exact ⟨_, after, charges, _, rfl, hstored, hframe, hsame, hm, hsol, hmints⟩

/-- **Policied execute.** Every cap is charged at least what its budget lost. -/
theorem executePolicied_charged (hrt : rt.Lawful) (hs : Stored (bank key) l) (hp : l.policy = some p)
    (h : executePolicied rt token wallet key walletBump true remaining compacts bank = .ok x) :
    ∃ p', Stored (x.bank key) ⟨l.header, some p'⟩ ∧ (∀ b : Budget, b.cap p = none → b.cap p' = none) ∧
      ∀ (b : Budget) c, b.cap p = some c → ∃ amount c', b.cap p' = some c' ∧
        chargeCap c amount rt.unixTimestamp = .ok c' ∧ ∀ keys, listedKeys remaining ⊆ keys →
          b.Fits keys wallet bank x.bank → b.loss keys wallet bank x.bank ≤ amount.toNat := by
  obtain ⟨p', after, charges, data, hbank, hstored, hcharge'⟩ := executePolicied_policyCharge hrt hs hp h
  have hnodup := (hs.sound p hp).distinct
  refine ⟨p', hstored, fun b => hcharge'.cap_eq_none hnodup, fun b c hb => ?_⟩
  rw [hbank]
  exact hcharge'.charged hs.owner hnodup hb

end Sizes

/-! ## Events in time -/

/-- The bank, and the clock of the latest step. -/
structure Moment where
  bank : Bank
  clock : Int64

/-- What a policied execute did, from the bank its CPIs start from to the bank it leaves. -/
structure Outlay where
  now : Int64
  wallet : Pubkey
  listed : Finset Pubkey
  before : Bank
  after : Bank

inductive SpendEvent
  | policied (outlay : Outlay)
  | owner
  | life (e : LifeEvent)

def SpendEvent.loss (b : Budget) (keys : Finset Pubkey) : SpendEvent → Option (Int × Nat)
  | .policied o => some (o.now.toInt, b.loss keys o.wallet o.before o.after)
  | _ => none

/-- The losses of a budget, with their times. -/
def losses (b : Budget) (keys : Finset Pubkey) (es : List SpendEvent) : List (Int × Nat) :=
  es.filterMap (SpendEvent.loss b keys)

/-- The event keeps the limit: a save asks for it again, and the policy is not cleared. -/
def SpendEvent.Keeps (b : Budget) (C : UInt64) (w : Int64) (keys : Finset Pubkey) : SpendEvent → Prop
  | .policied o => o.listed ⊆ keys ∧ b.Fits keys o.wallet o.before o.after
  | .life (.setWalletPolicy args _) => b.limit args = some (C, w)
  | .life .clearWalletPolicy | .life .clearAuthority => False
  | _ => True

theorem losses_concat {b : Budget} {keys : Finset Pubkey} {es : List SpendEvent} {e : SpendEvent} :
    losses b keys (es ++ [e]) = losses b keys es ++ (e.loss b keys).toList := by
  rw [losses, List.filterMap_append]
  cases h : e.loss b keys <;> simp [losses, h]

/-- Charges that cover the losses one by one cover them in every window. -/
theorem spentIn_le {w k : Int} {ls : List (Int × Nat)} {charged : List (Int64 × UInt64)}
    (h : List.Forall₂ (fun loss charge => loss.1 = charge.1.toInt ∧ loss.2 ≤ charge.2.toNat) ls charged) :
    spentIn w k ls ≤ spentIn w k (chargeLog charged) := by
  induction h with
  | nil => exact le_rfl
  | @cons loss charge ls charged hpair _ ih =>
    obtain ⟨htime, hle⟩ := hpair
    simp only [spentIn, chargeLog, List.map_cons, List.filter_cons, htime] at ih ⊢
    split
    · simp only [List.map_cons, List.sum_cons]
      omega
    · exact ih

theorem spentIn_append_le {w k : Int} {log log' : List (Int × Nat)} : spentIn w k log' ≤ spentIn w k (log ++ log') := by
  simp [spentIn, List.filter_append]

/-! ## Meters -/

section Meter

variable {C : UInt64} {w now : Int64} {clock : Int} {c c' : SpendCap} {charged : List (Int64 × UInt64)}

theorem Metered.wait {clock' : Int} {r : CapRun} (h : Metered C w clock r) (hclock : clock ≤ clock') :
    Metered C w clock' r := ⟨h.cap_eq, h.window_eq, h.anchor_nonneg, h.tracks.wait hclock⟩

theorem Metered.charge {amount : UInt64} (h : Metered C w clock ⟨c, charged⟩) (hnow : clock ≤ now.toInt)
    (hcharge : chargeCap c amount now = .ok c') : Metered C w now.toInt ⟨c', charged ++ [(now, amount)]⟩ := by
  rcases chargeCap_spec h hnow amount with ⟨c₁, hc₁, hm, -⟩ | ⟨herr, -⟩
  · rw [hcharge] at hc₁
    cases hc₁
    exact hm
  · rw [hcharge] at herr
    cases herr

/-- A cap that is saved under its own limit stays. -/
theorem SavedCap.same (h : SavedCap C w now (some c) c') (hcap : c.cap = C) (hwindow : c.windowSeconds = w) : c' = c := by
  obtain ⟨fresh, hfresh, rfl⟩ := h
  obtain ⟨-, hfcap, -, hfwin⟩ := newSpendCap_ok hfresh
  exact preserveSpendCap_same c fresh (hcap.trans hfcap.symm) (hwindow.trans hfwin.symm)

/-- A saved cap is new, or the old one under its own limit. -/
theorem SavedCap.metered {old : Option SpendCap} (h : SavedCap C w now old c) (hnow : 0 ≤ now.toInt) :
    Metered C w now.toInt ⟨c, []⟩ ∨ old = some c ∧ c.cap = C ∧ c.windowSeconds = w := by
  obtain ⟨fresh, hfresh, rfl⟩ := h
  obtain ⟨hpos, hcap, -, hwin⟩ := newSpendCap_ok hfresh
  rcases preserveSpendCap_cases fresh old with heq | ⟨prev, hprev, heq, hsame⟩
  · have hw : 0 ≤ w.toInt := by
      simp only [newSpendCap, bind_eq_ok, require_eq_ok] at hfresh
      obtain ⟨_, ⟨-, hw⟩, -⟩ := hfresh
      exact hw
    obtain ⟨r, hr, hr0, hrle, hgrid⟩ := newSpendCap_spec hpos hw hnow
    rw [hfresh] at hr
    cases hr
    rw [heq]
    exact .inl ⟨rfl, rfl, hr0, Tracks.start hgrid hrle⟩
  · rw [heq]
    exact .inr ⟨hprev, hsame.1.trans hcap, hsame.2.trans hwin⟩

end Meter

section Caps

variable {policy : Option Policy} {clock clock' : Int64}

/-- The caps of a policy meter their charges up to a time. -/
def CapsMetered (policy : Option Policy) (clock : Int64) : Prop :=
  ∀ p, policy = some p → ∀ (b : Budget) c, b.cap p = some c →
    ∃ charged, Metered c.cap c.windowSeconds clock.toInt ⟨c, charged⟩

theorem CapsMetered.wait (h : CapsMetered policy clock) (hclock : clock.toInt ≤ clock'.toInt) :
    CapsMetered policy clock' := by
  intro p hp b c hc
  obtain ⟨charged, hm⟩ := h p hp b c hc
  exact ⟨charged, hm.wait hclock⟩

theorem capsMetered_none : CapsMetered none clock := fun _ h => nomatch h

/-- The first policy has no cap. -/
theorem capsMetered_initial : CapsMetered (some .initial) clock := by
  intro p hp b c hc
  cases hp
  cases b <;> simp [Budget.cap, Policy.initial, SpendCap.isActive, SpendCap.empty] at hc

/-- A save starts a cap, or goes on with the one of the same limit. -/
theorem CapsMetered.save {args : WalletPolicyArgs} {old : Option Policy} {p : Policy} {now : Int64}
    (h : CapsMetered old clock) (hsaved : Saved args now old p) (hpast : 0 ≤ now.toInt)
    (hclock : clock.toInt ≤ now.toInt) : CapsMetered (some p) now := by
  intro q hq b c hc
  cases hq
  obtain ⟨hnone, hsome⟩ := b.saved hsaved
  cases hlimit : b.limit args with
  | none =>
    rw [hnone hlimit] at hc
    cases hc
  | some limit =>
    obtain ⟨C, w⟩ := limit
    obtain ⟨c', hc', hcap⟩ := hsome C w hlimit
    rw [hc'] at hc
    cases hc
    rw [hcap.limit.2.1, hcap.limit.2.2]
    rcases hcap.metered hpast with hm | ⟨hold, hC, hw⟩
    · exact ⟨[], hm⟩
    · obtain ⟨p₀, hp₀, hold⟩ := Option.bind_eq_some_iff.1 hold
      obtain ⟨charged, hm⟩ := h p₀ hp₀ b c hold
      rw [hC, hw] at hm
      exact ⟨charged, hm.wait hclock⟩

end Caps

section Sizes

variable [HeapSizes] {rt : Runtime} {key token wallet : Pubkey} {walletBump : UInt8} {remaining : List AccountInfo}
  {compacts : List CompactInstruction} {bank : Bank} {l : Life} {p : Policy} {x : Executed}

/-- A stored account stays stored through the `Verify` CPI. -/
theorem verifyExecute_stored (hrt : rt.Lawful) {accounts : Execute} {args : Secp256r1VerifyArgs} {slotNumber : UInt64}
    {header : AuthorityHeader} {policyPresent : Bool} {before : Bank} (hs : Stored (bank accounts.authorityAccount.key) l)
    (h : verifyExecute rt accounts remaining compacts args slotNumber bank = .ok (header, policyPresent, before)) :
    Stored (before accounts.authorityAccount.key) l ∧ policyPresent = l.policy.isSome := by
  simp only [verifyExecute, bind_eq_ok, pure_eq_ok] at h
  obtain ⟨_, -, _, -, ⟨header', present⟩, hread, _, -, _, -, slotHash, -, message, -, verified, hverify, hret⟩ := h
  cases hret
  obtain ⟨-, rfl⟩ := hs.read_eq hread
  obtain ⟨ho, hd⟩ := hrt.verify _ _ _ _ _ hverify _ hs.owner
  exact ⟨hs.congr (ho.trans hs.owner.symm) hd, rfl⟩

/-! ## Steps in time -/

/-- One successful instruction on the account at `key`, or a change elsewhere; the clock does not go back. -/
inductive SpendStep (key : Pubkey) : SpendEvent → Moment → Moment → Prop
  | execute {rt : Runtime} {accounts : Execute} {remaining : List AccountInfo} {compacts : List CompactInstruction}
      {args : Secp256r1VerifyArgs} {slotNumber : UInt64} {s : Moment} {header : AuthorityHeader} {policyPresent : Bool}
      {before : Bank} {x : Executed} (hrt : rt.Lawful) (hkey : accounts.authorityAccount.key = key)
      (hclock : s.clock.toInt ≤ rt.unixTimestamp.toInt)
      (hverified : verifyExecute rt accounts remaining compacts args slotNumber s.bank = .ok (header, policyPresent, before))
      (h : execute rt accounts remaining compacts args slotNumber s.bank = .ok x) :
      SpendStep key (.policied ⟨rt.unixTimestamp, accounts.wallet.key, listedKeys remaining, before, x.bank⟩) s
        ⟨x.bank, rt.unixTimestamp⟩
  | executeWithAuthorityUsingPolicies {rt : Runtime} {accounts : ExecuteWithAuthority} {remaining : List AccountInfo}
      {compacts : List CompactInstruction} {s : Moment} {x : Executed} (hrt : rt.Lawful)
      (hkey : accounts.authorityAccount.key = key) (hclock : s.clock.toInt ≤ rt.unixTimestamp.toInt)
      (h : executeWithAuthorityUsingPolicies rt accounts remaining compacts s.bank = .ok x) :
      SpendStep key (.policied ⟨rt.unixTimestamp, accounts.wallet.key, listedKeys remaining, s.bank, x.bank⟩) s
        ⟨x.bank, rt.unixTimestamp⟩
  | executeWithAuthority {rt : Runtime} {accounts : ExecuteWithAuthority} {remaining : List AccountInfo}
      {compacts : List CompactInstruction} {s : Moment} {x : Executed} (hrt : rt.Lawful)
      (hkey : accounts.authorityAccount.key = key) (hclock : s.clock.toInt ≤ rt.unixTimestamp.toInt)
      (h : executeWithAuthority rt accounts remaining compacts s.bank = .ok x) :
      SpendStep key .owner s ⟨x.bank, rt.unixTimestamp⟩
  | life {e : LifeEvent} {s s' : Moment} (hstep : LifeStep key e s.bank s'.bank) (he : e ≠ .execute)
      (hclock : s.clock.toInt ≤ s'.clock.toInt) (hnow : ∀ args now, e = .setWalletPolicy args now → now = s'.clock) :
      SpendStep key (.life e) s s'

/-! ## Tallies -/

/-- There is no account of this program at the key, or every cap of its policy meters some charges. -/
def Tallied (key : Pubkey) (s : Moment) : Prop :=
  0 ≤ s.clock.toInt ∧
    ((s.bank key).owner ≠ crateId ∨ ∃ l, Stored (s.bank key) l ∧ CapsMetered l.policy s.clock)

/-- Since a save, the cap meters charges that cover the losses. -/
structure Covered (key : Pubkey) (b : Budget) (C : UInt64) (w : Int64) (keys : Finset Pubkey) (es : List SpendEvent)
    (s : Moment) (l : Life) (p : Policy) (c : SpendCap) (earlier later : List (Int64 × UInt64)) : Prop where
  stored : Stored (s.bank key) l
  policy_eq : l.policy = some p
  cap_eq : b.cap p = some c
  metered : Metered C w s.clock.toInt ⟨c, earlier ++ later⟩
  covers : List.Forall₂ (fun loss charge => loss.1 = charge.1.toInt ∧ loss.2 ≤ charge.2.toNat) (losses b keys es) later

section Tally

variable {s s' : Moment} {e : SpendEvent} {es : List SpendEvent} {b : Budget} {C : UInt64} {w : Int64} {keys : Finset Pubkey}

/-- What any policied execute went through. -/
theorem SpendStep.policied {o : Outlay} (hstep : SpendStep key (.policied o) s s') :
    ∃ rt : Runtime, rt.Lawful ∧ rt.unixTimestamp = o.now ∧ s.clock.toInt ≤ o.now.toInt ∧ s' = ⟨o.after, o.now⟩ ∧
      ((s.bank key).owner ≠ crateId → (o.after key).owner ≠ crateId) ∧
      ∀ l, Stored (s.bank key) l → Stored (o.before key) l ∧ ∃ token walletBump remaining compacts x,
        o.listed = listedKeys remaining ∧ x.bank = o.after ∧
        executePolicied rt token o.wallet key walletBump l.policy.isSome remaining compacts o.before = .ok x := by
  cases hstep with
  | @execute rt accounts remaining compacts args slotNumber _ header policyPresent before x hrt hkey hclock hverified h =>
    subst hkey
    refine ⟨rt, hrt, rfl, hclock, rfl, fun hne => absurd (execute_owner h) hne, fun l hs => ?_⟩
    obtain ⟨hs', rfl⟩ := verifyExecute_stored hrt hs hverified
    simp only [PhygitalWallet.execute, bind_eq_ok] at h
    obtain ⟨⟨header', present, before'⟩, hverified', h⟩ := h
    rw [hverified] at hverified'
    cases hverified'
    exact ⟨hs', _, _, _, _, x, rfl, rfl, h⟩
  | @executeWithAuthorityUsingPolicies rt accounts remaining compacts _ x hrt hkey hclock h =>
    subst hkey
    refine ⟨rt, hrt, rfl, hclock, rfl, fun hne => ?_, fun l hs => ⟨hs, ?_⟩⟩
    · show (x.bank _).owner ≠ crateId
      rw [executeWithAuthorityUsingPolicies_owner hrt h]
      exact hne
    · simp only [PhygitalWallet.executeWithAuthorityUsingPolicies, bind_eq_ok] at h
      obtain ⟨_, -, _, -, _, -, ⟨header, present⟩, hread, h⟩ := h
      obtain ⟨rfl, rfl⟩ := hs.read_eq hread
      obtain ⟨_, -, _, -, _, -, h⟩ := h
      exact ⟨_, _, _, _, x, rfl, rfl, h⟩

/-- A step of the account's life, on a stored account. -/
theorem LifeStep.stored {e : LifeEvent} {bank bank' : Bank} (hstep : LifeStep key e bank bank') (he : e ≠ .execute)
    (hs : Stored (bank key) l) :
    (bank' key).owner ≠ crateId ∧ e = .clearAuthority ∨
      (∃ l', Stored (bank' key) l' ∧ l'.policy = none ∧ e = .clearWalletPolicy) ∨
      (∃ l' p args now, Stored (bank' key) l' ∧ l'.policy = some p ∧ e = .setWalletPolicy args now ∧
        Saved args now l.policy p) ∨ Stored (bank' key) l ∧ e = .elsewhere := by
  cases hstep with
  | @setAuthority rt accounts authority args slotNumber _ _ hrt hkey h =>
    subst hkey
    exact absurd hs.owner (setAuthority_stored hrt h).1
  | @clearAuthority rt accounts _ _ hkey h =>
    subst hkey
    refine .inl ⟨?_, rfl⟩
    rw [clearAuthority_cleared h]
    decide
  | @setWalletPolicy rt accounts args _ _ hrt hkey h =>
    subst hkey
    obtain ⟨p, hsaved, hs'⟩ := setWalletPolicy_stored hrt hs h
    exact .inr (.inr (.inl ⟨_, p, args, _, hs', rfl, rfl, hsaved⟩))
  | clearWalletPolicy hkey h =>
    subst hkey
    exact .inr (.inl ⟨_, (clearWalletPolicy_stored hs h).2, rfl, rfl⟩)
  | execute => exact absurd rfl he
  | executeWithAuthority => exact absurd rfl he
  | executeWithAuthorityUsingPolicies => exact absurd rfl he
  | elsewhere h => exact .inr (.inr (.inr ⟨hs.congr h.1 h.2, rfl⟩))

/-- A step where there is no account yet. -/
theorem LifeStep.absent {e : LifeEvent} {bank bank' : Bank} (hstep : LifeStep key e bank bank') (he : e ≠ .execute)
    (hnone : (bank key).owner ≠ crateId) :
    (bank' key).owner ≠ crateId ∨ ∃ l, Stored (bank' key) l ∧ l.policy = some .initial := by
  cases hstep with
  | @setAuthority rt accounts authority args slotNumber _ _ hrt hkey h =>
    subst hkey
    exact .inr ⟨_, (setAuthority_stored hrt h).2, rfl⟩
  | clearAuthority hkey h =>
    subst hkey
    left
    rw [clearAuthority_cleared h]
    decide
  | setWalletPolicy hrt hkey h => exact absurd (hkey ▸ setWalletPolicy_owner h) hnone
  | clearWalletPolicy hkey h => exact absurd (hkey ▸ clearWalletPolicy_owner h) hnone
  | execute => exact absurd rfl he
  | executeWithAuthority => exact absurd rfl he
  | executeWithAuthorityUsingPolicies => exact absurd rfl he
  | elsewhere h =>
    left
    rw [h.1]
    exact hnone

theorem LifeStep.saved_owner {args : WalletPolicyArgs} {now : Int64} {bank bank' : Bank}
    (hstep : LifeStep key (.setWalletPolicy args now) bank bank') : (bank key).owner = crateId := by
  cases hstep with
  | setWalletPolicy hrt hkey h => exact hkey ▸ setWalletPolicy_owner h

/-- A policied execute charges every cap, or there is none. -/
theorem CapsMetered.execute {rt : Runtime} (hrt : rt.Lawful) {token wallet : Pubkey} {walletBump : UInt8}
    {remaining : List AccountInfo} {compacts : List CompactInstruction} {bank : Bank} {x : Executed} {clock : Int64}
    (h : CapsMetered l.policy clock) (hs : Stored (bank key) l)
    (hexec : executePolicied rt token wallet key walletBump l.policy.isSome remaining compacts bank = .ok x)
    (hclock : clock.toInt ≤ rt.unixTimestamp.toInt) :
    ∃ l', Stored (x.bank key) l' ∧ CapsMetered l'.policy rt.unixTimestamp := by
  cases hp : l.policy with
  | none =>
    obtain ⟨policy, hstored, hrel⟩ := executePolicied_stored hrt hs hexec
    rw [hp] at hrel
    cases hrel
    exact ⟨_, hstored, capsMetered_none⟩
  | some p =>
    rw [hp] at hexec
    obtain ⟨p', hstored, hnone, hsome⟩ := executePolicied_charged hrt hs hp hexec
    refine ⟨_, hstored, fun q hq b c' hc' => ?_⟩
    cases hq
    cases hc : b.cap p with
    | none =>
      rw [hnone b hc] at hc'
      cases hc'
    | some c =>
      obtain ⟨amount, c₁, hc₁, hcharge, -⟩ := hsome b c hc
      rw [hc₁] at hc'
      cases hc'
      obtain ⟨charged, hm⟩ := h p hp b c hc
      obtain ⟨hcap, hwin⟩ := (chargeCap_ok hcharge).1
      rw [hcap, hwin]
      exact ⟨_, hm.charge hclock hcharge⟩

/-- **Step.** Every cap goes on metering. -/
theorem SpendStep.tallied (h : Tallied key s) (hstep : SpendStep key e s s') : Tallied key s' := by
  obtain ⟨hclock₀, h⟩ := h
  cases e with
  | policied o =>
    obtain ⟨rt, hrt, hnow, hclock, rfl, hne, hrun⟩ := hstep.policied
    refine ⟨hclock₀.trans hclock, ?_⟩
    rcases h with hnone | ⟨l, hs, htally⟩
    · exact .inl (hne hnone)
    · obtain ⟨hbefore, token, walletBump, remaining, compacts, x, -, hx, hexec⟩ := hrun l hs
      rw [← hnow] at hclock ⊢
      rw [← hx]
      exact .inr (CapsMetered.execute hrt htally hbefore hexec hclock)
  | owner =>
    cases hstep with
    | executeWithAuthority hrt hkey hclock hexec =>
      subst hkey
      refine ⟨hclock₀.trans hclock, ?_⟩
      rcases h with hnone | ⟨l, hs, htally⟩
      · exact absurd (executeWithAuthority_owner hexec) hnone
      · exact .inr ⟨l, executeWithAuthority_stored hrt hs hexec, htally.wait hclock⟩
  | life e =>
    cases hstep with
    | life hlife he hclock hnow =>
      have hclock' := hclock₀.trans hclock
      refine ⟨hclock', ?_⟩
      rcases h with hnone | ⟨l, hs, htally⟩
      · rcases hlife.absent he hnone with hnone | ⟨l, hs, hinitial⟩
        · exact .inl hnone
        · exact .inr ⟨l, hs, hinitial ▸ capsMetered_initial⟩
      · rcases hlife.stored he hs with ⟨hcleared, -⟩ | ⟨l', hs', hnone, -⟩ | ⟨l', p, args, now, hs', hp, heq, hsaved⟩ | ⟨hs', -⟩
        · exact .inl hcleared
        · exact .inr ⟨l', hs', hnone ▸ capsMetered_none⟩
        · obtain rfl := hnow args now heq
          exact .inr ⟨l', hs', hp ▸ htally.save hsaved hclock' hclock⟩
        · exact .inr ⟨l, hs', htally.wait hclock⟩

/-- An event without a loss covers what was covered. -/
theorem Covered.quiet {l l' : Life} {p p' : Policy} {c : SpendCap} {earlier later : List (Int64 × UInt64)}
    (h : Covered key b C w keys es s l p c earlier later) (hloss : e.loss b keys = none)
    (hs : Stored (s'.bank key) l') (hp : l'.policy = some p') (hc : b.cap p' = some c)
    (hclock : s.clock.toInt ≤ s'.clock.toInt) : Covered key b C w keys (es ++ [e]) s' l' p' c earlier later :=
  ⟨hs, hp, hc, h.metered.wait hclock, by rw [losses_concat, hloss, Option.toList_none, List.append_nil]; exact h.covers⟩

/-- **Step.** What the cap was charged goes on covering the losses. -/
theorem SpendStep.covered {l : Life} {p : Policy} {c : SpendCap} {earlier later : List (Int64 × UInt64)}
    (h : Covered key b C w keys es s l p c earlier later) (hkeeps : e.Keeps b C w keys) (hstep : SpendStep key e s s') :
    ∃ l' p' c' later', Covered key b C w keys (es ++ [e]) s' l' p' c' earlier later' := by
  have hlimit : c.cap = C ∧ c.windowSeconds = w := ⟨h.metered.cap_eq, h.metered.window_eq⟩
  cases e with
  | policied o =>
    obtain ⟨rt, hrt, hnow, hclock, rfl, -, hrun⟩ := hstep.policied
    obtain ⟨hbefore, token, walletBump, remaining, compacts, x, hlisted, hx, hexec⟩ := hrun l h.stored
    rw [h.policy_eq] at hexec
    obtain ⟨p', hstored, -, hsome⟩ := executePolicied_charged hrt hbefore h.policy_eq hexec
    obtain ⟨amount, c', hc', hcharge, hloss⟩ := hsome b c h.cap_eq
    rw [hx] at hstored
    rw [hnow] at hcharge
    have hle : b.loss keys o.wallet o.before o.after ≤ amount.toNat := by
      have hfits := hkeeps.2
      rw [← hx] at hfits ⊢
      exact hloss keys (hlisted ▸ hkeeps.1) hfits
    refine ⟨_, p', c', later ++ [(o.now, amount)], hstored, rfl, hc', ?_, ?_⟩
    · have hm := h.metered.charge hclock hcharge
      rw [List.append_assoc] at hm
      exact hm
    · rw [losses_concat]
      exact List.rel_append h.covers (.cons ⟨rfl, hle⟩ .nil)
  | owner =>
    cases hstep with
    | executeWithAuthority hrt hkey hclock hexec =>
      subst hkey
      exact ⟨l, p, c, later, h.quiet rfl (executeWithAuthority_stored hrt h.stored hexec) h.policy_eq h.cap_eq hclock⟩
  | life e =>
    cases hstep with
    | life hlife he hclock hnow =>
      rcases hlife.stored he h.stored with ⟨-, rfl⟩ | ⟨l', -, -, rfl⟩ | ⟨l', p', args, now, hs', hp', rfl, hsaved⟩ | ⟨hs', rfl⟩
      · exact hkeeps.elim
      · exact hkeeps.elim
      · obtain ⟨c', hc', hcap⟩ := (b.saved hsaved).2 C w hkeeps
        rw [h.policy_eq, Option.bind_some, h.cap_eq] at hcap
        obtain rfl := hcap.same hlimit.1 hlimit.2
        exact ⟨l', p', c', later, h.quiet rfl hs' hp' hc' hclock⟩
      · exact ⟨l, p, c, later, h.quiet rfl hs' h.policy_eq h.cap_eq hclock⟩

/-- The save that sets the limit. -/
theorem Tallied.covered {args : WalletPolicyArgs} {now : Int64} (h : Tallied key s)
    (hstep : SpendStep key (.life (.setWalletPolicy args now)) s s') (hlimit : b.limit args = some (C, w)) :
    ∃ l p c earlier, Covered key b C w keys [] s' l p c earlier [] := by
  obtain ⟨hclock₀, h⟩ := h
  cases hstep with
  | life hlife he hclock hnow =>
    obtain rfl := hnow args now rfl
    rcases h with hnone | ⟨l, hs, htally⟩
    · exact absurd hlife.saved_owner hnone
    · rcases hlife.stored he hs with ⟨-, heq⟩ | ⟨l', -, -, heq⟩ | ⟨l', p, args', now', hs', hp, heq, hsaved⟩ | ⟨-, heq⟩
      · cases heq
      · cases heq
      · cases heq
        obtain ⟨c, hc, hcap⟩ := (b.saved hsaved).2 C w hlimit
        rcases hcap.metered (hclock₀.trans hclock) with hm | ⟨hold, hC, hw⟩
        · exact ⟨l', p, c, [], hs', hp, hc, hm, .nil⟩
        · obtain ⟨old, hlife, hold⟩ := Option.bind_eq_some_iff.1 hold
          obtain ⟨charged, hm⟩ := htally old hlife b c hold
          rw [hC, hw] at hm
          exact ⟨l', p, c, charged, hs', hp, hc, by rw [List.append_nil]; exact hm.wait hclock, .nil⟩
      · cases heq

end Tally

/-! ## The promise -/

/-- **The spending limit.** Once a save has set the limit of a budget, and as long as later saves keep it and the policy is
not cleared, the wallet loses no more than the limit in any window through policied executes, whatever happens before the
save and in between, and the account goes on storing the limit. -/
theorem spending_limit {s₀ s₁ s₂ s₃ : Moment} {es es' : List SpendEvent} {args : WalletPolicyArgs} {now : Int64}
    {b : Budget} {C : UInt64} {w : Int64} {keys : Finset Pubkey} (hnew : (s₀.bank key).owner ≠ crateId)
    (hclock : 0 ≤ s₀.clock.toInt) (hbefore : Run (SpendStep key) s₀ es s₁)
    (hsave : SpendStep key (.life (.setWalletPolicy args now)) s₁ s₂) (hlimit : b.limit args = some (C, w))
    (hrun : Run (SpendStep key) s₂ es' s₃) (hkeeps : ∀ e ∈ es', e.Keeps b C w keys) :
    (∀ k, spentIn w.toInt k (losses b keys es') ≤ C.toNat) ∧
      ∃ p c, readPolicy (s₃.bank key).data = .ok (p.sol, p.mints, p.permissions) ∧ b.cap p = some c ∧ c.cap = C ∧
        c.windowSeconds = w := by
  have htallied : Tallied key s₁ := hbefore.tracked (I := fun _ s => Tallied key s) ⟨hclock, .inl hnew⟩
    fun _ _ _ _ _ h hstep => hstep.tallied h
  have hsaved : ∃ l p c earlier, Covered key b C w keys [] s₂ l p c earlier [] := htallied.covered hsave hlimit
  obtain ⟨l₂, p₂, c₂, earlier, hcovered⟩ := hsaved
  have hlater : (∀ e ∈ es', e.Keeps b C w keys) →
      ∃ l p c later, Covered key b C w keys es' s₃ l p c earlier later := by
    refine hrun.tracked (I := fun es s => (∀ e ∈ es, e.Keeps b C w keys) →
      ∃ l p c later, Covered key b C w keys es s l p c earlier later) (fun _ => ⟨l₂, p₂, c₂, [], hcovered⟩) ?_
    intro es e s s' _ ih hstep hall
    obtain ⟨l, p, c, later, h⟩ := ih fun e he => hall e (List.mem_append_left _ he)
    exact hstep.covered h (hall e (List.mem_append_right _ (List.mem_singleton.2 rfl)))
  obtain ⟨l, p, c, later, h⟩ := hlater hkeeps
  refine ⟨fun k => ?_, p, c, h.stored.readPolicy h.policy_eq, h.cap_eq, h.metered.cap_eq, h.metered.window_eq⟩
  have hbounded := h.metered.tracks.bounded k
  have hcovers := spentIn_le (w := w.toInt) (k := k) h.covers
  have hlog : chargeLog (earlier ++ later) = chargeLog earlier ++ chargeLog later := List.map_append
  rw [hlog] at hbounded
  exact (hcovers.trans spentIn_append_le).trans hbounded

end Sizes

/-! ## A limit that is set and used -/

def ownerAccounts : ExecuteWithAuthority :=
  ⟨⟨.fill 6, true, false⟩, ⟨.fill 8, false, true⟩, ⟨.fill 7, false, true⟩, ⟨.fill 9, false, true⟩,
    ⟨instructionsSysvarId, false, false⟩⟩

/-- What an execute leaves. -/
def executedOf (r : Result Executed) : Executed :=
  match r with
  | .ok x => x
  | .error _ => ⟨lifecycleBank, none⟩

theorem eq_ok_executedOf {r : Result Executed} (h : r.isOk = true) : r = .ok (executedOf r) := by
  cases r with
  | error e => cases h
  | ok x => rfl

/-- The account is created, a daily limit of 50 lamports is set, and the owner sends 30 under the policy. -/
theorem limited_transfer : ∃ bank₁ bank₂ x,
    @setAuthority lifecycleRuntime lifecycleSetAuthority (.fill 6) ⟨0, 0, []⟩ 3 lifecycleBank = .ok bank₁ ∧
    @setWalletPolicy targetHeapSizes lifecycleRuntime lifecycleSetWalletPolicy lifecyclePolicy bank₁ = .ok bank₂ ∧
    @executeWithAuthorityUsingPolicies targetHeapSizes lifecycleRuntime ownerAccounts (transferRemaining [])
      [transferInstruction] bank₂ = .ok x ∧
    solHoldings (.fill 9) bank₂ (listedKeys (transferRemaining [])) = 100 ∧
    solHoldings (.fill 9) x.bank (listedKeys (transferRemaining [])) = 70 := by
  let _ := targetHeapSizes
  let created := setAuthority lifecycleRuntime lifecycleSetAuthority (.fill 6) ⟨0, 0, []⟩ 3 lifecycleBank
  let saved := setWalletPolicy lifecycleRuntime lifecycleSetWalletPolicy lifecyclePolicy (bankOf created)
  let run := executeWithAuthorityUsingPolicies lifecycleRuntime ownerAccounts (transferRemaining []) [transferInstruction]
    (bankOf saved)
  have hcreated : created = .ok (bankOf created) := eq_ok_bankOf (by decide +kernel)
  have hsaved : saved = .ok (bankOf saved) := eq_ok_bankOf (by decide +kernel)
  have hrun : run = .ok (executedOf run) := eq_ok_executedOf (by decide +kernel)
  have hbefore : solHoldings (.fill 9) (bankOf saved) (listedKeys (transferRemaining [])) = 100 := by decide +kernel
  have hafter : solHoldings (.fill 9) (executedOf run).bank (listedKeys (transferRemaining [])) = 70 := by decide +kernel
  exact ⟨_, _, _, hcreated, hsaved, hrun, hbefore, hafter⟩

theorem spending_limit_transfer : ∃ s₂ s₃ o, @SpendStep targetHeapSizes (.fill 7) (.policied o) s₂ s₃ ∧
    Budget.sol.loss (listedKeys (transferRemaining [])) o.wallet o.before o.after = 30 ∧
    ∀ k, spentIn 86400 k (losses .sol (listedKeys (transferRemaining [])) [.policied o]) ≤ 50 := by
  let _ := targetHeapSizes
  obtain ⟨bank₁, bank₂, x, hcreated, hsaved, hrun, hbefore, hafter⟩ := limited_transfer
  have hnew : (lifecycleBank (.fill 7)).owner ≠ crateId := by decide +kernel
  generalize hkeys : listedKeys (transferRemaining []) = keys at hbefore hafter ⊢
  let o : Outlay := ⟨0, .fill 9, listedKeys (transferRemaining []), bank₂, x.bank⟩
  have hloss : Budget.sol.loss keys o.wallet o.before o.after = 30 := by
    show solHoldings (.fill 9) bank₂ keys - solHoldings (.fill 9) x.bank keys = 30
    rw [hbefore, hafter]
  have hset : SpendStep (.fill 7) (.life (.setAuthority (lifecycleSetAuthority.header lifecycleRuntime (.fill 6))))
      ⟨lifecycleBank, 0⟩ ⟨bank₁, 0⟩ :=
    .life (.setAuthority lifecycleRuntime_lawful rfl hcreated) (fun h => nomatch h) le_rfl fun _ _ h => nomatch h
  have hsave : SpendStep (.fill 7) (.life (.setWalletPolicy lifecyclePolicy 0)) ⟨bank₁, 0⟩ ⟨bank₂, 0⟩ := by
    refine .life (.setWalletPolicy lifecycleRuntime_lawful rfl hsaved) (fun h => nomatch h) le_rfl ?_
    rintro _ _ ⟨⟩
    rfl
  have hspend : SpendStep (.fill 7) (.policied o) ⟨bank₂, 0⟩ ⟨x.bank, 0⟩ :=
    @SpendStep.executeWithAuthorityUsingPolicies targetHeapSizes (.fill 7) lifecycleRuntime ownerAccounts
      (transferRemaining []) [transferInstruction] ⟨bank₂, 0⟩ x lifecycleRuntime_lawful rfl le_rfl hrun
  have hkeeps : ∀ e ∈ [SpendEvent.policied o], e.Keeps .sol 50 86400 keys := by
    intro e he
    rw [List.mem_singleton.1 he]
    have hfits : Budget.sol.Fits keys (.fill 9) bank₂ x.bank := ⟨by omega, by omega⟩
    exact ⟨hkeys.subset, hfits⟩
  have hlimit : Budget.sol.limit lifecyclePolicy = some (50, 86400) := rfl
  have hclock : 0 ≤ (Moment.mk lifecycleBank 0).clock.toInt := le_rfl
  obtain ⟨hpromise, -⟩ := spending_limit hnew hclock (.snoc .nil hset) hsave hlimit (.snoc .nil hspend) hkeeps
  exact ⟨_, _, o, hspend, hloss, hpromise⟩

end PhygitalWallet
