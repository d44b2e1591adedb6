import PhygitalWallet.App.PolicyEditor

/-!
# The policy status view (`components/wallet/policy-status-view.tsx`, `lib/wallet/policy-format.ts`)

- `capRows`: the rows of the spendable assets, with the amount and the instant that their labels format;
- `chargeable`, `refills`: what the program's meter would do at a time;
- `Fresh`: a cap whose window is not over;
- `policy_status_view`: the rows against the meter.
-/

namespace PhygitalWallet.App

open ByteSeq Client Runs

/-! ## Rows -/

/-- The instant that `nextResetDate` hands to `formatResetDate`. -/
def nextResetAt (lastReset windowSeconds : Int) : Option Int :=
  if windowSeconds = 0 then none else some (lastReset + windowSeconds)

/-- `POLICY_WINDOW_PRESETS`. -/
def policyWindowPresets : List (Int × String) :=
  [(86400, "Every day"), (604800, "Every week"), (2592000, "Every month"), (0, "One-time")]

/-- Falls back to lifetime. -/
def windowLabel (windowSeconds : Int) : String :=
  ((policyWindowPresets.find? fun p => p.1 = windowSeconds).map Prod.snd).getD "One-time"

def windowPhrase (windowSeconds : Int) : String := (windowLabel windowSeconds).toLower

/-- A row of the matrix. -/
structure CapRow where
  symbol : String
  capLabel : String
  windowLabel : String
  /-- Without them no amount is shown. -/
  decimals : Option Nat
  /-- The raw amount of the label. -/
  remaining : Int
  /-- The instant of its date. -/
  resetAt : Option Int
deriving DecidableEq, Repr

/-- `capRemainingLabel`, and the label of a mint that is not known. -/
def CapRow.remainingLabel (formatResetDate : Int → String) (row : CapRow) : String :=
  match row.decimals, row.resetAt.map formatResetDate with
  | some decimals, some date =>
    formatTokenAmount row.remaining decimals ++ " " ++ row.symbol ++ " left · resets " ++ date
  | some decimals, none => formatTokenAmount row.remaining decimals ++ " " ++ row.symbol ++ " left · one-time"
  | none, some date => "Resets " ++ date
  | none, none => "One-time — doesn’t reset"

def solRow (solCap : SpendCapView) : CapRow where
  symbol := "SOL"
  capLabel := lamportsToSol solCap.cap ++ " SOL"
  windowLabel := windowPhrase solCap.windowSeconds
  decimals := some solDecimals
  remaining := solCap.remaining
  resetAt := nextResetAt solCap.lastReset solCap.windowSeconds

def mintRow (tokens : List PaymentToken) (m : MintCapView) : CapRow :=
  let token := tokenOf tokens m.mint
  let decimals := token.map PaymentToken.decimals
  let symbol := (token.map PaymentToken.symbol).getD (shortAddress m.mint.text)
  { symbol
    capLabel := match decimals with
      | some decimals => String.ofList (JsText.trim (formatTokenAmount m.cap decimals ++ " " ++ symbol).toList)
      | none => shortAddress m.mint.text
    windowLabel := windowPhrase m.windowSeconds
    decimals
    remaining := m.remaining
    resetAt := nextResetAt m.lastReset m.windowSeconds }

/-- The spendable assets of the view. Only `LimitedMatrix` lists them. -/
def capRows (tokens : List PaymentToken) (view : WalletPolicyView) : List CapRow :=
  if view.status = .limited then (view.solCap.map solRow).toList ++ view.mintCaps.map (mintRow tokens) else []

example : ((capRows [] ⟨.limited, true, some ⟨5, 2000000000, 0, 86400⟩, [], []⟩).map
    (CapRow.remainingLabel fun _ => "Jan 2")) = ["2 SOL left · resets Jan 2"] := by decide +kernel

/-! ## The meter -/

/-- The amounts that `charge_cap` would accept. -/
def chargeable (c : SpendCap) (now : Int64) : Set Nat :=
  {a | ∃ amount : UInt64, amount.toNat = a ∧ ∃ c', chargeCap c amount now = .ok c'}

/-- The later instants at which `charge_cap` would refill the cap, used up now. -/
def refills (c : SpendCap) (now : Int64) : Set Int :=
  {t | now.toInt < t ∧ ∃ (amount : UInt64) (used : SpendCap), IsGreatest (chargeable c now) amount.toNat ∧
    chargeCap c amount now = .ok used ∧ ∃ later : Int64, later.toInt = t ∧ ∃ a ∈ chargeable used later, 0 < a}

/-- The row shows what the meter would do. -/
structure MatchesMeter (c : SpendCap) (now : Int64) (row : CapRow) : Prop where
  remaining : row.decimals.isSome → ∃ shown : Nat, row.remaining = shown ∧ IsGreatest (chargeable c now) shown
  reset : 0 < c.windowSeconds.toInt → ∃ instant ∈ row.resetAt, IsLeast (refills c now) instant

/-- The window is for life, or ends later, at an instant that the clock can show. -/
def Fresh (c : SpendCap) (now : Int64) : Prop :=
  c.windowSeconds = 0 ∨
    now.toInt < c.lastReset.toInt + c.windowSeconds.toInt ∧ c.lastReset.toInt + c.windowSeconds.toInt < 2 ^ 63

section Cap

variable {c : SpendCap} {now : Int64}

/-- A window that is not over leaves the cap as it is. -/
theorem refill_within (hpast : c.lastReset.toInt ≤ now.toInt)
    (h : c.windowSeconds.toInt ≤ 0 ∨ now.toInt < c.lastReset.toInt + c.windowSeconds.toInt) :
    refill c now = .ok c := by
  unfold refill
  by_cases hw : 0 < c.windowSeconds.toInt
  · have hlt := c.windowSeconds.toInt_lt
    obtain ⟨elapsed, he⟩ := checkedI64_isSome (n := now.toInt - c.lastReset.toInt) (by omega) (by omega)
    have hev := checkedI64_eq_some.1 he
    have hover : ¬ c.windowSeconds.toInt ≤ elapsed.toInt := by omega
    rw [if_pos hw, he]
    simp [okOr, hover]
  · rw [if_neg hw]
    rfl

/-- At the end of the window the cap is full again. -/
theorem refill_end (hw : 0 < c.windowSeconds.toInt) (h : now.toInt = c.lastReset.toInt + c.windowSeconds.toInt) :
    refill c now = .ok { c with lastReset := now, remaining := c.cap } := by
  have hlt := c.windowSeconds.toInt_lt
  obtain ⟨elapsed, he⟩ := checkedI64_isSome (n := now.toInt - c.lastReset.toInt) (by omega) (by omega)
  have hev : elapsed.toInt = c.windowSeconds.toInt := by
    rw [checkedI64_eq_some.1 he]
    omega
  have hperiods : elapsed.toInt.tdiv c.windowSeconds.toInt * c.windowSeconds.toInt = c.windowSeconds.toInt := by
    rw [hev, Int.tdiv_self (by omega), Int.one_mul]
  have hadvance : checkedI64 (elapsed.toInt.tdiv c.windowSeconds.toInt * c.windowSeconds.toInt) =
      some c.windowSeconds := checkedI64_eq_some.2 hperiods.symm
  have hreset : checkedI64 (c.lastReset.toInt + c.windowSeconds.toInt) = some now := checkedI64_eq_some.2 h
  unfold refill
  rw [if_pos hw, he]
  have hdone : c.windowSeconds.toInt ≤ elapsed.toInt := hev.ge
  simp only [okOr, ok_bind, if_pos hdone, hadvance, hreset]
  rfl

/-- A charge goes through when the refilled cap has it. -/
theorem mem_chargeable_iff {filled : SpendCap} (h : refill c now = .ok filled) {amount : UInt64} :
    (∃ c', chargeCap c amount now = .ok c') ↔ amount ≤ filled.remaining := by
  unfold chargeCap
  by_cases hzero : amount = 0
  · subst hzero
    simp
  · rw [if_neg hzero, h]
    simp only [ok_bind, bind_eq_ok, require_eq_ok, exists_const, okOr_eq_ok, pure_eq_ok]
    constructor
    · rintro ⟨_, hle, -⟩
      exact hle
    · intro hle
      exact ⟨_, hle, _, if_pos hle, rfl⟩

theorem isGreatest_chargeable {filled : SpendCap} (h : refill c now = .ok filled) :
    IsGreatest (chargeable c now) filled.remaining.toNat := by
  constructor
  · exact ⟨_, rfl, (mem_chargeable_iff h).2 (UInt64.le_refl _)⟩
  · rintro _ ⟨amount, rfl, hamount⟩
    exact UInt64.le_iff_toNat_le.1 ((mem_chargeable_iff h).1 hamount)

/-- Within its window a cap is used up by all that remains. -/
theorem chargeCap_remaining (h : refill c now = .ok c) :
    chargeCap c c.remaining now = .ok { c with remaining := 0 } := by
  unfold chargeCap
  by_cases hzero : c.remaining = 0
  · rw [if_pos hzero, ← hzero]
    rfl
  · rw [if_neg hzero, h]
    simp [require, okOr, checkedSubU64, pure, Except.pure]

/-- **The next refill** of a cap in its window is at the end of it. -/
theorem isLeast_refills (hcap : 0 < c.cap) (hw : 0 < c.windowSeconds.toInt) (hpast : c.lastReset.toInt ≤ now.toInt)
    (hlt : now.toInt < c.lastReset.toInt + c.windowSeconds.toInt)
    (hfits : c.lastReset.toInt + c.windowSeconds.toInt < 2 ^ 63) :
    IsLeast (refills c now) (c.lastReset.toInt + c.windowSeconds.toInt) := by
  have hrefill := refill_within hpast (Or.inr hlt)
  have hge := c.lastReset.le_toInt
  constructor
  · obtain ⟨later, hlater⟩ := checkedI64_isSome (n := c.lastReset.toInt + c.windowSeconds.toInt) (by omega) hfits
    have hend := checkedI64_eq_some.1 hlater
    have hfull : refill { c with remaining := 0 } later = .ok { c with lastReset := later, remaining := c.cap } :=
      refill_end (c := { c with remaining := 0 }) hw hend
    exact ⟨hlt, _, _, isGreatest_chargeable hrefill, chargeCap_remaining hrefill, later, hend, _,
      (isGreatest_chargeable hfull).1, UInt64.lt_iff_toNat_lt.1 hcap⟩
  · rintro _ ⟨hafter, amount, used, hgreatest, hcharge, later, rfl, _, ⟨a, rfl, ha⟩, hpos⟩
    by_contra hbefore
    have hamount : amount = c.remaining :=
      UInt64.toNat_inj.1 (hgreatest.unique (isGreatest_chargeable hrefill))
    rw [hamount, chargeCap_remaining hrefill] at hcharge
    obtain rfl := Except.ok.inj hcharge
    -- the used cap is still in the same window, and has nothing left there
    have hempty : refill { c with remaining := 0 } later = .ok { c with remaining := 0 } :=
      refill_within (c := { c with remaining := 0 }) (by simp only; omega) (Or.inr (by simp only; omega))
    have hle := UInt64.le_iff_toNat_le.1 ((mem_chargeable_iff hempty).1 ha)
    simp at hle
    omega

/-- **A row against the meter**: it is right just as long as the cap is fresh. -/
theorem matchesMeter_iff {row : CapRow} (hcap : 0 < c.cap) (hw : 0 ≤ c.windowSeconds.toInt)
    (hpast : c.lastReset.toInt ≤ now.toInt) (hremaining : row.remaining = c.remaining.toNat)
    (hreset : row.resetAt = nextResetAt c.lastReset.toInt c.windowSeconds.toInt) :
    MatchesMeter c now row ↔ Fresh c now := by
  have hzero : c.windowSeconds = 0 ↔ c.windowSeconds.toInt = 0 := by rw [← Int64.toInt_inj, Int64.toInt_zero]
  rw [Fresh, hzero]
  by_cases hpos : 0 < c.windowSeconds.toInt
  · have hinstant : row.resetAt = some (c.lastReset.toInt + c.windowSeconds.toInt) := by
      rw [hreset, nextResetAt, if_neg (by omega)]
    constructor
    · intro hmatch
      obtain ⟨instant, hshown, ⟨hafter, -, -, -, -, later, hlater, -⟩, -⟩ := hmatch.reset hpos
      obtain rfl := Option.some.inj (hinstant.symm.trans hshown)
      exact Or.inr ⟨hafter, hlater ▸ later.toInt_lt⟩
    · rintro (hlife | ⟨hlt, hfits⟩)
      · omega
      · have hrefill := refill_within hpast (Or.inr hlt)
        exact ⟨fun _ => ⟨_, hremaining, isGreatest_chargeable hrefill⟩,
          fun _ => ⟨_, hinstant, isLeast_refills hcap hpos hpast hlt hfits⟩⟩
  · have hrefill := refill_within hpast (Or.inl (by omega))
    refine iff_of_true ⟨fun _ => ⟨_, hremaining, isGreatest_chargeable hrefill⟩, fun h => absurd h hpos⟩ (Or.inl ?_)
    omega

end Cap

/-! ## Stored caps -/

/-- The active caps of an account. -/
def capsOf (sol : SpendCap) (mints : List MintCap) : List SpendCap :=
  (if sol.isActive then [sol] else []) ++ mints.map MintCap.cap

theorem savedCap_window {cap : UInt64} {windowSeconds now : Int64} {old : Option SpendCap} {new : SpendCap}
    (h : SavedCap cap windowSeconds now old new) : 0 ≤ new.windowSeconds.toInt := by
  obtain ⟨fresh, hfresh, rfl⟩ := h
  have hw : 0 ≤ fresh.windowSeconds.toInt := by
    simp only [newSpendCap, bind_eq_ok, require_eq_ok, exists_const, pure_eq_ok] at hfresh
    obtain ⟨⟨-, hw⟩, _, -, rfl⟩ := hfresh
    exact hw
  rcases preserveSpendCap_cases fresh old with heq | ⟨prev, -, heq, hsame⟩
  · rw [heq]
    exact hw
  · rw [heq, hsame.2]
    exact hw

theorem sameLimits_window {p q : Policy} (h : SameLimits p q)
    (hp : 0 ≤ p.sol.windowSeconds.toInt ∧ ∀ m ∈ p.mints, 0 ≤ m.cap.windowSeconds.toInt) :
    0 ≤ q.sol.windowSeconds.toInt ∧ ∀ m ∈ q.mints, 0 ≤ m.cap.windowSeconds.toInt := by
  refine ⟨h.sol.2 ▸ hp.1, fun m hm => ?_⟩
  obtain ⟨i, hi, rfl⟩ := List.getElem_of_mem hm
  have hi' : i < p.mints.length := h.mints.length_eq ▸ hi
  have hsame := ((List.forall₂_iff_get.1 h.mints).2 i hi' hi).2.2
  simp only [List.get_eq_getElem] at hsame
  rw [hsame]
  exact hp.2 _ (List.getElem_mem hi')

theorem saved_window {args : WalletPolicyArgs} {now : Int64} {old : Option Policy} {p : Policy}
    (h : Saved args now old p) : 0 ≤ p.sol.windowSeconds.toInt ∧ ∀ m ∈ p.mints, 0 ≤ m.cap.windowSeconds.toInt := by
  constructor
  · cases hargs : args.solCap with
    | none =>
      rw [h.noSol hargs]
      exact le_refl _
    | some s => exact savedCap_window (h.sol s hargs)
  · intro m hm
    obtain ⟨i, hi, rfl⟩ := List.getElem_of_mem hm
    have hi' : i < args.mintCaps.length := h.mints.length_eq ▸ hi
    have hcap := ((List.forall₂_iff_get.1 h.mints).2 i hi' hi).2
    exact savedCap_window hcap

section Sizes

variable [HeapSizes] {kit : KitDecoders} {key : Pubkey} {bank₀ bank : Bank} {es : List LifeEvent} {l : Life}

/-- No window of a policy is negative. -/
theorem history_window (h : History key bank₀ es bank l) : 0 ≤ (policyOf l).sol.windowSeconds.toInt ∧
    ∀ m ∈ (policyOf l).mints, 0 ≤ m.cap.windowSeconds.toInt := by
  have hinitial : 0 ≤ Policy.initial.sol.windowSeconds.toInt ∧
      ∀ m ∈ Policy.initial.mints, 0 ≤ m.cap.windowSeconds.toInt := ⟨le_refl _, by simp [Policy.initial]⟩
  cases hp : l.policy with
  | none =>
    rw [policyOf, hp]
    exact hinitial
  | some p =>
    rw [policyOf, hp, Option.getD_some]
    rcases h.origin p hp with ⟨_, _, _, -, -, hsame⟩ | ⟨_, _, _, _, _, _, _, -, -, -, -, hsaved, hsame⟩
    · exact sameLimits_window hsame hinitial
    · exact sameLimits_window hsame (saved_window hsaved)

/-- An account with a cap has a policy, and the view of that is limited. -/
theorem lifeView_limited {account : Account} (hs : Stored account l)
    (h : (policyOf l).sol.isActive = true ∨ (policyOf l).mints ≠ []) : (lifeView l).status = .limited := by
  have hversion := hs.policyVersion
  cases hp : l.policy with
  | none =>
    rw [policyOf, hp] at h
    simp [Policy.initial, SpendCap.isActive, SpendCap.empty] at h
  | some p =>
    rw [policyOf, hp, Option.getD_some] at h
    rw [hp] at hversion
    have hmints := filter_mints fun m hm => ((hs.sound p hp).mints m hm).2.2
    simp only [lifeView, useWalletPolicy, hp, Option.getD_some, hversion]
    rw [hmints]
    rcases h with hsol | hmint
    · have hcap : p.sol.cap ≠ 0 := by simpa [SpendCap.isActive] using hsol
      simp [hcap, walletPolicyVersion]
    · have hlength := List.length_pos_iff.2 hmint
      simp [hmint, walletPolicyVersion]

/-- The rows of a stored account. -/
theorem capRows_lifeView {account : Account} (hs : Stored account l) (tokens : List PaymentToken) :
    capRows tokens (lifeView l) = (if (policyOf l).sol.isActive then [solRow (spendCapView (policyOf l).sol)] else []) ++
      (policyOf l).mints.map fun m => mintRow tokens { spendCapView m.cap with mint := m.mint } := by
  by_cases hlimited : (lifeView l).status = .limited
  · rw [capRows, if_pos hlimited, lifeView_sol, lifeView_mints hs.sound, List.map_map]
    cases (policyOf l).sol.isActive <;> rfl
  · have hnone : ¬ ((policyOf l).sol.isActive = true ∨ (policyOf l).mints ≠ []) :=
      fun h => hlimited (lifeView_limited hs h)
    rw [not_or, not_not] at hnone
    simp [capRows, hlimited, hnone.1, hnone.2]

/-- **The policy status view**: in every state of an authority account, the row of every active cap shows what the meter
would do at a time since its last reset, if and only if the window of the cap is not over by then. -/
theorem policy_status_view (hkit : kit.Documented) (hnew : (bank₀ key).owner ≠ crateId)
    (hrun : Run (LifeStep key) bank₀ es bank) (hexists : (bank key).owner = crateId) (tokens : List PaymentToken) :
    ∃ view sol mints permissions, viewOfData kit (bank key).data = some view ∧
      readPolicy (bank key).data = .ok (sol, mints, permissions) ∧
      List.Forall₂ (fun c row => ∀ now : Int64, c.lastReset.toInt ≤ now.toInt →
        (MatchesMeter c now row ↔ Fresh c now)) (capsOf sol mints) (capRows tokens view) := by
  have htracked : Tracked key bank₀ es bank :=
    hrun.tracked (I := Tracked key bank₀) (Or.inl hnew) fun es e s s' hr ht hstep => hstep.tracked hr ht
  obtain ⟨l, hl⟩ := htracked.history hexists
  obtain ⟨hsol, hmints, -⟩ := policyOf_sound hl.stored.sound
  obtain ⟨hwindow, hwindows⟩ := history_window hl
  refine ⟨_, _, _, _, viewOfData_stored hkit hl.stored, readPolicy_of_life hl.stored, ?_⟩
  rw [capRows_lifeView hl.stored, capsOf]
  refine List.rel_append ?_ ?_
  · cases hactive : (policyOf l).sol.isActive with
    | false => exact .nil
    | true =>
      have hcap : 0 < (policyOf l).sol.cap := by
        rcases hsol with hempty | hsound
        · rw [hempty] at hactive
          cases hactive
        · exact hsound.1
      exact .cons (fun now hpast => matchesMeter_iff hcap hwindow hpast rfl rfl) .nil
  · rw [List.forall₂_map_left_iff, List.forall₂_map_right_iff, List.forall₂_same]
    intro m hm now hpast
    exact matchesMeter_iff (hmints m hm).2.1 (hwindows m hm) hpast rfl rfl

end Sizes

/-- The rows where 30 of the 50 are spent. -/
theorem policy_status_view_spent : ∃ view sol mints permissions,
    viewOfData kitDecoders (spentBank (.fill 7)).data = some view ∧
    @readPolicy targetHeapSizes (spentBank (.fill 7)).data = .ok (sol, mints, permissions) ∧
    List.Forall₂ (fun c row => ∀ now : Int64, c.lastReset.toInt ≤ now.toInt →
      (MatchesMeter c now row ↔ Fresh c now)) (capsOf sol mints) (capRows [] view) := by
  let _ := targetHeapSizes
  exact policy_status_view kitDecoders_documented (by decide +kernel) spentBank_run (by decide +kernel) []

/-- A day later the row still shows 20, to be reset now; the meter accepts 50. -/
theorem policy_status_view_nextDay :
    Run (@LifeStep targetHeapSizes (.fill 7)) lifecycleBank
      [.setAuthority (lifecycleSetAuthority.header lifecycleRuntime (.fill 6)),
        .setWalletPolicy lifecyclePolicy lifecycleRuntime.unixTimestamp, .execute] spentBank ∧
    ∃ view sol mints permissions row rows, viewOfData kitDecoders (spentBank (.fill 7)).data = some view ∧
      @readPolicy targetHeapSizes (spentBank (.fill 7)).data = .ok (sol, mints, permissions) ∧
      capRows [] view = row :: rows ∧ row.remaining = 20 ∧ row.resetAt = some 86400 ∧ sol.isActive = true ∧
      sol.lastReset.toInt ≤ 86400 ∧ (∃ c', chargeCap sol 50 86400 = .ok c') ∧ ¬ MatchesMeter sol 86400 row := by
  let _ := targetHeapSizes
  have hview : (viewOfData kitDecoders (spentBank (.fill 7)).data).map (fun view =>
      (capRows [] view).map fun row => (row.remaining, row.resetAt)) = some [(20, some 86400), (10, none)] := by
    decide +kernel
  have hread : (readPolicy (spentBank (.fill 7)).data).map Prod.fst = .ok ⟨50, 20, 0, 86400⟩ := by decide +kernel
  obtain ⟨view, hdata, hrows⟩ := Option.map_eq_some_iff.1 hview
  obtain ⟨⟨sol, mints, permissions⟩, hpolicy, hsol⟩ := exists_of_map_eq_ok hread
  obtain rfl : sol = ⟨50, 20, 0, 86400⟩ := hsol
  obtain ⟨row, rows, hcons, hrow, -⟩ := List.map_eq_cons_iff.1 hrows
  rw [Prod.mk.injEq] at hrow
  refine ⟨spentBank_run, view, _, mints, permissions, row, rows, hdata, hpolicy, hcons, hrow.1, hrow.2, rfl, by decide,
    ⟨⟨50, 0, 86400, 86400⟩, by decide⟩, fun hmatch => ?_⟩
  obtain ⟨instant, hshown, hleast⟩ := hmatch.reset (by decide)
  obtain rfl := Option.some.inj (hrow.2.symm.trans hshown)
  exact absurd hleast.1.1 (by decide)

end PhygitalWallet.App
