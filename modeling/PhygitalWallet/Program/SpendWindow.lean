import PhygitalWallet.Program.SpendingLimit
import PhygitalWallet.Lib.WindowBudget

/-!
# The spend-window law

A `SpendCap` is a meter in the sense of `WindowBudget`: `lastReset` is the anchor and `remaining` what is left. The
step lemmas `refill_spec` and `chargeCap_spec` say that the checked arithmetic never fails on it and that the code does
what the meter does; `capRun_metered` carries the relation over any run of charges and re-saves.
-/

namespace PhygitalWallet

open WindowBudget

/-! ## Runs of one cap -/

/-- What can happen to a cap: a charge is attempted, or its policy is saved again with the same cap and window. -/
inductive CapEvent
  | charge (amount : UInt64) (now : Int64)
  | resave (now : Int64)

def CapEvent.now : CapEvent → Int64
  | .charge _ now => now
  | .resave now => now

@[simp] theorem CapEvent.now_charge (amount : UInt64) (now : Int64) : (CapEvent.charge amount now).now = now := rfl

@[simp] theorem CapEvent.now_resave (now : Int64) : (CapEvent.resave now).now = now := rfl

/-- The stored cap, with the charges that have succeeded on it. -/
structure CapRun where
  cap : SpendCap
  charged : List (Int64 × UInt64)

/-- One event. A failed attempt aborts its transaction and leaves the cap as it was. -/
def capStep (cap : UInt64) (windowSeconds : Int64) (s : CapRun) : CapEvent → CapRun
  | .charge amount now =>
    match chargeCap s.cap amount now with
    | .ok c => ⟨c, s.charged ++ [(now, amount)]⟩
    | .error _ => s
  | .resave now =>
    match newSpendCap cap windowSeconds now with
    | .ok fresh => { s with cap := preserveSpendCap fresh (some s.cap) }
    | .error _ => s

def capRun (cap : UInt64) (windowSeconds : Int64) (s : CapRun) (events : List CapEvent) : CapRun :=
  events.foldl (capStep cap windowSeconds) s

/-- The clock after the events. -/
def clockAfter (t : Int) (events : List CapEvent) : Int := events.foldl (fun _ e => e.now.toInt) t

/-- The events come with a clock that never goes back. -/
def Clocked : Int → List CapEvent → Prop
  | _, [] => True
  | t, e :: es => t ≤ e.now.toInt ∧ Clocked e.now.toInt es

/-- The sum of the charges made at clock values in `[lo, hi)`. -/
def chargedBetween (lo hi : Int) (charged : List (Int64 × UInt64)) : Nat :=
  ((charged.filter fun e => lo ≤ e.1.toInt ∧ e.1.toInt < hi).map (·.2.toNat)).sum

/-- The sum of all charges. -/
def chargedTotal (charged : List (Int64 × UInt64)) : Nat := (charged.map (·.2.toNat)).sum

/-! ## The cap as a meter -/

/-- The charges as a log over plain numbers. -/
def chargeLog (charged : List (Int64 × UInt64)) : List (Int × Nat) :=
  charged.map fun e => (e.1.toInt, e.2.toNat)

theorem spentIn_chargeLog {w k : Int} (hw : 0 < w) (charged : List (Int64 × UInt64)) :
    spentIn w k (chargeLog charged) = chargedBetween (k * w) ((k + 1) * w) charged := by
  unfold spentIn chargeLog chargedBetween
  rw [List.filter_map, List.map_map]
  congr 2
  apply List.filter_congr
  intro e _
  simp only [Function.comp_apply, decide_eq_decide]
  exact windowOf_eq_iff hw

theorem spentIn_chargeLog_lifetime {w : Int} (hw : ¬0 < w) (charged : List (Int64 × UInt64)) :
    spentIn w 0 (chargeLog charged) = chargedTotal charged := by
  unfold spentIn chargeLog chargedTotal
  rw [List.filter_eq_self.2 (by simp [windowOf_lifetime hw]), List.map_map]
  rfl

/-- The cap meters the charges: its fixed part is `cap` and `windowSeconds`, its anchor is not negative, and anchor
and remaining amount track the log. -/
structure Metered (cap : UInt64) (windowSeconds : Int64) (clock : Int) (s : CapRun) : Prop where
  cap_eq : s.cap.cap = cap
  window_eq : s.cap.windowSeconds = windowSeconds
  anchor_nonneg : 0 ≤ s.cap.lastReset.toInt
  tracks : Tracks cap.toNat windowSeconds.toInt clock s.cap.lastReset.toInt s.cap.remaining.toNat
    (chargeLog s.charged)

section Cap

variable {cap : UInt64} {windowSeconds now : Int64}

/-- On a clock that is not negative the grid point is the last multiple of the window. -/
theorem alignToWindow_spec (hw : 0 ≤ windowSeconds.toInt) (hn : 0 ≤ now.toInt) :
    ∃ r, alignToWindow now windowSeconds = .ok r ∧ 0 ≤ r.toInt ∧ r.toInt ≤ now.toInt ∧
      (0 < windowSeconds.toInt → windowSeconds.toInt ∣ r.toInt) := by
  unfold alignToWindow
  by_cases h0 : windowSeconds.toInt ≤ 0
  · rw [if_pos h0]
    exact ⟨now, rfl, hn, le_refl _, fun h => by omega⟩
  · have hpos : 0 < windowSeconds.toInt := by omega
    have hm0 := Int.emod_nonneg now.toInt (by omega : windowSeconds.toInt ≠ 0)
    have hm1 := Int.emod_lt_of_pos now.toInt hpos
    have hmle : now.toInt % windowSeconds.toInt ≤ now.toInt := by
      have hsplit := Int.mul_ediv_add_emod now.toInt windowSeconds.toInt
      have hq := Int.mul_nonneg hpos.le (Int.ediv_nonneg hn hpos.le)
      omega
    have hlt := now.toInt_lt
    have hrem : ∃ x, checkedRem now windowSeconds = some x ∧ x.toInt = now.toInt % windowSeconds.toInt := by
      obtain ⟨x, hx⟩ := checkedI64_isSome (n := now.toInt.tmod windowSeconds.toInt)
        (by rw [Int.tmod_eq_emod_of_nonneg hn]; omega) (by rw [Int.tmod_eq_emod_of_nonneg hn]; omega)
      refine ⟨x, by rw [checkedRem, if_neg (by omega), hx], ?_⟩
      rw [checkedI64_eq_some.1 hx, Int.tmod_eq_emod_of_nonneg hn]
    obtain ⟨offset, ho, hov⟩ := hrem
    obtain ⟨r, hr⟩ := checkedI64_isSome (n := now.toInt - offset.toInt) (by omega) (by omega)
    have hrv := checkedI64_eq_some.1 hr
    refine ⟨r, by rw [if_neg h0, ho]; simp [okOr, hr], by omega, by omega, fun _ => ?_⟩
    rw [hrv, hov]
    exact Int.dvd_self_sub_emod

theorem newSpendCap_spec (hC : 0 < cap) (hw : 0 ≤ windowSeconds.toInt) (hn : 0 ≤ now.toInt) :
    ∃ r, newSpendCap cap windowSeconds now = .ok ⟨cap, cap, r, windowSeconds⟩ ∧ 0 ≤ r.toInt ∧ r.toInt ≤ now.toInt ∧
      (0 < windowSeconds.toInt → windowSeconds.toInt ∣ r.toInt) := by
  obtain ⟨r, hr, h⟩ := alignToWindow_spec hw hn
  refine ⟨r, ?_, h⟩
  simp [newSpendCap, require_of (show 0 < cap ∧ 0 ≤ windowSeconds.toInt from ⟨hC, hw⟩), hr, pure, Except.pure]

variable {clock : Int} {s : CapRun}

/-- **The refill step.** No checked operation fails, and afterwards the anchor is in the window of the clock. -/
theorem refill_spec (h : Metered cap windowSeconds clock s) (hn : clock ≤ now.toInt) :
    ∃ c, refill s.cap now = .ok c ∧ Metered cap windowSeconds now.toInt { s with cap := c } ∧
      windowOf windowSeconds.toInt c.lastReset.toInt = windowOf windowSeconds.toInt now.toInt := by
  have hpast := h.tracks.past
  have hnn := h.anchor_nonneg
  have hlt := now.toInt_lt
  unfold refill
  rw [h.window_eq]
  by_cases hw : 0 < windowSeconds.toInt
  · rw [if_pos hw]
    obtain ⟨elapsed, he⟩ := checkedI64_isSome (n := now.toInt - s.cap.lastReset.toInt) (by omega) (by omega)
    have hev := checkedI64_eq_some.1 he
    rw [he]
    by_cases hfull : windowSeconds.toInt ≤ elapsed.toInt
    · -- whole periods have passed: the anchor lands between the old anchor and the clock, so nothing overflows
      have hq : elapsed.toInt.tdiv windowSeconds.toInt = elapsed.toInt / windowSeconds.toInt :=
        Int.tdiv_eq_ediv_of_nonneg (by omega)
      have hadv := Int.ediv_mul_le elapsed.toInt (by omega : windowSeconds.toInt ≠ 0)
      have hadv0 : 0 ≤ elapsed.toInt / windowSeconds.toInt * windowSeconds.toInt :=
        Int.mul_nonneg (Int.ediv_nonneg (by omega) (by omega)) (by omega)
      obtain ⟨advance, ha⟩ := checkedI64_isSome
        (n := elapsed.toInt.tdiv windowSeconds.toInt * windowSeconds.toInt) (by rw [hq]; omega) (by rw [hq]; omega)
      have hav := checkedI64_eq_some.1 ha
      rw [hq] at hav
      obtain ⟨r, hr⟩ := checkedI64_isSome (n := s.cap.lastReset.toInt + advance.toInt) (by omega) (by omega)
      have hrv := checkedI64_eq_some.1 hr
      have hanchor : r.toInt = s.cap.lastReset.toInt
          + (now.toInt - s.cap.lastReset.toInt) / windowSeconds.toInt * windowSeconds.toInt := by
        rw [hrv, hav, hev]
      refine ⟨{ s.cap with lastReset := r, remaining := s.cap.cap }, by simp [okOr, hfull, ha, hr, pure, Except.pure, h.window_eq],
        ⟨h.cap_eq, h.window_eq, ?_, ?_⟩, ?_⟩
      · simp only
        omega
      · simp only
        rw [hanchor, h.cap_eq]
        exact h.tracks.advance hw (by omega)
      · simp only
        rw [hanchor, advance_eq hw (h.tracks.grid hw)]
        exact (windowOf_eq_iff hw).2 ⟨le_refl _, by linarith⟩
    · refine ⟨s.cap, by simp [okOr, hfull],
        ⟨h.cap_eq, h.window_eq, h.anchor_nonneg, h.tracks.wait hn⟩, ?_⟩
      exact h.tracks.same_window hn (by omega)
  · rw [if_neg hw]
    exact ⟨s.cap, rfl, ⟨h.cap_eq, h.window_eq, h.anchor_nonneg, h.tracks.wait hn⟩,
      h.tracks.same_window hn (by omega)⟩

/-- What a charge attempt does to a metered cap: it goes through exactly when the window of the clock has room for it,
and the only refusal is the limit. -/
theorem chargeCap_spec (h : Metered cap windowSeconds clock s) (hn : clock ≤ now.toInt) (amount : UInt64) :
    (∃ c, chargeCap s.cap amount now = .ok c ∧
      Metered cap windowSeconds now.toInt ⟨c, s.charged ++ [(now, amount)]⟩ ∧
      spentIn windowSeconds.toInt (windowOf windowSeconds.toInt now.toInt) (chargeLog s.charged) + amount.toNat
        ≤ cap.toNat) ∨
    (chargeCap s.cap amount now = err .spendLimitExceeded ∧
      cap.toNat <
        spentIn windowSeconds.toInt (windowOf windowSeconds.toInt now.toInt) (chargeLog s.charged) + amount.toNat) := by
  have hlog : chargeLog (s.charged ++ [(now, amount)]) = chargeLog s.charged ++ [(now.toInt, amount.toNat)] := by
    simp [chargeLog]
  unfold chargeCap
  by_cases h0 : amount = 0
  · left
    subst h0
    refine ⟨s.cap, rfl, ⟨h.cap_eq, h.window_eq, h.anchor_nonneg, ?_⟩, ?_⟩
    · rw [hlog]
      exact h.tracks.charge_zero hn
    · simpa using h.tracks.bounded _
  · rw [if_neg h0]
    obtain ⟨c, hc, hm, hwin⟩ := refill_spec h hn
    have hroom := hm.tracks.room
    simp only at hroom
    rw [hwin] at hroom
    simp only [hc, ok_bind]
    by_cases hle : amount ≤ c.remaining
    · left
      have hle' : amount.toNat ≤ c.remaining.toNat := UInt64.le_iff_toNat_le.1 hle
      refine ⟨{ c with remaining := c.remaining - amount },
        by simp [checkedSubU64, hle, okOr, pure, Except.pure],
        ⟨hm.cap_eq, hm.window_eq, hm.anchor_nonneg, ?_⟩, by omega⟩
      simp only
      rw [hlog, UInt64.toNat_sub_of_le _ _ hle]
      exact hm.tracks.charge hwin hle'
    · right
      have hlt : c.remaining.toNat < amount.toNat := by
        rw [← not_le, ← UInt64.le_iff_toNat_le]
        exact hle
      exact ⟨by rw [require_of_not hle]; rfl, by omega⟩

/-- One event keeps the cap metered. -/
theorem capStep_metered (hC : 0 < cap) (hw : 0 ≤ windowSeconds.toInt) (h : Metered cap windowSeconds clock s)
    (h0 : 0 ≤ clock) (e : CapEvent) (hn : clock ≤ e.now.toInt) :
    Metered cap windowSeconds e.now.toInt (capStep cap windowSeconds s e) := by
  cases e with
  | charge amount now =>
    simp only [CapEvent.now_charge] at hn ⊢
    rcases chargeCap_spec h hn amount with ⟨c, hc, hm, -⟩ | ⟨hc, -⟩
    · have he : capStep cap windowSeconds s (.charge amount now) = ⟨c, s.charged ++ [(now, amount)]⟩ := by
        simp [capStep, hc]
      rw [he]
      exact hm
    · have he : capStep cap windowSeconds s (.charge amount now) = s := by simp [capStep, hc, err]
      rw [he]
      exact ⟨h.cap_eq, h.window_eq, h.anchor_nonneg, h.tracks.wait hn⟩
  | resave now =>
    simp only [CapEvent.now_resave] at hn ⊢
    obtain ⟨r, hr, -⟩ := newSpendCap_spec hC hw (le_trans h0 hn)
    have he : capStep cap windowSeconds s (.resave now) = s := by
      simp [capStep, hr, preserveSpendCap_same s.cap ⟨cap, cap, r, windowSeconds⟩ h.cap_eq h.window_eq]
    rw [he]
    exact ⟨h.cap_eq, h.window_eq, h.anchor_nonneg, h.tracks.wait hn⟩

/-- Every run keeps the cap metered. -/
theorem capRun_metered (hC : 0 < cap) (hw : 0 ≤ windowSeconds.toInt) {events : List CapEvent}
    (h : Metered cap windowSeconds clock s) (h0 : 0 ≤ clock) (hc : Clocked clock events) :
    Metered cap windowSeconds (clockAfter clock events) (capRun cap windowSeconds s events) ∧
      0 ≤ clockAfter clock events := by
  induction events generalizing clock s with
  | nil => exact ⟨h, h0⟩
  | cons e es ih => exact ih (capStep_metered hC hw h h0 e hc.1) (le_trans h0 hc.1) hc.2

end Cap

/-! ## The law -/

/-- What has been charged in the window of `now`, or ever when the cap is for life. -/
def spentAt (windowSeconds now : Int64) (charged : List (Int64 × UInt64)) : Nat :=
  let w := windowSeconds.toInt
  if 0 < w then chargedBetween (now.toInt / w * w) ((now.toInt / w + 1) * w) charged else chargedTotal charged

theorem spentIn_windowOf (windowSeconds now : Int64) (charged : List (Int64 × UInt64)) :
    spentIn windowSeconds.toInt (windowOf windowSeconds.toInt now.toInt) (chargeLog charged) =
      spentAt windowSeconds now charged := by
  unfold spentAt
  by_cases hw : 0 < windowSeconds.toInt
  · simp only [hw, if_true, windowOf]
    exact spentIn_chargeLog hw charged
  · simp only [hw, if_false, windowOf]
    exact spentIn_chargeLog_lifetime hw charged

/-- **The spend-window law.** After every run of charge attempts and re-saves from a new cap: no more than the cap is
left, the anchor is a past multiple of the window, no window (or, for a lifetime cap, no run) is overspent, the next
charge is refused only where it would overspend, and the next re-save does not fail. -/
theorem spend_window_law (cap : UInt64) (windowSeconds t0 : Int64) (hcap : 0 < cap)
    (hwindow : 0 ≤ windowSeconds.toInt) (ht0 : 0 ≤ t0.toInt) :
    ∃ cap0, newSpendCap cap windowSeconds t0 = .ok cap0 ∧
      ∀ events, Clocked t0.toInt events →
        let s := capRun cap windowSeconds ⟨cap0, []⟩ events
        let w := windowSeconds.toInt
        let clock := clockAfter t0.toInt events
        s.cap.remaining ≤ cap ∧
        (0 < w → w ∣ s.cap.lastReset.toInt ∧ s.cap.lastReset.toInt ≤ clock) ∧
        (0 < w → ∀ k : Int, chargedBetween (k * w) ((k + 1) * w) s.charged ≤ cap.toNat) ∧
        (w = 0 → chargedTotal s.charged ≤ cap.toNat) ∧
        ∀ now, clock ≤ now.toInt →
          (∀ amount, (∃ c, chargeCap s.cap amount now = .ok c) ∨
            (chargeCap s.cap amount now = err .spendLimitExceeded ∧
              cap.toNat < spentAt windowSeconds now s.charged + amount.toNat)) ∧
          ∃ fresh, newSpendCap cap windowSeconds now = .ok fresh := by
  obtain ⟨r, hr, hr0, hrle, hgrid⟩ := newSpendCap_spec hcap hwindow ht0
  refine ⟨_, hr, fun events hclock => ?_⟩
  have hstart : Metered cap windowSeconds t0.toInt ⟨⟨cap, cap, r, windowSeconds⟩, []⟩ :=
    ⟨rfl, rfl, hr0, Tracks.start hgrid hrle⟩
  obtain ⟨h, hclock0⟩ := capRun_metered hcap hwindow hstart ht0 hclock
  refine ⟨UInt64.le_iff_toNat_le.2 h.tracks.remaining_le, fun hw => ⟨h.tracks.grid hw, h.tracks.past⟩,
    fun hw k => ?_, fun hw => ?_, fun now hnow => ⟨fun amount => ?_, ?_⟩⟩
  · rw [← spentIn_chargeLog hw]
    exact h.tracks.bounded k
  · rw [← spentIn_chargeLog_lifetime (by omega : ¬0 < windowSeconds.toInt)]
    exact h.tracks.bounded 0
  · rcases chargeCap_spec h hnow amount with ⟨c, hc, -⟩ | ⟨hc, hlt⟩
    · exact Or.inl ⟨c, hc⟩
    · rw [spentIn_windowOf] at hlt
      exact Or.inr ⟨hc, hlt⟩
  · obtain ⟨r', hr', -⟩ := newSpendCap_spec hcap hwindow (le_trans hclock0 hnow)
    exact ⟨_, hr'⟩

/-- A daily cap of 100 saved in the second day: 60 goes through, 41 is refused, and the day stays within the cap. -/
theorem spend_window_law_day :
    newSpendCap 100 86400 100000 = .ok ⟨100, 100, 86400, 86400⟩ ∧
      chargedBetween 86400 172800
        (capRun 100 86400 ⟨⟨100, 100, 86400, 86400⟩, []⟩ [.charge 60 100000, .charge 41 100001]).charged ≤ 100 := by
  obtain ⟨cap0, h0, h⟩ := spend_window_law 100 86400 100000 (by decide) (by decide) (by decide)
  have hc : newSpendCap 100 86400 100000 = .ok ⟨100, 100, 86400, 86400⟩ := by decide
  rw [hc] at h0
  cases h0
  exact ⟨hc, (h [.charge 60 100000, .charge 41 100001] (by simp [Clocked])).2.2.1 (by decide) 1⟩

end PhygitalWallet
