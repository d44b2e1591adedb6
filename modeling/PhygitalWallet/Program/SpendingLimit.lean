import PhygitalWallet.Program.Types

/-!
# Spend caps (`utils/spending_limit.rs`)

`SpendCap` and the four functions over it. The `i64` arithmetic is checked: `checkedI64` gives the machine value of an
integer that fits, so each `checked_*` of the source is one use of it.
-/

namespace PhygitalWallet

/-- A cap, what is left of it, and the window it refills in (`0`: lifetime). -/
structure SpendCap where
  cap : UInt64
  remaining : UInt64
  lastReset : Int64
  windowSeconds : Int64
deriving DecidableEq, Repr

/-- `SpendCap::default()`. -/
def SpendCap.empty : SpendCap := ⟨0, 0, 0, 0⟩

def SpendCap.isActive (c : SpendCap) : Bool := c.cap ≠ 0

/-! ## Checked arithmetic -/

/-- The machine integer with value `n`, where there is one. -/
def checkedI64 (n : Int) : Option Int64 := if -2 ^ 63 ≤ n ∧ n < 2 ^ 63 then some (Int64.ofInt n) else none

theorem checkedI64_eq_some {n : Int} {x : Int64} : checkedI64 n = some x ↔ x.toInt = n := by
  unfold checkedI64
  constructor
  · intro h
    split at h
    · next hn =>
      cases h
      exact Int64.toInt_ofInt_of_le hn.1 hn.2
    · cases h
  · rintro rfl
    rw [if_pos ⟨x.le_toInt, x.toInt_lt⟩, Int64.ofInt_toInt]

theorem checkedI64_isSome {n : Int} (h₁ : -2 ^ 63 ≤ n) (h₂ : n < 2 ^ 63) : ∃ x, checkedI64 n = some x :=
  ⟨_, if_pos ⟨h₁, h₂⟩⟩

/-- `a.checked_rem(b)`: `None` on a zero divisor and on `MIN % -1`. -/
def checkedRem (a b : Int64) : Option Int64 :=
  if b.toInt = 0 ∨ (a.toInt = -2 ^ 63 ∧ b.toInt = -1) then none else checkedI64 (a.toInt.tmod b.toInt)

/-- `a.checked_sub(b)` on `u64`. -/
def checkedSubU64 (a b : UInt64) : Option UInt64 := if b ≤ a then some (a - b) else none

/-! ## The functions -/

def alignToWindow (now windowSeconds : Int64) : Result Int64 := do
  if windowSeconds.toInt ≤ 0 then
    return now
  let offset ← okOr (checkedRem now windowSeconds) .invalidPolicyArgs
  okOr (checkedI64 (now.toInt - offset.toInt)) .invalidPolicyArgs

def newSpendCap (cap : UInt64) (windowSeconds now : Int64) : Result SpendCap := do
  require (0 < cap ∧ 0 ≤ windowSeconds.toInt) .invalidPolicyArgs
  let lastReset ← alignToWindow now windowSeconds
  return { cap, remaining := cap, lastReset, windowSeconds }

def preserveSpendCap (new : SpendCap) (previous : Option SpendCap) : SpendCap :=
  match previous with
  | some prev =>
    if prev.cap = new.cap ∧ prev.windowSeconds = new.windowSeconds then
      { cap := new.cap, remaining := prev.remaining, lastReset := prev.lastReset, windowSeconds := new.windowSeconds }
    else new
  | none => new

/-- The refill step of `charge_cap`: whole periods since the last reset advance it and restore the cap. -/
def refill (cap : SpendCap) (now : Int64) : Result SpendCap := do
  if 0 < cap.windowSeconds.toInt then
    let elapsed ← okOr (checkedI64 (now.toInt - cap.lastReset.toInt)) .invalidPolicyArgs
    if cap.windowSeconds.toInt ≤ elapsed.toInt then
      let periods := elapsed.toInt.tdiv cap.windowSeconds.toInt
      let advance ← okOr (checkedI64 (periods * cap.windowSeconds.toInt)) .invalidPolicyArgs
      let lastReset ← okOr (checkedI64 (cap.lastReset.toInt + advance.toInt)) .invalidPolicyArgs
      return { cap with lastReset, remaining := cap.cap }
  return cap

def chargeCap (cap : SpendCap) (amount : UInt64) (now : Int64) : Result SpendCap := do
  if amount = 0 then
    return cap
  let cap ← refill cap now
  require (amount ≤ cap.remaining) .spendLimitExceeded
  let remaining ← okOr (checkedSubU64 cap.remaining amount) .spendLimitExceeded
  return { cap with remaining }

/-- A re-save with the same cap and window keeps the stored cap. -/
theorem preserveSpendCap_same (c fresh : SpendCap) (h₁ : c.cap = fresh.cap)
    (h₂ : c.windowSeconds = fresh.windowSeconds) : preserveSpendCap fresh (some c) = c := by
  cases c
  simp_all [preserveSpendCap]

end PhygitalWallet
