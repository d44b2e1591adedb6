import PhygitalWallet.Program.Authority
import PhygitalWallet.Lib.Loops

/-!
# The spend meter (`utils/policy.rs`)

`checkPolicyAndSnapshot` runs before the inner CPIs and records what the caps meter; `chargePolicyDeltas` runs after
them, measures the losses (`measureDeltas`), and charges the caps (`applyCharges`). The first reads one bank and the
second another: the inner CPIs lie between.

The policy account belongs to this program and is never borrowed across a CPI, so its data is an argument of its own.
-/

namespace PhygitalWallet

open ByteSeq ListLoop

/-! ## Token accounts -/

def tokenAccountLen : Nat := 165
def t22AccountTypeAccount : UInt8 := 2

/-- Decoded fields of an SPL token account. -/
structure TokenAccountView where
  mint : Pubkey
  owner : Pubkey
  amount : UInt64
  delegate : Option Pubkey
  delegatedAmount : UInt64
  closeAuthority : Option Pubkey
deriving DecidableEq, Repr

/-- `Pubkey::try_from(bytes).ok()`. -/
def pubkeyOf (bytes : Bytes) : Option Pubkey := if h : bytes.length = 32 then some ⟨bytes, h⟩ else none

/-- A `COption<Pubkey>`: a four-byte tag and a key. -/
def optionalKey (tag key : Bytes) : Option (Option Pubkey) :=
  if tag = [1, 0, 0, 0] then (pubkeyOf key).map some else some none

/-- `u64::from_le_bytes`. -/
def u64Of (bytes : Bytes) : UInt64 := UInt64.ofNat (ofLE bytes)

/-- Decode a token account, or `none` if the account is not a token account (e.g. a mint, which shares the token
program). -/
def tokenAccountView (data : Bytes) : Option TokenAccountView := do
  guard (tokenAccountLen ≤ data.length)
  guard (tokenAccountLen < data.length → data[tokenAccountLen]? = some t22AccountTypeAccount)
  guard (data[108]? = some 1 ∨ data[108]? = some 2)
  let closeAuthority ← optionalKey (slice data 129 133) (slice data 133 165)
  let delegate ← optionalKey (slice data 72 76) (slice data 76 108)
  let mint ← pubkeyOf (slice data 0 32)
  let owner ← pubkeyOf (slice data 32 64)
  return { mint, owner, amount := u64Of (slice data 64 72), delegate, delegatedAmount := u64Of (slice data 121 129),
           closeAuthority }

theorem tokenAccountView_nil : tokenAccountView [] = none := rfl

/-! ## Arithmetic -/

/-- `a.saturating_add(b)`. -/
def saturatingAdd (a b : UInt64) : UInt64 := if a.toNat + b.toNat < 2 ^ 64 then a + b else .ofNat (2 ^ 64 - 1)

/-- `a.saturating_sub(b)`. -/
def saturatingSub (a b : UInt64) : UInt64 := if b ≤ a then a - b else 0

/-- `a.checked_add(b)`. -/
def checkedAddU64 (a b : UInt64) : Option UInt64 := if a.toNat + b.toNat < 2 ^ 64 then some (a + b) else none

/-! ## The snapshot -/

/-- A tracked token account and its balance before the CPIs. -/
structure TrackedAccount where
  remainingIndex : Nat
  capSlot : Option Nat
  amountBefore : UInt64
  walletOwned : Bool
  isSol : Bool
  mint : Pubkey
  closeAuthority : Option Pubkey
deriving DecidableEq, Repr

structure PolicySnapshot where
  solBefore : UInt64
  chargeSol : Bool
  spendingLimitsActive : Bool
  tracked : List TrackedAccount
  programPermissions : List ProgramPermission
deriving DecidableEq, Repr

/-- `mint_caps.iter().position(|c| c.mint == mint)`. -/
def capPosition (mintCaps : List MintCap) (mint : Pubkey) : Option Nat :=
  mintCaps.findIdx? fun c => c.mint = mint

/-- One turn of the snapshot loop. -/
def snapshotAccount (mintCaps : List MintCap) (wallet : Pubkey) (bank : Bank) (remaining : List AccountInfo)
    (snapshot : PolicySnapshot) (entry : AccountInfo × Nat) : PolicySnapshot :=
  let (acc, idx) := entry
  -- Cheap owner check first, so only token accounts pay for the dedup scan.
  if !isTokenProgram (bank acc.key).owner then snapshot
  else if isDup AccountInfo.key remaining acc idx then snapshot
  else match tokenAccountView (bank acc.key).data with
    | none => snapshot
    | some view =>
      let walletOwned : Bool := view.owner = wallet
      let spendable : Bool := walletOwned || view.delegate = some wallet
      let isSol := snapshot.chargeSol && walletOwned && isWsolMint view.mint
      let solBefore := if isSol then saturatingAdd snapshot.solBefore view.amount else snapshot.solBefore
      let capSlot := if 0 < mintCaps.length ∧ spendable then capPosition mintCaps view.mint else none
      let snapshot := { snapshot with solBefore }
      if !(walletOwned || snapshot.spendingLimitsActive && spendable) then snapshot
      else
        let entry : TrackedAccount :=
          { remainingIndex := idx, capSlot, amountBefore := view.amount, walletOwned, isSol, mint := view.mint,
            closeAuthority := view.closeAuthority }
        { snapshot with tracked := snapshot.tracked ++ [entry] }

def checkPolicyAndSnapshot [HeapSizes] (policyData : Bytes) (wallet : Pubkey) (bank : Bank)
    (remaining : List AccountInfo) : Result PolicySnapshot := do
  let (solCap, mintCaps, programPermissions) ← readPolicy policyData
  let chargeSol := solCap.isActive
  let snapshot : PolicySnapshot :=
    { solBefore := (bank wallet).lamports, chargeSol, spendingLimitsActive := chargeSol || 0 < mintCaps.length,
      tracked := [], programPermissions }
  return remaining.zipIdx.foldl (snapshotAccount mintCaps wallet bank remaining) snapshot

/-! ## The charge -/

/-- Add to the entry of `slot`, or push one. -/
def addSpent : List (Nat × UInt64) → Nat → UInt64 → Result (List (Nat × UInt64))
  | [], slot, spent => .ok [(slot, spent)]
  | (s, total) :: rest, slot, spent =>
    if s = slot then do
      let total ← okOr (checkedAddU64 total spent) .spendLimitExceeded
      return (s, total) :: rest
    else do
      let rest ← addSpent rest slot spent
      return (s, total) :: rest

/-- A surviving wallet-owned account must retain control and identity; a closed one has no data. -/
def requireControl (wallet : Pubkey) (account : Account) (view : Option TokenAccountView) (tracked : TrackedAccount) :
    Result Unit :=
  match view with
  | some v => require (isTokenProgram account.owner = true ∧ v.owner = wallet ∧ v.mint = tracked.mint ∧
      v.closeAuthority = tracked.closeAuthority) .tokenAuthorityChanged
  | none => require (account.data = []) .tokenAuthorityChanged

/-- A loss goes to the cap of its mint; an account without one must not lose while a cap is active. -/
def recordSpent (snapshot : PolicySnapshot) (mintSpent : List (Nat × UInt64)) (tracked : TrackedAccount)
    (spent : UInt64) : Result (List (Nat × UInt64)) :=
  match tracked.capSlot with
  | some capSlot => if 0 < spent then addSpent mintSpent capSlot spent else .ok mintSpent
  | none => do
    if snapshot.spendingLimitsActive ∧ ¬tracked.isSol then
      require (spent = 0) .mintNotAllowed
    return mintSpent

/-- One turn of the loop over the tracked accounts. -/
def measureTracked (wallet : Pubkey) (bank : Bank) (remaining : List AccountInfo) (snapshot : PolicySnapshot)
    (mintSpent : List (Nat × UInt64)) (tracked : TrackedAccount) : Result (List (Nat × UInt64)) := do
  let acc ← orPanic remaining[tracked.remainingIndex]?
  let view := tokenAccountView (bank acc.key).data
  if tracked.walletOwned then
    requireControl wallet (bank acc.key) view tracked
  let amountAfter := (view.map TokenAccountView.amount).getD 0
  recordSpent snapshot mintSpent tracked (saturatingSub tracked.amountBefore amountAfter)

/-- `existed`: the account was tracked as wallet-owned. The first loop has already reached every tracked index. -/
def trackedAsOwned (remaining : List AccountInfo) (tracked : List TrackedAccount) (key : Pubkey) : Bool :=
  tracked.any fun t => t.walletOwned && (remaining[t.remainingIndex]?).map AccountInfo.key = some key

/-- One turn of the loop that sums the SOL left and looks for control changes. -/
def scanAccount (wallet : Pubkey) (bank : Bank) (remaining : List AccountInfo) (snapshot : PolicySnapshot)
    (solAfter : UInt64) (entry : AccountInfo × Nat) : Result UInt64 := do
  let (acc, i) := entry
  if !isTokenProgram (bank acc.key).owner then
    return solAfter
  let dup := isDup AccountInfo.key remaining acc i
  match tokenAccountView (bank acc.key).data with
  | none => return solAfter
  | some view =>
    if view.owner = wallet then
      let solAfter := if snapshot.chargeSol && !dup && isWsolMint view.mint then saturatingAdd solAfter view.amount
        else solAfter
      require (view.delegatedAmount = 0) .delegationNotAllowed
      if !trackedAsOwned remaining snapshot.tracked acc.key then
        require (view.closeAuthority = none ∨ view.closeAuthority = some wallet) .tokenAuthorityChanged
      return solAfter
    else return solAfter

/-- What an execution spends: SOL, and an amount for each mint cap by its position. -/
structure Charges where
  solSpent : UInt64
  mintSpent : List (Nat × UInt64)
deriving DecidableEq, Repr

/-- The two loops of `charge_policy_deltas`, before the policy is borrowed. -/
def measureDeltas (wallet : Pubkey) (bank : Bank) (remaining : List AccountInfo) (snapshot : PolicySnapshot) :
    Result Charges := do
  let mintSpent ← snapshot.tracked.foldlM (measureTracked wallet bank remaining snapshot) []
  let solAfter ← remaining.zipIdx.foldlM (scanAccount wallet bank remaining snapshot) (bank wallet).lamports
  return { solSpent := saturatingSub snapshot.solBefore solAfter, mintSpent }

/-- One turn of the loop that charges the mint caps. -/
def chargeSlot (now : Int64) (mintCaps : List MintCap) (entry : Nat × UInt64) : Result (List MintCap) := do
  let (slot, spent) := entry
  let mint ← okOr mintCaps[slot]? .invalidAccountData
  let cap ← chargeCap mint.cap spent now
  return mintCaps.set slot { mint with cap }

/-- The SOL cap, charged when SOL was spent under an active cap. -/
def chargeSolCap (snapshot : PolicySnapshot) (solCap : SpendCap) (solSpent : UInt64) (now : Int64) :
    Result SpendCap := do
  if 0 < solSpent ∧ snapshot.spendingLimitsActive then
    require (snapshot.chargeSol = true) .mintNotAllowed
    chargeCap solCap solSpent now
  else return solCap

/-- The rest of `charge_policy_deltas`: the caps are charged in place. -/
def applyCharges (policyData : Bytes) (snapshot : PolicySnapshot) (charges : Charges) (now : Int64) : Result Bytes := do
  let (solCap, mintCaps) ← readPolicyMut policyData
  let solCap ← chargeSolCap snapshot solCap charges.solSpent now
  let mintCaps ← charges.mintSpent.foldlM (chargeSlot now) mintCaps
  return storePolicyMut policyData solCap mintCaps

def chargePolicyDeltas (policyData : Bytes) (wallet : Pubkey) (bank : Bank) (remaining : List AccountInfo)
    (snapshot : PolicySnapshot) (now : Int64) : Result Bytes := do
  let charges ← measureDeltas wallet bank remaining snapshot
  applyCharges policyData snapshot charges now

end PhygitalWallet
