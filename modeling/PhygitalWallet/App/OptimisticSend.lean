import PhygitalWallet.App.PolicyEditor
import PhygitalWallet.Lib.Snapshots
import Mathlib.Data.Rat.Floor

/-!
# Sends that are shown before they land (`lib/queries/mutations.ts`)

The caches of the app are patched when a transaction was sent, and written back from a snapshot when it does not land.

- `applyOptimisticPortfolioDelta`, `applyOptimisticFeeBalance`, `applyOptimisticWalletActivity` and their restores;
- `OptimisticSend`: what the send, top-up and receive flows do with them (`components/wallet`);
- `SendStep`: the steps of the sends in flight;
- `expectedCache`: the caches with the sends that were not rolled back;
- `overlapping_sends`: runs of sends whose rollbacks stay clear of each other.
-/

namespace PhygitalWallet.App

open JsText Runs Snapshots

/-! ## Caches -/

structure PaymentTokenHolding where
  mint : String
  symbol : String
  decimals : Nat
  balanceRaw : String
  balanceUi : String
  pricePerTokenUsd : Option Rat
  valueUsd : Option Rat
deriving DecidableEq, Repr

structure WalletCollectible where
  mint : String
  name : String
deriving DecidableEq, Repr

structure WalletPortfolio where
  holdings : List PaymentTokenHolding
  collectibles : List WalletCollectible
deriving DecidableEq, Repr

structure FeeBalance where
  balanceLamports : Rat
  balanceUi : String
  low : Bool
deriving DecidableEq, Repr

structure WalletActivityItem where
  id : String
  walletAddress : String
  kind : String
  title : String
  subtitle : Option String
  amountLabel : Option String
  statusLabel : Option String
  timestamp : Option Int
  signature : Option String
  mint : Option String
  pending : Option Bool
  source : String
deriving DecidableEq, Repr

structure WalletActivityPage where
  items : List WalletActivityItem
  nextCursor : Option String
deriving DecidableEq, Repr

/-- The data of the queries, by their keys: owner, token, and owner with the limit of a first page. -/
@[ext]
structure QueryCache where
  walletPortfolio : String → Option WalletPortfolio
  feeBalance : String → Option FeeBalance
  walletActivity : String → Nat → Option WalletActivityPage

inductive Direction
  | incoming | outgoing
deriving DecidableEq, Repr

/-! ## The portfolio -/

/-- `round` is the arithmetic of `Number`: it takes an exact result to the double that stands for it. -/
def adjustHolding (round : Rat → Rat) (holding : PaymentTokenHolding) (amountUi : String) (direction : Direction) :
    PaymentTokenHolding :=
  match uiAmountToRaw amountUi holding.decimals, bigInt holding.balanceRaw.toList with
  | .ok delta, some current =>
    let nextRaw := match direction with
      | .outgoing => if delta < current then current - delta else 0
      | .incoming => current + delta
    let balanceUi := formatTokenAmount nextRaw holding.decimals
    let valueUsd := match holding.pricePerTokenUsd with
      | some price => (number balanceUi.toList).map fun n => round (round n * price)
      | none => holding.valueUsd
    { holding with balanceRaw := toString nextRaw, balanceUi, valueUsd }
  | _, _ => holding

structure PortfolioDelta where
  owner : String
  mint : String
  amountUi : String
  direction : Direction
  removeCollectible : Bool
deriving DecidableEq, Repr

def deltaPortfolio (round : Rat → Rat) (args : PortfolioDelta) (prev : WalletPortfolio) : WalletPortfolio :=
  if args.removeCollectible then
    { prev with collectibles := prev.collectibles.filter fun c => c.mint ≠ args.mint }
  else
    { prev with holdings := prev.holdings.map fun h =>
        if h.mint = args.mint then adjustHolding round h args.amountUi args.direction else h }

def applyOptimisticPortfolioDelta (round : Rat → Rat) (args : PortfolioDelta) (cache : QueryCache) :
    Option WalletPortfolio × QueryCache :=
  let previous := cache.walletPortfolio args.owner
  (previous, { cache with
    walletPortfolio := Function.update cache.walletPortfolio args.owner (previous.map (deltaPortfolio round args)) })

/-- Without a snapshot the query is only invalidated, which leaves its data until it is fetched again. -/
def restorePortfolioSnapshot (owner : String) (previous : Option WalletPortfolio) (cache : QueryCache) : QueryCache :=
  match previous with
  | none => cache
  | some p => { cache with walletPortfolio := Function.update cache.walletPortfolio owner (some p) }

/-! ## The fee balance -/

/-- Starter / "low balance" display floor. -/
def feeBalanceLowLamports : Rat := 1000000

/-- `(n / 1e9).toFixed(9)`, without zeros at the end (for quotients below `10 ^ 21`). -/
def lamportsToSolUi (round : Rat → Rat) (lamports : Rat) : String :=
  let sol := round (lamports / 10 ^ 9)
  let text := fixedText ⌊|sol| * 10 ^ 9 + 1 / 2⌋₊ 9
  String.ofList (if sol < 0 then '-' :: text else text)

structure FeeDelta where
  token : String
  amountUi : String
  direction : Direction
deriving DecidableEq, Repr

/-- The lamports of a change, where it is one. -/
def FeeDelta.lamports (round : Rat → Rat) (args : FeeDelta) : Option Rat :=
  match uiAmountToRaw args.amountUi solDecimals with
  | .error _ => none
  | .ok raw => if overflow ≤ raw ∨ round raw ≤ 0 then none else some (round raw)

def nextFeeBalance (round : Rat → Rat) (args : FeeDelta) (prev : Option FeeBalance) : Option FeeBalance :=
  match args.lamports round with
  | none => prev
  | some delta =>
    let current := (prev.map FeeBalance.balanceLamports).getD 0
    let nextLamports := match args.direction with
      | .outgoing => max 0 (round (current - delta))
      | .incoming => round (current + delta)
    some ⟨nextLamports, lamportsToSolUi round nextLamports, nextLamports < feeBalanceLowLamports⟩

def applyOptimisticFeeBalance (round : Rat → Rat) (args : FeeDelta) (cache : QueryCache) :
    Option FeeBalance × QueryCache :=
  let previous := cache.feeBalance args.token
  (previous, { cache with
    feeBalance := Function.update cache.feeBalance args.token (nextFeeBalance round args previous) })

/-- Without a snapshot the query is only invalidated. -/
def restoreFeeBalanceSnapshot (token : String) (previous : Option FeeBalance) (cache : QueryCache) : QueryCache :=
  match previous with
  | none => cache
  | some p => { cache with feeBalance := Function.update cache.feeBalance token (some p) }

/-! ## The activity -/

def activityFirstPageLimits : List Nat := [20, 40]

def prependActivityItem (page : Option WalletActivityPage) (item : WalletActivityItem) : WalletActivityPage where
  items := item :: (((page.map WalletActivityPage.items).getD []).filter fun row => row.id ≠ item.id)
  nextCursor := page.bind WalletActivityPage.nextCursor

/-- The first pages of the owner that were patched, by limit. -/
structure WalletActivitySnapshot where
  owner : String
  previous : Nat → Option (Option WalletActivityPage)

/-- The page is one that the app opens with, or is cached. -/
def patchesPage (limit : Nat) (page : Option WalletActivityPage) : Bool :=
  limit ∈ activityFirstPageLimits || page.isSome

def applyOptimisticWalletActivity (item : WalletActivityItem) (cache : QueryCache) :
    WalletActivitySnapshot × QueryCache :=
  let pages := cache.walletActivity item.walletAddress
  (⟨item.walletAddress, fun limit => if patchesPage limit (pages limit) then some (pages limit) else none⟩,
    { cache with
      walletActivity := Function.update cache.walletActivity item.walletAddress fun limit =>
        if patchesPage limit (pages limit) then some (prependActivityItem (pages limit) item) else pages limit })

def patchPage (id : String) (patch : WalletActivityItem → WalletActivityItem) (page : WalletActivityPage) :
    WalletActivityPage :=
  { page with items := page.items.map fun item => if item.id = id then patch item else item }

def patchOptimisticWalletActivity (owner id : String) (patch : WalletActivityItem → WalletActivityItem)
    (cache : QueryCache) : QueryCache :=
  { cache with
    walletActivity := Function.update cache.walletActivity owner fun limit =>
      (cache.walletActivity owner limit).map (patchPage id patch) }

/-- A query without a previous page is removed. -/
def restoreWalletActivitySnapshot (snapshot : WalletActivitySnapshot) (cache : QueryCache) : QueryCache :=
  { cache with
    walletActivity := Function.update cache.walletActivity snapshot.owner fun limit =>
      (snapshot.previous limit).getD (cache.walletActivity snapshot.owner limit) }

/-! ## Sends -/

/-- What a flow shows of a transaction: its fee, its activity row and its changes of portfolios. No flow pays a wallet
from itself. -/
structure OptimisticSend where
  fee : Option FeeDelta
  activity : Option WalletActivityItem
  portfolio : List PortfolioDelta
  owners_nodup : (portfolio.map PortfolioDelta.owner).Nodup

/-- The row of a transaction is filed under its signature. -/
def OptimisticSend.item (send : OptimisticSend) (signature : String) : Option WalletActivityItem :=
  send.activity.map fun item => { item with id := signature, signature := some signature, pending := some true }

structure SendSnapshot where
  feeBefore : Option FeeBalance
  activityBefore : Option WalletActivitySnapshot
  portfolioBefore : List (Option WalletPortfolio)

def applyDeltas (round : Rat → Rat) : List PortfolioDelta → QueryCache → List (Option WalletPortfolio) × QueryCache
  | [], cache => ([], cache)
  | d :: ds, cache =>
    let (previous, cache) := applyOptimisticPortfolioDelta round d cache
    let (before, cache) := applyDeltas round ds cache
    (previous :: before, cache)

def restoreDeltas : List PortfolioDelta → List (Option WalletPortfolio) → QueryCache → QueryCache
  | d :: ds, previous :: before, cache => restoreDeltas ds before (restorePortfolioSnapshot d.owner previous cache)
  | _, _, cache => cache

def OptimisticSend.apply (round : Rat → Rat) (send : OptimisticSend) (signature : String) (cache : QueryCache) :
    SendSnapshot × QueryCache :=
  let (feeBefore, cache) := match send.fee with
    | some args => applyOptimisticFeeBalance round args cache
    | none => (none, cache)
  let (activityBefore, cache) := match send.item signature with
    | some item => (applyOptimisticWalletActivity item cache).map some id
    | none => (none, cache)
  let (portfolioBefore, cache) := applyDeltas round send.portfolio cache
  (⟨feeBefore, activityBefore, portfolioBefore⟩, cache)

def OptimisticSend.confirm (send : OptimisticSend) (signature : String) (cache : QueryCache) : QueryCache :=
  match send.item signature with
  | some item =>
    patchOptimisticWalletActivity item.walletAddress signature (fun item => { item with pending := some false }) cache
  | none => cache

def OptimisticSend.rollback (send : OptimisticSend) (snapshot : SendSnapshot) (cache : QueryCache) : QueryCache :=
  let cache := match send.fee with
    | some args => restoreFeeBalanceSnapshot args.token snapshot.feeBefore cache
    | none => cache
  let cache := restoreDeltas send.portfolio snapshot.portfolioBefore cache
  match snapshot.activityBefore with
  | some activityBefore => restoreWalletActivitySnapshot activityBefore cache
  | none => cache

/-! ## Runs -/

inductive SendStatus
  | idle
  | pending (snapshot : SendSnapshot)
  | settled

structure SendState where
  cache : QueryCache
  status : String → SendStatus

/-- Nothing was sent yet. -/
def SendState.start (cache : QueryCache) : SendState := ⟨cache, fun _ => .idle⟩

/-- The sends by their signatures. -/
abbrev Sends := String → OptimisticSend

/-- Each send is applied once, and then confirmed, or rolled back with the snapshot that its own apply returned. -/
inductive SendStep (round : Rat → Rat) (sends : Sends) : Snapshots.Event String → SendState → SendState → Prop
  | apply {s : SendState} {signature : String} (h : s.status signature = .idle) :
      SendStep round sends (.apply signature) s
        ⟨((sends signature).apply round signature s.cache).2,
          Function.update s.status signature (.pending ((sends signature).apply round signature s.cache).1)⟩
  | confirm {s : SendState} {signature : String} {snapshot : SendSnapshot}
      (h : s.status signature = .pending snapshot) :
      SendStep round sends (.confirm signature) s
        ⟨(sends signature).confirm signature s.cache, Function.update s.status signature .settled⟩
  | rollback {s : SendState} {signature : String} {snapshot : SendSnapshot}
      (h : s.status signature = .pending snapshot) :
      SendStep round sends (.rollback signature) s
        ⟨(sends signature).rollback snapshot s.cache, Function.update s.status signature .settled⟩

/-- What stands of a send. -/
def standing (round : Rat → Rat) (sends : Sends) (es : List (Snapshots.Event String)) (cache : QueryCache) (signature : String) :
    QueryCache :=
  if .rollback signature ∈ es then cache
  else
    let applied := ((sends signature).apply round signature cache).2
    if .confirm signature ∈ es then (sends signature).confirm signature applied else applied

/-- The caches with exactly the sends that were not rolled back, in the order in which they were applied. -/
def expectedCache (round : Rat → Rat) (sends : Sends) (es : List (Snapshots.Event String)) (cache : QueryCache) : QueryCache :=
  (Snapshots.applied es).foldl (standing round sends es) cache

/-! ## The parts of the caches -/

/-- The portfolio of an owner. -/
def portfolioCell (round : Rat → Rat) (sends : Sends) (owner : String) : Cell String (Option WalletPortfolio) :=
  .plain (fun signature => (sends signature).portfolio.find? fun d => d.owner = owner)
    (fun d => Option.map (deltaPortfolio round d)) fun saved v => saved <|> v

/-- The fee balance of a token. -/
def feeCell (round : Rat → Rat) (sends : Sends) (token : String) : Cell String (Option FeeBalance) :=
  .plain (fun signature => (sends signature).fee.filter fun args => args.token = token) (nextFeeBalance round)
    fun saved v => saved <|> v

section Parts

variable {round : Rat → Rat} {cache : QueryCache} {ds : List PortfolioDelta} {send : OptimisticSend}
  {signature owner token : String}

theorem applyDeltas_frame : (applyDeltas round ds cache).2.feeBalance = cache.feeBalance ∧
    (applyDeltas round ds cache).2.walletActivity = cache.walletActivity := by
  induction ds generalizing cache with
  | nil => exact ⟨rfl, rfl⟩
  | cons d ds ih => exact ih

theorem restoreDeltas_frame {before : List (Option WalletPortfolio)} :
    (restoreDeltas ds before cache).feeBalance = cache.feeBalance ∧
      (restoreDeltas ds before cache).walletActivity = cache.walletActivity := by
  induction ds generalizing before cache with
  | nil => exact ⟨rfl, rfl⟩
  | cons d ds ih =>
    cases before with
    | nil => exact ⟨rfl, rfl⟩
    | cons previous before =>
      rw [restoreDeltas]
      cases previous with
      | none => exact ih
      | some p => exact ih

theorem find?_owner_eq_none {d : PortfolioDelta} (h : d.owner ∉ ds.map PortfolioDelta.owner) :
    (ds.find? fun d' => d'.owner = d.owner) = none := by
  rw [List.find?_eq_none]
  intro d' hd' heq
  exact h (List.mem_map.2 ⟨d', hd', of_decide_eq_true heq⟩)

/-- Each delta reads and writes the portfolio of its own owner. -/
theorem applyDeltas_before (h : (ds.map PortfolioDelta.owner).Nodup) :
    (applyDeltas round ds cache).1 = ds.map fun d => cache.walletPortfolio d.owner := by
  induction ds generalizing cache with
  | nil => rfl
  | cons d ds ih =>
    rw [List.map_cons, List.nodup_cons] at h
    rw [applyDeltas, List.map_cons]
    simp only [ih h.2, List.cons.injEq]
    refine ⟨rfl, List.map_congr_left fun d' hd' => ?_⟩
    have hne : d'.owner ≠ d.owner := fun heq => h.1 (heq ▸ List.mem_map_of_mem hd')
    simp [applyOptimisticPortfolioDelta, hne]

theorem applyDeltas_portfolio (h : (ds.map PortfolioDelta.owner).Nodup) :
    (applyDeltas round ds cache).2.walletPortfolio owner = (ds.find? fun d => d.owner = owner).elim
      (cache.walletPortfolio owner) fun d => (cache.walletPortfolio owner).map (deltaPortfolio round d) := by
  induction ds generalizing cache with
  | nil => rfl
  | cons d ds ih =>
    rw [List.map_cons, List.nodup_cons] at h
    rw [applyDeltas]
    simp only [ih h.2]
    by_cases howner : d.owner = owner
    · subst howner
      simp [find?_owner_eq_none h.1, applyOptimisticPortfolioDelta]
    · simp [howner, applyOptimisticPortfolioDelta, Ne.symm howner]

theorem restoreDeltas_portfolio (h : (ds.map PortfolioDelta.owner).Nodup) (saved : String → Option WalletPortfolio) :
    (restoreDeltas ds (ds.map fun d => saved d.owner) cache).walletPortfolio owner =
      (ds.find? fun d => d.owner = owner).elim (cache.walletPortfolio owner) fun _ =>
        saved owner <|> cache.walletPortfolio owner := by
  induction ds generalizing cache with
  | nil => rfl
  | cons d ds ih =>
    rw [List.map_cons, List.nodup_cons] at h
    rw [List.map_cons, restoreDeltas, ih h.2]
    by_cases howner : d.owner = owner
    · subst howner
      cases hsaved : saved d.owner <;> simp [find?_owner_eq_none h.1, restorePortfolioSnapshot]
    · cases hsaved : saved d.owner <;> simp [howner, restorePortfolioSnapshot, Ne.symm howner]

theorem apply_walletPortfolio : (send.apply round signature cache).2.walletPortfolio owner =
    (send.portfolio.find? fun d => d.owner = owner).elim (cache.walletPortfolio owner) fun d =>
      (cache.walletPortfolio owner).map (deltaPortfolio round d) := by
  rw [OptimisticSend.apply]
  cases hfee : send.fee <;> cases hitem : send.item signature <;>
    exact applyDeltas_portfolio send.owners_nodup

theorem apply_portfolioBefore : (send.apply round signature cache).1.portfolioBefore =
    send.portfolio.map fun d => cache.walletPortfolio d.owner := by
  rw [OptimisticSend.apply]
  cases hfee : send.fee <;> cases hitem : send.item signature <;> exact applyDeltas_before send.owners_nodup

theorem apply_fees : (send.apply round signature cache).2.feeBalance = send.fee.elim cache.feeBalance fun args =>
    Function.update cache.feeBalance args.token (nextFeeBalance round args (cache.feeBalance args.token)) := by
  rw [OptimisticSend.apply]
  cases hfee : send.fee <;> cases hitem : send.item signature <;> exact applyDeltas_frame.1

theorem apply_feeBalance : (send.apply round signature cache).2.feeBalance token =
    (send.fee.filter fun args => args.token = token).elim (cache.feeBalance token) fun args =>
      nextFeeBalance round args (cache.feeBalance token) := by
  rw [apply_fees]
  cases hfee : send.fee with
  | none => rfl
  | some args =>
    by_cases htoken : args.token = token
    · subst htoken
      simp [Option.filter_some]
    · simp [Option.filter_some, htoken, Ne.symm htoken]

theorem apply_feeBefore {args : FeeDelta} (h : send.fee = some args) :
    (send.apply round signature cache).1.feeBefore = cache.feeBalance args.token := by
  rw [OptimisticSend.apply, h]
  cases hitem : send.item signature <;> rfl

theorem apply_activity : (send.apply round signature cache).2.walletActivity =
    (send.item signature).elim cache.walletActivity fun item =>
      (applyOptimisticWalletActivity item cache).2.walletActivity := by
  rw [OptimisticSend.apply]
  cases hfee : send.fee <;> cases hitem : send.item signature <;> exact applyDeltas_frame.2

theorem apply_activityBefore : (send.apply round signature cache).1.activityBefore =
    (send.item signature).map fun item => (applyOptimisticWalletActivity item cache).1 := by
  rw [OptimisticSend.apply]
  cases hfee : send.fee <;> cases hitem : send.item signature <;> rfl

theorem confirm_frame : (send.confirm signature cache).walletPortfolio = cache.walletPortfolio ∧
    (send.confirm signature cache).feeBalance = cache.feeBalance := by
  rw [OptimisticSend.confirm]
  cases send.item signature <;> exact ⟨rfl, rfl⟩

theorem restoreFee_frame {previous : Option FeeBalance} :
    (restoreFeeBalanceSnapshot token previous cache).walletPortfolio = cache.walletPortfolio ∧
      (restoreFeeBalanceSnapshot token previous cache).walletActivity = cache.walletActivity := by
  cases previous <;> exact ⟨rfl, rfl⟩

variable {snapshot : SendSnapshot}

theorem rollback_walletPortfolio {saved : String → Option WalletPortfolio}
    (h : snapshot.portfolioBefore = send.portfolio.map fun d => saved d.owner) :
    (send.rollback snapshot cache).walletPortfolio owner =
      (send.portfolio.find? fun d => d.owner = owner).elim (cache.walletPortfolio owner) fun _ =>
        saved owner <|> cache.walletPortfolio owner := by
  have hrestore : ∀ cache' : QueryCache, cache'.walletPortfolio = cache.walletPortfolio →
      (restoreDeltas send.portfolio snapshot.portfolioBefore cache').walletPortfolio owner =
        (send.portfolio.find? fun d => d.owner = owner).elim (cache.walletPortfolio owner) fun _ =>
          saved owner <|> cache.walletPortfolio owner := by
    intro cache' hsame
    rw [h, restoreDeltas_portfolio send.owners_nodup saved, hsame]
  rw [OptimisticSend.rollback]
  cases hfee : send.fee with
  | none => cases snapshot.activityBefore <;> exact hrestore _ rfl
  | some args => cases snapshot.activityBefore <;> exact hrestore _ restoreFee_frame.1

theorem rollback_feeBalance : (send.rollback snapshot cache).feeBalance token =
    (send.fee.filter fun args => args.token = token).elim (cache.feeBalance token) fun _ =>
      snapshot.feeBefore <|> cache.feeBalance token := by
  have hfees : (send.rollback snapshot cache).feeBalance = (send.fee.elim cache fun args =>
      restoreFeeBalanceSnapshot args.token snapshot.feeBefore cache).feeBalance := by
    rw [OptimisticSend.rollback]
    cases hfee : send.fee <;> cases snapshot.activityBefore <;> exact restoreDeltas_frame.1
  rw [hfees]
  cases hfee : send.fee with
  | none => rfl
  | some args =>
    by_cases htoken : args.token = token
    · subst htoken
      cases hbefore : snapshot.feeBefore <;> simp [Option.filter_some, restoreFeeBalanceSnapshot]
    · cases hbefore : snapshot.feeBefore <;>
        simp [Option.filter_some, restoreFeeBalanceSnapshot, htoken, Ne.symm htoken]

theorem rollback_activity : (send.rollback snapshot cache).walletActivity =
    snapshot.activityBefore.elim cache.walletActivity fun activityBefore =>
      (restoreWalletActivitySnapshot activityBefore cache).walletActivity := by
  have hframe : ∀ cache' : QueryCache, cache'.walletActivity = cache.walletActivity →
      (restoreDeltas send.portfolio snapshot.portfolioBefore cache').walletActivity = cache.walletActivity :=
    fun cache' hsame => restoreDeltas_frame.2.trans hsame
  rw [OptimisticSend.rollback]
  cases hfee : send.fee with
  | none =>
    cases snapshot.activityBefore with
    | none => exact hframe _ rfl
    | some activityBefore => simp [restoreWalletActivitySnapshot, hframe cache rfl]
  | some args =>
    cases snapshot.activityBefore with
    | none => exact hframe _ restoreFee_frame.2
    | some activityBefore => simp [restoreWalletActivitySnapshot, hframe _ restoreFee_frame.2]

end Parts

/-! ## Activity pages -/

/-- What a confirmation does to a row. -/
def confirmed (item : WalletActivityItem) : WalletActivityItem := { item with pending := some false }

theorem patchPage_prepend {page : Option WalletActivityPage} {item : WalletActivityItem} {id : String}
    (h : item.id ≠ id) : patchPage id confirmed (prependActivityItem page item) =
      prependActivityItem (page.map (patchPage id confirmed)) item := by
  have hid : ∀ row : WalletActivityItem, (if row.id = id then confirmed row else row).id = row.id := by
    intro row
    split <;> rfl
  cases page with
  | none => simp [patchPage, prependActivityItem, h]
  | some page => simp [patchPage, prependActivityItem, h, List.filter_map, Function.comp_def, hid]

theorem patchPage_comm {page : WalletActivityPage} {id id' : String} (h : id ≠ id') :
    patchPage id confirmed (patchPage id' confirmed page) = patchPage id' confirmed (patchPage id confirmed page) := by
  simp only [patchPage, List.map_map, WalletActivityPage.mk.injEq, and_true]
  refine List.map_congr_left fun row _ => ?_
  by_cases hrow : row.id = id
  · have hrow' : row.id ≠ id' := fun heq => h (hrow.symm.trans heq)
    simp [hrow, h, confirmed]
  · by_cases hrow' : row.id = id'
    · simp [hrow', Ne.symm h, confirmed]
    · simp [hrow, hrow']

/-- The row that a send files with the owner. -/
def ownItem (sends : Sends) (owner signature : String) : Option WalletActivityItem :=
  ((sends signature).item signature).filter fun item => item.walletAddress = owner

theorem ownItem_id {sends : Sends} {owner signature : String} {item : WalletActivityItem}
    (h : ownItem sends owner signature = some item) : item.id = signature := by
  obtain ⟨hitem, -⟩ := Option.filter_eq_some_iff.1 h
  obtain ⟨_, -, rfl⟩ := Option.map_eq_some_iff.1 hitem
  rfl

/-- The first page of an owner with this limit. -/
def activityCell (sends : Sends) (owner : String) (limit : Nat) : Cell String (Option WalletActivityPage) where
  upd signature v := (ownItem sends owner signature).elim v fun item =>
    if patchesPage limit v then some (prependActivityItem v item) else v
  fix signature v := (ownItem sends owner signature).elim v fun _ => v.map (patchPage signature confirmed)
  restore signature saved v := (ownItem sends owner signature).elim v fun _ =>
    if patchesPage limit saved then saved else v
  writes signature := (ownItem sends owner signature).isSome
  marks signature := (ownItem sends owner signature).isSome
  upd_of_not_writes h := by rw [Option.not_isSome_iff_eq_none.1 h]; rfl
  fix_of_not_marks h := by rw [Option.not_isSome_iff_eq_none.1 h]; rfl
  restore_of_not_writes h := by rw [Option.not_isSome_iff_eq_none.1 h]; rfl
  writes_of_marks h := h
  fix_upd := by
    intro i j v hij
    cases hi : ownItem sends owner i with
    | none => rfl
    | some _ =>
      cases hj : ownItem sends owner j with
      | none => rfl
      | some item =>
        have hid : item.id ≠ i := fun heq => hij (heq.symm.trans (ownItem_id hj))
        have hpatches : patchesPage limit (v.map (patchPage i confirmed)) = patchesPage limit v := by
          cases v <;> rfl
        simp only [Option.elim_some, hpatches]
        split
        · rw [Option.map_some, patchPage_prepend hid]
        · rfl
  fix_fix := by
    intro i j v hij
    cases hi : ownItem sends owner i with
    | none => rfl
    | some _ =>
      cases hj : ownItem sends owner j with
      | none => rfl
      | some _ =>
        cases v with
        | none => rfl
        | some page =>
          simp only [Option.elim_some, Option.map_some]
          rw [patchPage_comm hij]

section Activity

variable {round : Rat → Rat} {sends : Sends} {cache : QueryCache} {signature owner : String} {limit : Nat}

theorem apply_page : ((sends signature).apply round signature cache).2.walletActivity owner limit =
    (activityCell sends owner limit).upd signature (cache.walletActivity owner limit) := by
  rw [apply_activity]
  cases hitem : (sends signature).item signature with
  | none => simp [activityCell, ownItem, hitem]
  | some item =>
    by_cases howner : item.walletAddress = owner
    · subst howner
      simp [activityCell, ownItem, hitem, Option.filter_some, applyOptimisticWalletActivity]
    · simp [activityCell, ownItem, hitem, Option.filter_some, applyOptimisticWalletActivity, howner, Ne.symm howner]

theorem confirm_page : ((sends signature).confirm signature cache).walletActivity owner limit =
    (activityCell sends owner limit).fix signature (cache.walletActivity owner limit) := by
  rw [OptimisticSend.confirm]
  cases hitem : (sends signature).item signature with
  | none => simp [activityCell, ownItem, hitem]
  | some item =>
    by_cases howner : item.walletAddress = owner
    · subst howner
      simp [activityCell, ownItem, hitem, Option.filter_some, patchOptimisticWalletActivity]
      rfl
    · simp [activityCell, ownItem, hitem, Option.filter_some, patchOptimisticWalletActivity, howner, Ne.symm howner]

/-- The snapshot has this page of the owner. -/
def SavesPage (sends : Sends) (owner : String) (limit : Nat) (signature : String) (snapshot : SendSnapshot)
    (v : Option WalletActivityPage) : Prop :=
  (sends signature).item signature = none ∧ snapshot.activityBefore = none ∨
    ∃ item activityBefore, (sends signature).item signature = some item ∧
      snapshot.activityBefore = some activityBefore ∧ activityBefore.owner = item.walletAddress ∧
      (item.walletAddress = owner → activityBefore.previous limit = if patchesPage limit v then some v else none)

theorem savesPage_apply : SavesPage sends owner limit signature
    ((sends signature).apply round signature cache).1 (cache.walletActivity owner limit) := by
  cases hitem : (sends signature).item signature with
  | none => exact Or.inl ⟨hitem, by rw [apply_activityBefore, hitem]; rfl⟩
  | some item =>
    refine Or.inr ⟨item, _, hitem, by rw [apply_activityBefore, hitem]; rfl, rfl, ?_⟩
    rintro rfl
    rfl

theorem rollback_page {snapshot : SendSnapshot} {v : Option WalletActivityPage}
    (h : SavesPage sends owner limit signature snapshot v) :
    ((sends signature).rollback snapshot cache).walletActivity owner limit =
      (activityCell sends owner limit).restore signature v (cache.walletActivity owner limit) := by
  rw [rollback_activity]
  rcases h with ⟨hitem, hbefore⟩ | ⟨item, activityBefore, hitem, hbefore, howner, hprevious⟩
  · simp [hbefore, activityCell, ownItem, hitem]
  · by_cases hown : item.walletAddress = owner
    · subst hown
      simp only [hbefore, activityCell, ownItem, hitem, Option.filter_some, Option.elim_some,
        restoreWalletActivitySnapshot, howner, hprevious rfl, Function.update_self, decide_true, if_true]
      split <;> rfl
    · have hne : owner ≠ activityBefore.owner := fun heq => hown (howner.symm.trans heq.symm)
      simp [hbefore, activityCell, ownItem, hitem, Option.filter_some, restoreWalletActivitySnapshot, hown, hne]

end Activity

/-! ## Sends against the parts -/

section Runs

variable {round : Rat → Rat} {sends : Sends} {s s' : SendState} {signature : String} {es : List (Snapshots.Event String)}
  {cache : QueryCache}

/-- A send in flight has a snapshot of which this holds. -/
def Pending (P : SendSnapshot → Prop) (s : SendState) (signature : String) : Prop :=
  ∃ snapshot, s.status signature = .pending snapshot ∧ P snapshot

theorem Pending.update {P : SendSnapshot → Prop} {other : String} (h : Pending P s other) (hne : other ≠ signature)
    {cache : QueryCache} {status : SendStatus} :
    Pending P ⟨cache, Function.update s.status signature status⟩ other := by
  obtain ⟨snapshot, hstatus, hP⟩ := h
  exact ⟨snapshot, (Function.update_of_ne hne _ _).trans hstatus, hP⟩

theorem Pending.of_status {P : SendSnapshot → Prop} (h : Pending P s signature) {snapshot : SendSnapshot}
    (hstatus : s.status signature = .pending snapshot) : P snapshot := by
  obtain ⟨snapshot', hstatus', hP⟩ := h
  rw [hstatus] at hstatus'
  exact SendStatus.pending.inj hstatus' ▸ hP

/-- The snapshot of a send has these portfolios. -/
def SavesPortfolio (sends : Sends) (owner signature : String) (v : Option WalletPortfolio) (snapshot : SendSnapshot) :
    Prop :=
  ∃ saved : String → Option WalletPortfolio, saved owner = v ∧
    snapshot.portfolioBefore = (sends signature).portfolio.map fun d => saved d.owner

theorem portfolio_simulates (owner : String) : (portfolioCell round sends owner).Simulates (SendStep round sends)
    (fun s => s.cache.walletPortfolio owner)
    fun s signature v => Pending (SavesPortfolio sends owner signature v) s signature where
  apply := by
    intro signature s s' hstep
    cases hstep with
    | apply h =>
      exact ⟨apply_walletPortfolio,
        ⟨_, Function.update_self .., s.cache.walletPortfolio, rfl, apply_portfolioBefore⟩,
        fun other v hne hsaved => hsaved.update hne⟩
  confirm := by
    intro signature s s' hstep
    cases hstep with
    | confirm h =>
      exact ⟨congrFun confirm_frame.1 owner, fun other v hne hsaved => hsaved.update hne⟩
  rollback := by
    intro signature s s' hstep
    cases hstep with
    | rollback h =>
      refine ⟨fun v hsaved => ?_, fun other v hne hsaved => hsaved.update hne⟩
      obtain ⟨saved, rfl, hbefore⟩ := hsaved.of_status h
      exact rollback_walletPortfolio hbefore

/-- The snapshot of a send has this fee balance. -/
def SavesFee (sends : Sends) (token signature : String) (v : Option FeeBalance) (snapshot : SendSnapshot) : Prop :=
  ∀ args, (sends signature).fee = some args → args.token = token → snapshot.feeBefore = v

theorem fee_simulates (token : String) : (feeCell round sends token).Simulates (SendStep round sends)
    (fun s => s.cache.feeBalance token)
    fun s signature v => Pending (SavesFee sends token signature v) s signature where
  apply := by
    intro signature s s' hstep
    cases hstep with
    | apply h =>
      refine ⟨apply_feeBalance, ⟨_, Function.update_self .., ?_⟩, fun other v hne hsaved => hsaved.update hne⟩
      rintro args hfee rfl
      exact apply_feeBefore hfee
  confirm := by
    intro signature s s' hstep
    cases hstep with
    | confirm h =>
      exact ⟨congrFun confirm_frame.2 token, fun other v hne hsaved => hsaved.update hne⟩
  rollback := by
    intro signature s s' hstep
    cases hstep with
    | rollback h =>
      refine ⟨fun v hsaved => ?_, fun other v hne hsaved => hsaved.update hne⟩
      have hbefore := hsaved.of_status h
      show ((sends signature).rollback _ s.cache).feeBalance token = _
      rw [rollback_feeBalance]
      simp only [feeCell, Cell.plain]
      cases hfee : (sends signature).fee with
      | none => rfl
      | some args =>
        by_cases htoken : args.token = token
        · rw [hbefore args hfee htoken]
        · simp [Option.filter_some, htoken]

theorem activity_simulates (owner : String) (limit : Nat) : (activityCell sends owner limit).Simulates
    (SendStep round sends) (fun s => s.cache.walletActivity owner limit) fun s signature v =>
      Pending (fun snapshot => SavesPage sends owner limit signature snapshot v) s signature where
  apply := by
    intro signature s s' hstep
    cases hstep with
    | apply h =>
      exact ⟨apply_page, ⟨_, Function.update_self .., savesPage_apply⟩, fun other v hne hsaved => hsaved.update hne⟩
  confirm := by
    intro signature s s' hstep
    cases hstep with
    | confirm h =>
      exact ⟨confirm_page, fun other v hne hsaved => hsaved.update hne⟩
  rollback := by
    intro signature s s' hstep
    cases hstep with
    | rollback h =>
      exact ⟨fun v hsaved => rollback_page (hsaved.of_status h), fun other v hne hsaved => hsaved.update hne⟩

/-- Where a send stands. -/
def Follows (es : List (Snapshots.Event String)) (signature : String) : SendStatus → Prop
  | .idle => .apply signature ∉ es
  | .pending _ => .apply signature ∈ es ∧ .confirm signature ∉ es ∧ .rollback signature ∉ es
  | .settled => True

theorem Follows.other {status : SendStatus} {other : String} {e : Snapshots.Event String} (h : Follows es other status)
    (he : e ≠ .apply other ∧ e ≠ .confirm other ∧ e ≠ .rollback other) : Follows (es ++ [e]) other status := by
  cases status with
  | idle => simpa [Follows, he.1.symm] using h
  | pending snapshot => simpa [Follows, he.1.symm, he.2.1.symm, he.2.2.symm] using h
  | settled => trivial

/-- The steps of a send come in order. -/
theorem ordered_of_run (hrun : Run (SendStep round sends) (.start cache) es s) :
    Ordered es ∧ ∀ signature, Follows es signature (s.status signature) := by
  induction hrun with
  | nil => exact ⟨by simp [Ordered], fun signature => by simp [SendState.start, Follows]⟩
  | @snoc es s e s' _ hstep ih =>
    obtain ⟨hord, hstatus⟩ := ih
    cases hstep with
    | @apply _ signature h =>
      have hnew : .apply signature ∉ es := by
        have hfollows := hstatus signature
        rwa [h] at hfollows
      refine ⟨hord.snoc hnew, fun other => ?_⟩
      by_cases hne : other = signature
      · subst hne
        have hc : Snapshots.Event.confirm other ∉ es := fun hmem => hnew (hord.settled (Or.inl hmem))
        have hr : Snapshots.Event.rollback other ∉ es := fun hmem => hnew (hord.settled (Or.inr hmem))
        simp [Follows, hc, hr]
      · simp only [Function.update_of_ne hne]
        exact (hstatus other).other ⟨by simpa using Ne.symm hne, by simp, by simp⟩
    | @confirm _ signature _ h =>
      have hpending := hstatus signature
      rw [h] at hpending
      refine ⟨hord.snoc hpending, fun other => ?_⟩
      by_cases hne : other = signature
      · subst hne
        simp [Follows]
      · simp only [Function.update_of_ne hne]
        exact (hstatus other).other ⟨by simp, by simpa using Ne.symm hne, by simp⟩
    | @rollback _ signature _ h =>
      have hpending := hstatus signature
      rw [h] at hpending
      refine ⟨hord.snoc hpending, fun other => ?_⟩
      by_cases hne : other = signature
      · subst hne
        simp [Follows]
      · simp only [Function.update_of_ne hne]
        exact (hstatus other).other ⟨by simp, by simp, by simpa using Ne.symm hne⟩

/-! ## Overlapping sends -/

inductive CacheEntry
  | portfolio (owner : String)
  | feeBalance (token : String)
  | activity (owner : String)

/-- The entries that a send writes, and that its snapshot has. A portfolio that was not cached at first never is: nothing
is written there. -/
def OptimisticSend.Writes (cache : QueryCache) (send : OptimisticSend) : CacheEntry → Prop
  | .portfolio owner => (cache.walletPortfolio owner).isSome ∧ ∃ d ∈ send.portfolio, d.owner = owner
  | .feeBalance token => ∃ args ∈ send.fee, args.token = token
  | .activity owner => ∃ item ∈ send.activity, item.walletAddress = owner

/-- Since the send was applied, no other one that stands has written an entry of its snapshot, and none of its activity
pages was marked by a confirmation. -/
def Clear (sends : Sends) (cache : QueryCache) (es : List (Snapshots.Event String)) (signature : String) : Prop :=
  ∀ pre post, es = pre ++ .apply signature :: post →
    ∀ entry, (sends signature).Writes cache entry → ∀ other, (sends other).Writes cache entry →
      (.apply other ∈ post → .rollback other ∈ post) ∧ ((∃ owner, entry = .activity owner) → .confirm other ∉ post)

/-- The fee balance that a send has changed was cached before. -/
def FeeKnown (round : Rat → Rat) (sends : Sends) (signature : String) (snapshot : SendSnapshot) : Prop :=
  ∀ args, (sends signature).fee = some args → (args.lamports round).isSome → snapshot.feeBefore.isSome

/-- All rollbacks of a run are of such sends. -/
def ClearRollbacks (round : Rat → Rat) (sends : Sends) (cache : QueryCache) (es : List (Snapshots.Event String)) : Prop :=
  ∀ pre signature post before, es = pre ++ .rollback signature :: post →
    Run (SendStep round sends) (.start cache) pre before →
      Clear sends cache pre signature ∧
        ∀ snapshot, before.status signature = .pending snapshot → FeeKnown round sends signature snapshot

theorem portfolio_expected (owner : String) : (expectedCache round sends es cache).walletPortfolio owner =
    (portfolioCell round sends owner).expected (cache.walletPortfolio owner) es := by
  refine (List.foldl_hom (fun cache : QueryCache => cache.walletPortfolio owner) fun cache signature => ?_).symm
  unfold standing Cell.kept
  split
  · rfl
  · split
    · rw [confirm_frame.1, apply_walletPortfolio]
      rfl
    · rw [apply_walletPortfolio]
      rfl

theorem fee_expected (token : String) : (expectedCache round sends es cache).feeBalance token =
    (feeCell round sends token).expected (cache.feeBalance token) es := by
  refine (List.foldl_hom (fun cache : QueryCache => cache.feeBalance token) fun cache signature => ?_).symm
  unfold standing Cell.kept
  split
  · rfl
  · split
    · rw [confirm_frame.2, apply_feeBalance]
      rfl
    · rw [apply_feeBalance]
      rfl

theorem activity_expected (owner : String) (limit : Nat) :
    (expectedCache round sends es cache).walletActivity owner limit =
      (activityCell sends owner limit).expected (cache.walletActivity owner limit) es := by
  refine (List.foldl_hom (fun cache : QueryCache => cache.walletActivity owner limit) fun cache signature => ?_).symm
  unfold standing Cell.kept
  split
  · rfl
  · split
    · rw [confirm_page, apply_page]
    · rw [apply_page]

theorem ownItem_isSome {owner : String} :
    (ownItem sends owner signature).isSome ↔ (sends signature).Writes cache (.activity owner) := by
  unfold ownItem OptimisticSend.item OptimisticSend.Writes
  cases (sends signature).activity <;> simp [Option.filter_some]

/-- The rollbacks of such a run are safe for every part of the caches. -/
theorem safe_of_clear {V : Type} (hrun : Run (SendStep round sends) (.start cache) es s)
    (hclear : ClearRollbacks round sends cache es) (c : Cell String V) (entry : CacheEntry)
    (hwrites : ∀ signature, c.writes signature → (sends signature).Writes cache entry)
    (hmarks : ∀ signature, c.marks signature → ∃ owner, entry = .activity owner) : c.Safe es := by
  intro pre signature post heq hw
  obtain ⟨before, hbefore⟩ := hrun.front ⟨_, heq.symm⟩
  obtain ⟨hquiet, -⟩ := hclear pre signature post before heq hbefore
  intro a b hsplit other
  refine ⟨fun hother => (hquiet a b hsplit entry (hwrites _ hw) other (hwrites _ hother)).1, fun hother => ?_⟩
  exact (hquiet a b hsplit entry (hwrites _ hw) other (hwrites _ (c.writes_of_marks hother))).2 (hmarks _ hother)

theorem portfolio_restores (owner : String) (v : Option WalletPortfolio) :
    (portfolioCell round sends owner).restore signature v ((portfolioCell round sends owner).upd signature v) = v := by
  simp only [portfolioCell, Cell.plain]
  cases (sends signature).portfolio.find? fun d => d.owner = owner <;> cases v <;> rfl

/-- A portfolio that is not cached stays so. -/
theorem portfolio_uncached (owner : String) : ((portfolioCell round sends owner).run none es).value =
    (portfolioCell round sends owner).expected none es := by
  have hupd : ∀ signature, (portfolioCell round sends owner).upd signature none = none := by
    intro signature
    simp only [portfolioCell, Cell.plain]
    cases (sends signature).portfolio.find? fun d => d.owner = owner <;> rfl
  have hrestore : ∀ signature, (portfolioCell round sends owner).restore signature none none = none := by
    intro signature
    simp only [portfolioCell, Cell.plain]
    cases (sends signature).portfolio.find? fun d => d.owner = owner <;> rfl
  rw [Cell.run_fixed hupd (fun _ => rfl) hrestore es, Cell.expected_fixed hupd (fun _ => rfl)]

theorem activity_restores (owner : String) (limit : Nat) (v : Option WalletActivityPage) :
    (activityCell sends owner limit).restore signature v ((activityCell sends owner limit).upd signature v) = v := by
  simp only [activityCell]
  cases ownItem sends owner signature with
  | none => rfl
  | some item =>
    simp only [Option.elim_some]
    by_cases hpatches : patchesPage limit v <;> simp [hpatches]

/-- A fee balance that was cached comes back. -/
theorem fee_restores (token : String) (v : Option FeeBalance) (h : ∀ args, (sends signature).fee = some args →
    args.token = token → (args.lamports round).isSome → v.isSome) :
    (feeCell round sends token).restore signature v ((feeCell round sends token).upd signature v) = v := by
  simp only [feeCell, Cell.plain]
  cases hfee : (sends signature).fee with
  | none => rfl
  | some args =>
    by_cases htoken : args.token = token
    · cases v with
      | some balance => simp [Option.filter_some, htoken]
      | none =>
        have hrefused : args.lamports round = none := by
          rw [← Option.not_isSome_iff_eq_none]
          exact fun hsome => absurd (h args hfee htoken hsome) (by simp)
        simp [Option.filter_some, htoken, nextFeeBalance, hrefused]
    · simp [Option.filter_some, htoken]

/-- **Overlapping sends.** In every run in which each rollback is of a send whose entries no other one has written or
marked since, and whose fee balance was cached, the caches are the first ones with exactly the sends that were not
rolled back, in the order in which they were applied. -/
theorem overlapping_sends (hrun : Run (SendStep round sends) (.start cache) es s)
    (hclear : ClearRollbacks round sends cache es) : s.cache = expectedCache round sends es cache := by
  obtain ⟨hord, -⟩ := ordered_of_run hrun
  refine QueryCache.ext (funext fun owner => ?_) (funext fun token => ?_) (funext₂ fun owner limit => ?_)
  · rw [portfolio_expected, ((portfolio_simulates owner).run hrun hord).1]
    show ((portfolioCell round sends owner).run (cache.walletPortfolio owner) es).value = _
    cases hcached : cache.walletPortfolio owner with
    | none => exact portfolio_uncached owner
    | some portfolio =>
      have hsafe : (portfolioCell round sends owner).Safe es := by
        refine safe_of_clear hrun hclear _ (.portfolio owner) (fun signature hw => ?_) fun _ hm => hm.elim
        obtain ⟨d, hfind⟩ := Option.isSome_iff_exists.1 hw
        exact ⟨by rw [hcached]; rfl, d, List.mem_of_find?_eq_some hfind, by simpa using List.find?_some hfind⟩
      exact Cell.run_value hord hsafe fun pre signature post _ _ => portfolio_restores owner _
  · have hsafe : (feeCell round sends token).Safe es := by
      refine safe_of_clear hrun hclear _ (.feeBalance token) (fun signature hw => ?_) fun _ hm => hm.elim
      obtain ⟨args, hargs⟩ := Option.isSome_iff_exists.1 hw
      obtain ⟨hfee, htoken⟩ := Option.filter_eq_some_iff.1 hargs
      exact ⟨args, hfee, by simpa using htoken⟩
    rw [fee_expected, ((fee_simulates token).run hrun hord).1]
    refine Cell.run_value hord hsafe fun pre signature post heq _ =>
      fee_restores token _ fun args hfee htoken hsome => ?_
    obtain ⟨before, hbefore⟩ := hrun.front ⟨_, heq.symm⟩
    obtain ⟨happlied, hc, hr⟩ := hord pre _ post heq
    -- the snapshot of the send is the balance that the cell has saved
    obtain ⟨snapshot, hstatus, hsaved⟩ :=
      ((fee_simulates token).run hbefore (Ordered.front (heq ▸ hord))).2 signature happlied hc hr
    have hknown := (hclear pre signature post before heq hbefore).2 snapshot hstatus args hfee hsome
    exact hsaved args hfee htoken ▸ hknown
  · have hsafe : (activityCell sends owner limit).Safe es :=
      safe_of_clear hrun hclear _ (.activity owner) (fun signature hw => ownItem_isSome.1 hw) fun _ _ => ⟨owner, rfl⟩
    rw [activity_expected, ((activity_simulates owner limit).run hrun hord).1]
    exact Cell.run_value hord hsafe fun pre signature post _ _ => activity_restores owner limit _

end Runs

/-- A send of USDC from the wallet. -/
def usdcSend (amountUi : String) : OptimisticSend where
  fee := none
  activity := some ⟨"", "wallet", "sent", "Sent USDC", none, some ("-" ++ amountUi), none, none, none, some "UsdcMint",
    none, "local"⟩
  portfolio := [⟨"wallet", "UsdcMint", amountUi, .outgoing, false⟩]
  owners_nodup := by simp

/-- Two of them. -/
def usdcSends : Sends := fun signature => usdcSend (if signature = "a" then "0.5" else "0.2")

/-- One USDC, and no activity yet. -/
def usdcCache : QueryCache where
  walletPortfolio _ := some ⟨[⟨"UsdcMint", "USDC", 6, "1000000", "1", none, none⟩], []⟩
  feeBalance _ := none
  walletActivity _ _ := none

/-- The state after one more step of a send. -/
def sendStep (sends : Sends) (s : SendState) : Snapshots.Event String → SendState
  | .apply signature =>
    ⟨((sends signature).apply id signature s.cache).2,
      Function.update s.status signature (.pending ((sends signature).apply id signature s.cache).1)⟩
  | .confirm signature =>
    ⟨(sends signature).confirm signature s.cache, Function.update s.status signature .settled⟩
  | .rollback signature =>
    match s.status signature with
    | .pending snapshot => ⟨(sends signature).rollback snapshot s.cache, Function.update s.status signature .settled⟩
    | _ => s

/-- The later send is rolled back, and the earlier one confirmed. -/
theorem overlapping_sends_nested :
    ([.apply "a", .apply "b", .rollback "b", .confirm "a"].foldl (sendStep usdcSends) (.start usdcCache)).cache =
      expectedCache id usdcSends [.apply "a", .apply "b", .rollback "b", .confirm "a"] usdcCache := by
  have hrun : Run (SendStep id usdcSends) (.start usdcCache) [.apply "a", .apply "b", .rollback "b", .confirm "a"]
      ([.apply "a", .apply "b", .rollback "b", .confirm "a"].foldl (sendStep usdcSends) (.start usdcCache)) :=
    .snoc (.snoc (.snoc (.snoc .nil (.apply rfl)) (.apply rfl)) (.rollback rfl)) (.confirm rfl)
  refine overlapping_sends hrun fun pre signature post before heq _ => ⟨?_, fun snapshot _ args hfee => by cases hfee⟩
  have hpre : pre = [.apply "a", .apply "b"] ∧ signature = "b" := by
    rcases pre with _ | ⟨_, _ | ⟨_, _ | ⟨_, _ | ⟨_, _⟩⟩⟩⟩ <;> simp at heq
    exact ⟨by rw [heq.1, heq.2.1], heq.2.2.1.symm⟩
  obtain ⟨rfl, rfl⟩ := hpre
  intro pre' post' hsplit
  have hpost : post' = [] := by
    rcases pre' with _ | ⟨_, _ | ⟨_, _⟩⟩ <;> simp at hsplit
    exact hsplit.2
  subst hpost
  simp

/-- The earlier send is rolled back while the later one stands: the later one is gone as well. -/
theorem overlapping_sends_lost : ∃ s, Run (SendStep id usdcSends) (.start usdcCache)
      [.apply "a", .apply "b", .rollback "a"] s ∧
    (s.cache.walletPortfolio "wallet").map (fun p => p.holdings.map PaymentTokenHolding.balanceRaw) = some ["1000000"] ∧
    ((expectedCache id usdcSends [.apply "a", .apply "b", .rollback "a"] usdcCache).walletPortfolio "wallet").map
      (fun p => p.holdings.map PaymentTokenHolding.balanceRaw) = some ["800000"] ∧
    s.cache.walletActivity "wallet" 20 = none ∧ (expectedCache id usdcSends [.apply "a", .apply "b", .rollback "a"]
      usdcCache).walletActivity "wallet" 20 ≠ none := by
  refine ⟨[.apply "a", .apply "b", .rollback "a"].foldl (sendStep usdcSends) (.start usdcCache),
    .snoc (.snoc (.snoc .nil (.apply rfl)) (.apply rfl)) (.rollback rfl), ?_, ?_, ?_, ?_⟩ <;> decide +kernel

end PhygitalWallet.App
