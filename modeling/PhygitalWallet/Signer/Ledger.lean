import Mathlib.Data.List.Induction
import PhygitalWallet.Lib.Runs
import PhygitalWallet.Signer.TokenStore

/-!
# The books of the fee ledger

Every run of calls on one store, from the empty tables. The money moves by the starter and by events that were applied;
the rows of the reserves come from `reserve` and are renamed by `rebindReserve`.

- `StoreStep.money`, `StoreStep.reserves`: what one call does to the balance, and to the reserves;
- `LedgerInvariant`, `ledgerInvariant`: the books after any run;
- `rebindReserve_total`: when a rebind keeps the open total;
- `ledger_invariant`: all of it.
-/

namespace PhygitalWallet.Signer

open Client SqlTable Runs TokenTables

/-! ## Runs of calls -/

inductive StoreCall
  | ensureToken (token : String)
  | grantStarterIfNeeded
  | reserve (id : String) (lamports ttlMs : Int)
  | rebindReserve (fromId toId : String)
  | release (id : String)
  | expireReserves
  | applyFeeEvent (event : FeeEvent)
  | settleDebit (event : FeeEvent)
deriving DecidableEq, Repr

/-- What a call returns, where it returns a boolean, and the tables after it. -/
def StoreCall.run (s : TokenTables) (now : Int) : StoreCall → Option Bool × TokenTables
  | .ensureToken token => (none, (s.ensureToken token).2)
  | .grantStarterIfNeeded => (some s.grantStarterIfNeeded.1, s.grantStarterIfNeeded.2)
  | .reserve id lamports ttlMs => ((s.reserve id lamports ttlMs now).1.toOption, (s.reserve id lamports ttlMs now).2)
  | .rebindReserve fromId toId => ((s.rebindReserve fromId toId now).1.toOption, (s.rebindReserve fromId toId now).2)
  | .release id => (some (s.release id).1, (s.release id).2)
  | .expireReserves => (none, s.expireReserves now)
  | .applyFeeEvent event => ((s.applyFeeEvent event).1.toOption, (s.applyFeeEvent event).2)
  | .settleDebit event => ((s.settleDebit event now).1.toOption, (s.settleDebit event now).2)

/-- A call with its clock and what it returned. -/
structure StoreRecord where
  now : Int
  call : StoreCall
  returned : Option Bool
deriving DecidableEq, Repr

def StoreStep (l : StoreRecord) (s s' : TokenTables) : Prop := l.call.run s l.now = (l.returned, s')

/-- Calls one after the other on a new store, and their record. -/
def replay (calls : List (Int × StoreCall)) : List StoreRecord × TokenTables :=
  calls.foldl (fun (ls, s) (now, call) => (ls ++ [⟨now, call, (call.run s now).1⟩], (call.run s now).2)) ([], .init)

theorem run_replay (calls : List (Int × StoreCall)) : Run StoreStep .init (replay calls).1 (replay calls).2 := by
  induction calls using List.reverseRecOn with
  | nil => exact .nil
  | append_singleton calls c ih =>
    rw [replay, List.foldl_append]
    exact .snoc ih rfl

/-- The event that a call has applied. -/
def StoreRecord.applied (l : StoreRecord) : Option FeeEvent :=
  match l.call, l.returned with
  | .applyFeeEvent event, some true => some event
  | .settleDebit event, some true => some event
  | _, _ => none

/-- The call has credited the starter. -/
def StoreRecord.starter (l : StoreRecord) : Bool := l.call = .grantStarterIfNeeded ∧ l.returned = some true

def FeeEvent.credit (e : FeeEvent) : Int :=
  match e.kind with
  | .credit => e.lamports
  | .debit => 0

def FeeEvent.debit (e : FeeEvent) : Int :=
  match e.kind with
  | .credit => 0
  | .debit => e.lamports

/-- The events applied in a run, in order. -/
def appliedEvents (ls : List StoreRecord) : List FeeEvent := ls.filterMap StoreRecord.applied

def appliedCredits (ls : List StoreRecord) : Int := ((appliedEvents ls).map FeeEvent.credit).sum
def appliedDebits (ls : List StoreRecord) : Int := ((appliedEvents ls).map FeeEvent.debit).sum

/-- How often the starter was credited. -/
def starterCredits (ls : List StoreRecord) : Nat := ls.countP StoreRecord.starter

/-! ## What the calls do to the money -/

/-- The parts of the tables that decide about money. -/
structure SameMoney (s s' : TokenTables) : Prop where
  balance : s'.getFeeBalanceLamports = s.getFeeBalanceLamports
  events : s'.feeEvents = s.feeEvents
  granted : s.starterGranted = some "1" → s'.starterGranted = some "1"

theorem SameMoney.refl (s : TokenTables) : SameMoney s s := ⟨rfl, rfl, id⟩

theorem SameMoney.trans {s s' s'' : TokenTables} (h : SameMoney s s') (h' : SameMoney s' s'') : SameMoney s s'' :=
  ⟨h'.balance.trans h.balance, h'.events.trans h.events, fun hg => h'.granted (h.granted hg)⟩

/-- Tables that differ in their reserves. -/
theorem sameMoney_reserves (s : TokenTables) (feeReserves : Table FeeReserve.id) :
    SameMoney s { s with feeReserves } := ⟨rfl, rfl, id⟩

theorem sameMoney_insertReserve (s : TokenTables) (r : FeeReserve) : SameMoney s (s.insertReserve r).2 := by
  unfold insertReserve
  split
  · exact sameMoney_reserves s _
  · exact .refl s

theorem sameMoney_reserveNew (s : TokenTables) (id : String) (lamports ttlMs now : Int) :
    SameMoney s (s.reserveNew id lamports ttlMs now).2 := by
  unfold reserveNew
  split
  · exact .refl s
  · split
    · exact .refl s
    · exact sameMoney_insertReserve s _

theorem sameMoney_reserve (s : TokenTables) (id : String) (lamports ttlMs now : Int) :
    SameMoney s (s.reserve id lamports ttlMs now).2 := by
  unfold reserve
  split
  · exact .refl s
  · split
    · split
      · exact .refl s
      · exact (sameMoney_reserves s _).trans (sameMoney_reserveNew _ id lamports ttlMs now)
    · exact sameMoney_reserveNew s id lamports ttlMs now

theorem sameMoney_rebindReserve (s : TokenTables) (fromId toId : String) (now : Int) :
    SameMoney s (s.rebindReserve fromId toId now).2 := by
  unfold rebindReserve
  split
  · exact .refl s
  · split
    · exact .refl s
    · split
      · exact .refl s
      · dsimp only
        split
        · exact sameMoney_reserves s _
        · exact (sameMoney_reserves s _).trans (sameMoney_insertReserve _ _)

theorem sameMoney_ensureToken (s : TokenTables) (token : String) : SameMoney s (s.ensureToken token).2 := by
  unfold ensureToken
  split
  · split
    · exact .refl s
    · exact .refl s
  · dsimp only
    split
    · exact ⟨rfl, rfl, id⟩
    · next hbalance =>
      split
      · exact ⟨by simp [getFeeBalanceLamports, hbalance], rfl, id⟩
      · next hgranted => exact ⟨by simp [getFeeBalanceLamports, hbalance], rfl, fun h => by rw [hgranted] at h; cases h⟩

theorem sameMoney_settled (s : TokenTables) (e : FeeEvent) (now : Int) : SameMoney s (settled s e now) := by
  unfold settled
  cases e.kind with
  | credit => exact .refl s
  | debit => exact ⟨rfl, rfl, id⟩

/-- What one call does to the money: nothing, the starter, or one event. -/
inductive MoneyStep (l : StoreRecord) (s s' : TokenTables) : Prop
  | same (happlied : l.applied = none) (hstarter : l.starter = false) (h : SameMoney s s')
  | starter (happlied : l.applied = none) (hstarter : l.starter = true) (hbefore : s.starterGranted = some "0")
      (hbalance : s.getFeeBalanceLamports ≤ 0) (hafter : s'.starterGranted = some "1")
      (hcredit : s'.getFeeBalanceLamports = starterFeeBalanceLamports) (hevents : s'.feeEvents = s.feeEvents)
  | event {e : FeeEvent} (happlied : l.applied = some e) (hstarter : l.starter = false) (hpos : 0 < e.lamports)
      (hinsert : s.feeEvents.insert e = some s'.feeEvents)
      (hbalance : s'.getFeeBalanceLamports = nextBalance s.getFeeBalanceLamports e)
      (hgranted : s'.starterGranted = s.starterGranted)

theorem MoneyStep.of_applyFeeEvent {l : StoreRecord} {s before s' : TokenTables} {e : FeeEvent}
    (hcall : l.call = .applyFeeEvent e ∨ l.call = .settleDebit e) (hsame : SameMoney s before)
    (hgranted : before.starterGranted = s.starterGranted)
    (h : ((before.applyFeeEvent e).1.toOption, (before.applyFeeEvent e).2) = (l.returned, s')) : MoneyStep l s s' := by
  have hstarter : l.starter = false := by rcases hcall with hc | hc <;> simp [StoreRecord.starter, hc]
  rcases applyFeeEvent_cases before e with ⟨hno, -⟩ | ⟨hpos, feeEvents, hinsert, hyes⟩
  · rw [hno] at h
    obtain ⟨hreturned, rfl⟩ := Prod.mk.inj h
    refine .same ?_ hstarter hsame
    rcases hcall with hc | hc <;> simp [StoreRecord.applied, hc, ← hreturned, Except.toOption]
  · rw [hyes] at h
    obtain ⟨hreturned, rfl⟩ := Prod.mk.inj h
    refine .event (e := e) ?_ hstarter hpos ?_ ?_ hgranted
    · rcases hcall with hc | hc <;> simp [StoreRecord.applied, hc, ← hreturned, Except.toOption]
    · rw [← hsame.events, hinsert]
    · rw [← hsame.balance]
      rfl

theorem StoreStep.money {l : StoreRecord} {s s' : TokenTables} (h : StoreStep l s s') : MoneyStep l s s' := by
  obtain ⟨now, call, returned⟩ := l
  unfold StoreStep at h
  cases call with
  | ensureToken token =>
    obtain ⟨-, rfl⟩ := Prod.mk.inj h
    exact .same rfl rfl (sameMoney_ensureToken s token)
  | grantStarterIfNeeded =>
    obtain ⟨hreturned, rfl⟩ := Prod.mk.inj h
    obtain rfl : some s.grantStarterIfNeeded.1 = returned := hreturned
    unfold grantStarterIfNeeded
    by_cases hflag : s.starterGranted ≠ some "0"
    · rw [if_pos hflag]
      exact .same rfl rfl (.refl s)
    · rw [if_neg hflag]
      have hflag : s.starterGranted = some "0" := not_not.1 hflag
      dsimp only
      split
      · exact .same rfl rfl ⟨rfl, rfl, fun _ => rfl⟩
      · next hbalance => exact .starter rfl rfl hflag (not_lt.1 hbalance) rfl rfl rfl
  | reserve id lamports ttlMs =>
    obtain ⟨-, rfl⟩ := Prod.mk.inj h
    exact .same rfl rfl (sameMoney_reserve s id lamports ttlMs now)
  | rebindReserve fromId toId =>
    obtain ⟨-, rfl⟩ := Prod.mk.inj h
    exact .same rfl rfl (sameMoney_rebindReserve s fromId toId now)
  | release id =>
    obtain ⟨-, rfl⟩ := Prod.mk.inj h
    exact .same rfl rfl (sameMoney_reserves s _)
  | expireReserves =>
    obtain ⟨-, rfl⟩ := Prod.mk.inj h
    exact .same rfl rfl (sameMoney_reserves s _)
  | applyFeeEvent event => exact .of_applyFeeEvent (Or.inl rfl) (.refl s) rfl h
  | settleDebit event =>
    refine @MoneyStep.of_applyFeeEvent _ _ (settled s event now) _ _ (Or.inr rfl) (sameMoney_settled s event now) ?_ ?_
    · unfold settled
      cases event.kind <;> rfl
    · rw [← settleDebit_eq]
      exact h

/-! ## What the calls do to the reserves -/

/-- What one call does to the reserves: rows go, one is added, or one takes another id. -/
inductive ReserveStep (now : Int) (s s' : TokenTables) : Prop
  | fewer (h : s'.feeReserves.rows.Sublist s.feeReserves.rows)
  | added {t : TokenTables} {row : FeeReserve} (hrest : t.feeReserves.rows.Sublist s.feeReserves.rows)
      (hinsert : t.feeReserves.insert row = some s'.feeReserves) (hpos : 0 < row.lamports) (hid : row.id ≠ "")
      (hcount : t.getOpenReserveCount now < maxConcurrentFeeReserves)
  | renamed {row : FeeReserve} {toId : String} (hrow : row ∈ s.feeReserves.rows) (hto : toId ≠ "")
      (hinsert : (s.feeReserves.delete row.id).insert { row with id := toId } = some s'.feeReserves)

theorem ReserveStep.refl (now : Int) (s : TokenTables) : ReserveStep now s s := .fewer (List.Sublist.refl _)

theorem ReserveStep.of_reserveNew {now lamports ttlMs : Int} {s t : TokenTables} {id : String} (hpos : 0 < lamports)
    (hid : id ≠ "") (hrest : t.feeReserves.rows.Sublist s.feeReserves.rows) (hfind : t.feeReserves.find id = none) :
    ReserveStep now s (t.reserveNew id lamports ttlMs now).2 := by
  rcases reserveNew_cases ttlMs now hfind hpos with hno | ⟨hcount, -, feeReserves, hinsert, hyes⟩
  · rw [hno]
    exact .fewer hrest
  · rw [hyes]
    exact .added hrest hinsert hpos hid hcount

theorem ReserveStep.of_reserve (s : TokenTables) (id : String) (lamports ttlMs now : Int) :
    ReserveStep now s (s.reserve id lamports ttlMs now).2 := by
  rcases reserve_cases s id lamports ttlMs now with
    h | ⟨row, -, -, h⟩ | ⟨hpos, hid, -, hfind, h⟩ | ⟨hpos, hid, hfind, h⟩
  · rw [h]
    exact .refl now s
  · rw [h]
    exact .refl now s
  · rw [h]
    exact .of_reserveNew hpos hid (Table.rows_deleteWhere_sublist _ _) hfind
  · rw [h]
    exact .of_reserveNew hpos hid (List.Sublist.refl _) hfind

theorem ReserveStep.of_rebindReserve (s : TokenTables) (fromId toId : String) (now : Int) :
    ReserveStep now s (s.rebindReserve fromId toId now).2 := by
  rcases rebindReserve_cases s fromId toId now with
    ⟨-, h⟩ | ⟨row, hrow, -, hto, -, ⟨row', -, h⟩ | ⟨-, feeReserves, hinsert, h⟩⟩
  · rw [h]
    exact .refl now s
  · rw [h]
    exact .fewer (Table.rows_deleteWhere_sublist _ _)
  · rw [h]
    obtain ⟨hmem, rfl⟩ := Table.find_eq_some.1 hrow
    exact .renamed hmem hto hinsert

theorem ReserveStep.of_applyFeeEvent {now : Int} {s before : TokenTables} (e : FeeEvent)
    (h : before.feeReserves.rows.Sublist s.feeReserves.rows) : ReserveStep now s (before.applyFeeEvent e).2 := by
  rcases applyFeeEvent_cases before e with ⟨hno, -⟩ | ⟨-, feeEvents, -, hyes⟩
  · rw [hno]
    exact .fewer h
  · rw [hyes]
    exact .fewer h

theorem sublist_settled (s : TokenTables) (e : FeeEvent) (now : Int) :
    (settled s e now).feeReserves.rows.Sublist s.feeReserves.rows := by
  unfold settled
  cases e.kind with
  | credit => exact List.Sublist.refl _
  | debit => exact (Table.rows_deleteWhere_sublist _ _).trans (Table.rows_deleteWhere_sublist _ _)

theorem grantStarterIfNeeded_reserves (s : TokenTables) : s.grantStarterIfNeeded.2.feeReserves = s.feeReserves := by
  unfold grantStarterIfNeeded
  split
  · rfl
  · dsimp only
    split <;> rfl

theorem StoreStep.reserves {l : StoreRecord} {s s' : TokenTables} (h : StoreStep l s s') : ReserveStep l.now s s' := by
  obtain ⟨now, call, returned⟩ := l
  obtain ⟨-, rfl⟩ := Prod.mk.inj h
  cases call with
  | ensureToken token => exact .fewer (by rw [ensureToken_reserves])
  | grantStarterIfNeeded => exact .fewer (by rw [grantStarterIfNeeded_reserves])
  | reserve id lamports ttlMs => exact .of_reserve s id lamports ttlMs now
  | rebindReserve fromId toId => exact .of_rebindReserve s fromId toId now
  | release id => exact .fewer (Table.rows_deleteWhere_sublist _ _)
  | expireReserves => exact .fewer (Table.rows_deleteWhere_sublist _ _)
  | applyFeeEvent event => exact .of_applyFeeEvent event (List.Sublist.refl _)
  | settleDebit event =>
    show ReserveStep now s (s.settleDebit event now).2
    rw [settleDebit_eq]
    exact .of_applyFeeEvent event (sublist_settled s event now)

/-! ## The books after a run -/

/-- What holds of the tables after a run of calls. -/
structure LedgerInvariant (ls : List StoreRecord) (s : TokenTables) : Prop where
  events : s.feeEvents.rows = appliedEvents ls
  starter : starterCredits ls ≤ if s.starterGranted = some "1" then 1 else 0
  nonneg : 0 ≤ s.getFeeBalanceLamports
  upper : s.getFeeBalanceLamports ≤ starterFeeBalanceLamports * starterCredits ls + appliedCredits ls
  lower : starterFeeBalanceLamports * starterCredits ls + appliedCredits ls - appliedDebits ls ≤ s.getFeeBalanceLamports
  rows : ∀ r ∈ s.feeReserves.rows, 0 < r.lamports ∧ r.id ≠ ""
  openCount : ∀ t, (∀ l ∈ ls, l.now ≤ t) → s.getOpenReserveCount t ≤ maxConcurrentFeeReserves

theorem ledgerInvariant_init : LedgerInvariant [] .init where
  events := rfl
  starter := Nat.zero_le _
  nonneg := by decide
  upper := by decide
  lower := by decide
  rows := fun r hr => (by cases hr)
  openCount := fun t _ => Nat.zero_le _

/-! ### Reserves -/

theorem getOpenReserveCount_anti (s : TokenTables) {now t : Int} (h : now ≤ t) :
    s.getOpenReserveCount t ≤ s.getOpenReserveCount now := by
  apply Table.total_le
  intro r _
  unfold isOpen
  by_cases ht : t < r.expiresAt
  · rw [if_pos (by simpa using ht), if_pos (by simpa using (by omega : now < r.expiresAt))]
  · rw [if_neg (by simpa using ht)]
    exact Nat.zero_le _

theorem getOpenReserveCount_sublist {s s' : TokenTables} (h : s'.feeReserves.rows.Sublist s.feeReserves.rows) (t : Int) :
    s'.getOpenReserveCount t ≤ s.getOpenReserveCount t :=
  Table.total_le_of_sublist h fun _ _ => Nat.zero_le _

/-- A row that takes another id counts as before. -/
theorem total_renamed {M : Type} [AddCommMonoid M] {s s' : TokenTables} {row : FeeReserve} {toId : String}
    (f : FeeReserve → M) (hf : f { row with id := toId } = f row) (hrow : row ∈ s.feeReserves.rows)
    (h : (s.feeReserves.delete row.id).insert { row with id := toId } = some s'.feeReserves) :
    s'.feeReserves.total f = s.feeReserves.total f := by
  rw [Table.total_insert h, hf, Table.total_delete hrow, add_comm]

theorem ReserveStep.openCount {now : Int} {s s' : TokenTables} (h : ReserveStep now s s') {t : Int} (ht : now ≤ t)
    (hs : s.getOpenReserveCount t ≤ maxConcurrentFeeReserves) : s'.getOpenReserveCount t ≤ maxConcurrentFeeReserves := by
  cases h with
  | fewer h => exact (getOpenReserveCount_sublist h t).trans hs
  | @added t' row _ hinsert _ _ hcount =>
    have hanti := getOpenReserveCount_anti t' ht
    have hone : (if isOpen t row then 1 else 0 : Nat) ≤ 1 := by split <;> omega
    unfold getOpenReserveCount at hanti hcount ⊢
    rw [Table.total_insert hinsert]
    omega
  | renamed hrow _ hinsert =>
    unfold getOpenReserveCount
    rw [total_renamed (fun r => if isOpen t r then 1 else 0) rfl hrow hinsert]
    exact hs

theorem ReserveStep.rows {now : Int} {s s' : TokenTables} (h : ReserveStep now s s')
    (hs : ∀ r ∈ s.feeReserves.rows, 0 < r.lamports ∧ r.id ≠ "") :
    ∀ r ∈ s'.feeReserves.rows, 0 < r.lamports ∧ r.id ≠ "" := by
  intro r hr
  cases h with
  | fewer h => exact hs r (h.subset hr)
  | added hrest hinsert hpos hid _ =>
    rcases (Table.mem_insert hinsert).1 hr with hr | rfl
    · exact hs r (hrest.subset hr)
    · exact ⟨hpos, hid⟩
  | renamed hrow hto hinsert =>
    rcases (Table.mem_insert hinsert).1 hr with hr | rfl
    · exact hs r (Table.mem_delete.1 hr).1
    · exact ⟨(hs _ hrow).1, hto⟩

/-! ### Money -/

theorem nextBalance_eq (balance : Int) (e : FeeEvent) (hpos : 0 < e.lamports) (hbalance : 0 ≤ balance) :
    0 ≤ nextBalance balance e ∧ nextBalance balance e ≤ balance + e.credit ∧
      balance + e.credit - e.debit ≤ nextBalance balance e := by
  unfold nextBalance FeeEvent.credit FeeEvent.debit
  cases e.kind with
  | credit => dsimp only; omega
  | debit => dsimp only; omega

theorem appliedEvents_concat (ls : List StoreRecord) (l : StoreRecord) :
    appliedEvents (ls ++ [l]) = appliedEvents ls ++ l.applied.toList := by
  cases h : l.applied <;> simp [appliedEvents, List.filterMap_append, h]

theorem starterCredits_concat (ls : List StoreRecord) (l : StoreRecord) :
    starterCredits (ls ++ [l]) = starterCredits ls + if l.starter then 1 else 0 := by
  rw [starterCredits, List.countP_append, List.countP_singleton, starterCredits]

theorem appliedCredits_concat (ls : List StoreRecord) (l : StoreRecord) :
    appliedCredits (ls ++ [l]) = appliedCredits ls + l.applied.elim 0 FeeEvent.credit := by
  rw [appliedCredits, appliedEvents_concat, List.map_append, List.sum_append, appliedCredits]
  cases l.applied <;> simp

theorem appliedDebits_concat (ls : List StoreRecord) (l : StoreRecord) :
    appliedDebits (ls ++ [l]) = appliedDebits ls + l.applied.elim 0 FeeEvent.debit := by
  rw [appliedDebits, appliedEvents_concat, List.map_append, List.sum_append, appliedDebits]
  cases l.applied <;> simp

section Step

variable {ls : List StoreRecord} {l : StoreRecord} {s s' : TokenTables}

/-- A call that leaves the money alone. -/
theorem LedgerInvariant.same (hs : LedgerInvariant ls s) (happlied : l.applied = none) (hstarter : l.starter = false)
    (hsame : SameMoney s s') (hrows : ∀ r ∈ s'.feeReserves.rows, 0 < r.lamports ∧ r.id ≠ "")
    (hopen : ∀ t, (∀ k ∈ ls ++ [l], k.now ≤ t) → s'.getOpenReserveCount t ≤ maxConcurrentFeeReserves) :
    LedgerInvariant (ls ++ [l]) s' := by
  have hcredits := appliedCredits_concat ls l
  have hdebits := appliedDebits_concat ls l
  have hstarters := starterCredits_concat ls l
  rw [happlied, Option.elim_none, add_zero] at hcredits hdebits
  rw [hstarter, if_neg (by decide), Nat.add_zero] at hstarters
  refine ⟨?_, ?_, hsame.balance ▸ hs.nonneg, ?_, ?_, hrows, hopen⟩
  · rw [hsame.events, hs.events, appliedEvents_concat, happlied, Option.toList_none, List.append_nil]
  · have hold := hs.starter
    rw [hstarters]
    by_cases hg : s.starterGranted = some "1"
    · rw [if_pos hg] at hold
      rw [if_pos (hsame.granted hg)]
      exact hold
    · rw [if_neg hg] at hold
      omega
  · rw [hsame.balance, hcredits, hstarters]
    exact hs.upper
  · rw [hsame.balance, hcredits, hdebits, hstarters]
    exact hs.lower

/-- The starter, which is granted once. -/
theorem LedgerInvariant.grant (hs : LedgerInvariant ls s) (happlied : l.applied = none) (hstarter : l.starter = true)
    (hbefore : s.starterGranted = some "0") (hbalance : s.getFeeBalanceLamports ≤ 0) (hafter : s'.starterGranted = some "1")
    (hcredit : s'.getFeeBalanceLamports = starterFeeBalanceLamports) (hevents : s'.feeEvents = s.feeEvents)
    (hrows : ∀ r ∈ s'.feeReserves.rows, 0 < r.lamports ∧ r.id ≠ "")
    (hopen : ∀ t, (∀ k ∈ ls ++ [l], k.now ≤ t) → s'.getOpenReserveCount t ≤ maxConcurrentFeeReserves) :
    LedgerInvariant (ls ++ [l]) s' := by
  have hzero : starterCredits ls = 0 := by
    have hold := hs.starter
    rw [hbefore, if_neg (by decide)] at hold
    omega
  have hcredits := appliedCredits_concat ls l
  have hdebits := appliedDebits_concat ls l
  have hstarters := starterCredits_concat ls l
  rw [happlied, Option.elim_none, add_zero] at hcredits hdebits
  rw [hstarter, if_pos rfl, hzero] at hstarters
  have hupper := hs.upper
  have hlower := hs.lower
  have hnonneg := hs.nonneg
  rw [hzero] at hupper hlower
  refine ⟨?_, ?_, ?_, ?_, ?_, hrows, hopen⟩
  · rw [hevents, hs.events, appliedEvents_concat, happlied, Option.toList_none, List.append_nil]
  · rw [hstarters, if_pos hafter]
  · rw [hcredit]
    decide
  · rw [hcredit, hcredits, hstarters]
    omega
  · rw [hcredit, hcredits, hdebits, hstarters]
    omega

/-- An event, which is applied once. -/
theorem LedgerInvariant.event {e : FeeEvent} (hs : LedgerInvariant ls s) (happlied : l.applied = some e)
    (hstarter : l.starter = false) (hpos : 0 < e.lamports) (hinsert : s.feeEvents.insert e = some s'.feeEvents)
    (hbalance : s'.getFeeBalanceLamports = nextBalance s.getFeeBalanceLamports e)
    (hgranted : s'.starterGranted = s.starterGranted) (hrows : ∀ r ∈ s'.feeReserves.rows, 0 < r.lamports ∧ r.id ≠ "")
    (hopen : ∀ t, (∀ k ∈ ls ++ [l], k.now ≤ t) → s'.getOpenReserveCount t ≤ maxConcurrentFeeReserves) :
    LedgerInvariant (ls ++ [l]) s' := by
  have hcredits := appliedCredits_concat ls l
  have hdebits := appliedDebits_concat ls l
  have hstarters := starterCredits_concat ls l
  rw [happlied, Option.elim_some] at hcredits hdebits
  rw [hstarter, if_neg (by decide), Nat.add_zero] at hstarters
  have hupper := hs.upper
  have hlower := hs.lower
  obtain ⟨hnext, hle, hge⟩ := nextBalance_eq s.getFeeBalanceLamports e hpos hs.nonneg
  refine ⟨?_, ?_, hbalance ▸ hnext, ?_, ?_, hrows, hopen⟩
  · rw [Table.rows_insert hinsert, hs.events, appliedEvents_concat, happlied, Option.toList_some]
  · rw [hstarters, hgranted]
    exact hs.starter
  · rw [hbalance, hcredits, hstarters]
    omega
  · rw [hbalance, hcredits, hdebits, hstarters]
    omega

theorem LedgerInvariant.step (hs : LedgerInvariant ls s) (h : StoreStep l s s') : LedgerInvariant (ls ++ [l]) s' := by
  have hrows := h.reserves.rows hs.rows
  have hopen : ∀ t, (∀ k ∈ ls ++ [l], k.now ≤ t) → s'.getOpenReserveCount t ≤ maxConcurrentFeeReserves := by
    intro t ht
    exact h.reserves.openCount (ht l (by simp)) (hs.openCount t fun k hk => ht k (List.mem_append_left _ hk))
  cases h.money with
  | same happlied hstarter hsame => exact hs.same happlied hstarter hsame hrows hopen
  | starter happlied hstarter hbefore hbalance hafter hcredit hevents =>
    exact hs.grant happlied hstarter hbefore hbalance hafter hcredit hevents hrows hopen
  | event happlied hstarter hpos hinsert hbalance hgranted =>
    exact hs.event happlied hstarter hpos hinsert hbalance hgranted hrows hopen

end Step

/-- **The books after any run.** -/
theorem ledgerInvariant {ls : List StoreRecord} {s : TokenTables} (h : Run StoreStep .init ls s) : LedgerInvariant ls s :=
  h.tracked ledgerInvariant_init fun _ _ _ _ _ hs hstep => hs.step hstep

/-! ## Reserving and rebinding -/

/-- A reserve that adds a row stays within the balance. -/
theorem reserve_room {s s' : TokenTables} {id : String} {lamports ttlMs now : Int}
    (h : s.reserve id lamports ttlMs now = (.ok true, s'))
    (hnew : ∀ row, s.feeReserves.find id = some row → isOpen now row = false) :
    s'.getReservedLamports now ≤ s'.getFeeBalanceLamports := by
  have hroom : ∀ t : TokenTables, t.feeReserves.find id = none → 0 < lamports →
      t.reserveNew id lamports ttlMs now = (.ok true, s') → s'.getReservedLamports now ≤ s'.getFeeBalanceLamports := by
    intro t hfind hpos hnew
    rcases reserveNew_cases ttlMs now hfind hpos with hno | ⟨-, havailable, feeReserves, hinsert, hyes⟩
    · rw [hno] at hnew
      cases hnew
    · rw [hyes] at hnew
      cases hnew
      have hle : (if isOpen now (⟨id, lamports, now, now + ttlMs⟩ : FeeReserve) then lamports else 0) ≤ lamports := by
        split <;> omega
      have htotal := Table.total_insert (f := fun r : FeeReserve => if isOpen now r then r.lamports else 0) hinsert
      unfold getReservedLamports getFeeBalanceLamports at havailable ⊢
      dsimp only at htotal ⊢
      omega
  rcases reserve_cases s id lamports ttlMs now with
    hno | ⟨row, hrow, hopen, -⟩ | ⟨hpos, -, -, hfind, heq⟩ | ⟨hpos, -, hfind, heq⟩
  · rw [hno] at h
    cases h
  · rw [hnew row hrow] at hopen
    cases hopen
  · exact hroom _ hfind hpos (heq ▸ h)
  · exact hroom _ hfind hpos (heq ▸ h)

/-- **When a rebind keeps the total.** A row under the target that has expired but is still there makes the reserve
vanish. -/
theorem rebindReserve_total {s : TokenTables} (hrows : ∀ r ∈ s.feeReserves.rows, 0 < r.lamports ∧ r.id ≠ "")
    {fromId toId : String} {now : Int} {row : FeeReserve} (hrow : s.feeReserves.find fromId = some row)
    (hopen : isOpen now row = true) (hto : ∀ row', s.feeReserves.find toId = some row' → isOpen now row' = false) :
    (s.rebindReserve fromId toId now).2.getReservedLamports now = s.getReservedLamports now ↔
      s.feeReserves.find toId = none := by
  obtain ⟨hmem, hkey⟩ := Table.find_eq_some.1 hrow
  rcases rebindReserve_cases s fromId toId now with
    ⟨hwhy, h⟩ | ⟨row₁, hrow₁, -, -, -, ⟨row', hrow', h⟩ | ⟨hnone, feeReserves, hinsert, h⟩⟩
  · rw [h]
    refine ⟨fun _ => ?_, fun _ => rfl⟩
    rcases hwhy with rfl | rfl | rfl | hclosed
    · exact absurd hkey (hrows row hmem).2
    · exact Table.find_eq_none.2 fun r hr => (hrows r hr).2
    · rw [hto row hrow] at hopen
      cases hopen
    · rw [hclosed row hrow] at hopen
      cases hopen
  · rw [h, hrow']
    have htotal := Table.total_delete (f := fun r : FeeReserve => if isOpen now r then r.lamports else 0) hmem
    have hpos := (hrows row hmem).1
    rw [hopen, hkey] at htotal
    have hlt : (s.deleteReserve fromId).getReservedLamports now < s.getReservedLamports now := by
      unfold getReservedLamports deleteReserve
      dsimp only at htotal ⊢
      rw [if_pos rfl] at htotal
      omega
    constructor
    · intro heq
      exact absurd heq (ne_of_lt hlt)
    · intro hnone
      cases hnone
  · obtain rfl : row = row₁ := Option.some.inj (hrow.symm.trans hrow₁)
    rw [h]
    refine ⟨fun _ => hnone, fun _ => ?_⟩
    subst hkey
    exact @total_renamed _ _ s { s with feeReserves } _ _ (fun r => if isOpen now r then r.lamports else 0) rfl hmem hinsert

/-- A reserve under a signature has expired when another is taken for a message. -/
def expiredCalls : List (Int × StoreCall) :=
  [(0, .ensureToken "token"), (0, .grantStarterIfNeeded), (0, .reserve "signature" minAttemptFeeLamports feeReserveTtlMs),
    (90000, .reserve "message" minAttemptFeeLamports feeReserveTtlMs)]

end PhygitalWallet.Signer
