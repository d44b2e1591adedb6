import PhygitalWallet.Api.TxQueue

/-!
# The effects of the queue's calls

An effect is a row by its wallet and signature, or a fee event by its token and signature.

- `TxEffect`, `TxStores.Has`: the effects, and the stores that have one;
- `Applied`, `Ledger`: what `applyFeeEvents` does, and the ledger: each balance is what its history makes of it;
- `execTx_has`, `execTx_mono`: a call that is answered has made its effects, and what was made stays.
-/

namespace PhygitalWallet.Api

open SqlTable
open Client (JsError Outcome)
open Signer (FeeEvent SameMoney TokenTables sameMoney_ensureToken)
open Signer.TokenTables (nextBalance)

/-! ## Effects -/

inductive TxEffect
  | row (walletAddress signature : String)
  | fee (token signature : String)
deriving DecidableEq, Repr

/-- The call has the effect. -/
def TxCall.makes : TxEffect → TxCall → Bool
  | .row walletAddress signature, .insertRows rows => rows.any fun row => rowKey row = (walletAddress, signature)
  | .fee token signature, .applyFeeEvents token' events =>
    token' = token && events.any fun ev => ev.signature = signature && 0 < ev.lamports
  | _, _ => false

/-- The stores have the effect. -/
def TxStores.Has (s : TxStores) : TxEffect → Prop
  | .row walletAddress signature => ∃ row ∈ s.activity.rows, rowKey row = (walletAddress, signature)
  | .fee token signature => ∃ ev ∈ (s.tokens token).tables.feeEvents.rows, ev.signature = signature

/-! ## Rows -/

theorem mem_insertOrIgnore_of_mem {activity : Table rowKey} {row other : WalletActivityRow}
    (h : other ∈ activity.rows) : other ∈ (insertOrIgnore activity row).rows := by
  unfold insertOrIgnore
  cases hinsert : activity.insert row with
  | none => exact h
  | some after => exact (Table.mem_insert hinsert).2 (Or.inl h)

theorem mem_insertOrIgnore {activity : Table rowKey} {row other : WalletActivityRow}
    (h : other ∈ (insertOrIgnore activity row).rows) : other ∈ activity.rows ∨ other = row := by
  unfold insertOrIgnore at h
  cases hinsert : activity.insert row with
  | none =>
    rw [hinsert] at h
    exact Or.inl h
  | some after =>
    rw [hinsert] at h
    exact (Table.mem_insert hinsert).1 h

/-- After an insert the key is there. -/
theorem insertOrIgnore_key (activity : Table rowKey) (row : WalletActivityRow) :
    ∃ other ∈ (insertOrIgnore activity row).rows, rowKey other = rowKey row := by
  unfold insertOrIgnore
  cases hinsert : activity.insert row with
  | none =>
    cases hfind : activity.find (rowKey row) with
    | none => exact absurd hfind (Table.insert_eq_none.1 hinsert)
    | some other => exact ⟨other, Table.find_eq_some.1 hfind⟩
  | some after => exact ⟨row, (Table.mem_insert hinsert).2 (Or.inr rfl), rfl⟩

theorem mem_foldl_insertOrIgnore_of_mem {rows : List WalletActivityRow} {activity : Table rowKey}
    {other : WalletActivityRow} (h : other ∈ activity.rows) : other ∈ (rows.foldl insertOrIgnore activity).rows := by
  induction rows generalizing activity with
  | nil => exact h
  | cons row rows ih => exact ih (mem_insertOrIgnore_of_mem h)

theorem mem_foldl_insertOrIgnore {rows : List WalletActivityRow} {activity : Table rowKey} {other : WalletActivityRow}
    (h : other ∈ (rows.foldl insertOrIgnore activity).rows) : other ∈ activity.rows ∨ other ∈ rows := by
  induction rows generalizing activity with
  | nil => exact Or.inl h
  | cons row rows ih =>
    rcases ih h with h | h
    · rcases mem_insertOrIgnore h with h | rfl
      · exact Or.inl h
      · exact Or.inr List.mem_cons_self
    · exact Or.inr (List.mem_cons_of_mem _ h)

theorem foldl_insertOrIgnore_key {rows : List WalletActivityRow} {activity : Table rowKey} {row : WalletActivityRow}
    (h : row ∈ rows) : ∃ other ∈ (rows.foldl insertOrIgnore activity).rows, rowKey other = rowKey row := by
  induction rows generalizing activity with
  | nil => cases h
  | cons first rows ih =>
    rcases List.mem_cons.1 h with rfl | h
    · obtain ⟨other, hother, hkey⟩ := insertOrIgnore_key activity row
      exact ⟨other, @mem_foldl_insertOrIgnore_of_mem rows _ _ hother, hkey⟩
    · exact ih h

/-! ## Fee events -/

/-- What the loop of `applyFeeEvents` does: it applies some of its events, and every event that moves lamports is there. -/
structure Applied (events : List FeeEvent) (tables : TokenTables)
    (result : Outcome (List String) × List FeeEvent × TokenTables) : Prop where
  rows : result.2.2.feeEvents.rows = tables.feeEvents.rows ++ result.2.1
  balance : result.2.2.getFeeBalanceLamports = result.2.1.foldl nextBalance tables.getFeeBalanceLamports
  subset : result.2.1 ⊆ events
  there : ∀ ev ∈ events, 0 < ev.lamports → ∃ row ∈ result.2.2.feeEvents.rows, row.signature = ev.signature

theorem applied_applyFeeEvents (now : Int) (events : List FeeEvent) (tables : TokenTables) :
    Applied events tables (applyFeeEvents now events tables) := by
  induction events generalizing tables with
  | nil => exact ⟨by simp [applyFeeEvents], rfl, List.Subset.refl [], by simp⟩
  | cons ev events ih =>
    unfold applyFeeEvents
    rcases TokenTables.settleDebit_cases tables ev now with
      ⟨after, h, hevents, hsame, hwhy⟩ | ⟨after, h, hinsert, hbalance⟩
    · obtain ⟨hrows, hlast, hsubset, hthere⟩ := ih after
      rw [hevents] at hrows
      rw [hsame] at hlast
      rw [h]
      refine ⟨hrows, hlast, fun _ hmem => List.mem_cons_of_mem _ (hsubset hmem), fun e he hpos => ?_⟩
      rcases List.mem_cons.1 he with rfl | he
      · obtain ⟨row, hrow, hsignature⟩ := hwhy hpos
        exact ⟨row, by rw [hrows]; exact List.mem_append_left _ hrow, hsignature⟩
      · exact hthere e he hpos
    · obtain ⟨hrows, hlast, hsubset, hthere⟩ := ih after
      rw [Table.rows_insert hinsert, List.append_assoc] at hrows
      rw [hbalance] at hlast
      rw [h]
      refine ⟨hrows, hlast, List.cons_subset_cons ev hsubset, fun e he hpos => ?_⟩
      rcases List.mem_cons.1 he with rfl | he
      · refine ⟨e, ?_, rfl⟩
        show e ∈ (applyFeeEvents now events after).2.2.feeEvents.rows
        rw [hrows]
        exact List.mem_append_right _ List.mem_cons_self
      · exact hthere e he hpos

/-- The first call on an object moves no money. -/
theorem TokenObject.open_money (object : TokenObject) (token : String) : SameMoney object.tables (object.open token).2 := by
  unfold TokenObject.open
  split
  · exact .refl _
  · exact sameMoney_ensureToken object.tables token

/-! ## The ledger -/

/-- The fee events of an object are those of its history, and its balance is what the history makes of an empty one. -/
structure TokenObject.Ledger (object : TokenObject) : Prop where
  rows : object.tables.feeEvents.rows = object.history.filterMap Cause.event
  balance : object.tables.getFeeBalanceLamports = object.history.foldl Cause.next 0

/-- The events of a call enter the history; if it is answered, all that move lamports are there. -/
theorem TokenObject.applyFeeEvents_spec (object : TokenObject) (token : String) (now : Int) (events : List FeeEvent) :
    ∃ applied ⊆ events, (object.applyFeeEvents token now events).2.history = object.history ++ applied.map .fee ∧
      (object.Ledger → (object.applyFeeEvents token now events).2.Ledger) ∧
      ((object.applyFeeEvents token now events).1.isOk = true → ∀ ev ∈ events, 0 < ev.lamports →
        ∃ row ∈ (object.applyFeeEvents token now events).2.tables.feeEvents.rows, row.signature = ev.signature) := by
  have hopen := object.open_money token
  unfold TokenObject.applyFeeEvents
  generalize object.open token = opened at hopen ⊢
  obtain ⟨ready, tables⟩ := opened
  cases ready with
  | error e =>
    refine ⟨[], List.nil_subset events, (List.append_nil _).symm, fun h => ⟨?_, ?_⟩, nofun⟩
    · rw [hopen.events, h.rows]
    · rw [hopen.balance, h.balance]
  | ok =>
    obtain ⟨hrows, hlast, hsubset, hthere⟩ := applied_applyFeeEvents now events tables
    refine ⟨_, hsubset, rfl, fun h => ⟨?_, ?_⟩, fun _ => hthere⟩
    · have hevents : ∀ applied : List FeeEvent, (applied.map Cause.fee).filterMap Cause.event = applied := by
        intro applied
        rw [List.filterMap_map]
        exact List.filterMap_some
      rw [hrows, List.filterMap_append, hevents, hopen.events, h.rows]
    · rw [hlast, List.foldl_append, List.foldl_map, hopen.balance, h.balance]
      rfl

/-- Another call changes the balance by the starter alone. -/
theorem OtherCall.ledger {object object' : TokenObject} (h : OtherCall object object') (hledger : object.Ledger) :
    object'.Ledger := by
  obtain ⟨l, hstep, hnone, hhistory⟩ := h
  cases hstep.money with
  | same _ hstarter hsame =>
    rw [hstarter, if_neg Bool.false_ne_true, List.append_nil] at hhistory
    exact ⟨by rw [hsame.events, hhistory, hledger.rows], by rw [hsame.balance, hhistory, hledger.balance]⟩
  | starter _ hstarter _ _ _ hcredit hevents =>
    rw [hstarter, if_pos rfl] at hhistory
    constructor
    · rw [hevents, hhistory, List.filterMap_append, hledger.rows]
      simp [Cause.event]
    · rw [hcredit, hhistory, List.foldl_append]
      rfl
  | event happlied =>
    rw [hnone] at happlied
    cases happlied

/-- Another call applies no event. -/
theorem OtherCall.fee_mem {object object' : TokenObject} (h : OtherCall object object') {ev : FeeEvent} :
    .fee ev ∈ object'.history ↔ .fee ev ∈ object.history := by
  obtain ⟨l, -, -, hhistory⟩ := h
  rw [hhistory, List.mem_append, or_iff_left]
  split <;> simp

/-- Another call removes no event. -/
theorem OtherCall.feeEvents {object object' : TokenObject} (h : OtherCall object object') :
    object'.tables.feeEvents = object.tables.feeEvents := by
  obtain ⟨l, hstep, hnone, -⟩ := h
  cases hstep.money with
  | same _ _ hsame => exact hsame.events
  | starter _ _ _ _ _ _ hevents => exact hevents
  | event happlied =>
    rw [hnone] at happlied
    cases happlied

/-- A call on an object changes that object. -/
theorem execTx_applyFeeEvents (token : String) (events : List FeeEvent) (s : TxStores) :
    (execTx (.applyFeeEvents token events) s).2 =
      { s with tokens := Function.update s.tokens token ((s.tokens token).applyFeeEvents token s.now events).2 } := rfl

/-- The ledgers of all objects. -/
def Ledger (s : TxStores) : Prop := ∀ token, (s.tokens token).Ledger

theorem Ledger.empty : Ledger .empty := fun _ => ⟨rfl, rfl⟩

/-- One object changes. -/
theorem Ledger.update {s : TxStores} (h : Ledger s) {token : String} {object : TokenObject} (hobject : object.Ledger) :
    Ledger { s with tokens := Function.update s.tokens token object } := by
  intro t
  by_cases ht : t = token
  · subst ht
    simpa using hobject
  · simpa [ht] using h t

theorem Ledger.exec {s : TxStores} (h : Ledger s) (c : TxCall) : Ledger (execTx c s).2 := by
  cases c with
  | insertRows rows => exact h
  | applyFeeEvents token events =>
    obtain ⟨-, -, -, hledger, -⟩ := (s.tokens token).applyFeeEvents_spec token s.now events
    rw [execTx_applyFeeEvents]
    exact h.update (hledger (h token))

theorem Ledger.other {s s' : TxStores} (h : Ledger s) (hother : OtherCalls s s') : Ledger s' := by
  cases hother with
  | clock now => exact h
  | call token object hcall => exact h.update (hcall.ledger (h token))

/-! ## Effects of calls -/

/-- What the stores have stays, where the fee events of the one object that changes do. -/
theorem TxStores.Has.update {s : TxStores} {x : TxEffect} (h : s.Has x) {token : String} {object : TokenObject}
    (hobject : (s.tokens token).tables.feeEvents.rows ⊆ object.tables.feeEvents.rows) :
    ({ s with tokens := Function.update s.tokens token object } : TxStores).Has x := by
  cases x with
  | row walletAddress signature => exact h
  | fee token' signature =>
    obtain ⟨ev, hev, hsignature⟩ := h
    refine ⟨ev, ?_, hsignature⟩
    by_cases ht : token' = token
    · subst ht
      simpa using hobject hev
    · simpa [ht] using hev

/-- What the stores have stays. -/
theorem execTx_mono {s : TxStores} (hledger : Ledger s) {x : TxEffect} (h : s.Has x) (c : TxCall) :
    (execTx c s).2.Has x := by
  cases c with
  | insertRows rows =>
    cases x with
    | row walletAddress signature =>
      obtain ⟨row, hrow, hkey⟩ := h
      exact ⟨row, mem_foldl_insertOrIgnore_of_mem hrow, hkey⟩
    | fee token signature => exact h
  | applyFeeEvents token events =>
    obtain ⟨applied, -, hhistory, hafter, -⟩ := (s.tokens token).applyFeeEvents_spec token s.now events
    rw [execTx_applyFeeEvents]
    refine h.update fun ev hev => ?_
    rw [(hledger token).rows] at hev
    rw [(hafter (hledger token)).rows, hhistory, List.filterMap_append]
    exact List.mem_append_left _ hev

theorem OtherCalls.mono {s s' : TxStores} (hother : OtherCalls s s') {x : TxEffect} (h : s.Has x) : s'.Has x := by
  cases hother with
  | clock now => cases x <;> exact h
  | call token object hcall => exact h.update (by rw [hcall.feeEvents]; exact List.Subset.refl _)

/-- A call that is answered has made its effects. -/
theorem execTx_has {s : TxStores} {x : TxEffect} {c : TxCall} (hmakes : c.makes x = true)
    (hok : (execTx c s).1.isOk = true) : (execTx c s).2.Has x := by
  cases c with
  | insertRows rows =>
    cases x with
    | row walletAddress signature =>
      obtain ⟨row, hrow, hkey⟩ := List.any_eq_true.1 hmakes
      obtain ⟨other, hother, hsame⟩ := @foldl_insertOrIgnore_key _ s.activity _ hrow
      exact ⟨other, hother, hsame.trans (of_decide_eq_true hkey)⟩
    | fee token signature => cases hmakes
  | applyFeeEvents token events =>
    cases x with
    | row walletAddress signature => cases hmakes
    | fee token' signature =>
      have hboth : (decide (token = token') && events.any fun ev => ev.signature = signature && 0 < ev.lamports) = true :=
        hmakes
      rw [Bool.and_eq_true, decide_eq_true_eq] at hboth
      obtain ⟨rfl, hany⟩ := hboth
      obtain ⟨ev, hev, hpos⟩ := List.any_eq_true.1 hany
      rw [Bool.and_eq_true, decide_eq_true_eq, decide_eq_true_eq] at hpos
      obtain ⟨-, -, -, -, hthere⟩ := (s.tokens token).applyFeeEvents_spec token s.now events
      obtain ⟨row, hrow, hsignature⟩ := hthere hok ev hev hpos.2
      exact ⟨row, by simpa [execTx] using hrow, hsignature.trans hpos.1⟩

end PhygitalWallet.Api
