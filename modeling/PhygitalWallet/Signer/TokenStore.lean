import PhygitalWallet.Client.Kit
import PhygitalWallet.Lib.Table

/-!
# The fee ledger of a token (`token-store.ts`)

The tables of one durable object, and the calls on them. Amounts and times are numbers without a fraction. A statement
that breaks a primary key throws and leaves what the statements before it did, so a call returns how it ended and the
tables.

- `reserve_cases`, `rebindReserve_cases`, `applyFeeEvent_cases`, `settleDebit_cases`: what each call does.
-/

namespace PhygitalWallet.Signer

open Client SqlTable

/-! ## Constants (`fees/constants.ts`) -/

def minAttemptFeeLamports : Int := 100000
def starterFeeBalanceLamports : Int := 1000000
def maxConcurrentFeeReserves : Nat := 4
def feeReserveTtlMs : Int := 90000

/-! ## Tables -/

inductive FeeKind
  | credit | debit
deriving DecidableEq, Repr

structure FeeEvent where
  signature : String
  kind : FeeKind
  lamports : Int
deriving DecidableEq, Repr

structure FeeReserve where
  id : String
  lamports : Int
  createdAt : Int
  expiresAt : Int
deriving DecidableEq, Repr

/-- `meta` by its two keys, the one row of `fee_balance`, `fee_events` and `fee_reserves`. -/
structure TokenTables where
  phygitalToken : Option String
  starterGranted : Option String
  feeBalance : Option Int
  feeEvents : Table FeeEvent.signature
  feeReserves : Table FeeReserve.id
deriving DecidableEq

/-- `initTokenSchema` on an empty database. -/
def TokenTables.init : TokenTables := ⟨none, none, none, .empty _, .empty _⟩

namespace TokenTables

/-! ## Reads -/

/-- `expires_at > now`. -/
def isOpen (now : Int) (r : FeeReserve) : Bool := now < r.expiresAt

def getOpenReserveCount (s : TokenTables) (now : Int) : Nat :=
  s.feeReserves.total fun r => if isOpen now r then 1 else 0

def getFeeBalanceLamports (s : TokenTables) : Int := s.feeBalance.getD 0

def getReservedLamports (s : TokenTables) (now : Int) : Int :=
  s.feeReserves.total fun r => if isOpen now r then r.lamports else 0

def getAvailableLamports (s : TokenTables) (now : Int) : Int :=
  max 0 (s.getFeeBalanceLamports - s.getReservedLamports now)

/-! ## The token and its starter -/

def ensureToken (s : TokenTables) (token : String) : Outcome Unit × TokenTables :=
  match s.phygitalToken with
  | some value =>
    if value ≠ token then (throwCoded [.text "TokenSigner DO token mismatch"] "token_mismatch", s) else (.ok (), s)
  | none =>
    let s := { s with phygitalToken := some token }
    match s.feeBalance with
    | some _ => (.error .sqlConstraint, s)
    | none =>
      let s := { s with feeBalance := some 0 }
      match s.starterGranted with
      | some _ => (.error .sqlConstraint, s)
      | none => (.ok (), { s with starterGranted := some "0" })

/-- One-time starter credit. -/
def grantStarterIfNeeded (s : TokenTables) : Bool × TokenTables :=
  if s.starterGranted ≠ some "0" then (false, s)
  else
    let s := { s with starterGranted := some "1" }
    if 0 < s.getFeeBalanceLamports then (false, s)
    else (true, { s with feeBalance := some starterFeeBalanceLamports })

/-! ## Reserves -/

def deleteReserve (s : TokenTables) (id : String) : TokenTables := { s with feeReserves := s.feeReserves.delete id }

/-- `INSERT INTO fee_reserves`, then `return true`. -/
def insertReserve (s : TokenTables) (r : FeeReserve) : Outcome Bool × TokenTables :=
  match s.feeReserves.insert r with
  | some feeReserves => (.ok true, { s with feeReserves })
  | none => (.error .sqlConstraint, s)

/-- `reserve`, where no open row has the id. -/
def reserveNew (s : TokenTables) (id : String) (lamports ttlMs now : Int) : Outcome Bool × TokenTables :=
  if maxConcurrentFeeReserves ≤ s.getOpenReserveCount now then (.ok false, s)
  else if s.getAvailableLamports now < lamports then (.ok false, s)
  else s.insertReserve { id, lamports, createdAt := now, expiresAt := now + ttlMs }

/-- Reserve attempt-floor lamports for a signed message. -/
def reserve (s : TokenTables) (id : String) (lamports ttlMs now : Int) : Outcome Bool × TokenTables :=
  if lamports ≤ 0 ∨ id = "" then (.ok false, s)
  else
    match s.feeReserves.find id with
    | some existing =>
      if isOpen now existing then (.ok true, s) else (s.deleteReserve id).reserveNew id lamports ttlMs now
    | none => s.reserveNew id lamports ttlMs now

def release (s : TokenTables) (id : String) : Bool × TokenTables := (true, s.deleteReserve id)

def expireReserves (s : TokenTables) (now : Int) : TokenTables :=
  { s with feeReserves := s.feeReserves.deleteWhere fun r => !isOpen now r }

/-- After co-sign: bind the open message-hash reserve to the tx signature. -/
def rebindReserve (s : TokenTables) (fromId toId : String) (now : Int) : Outcome Bool × TokenTables :=
  if fromId = "" ∨ toId = "" ∨ fromId = toId then (.ok false, s)
  else
    match s.feeReserves.find fromId with
    | none => (.ok false, s)
    | some row =>
      if !isOpen now row then (.ok false, s)
      else
        let s := s.deleteReserve fromId
        match s.feeReserves.find toId with
        | some _ => (.ok true, s)
        | none => s.insertReserve { row with id := toId }

/-! ## Fee events -/

/-- `signature.replace(/:debit$/, "")`. -/
def stripDebit (signature : String) : String :=
  if ":debit".toList <:+ signature.toList then
    String.ofList (signature.toList.take (signature.toList.length - ":debit".toList.length))
  else signature

def applyFeeEvent (s : TokenTables) (event : FeeEvent) : Outcome Bool × TokenTables :=
  if event.lamports ≤ 0 then (.ok false, s)
  else
    match s.feeEvents.find event.signature with
    | some _ => (.ok false, s)
    | none =>
      match s.feeEvents.insert event with
      | none => (.error .sqlConstraint, s)
      | some feeEvents =>
        let current := s.getFeeBalanceLamports
        let next :=
          match event.kind with
          | .credit => current + event.lamports
          | .debit => max 0 (current - event.lamports)
        (.ok true, { s with feeEvents, feeBalance := some next })

/-- On debit: release the reserve bound to this tx signature, then apply the actual lamport debit. -/
def settleDebit (s : TokenTables) (event : FeeEvent) (now : Int) : Outcome Bool × TokenTables :=
  match event.kind with
  | .credit => s.applyFeeEvent event
  | .debit =>
    let s := s.expireReserves now
    let sig := stripDebit event.signature
    let s := { s with feeReserves := s.feeReserves.deleteWhere fun r => r.id = sig && isOpen now r }
    s.applyFeeEvent event

/-! ## What the calls do -/

theorem ensureToken_reserves (s : TokenTables) (token : String) : (s.ensureToken token).2.feeReserves = s.feeReserves := by
  unfold ensureToken
  split
  · split <;> rfl
  · dsimp only
    split
    · rfl
    · split <;> rfl

/-- Where no open row has the id, `reserve` adds one or refuses. -/
theorem reserveNew_cases {s : TokenTables} {id : String} {lamports : Int} (ttlMs now : Int)
    (hfind : s.feeReserves.find id = none) (hpos : 0 < lamports) : (s.reserveNew id lamports ttlMs now = (.ok false, s)) ∨
      (s.getOpenReserveCount now < maxConcurrentFeeReserves ∧
        lamports ≤ s.getFeeBalanceLamports - s.getReservedLamports now ∧
        ∃ feeReserves, s.feeReserves.insert ⟨id, lamports, now, now + ttlMs⟩ = some feeReserves ∧
          s.reserveNew id lamports ttlMs now = (.ok true, { s with feeReserves })) := by
  unfold reserveNew
  split
  · exact Or.inl rfl
  · next hcount =>
    split
    · exact Or.inl rfl
    · next havailable =>
      obtain ⟨feeReserves, hinsert⟩ := Table.insert_of_find (r := (⟨id, lamports, now, now + ttlMs⟩ : FeeReserve)) hfind
      refine Or.inr ⟨by omega, ?_, feeReserves, hinsert, by rw [insertReserve, hinsert]⟩
      unfold getAvailableLamports at havailable
      omega

/-- The row that `reserve` finds is deleted once it has expired. -/
theorem reserve_cases (s : TokenTables) (id : String) (lamports ttlMs now : Int) :
    (s.reserve id lamports ttlMs now = (.ok false, s)) ∨
    (∃ row, s.feeReserves.find id = some row ∧ isOpen now row = true ∧
      s.reserve id lamports ttlMs now = (.ok true, s)) ∨
    (0 < lamports ∧ id ≠ "" ∧ (∀ row, s.feeReserves.find id = some row → isOpen now row = false) ∧
      (s.deleteReserve id).feeReserves.find id = none ∧
      s.reserve id lamports ttlMs now = (s.deleteReserve id).reserveNew id lamports ttlMs now) ∨
    (0 < lamports ∧ id ≠ "" ∧ s.feeReserves.find id = none ∧
      s.reserve id lamports ttlMs now = s.reserveNew id lamports ttlMs now) := by
  unfold reserve
  by_cases hargs : lamports ≤ 0 ∨ id = ""
  · exact Or.inl (if_pos hargs)
  · rw [if_neg hargs]
    have hpos : 0 < lamports := by omega
    have hid : id ≠ "" := fun h => hargs (Or.inr h)
    cases hfind : s.feeReserves.find id with
    | none => exact Or.inr (Or.inr (Or.inr ⟨hpos, hid, rfl, rfl⟩))
    | some row =>
      dsimp only
      cases hopen : isOpen now row with
      | true => exact Or.inr (Or.inl ⟨row, rfl, hopen, rfl⟩)
      | false =>
        refine Or.inr (Or.inr (Or.inl ⟨hpos, hid, ?_, Table.find_delete_self, rfl⟩))
        intro row' h
        cases h
        exact hopen

/-- What `rebindReserve` does, by what stands under its two ids. -/
theorem rebindReserve_cases (s : TokenTables) (fromId toId : String) (now : Int) :
    ((fromId = "" ∨ toId = "" ∨ fromId = toId ∨ ∀ row, s.feeReserves.find fromId = some row → isOpen now row = false) ∧
      s.rebindReserve fromId toId now = (.ok false, s)) ∨
    (∃ row, s.feeReserves.find fromId = some row ∧ isOpen now row = true ∧ toId ≠ "" ∧ fromId ≠ toId ∧
      ((∃ row', s.feeReserves.find toId = some row' ∧
          s.rebindReserve fromId toId now = (.ok true, s.deleteReserve fromId)) ∨
        (s.feeReserves.find toId = none ∧
          ∃ feeReserves, (s.feeReserves.delete fromId).insert { row with id := toId } = some feeReserves ∧
            s.rebindReserve fromId toId now = (.ok true, { s with feeReserves })))) := by
  unfold rebindReserve
  by_cases hargs : fromId = "" ∨ toId = "" ∨ fromId = toId
  · refine Or.inl ⟨?_, if_pos hargs⟩
    rcases hargs with h | h | h
    · exact Or.inl h
    · exact Or.inr (Or.inl h)
    · exact Or.inr (Or.inr (Or.inl h))
  · rw [if_neg hargs]
    cases hfind : s.feeReserves.find fromId with
    | none => exact Or.inl ⟨Or.inr (Or.inr (Or.inr fun row h => (by cases h))), rfl⟩
    | some row =>
      dsimp only
      cases hopen : isOpen now row with
      | false =>
        refine Or.inl ⟨Or.inr (Or.inr (Or.inr fun row' h => ?_)), rfl⟩
        cases h
        exact hopen
      | true =>
        have hne : fromId ≠ toId := fun h => hargs (Or.inr (Or.inr h))
        have hafter : (s.deleteReserve fromId).feeReserves.find toId = s.feeReserves.find toId :=
          Table.find_delete_ne hne
        refine Or.inr ⟨row, rfl, hopen, fun h => hargs (Or.inr (Or.inl h)), hne, ?_⟩
        simp only [Bool.not_true, Bool.false_eq_true, if_false]
        cases hto : s.feeReserves.find toId with
        | some row' => exact Or.inl ⟨row', rfl, by rw [hafter, hto]⟩
        | none =>
          obtain ⟨feeReserves, hinsert⟩ := Table.insert_of_find (r := { row with id := toId }) (hafter.trans hto)
          refine Or.inr ⟨rfl, feeReserves, hinsert, ?_⟩
          rw [hafter, hto]
          dsimp only
          rw [insertReserve, hinsert]
          rfl

theorem rebindReserve_ok (s : TokenTables) (fromId toId : String) (now : Int) :
    ∃ bound, (s.rebindReserve fromId toId now).1 = .ok bound := by
  rcases rebindReserve_cases s fromId toId now with ⟨-, h⟩ | ⟨_, -, -, -, -, ⟨_, -, h⟩ | ⟨-, _, -, h⟩⟩
  · exact ⟨false, by rw [h]⟩
  · exact ⟨true, by rw [h]⟩
  · exact ⟨true, by rw [h]⟩

/-- An open row that is rebound leaves a row under the second id. -/
theorem rebindReserve_to {s : TokenTables} {toId : String} {now : Int} {row : FeeReserve} (hrow : row ∈ s.feeReserves.rows)
    (hopen : isOpen now row = true) (hfrom : row.id ≠ "") (hto : toId ≠ "") (hne : row.id ≠ toId) :
    ∃ row' ∈ (s.rebindReserve row.id toId now).2.feeReserves.rows, row'.id = toId := by
  rcases rebindReserve_cases s row.id toId now with
    ⟨hwhy, -⟩ | ⟨_, -, -, -, -, ⟨row', hrow', h⟩ | ⟨-, feeReserves, hinsert, h⟩⟩
  · rcases hwhy with h | h | h | h
    · exact absurd h hfrom
    · exact absurd h hto
    · exact absurd h hne
    · rw [h row (Table.find_eq_some.2 ⟨hrow, rfl⟩)] at hopen
      cases hopen
  · obtain ⟨hmem, hid⟩ := Table.find_eq_some.1 hrow'
    refine ⟨row', ?_, hid⟩
    rw [h]
    exact Table.mem_delete.2 ⟨hmem, fun heq => hne (heq.symm.trans hid)⟩
  · rw [h]
    exact ⟨_, (Table.mem_insert hinsert).2 (Or.inr rfl), rfl⟩

/-- The balance after an event. -/
def nextBalance (balance : Int) (e : FeeEvent) : Int :=
  match e.kind with
  | .credit => balance + e.lamports
  | .debit => max 0 (balance - e.lamports)

/-- An event is applied, once, or nothing changes: it moves nothing, or its signature is there. -/
theorem applyFeeEvent_cases (s : TokenTables) (e : FeeEvent) :
    (s.applyFeeEvent e = (.ok false, s) ∧ (0 < e.lamports → ∃ row ∈ s.feeEvents.rows, row.signature = e.signature)) ∨
    (0 < e.lamports ∧ ∃ feeEvents, s.feeEvents.insert e = some feeEvents ∧ s.applyFeeEvent e =
      (.ok true, { s with feeEvents, feeBalance := some (nextBalance s.getFeeBalanceLamports e) })) := by
  unfold applyFeeEvent
  split
  · next hzero => exact Or.inl ⟨rfl, fun hpos => absurd hpos (by omega)⟩
  · next hpos =>
    split
    · next row hfind => exact Or.inl ⟨rfl, fun _ => ⟨row, Table.find_eq_some.1 hfind⟩⟩
    · next hfind =>
      obtain ⟨feeEvents, hinsert⟩ := Table.insert_of_find hfind
      refine Or.inr ⟨by omega, feeEvents, hinsert, ?_⟩
      rw [hinsert]
      cases hkind : e.kind <;> simp [nextBalance, hkind]

/-- The tables that `settleDebit` applies its event to. -/
def settled (s : TokenTables) (e : FeeEvent) (now : Int) : TokenTables :=
  match e.kind with
  | .credit => s
  | .debit =>
    let s := s.expireReserves now
    { s with feeReserves := s.feeReserves.deleteWhere fun r => r.id = stripDebit e.signature && isOpen now r }

theorem settleDebit_eq (s : TokenTables) (e : FeeEvent) (now : Int) :
    s.settleDebit e now = (settled s e now).applyFeeEvent e := by
  unfold settleDebit settled
  cases e.kind <;> rfl

/-- `settleDebit` applies its event, once, or changes neither the events nor the balance. -/
theorem settleDebit_cases (s : TokenTables) (e : FeeEvent) (now : Int) :
    (∃ t, s.settleDebit e now = (.ok false, t) ∧ t.feeEvents = s.feeEvents ∧
      t.getFeeBalanceLamports = s.getFeeBalanceLamports ∧
      (0 < e.lamports → ∃ row ∈ s.feeEvents.rows, row.signature = e.signature)) ∨
    ∃ t, s.settleDebit e now = (.ok true, t) ∧ s.feeEvents.insert e = some t.feeEvents ∧
      t.getFeeBalanceLamports = nextBalance s.getFeeBalanceLamports e := by
  have hevents : (settled s e now).feeEvents = s.feeEvents := by
    unfold settled
    cases e.kind <;> rfl
  have hbalance : (settled s e now).feeBalance = s.feeBalance := by
    unfold settled
    cases e.kind <;> rfl
  rw [settleDebit_eq]
  rcases applyFeeEvent_cases (settled s e now) e with ⟨h, hwhy⟩ | ⟨-, feeEvents, hinsert, h⟩
  · rw [hevents] at hwhy
    exact Or.inl ⟨_, h, hevents, by rw [getFeeBalanceLamports, hbalance, getFeeBalanceLamports], hwhy⟩
  · rw [hevents] at hinsert
    refine Or.inr ⟨_, h, hinsert, ?_⟩
    simp [getFeeBalanceLamports, hbalance]

/-! ## Rows that a call leaves alone -/

theorem mem_expireReserves {s : TokenTables} {now : Int} {row : FeeReserve} (h : isOpen now row = true) :
    row ∈ (s.expireReserves now).feeReserves.rows ↔ row ∈ s.feeReserves.rows := by
  simp [expireReserves, Table.mem_deleteWhere, h]

/-- A debit leaves every open row alone but the one that it names. -/
theorem mem_settleDebit {s : TokenTables} {e : FeeEvent} {now : Int} {row : FeeReserve} (hopen : isOpen now row = true)
    (hid : row.id ≠ stripDebit e.signature) :
    row ∈ (s.settleDebit e now).2.feeReserves.rows ↔ row ∈ s.feeReserves.rows := by
  have hsettled : row ∈ (settled s e now).feeReserves.rows ↔ row ∈ s.feeReserves.rows := by
    unfold settled
    cases e.kind with
    | credit => rfl
    | debit =>
      refine Table.mem_deleteWhere.trans ((and_iff_left ?_).trans (mem_expireReserves hopen))
      simp [hid]
  rw [settleDebit_eq]
  rcases applyFeeEvent_cases (settled s e now) e with ⟨h, -⟩ | ⟨-, _, -, h⟩
  · rw [h]
    exact hsettled
  · rw [h]
    exact hsettled

theorem stripDebit_debit (s : String) : stripDebit (s ++ ":debit") = s := by
  have hlist : (s ++ ":debit").toList = s.toList ++ ":debit".toList := String.toList_append
  have hlen : (s.toList ++ ":debit".toList).length - ":debit".toList.length = s.toList.length := by
    rw [List.length_append]
    omega
  rw [stripDebit, hlist, if_pos (List.suffix_append _ _), hlen, List.take_left, String.ofList_toList]

theorem mem_reserveNew {s : TokenTables} {id : String} {lamports ttlMs now : Int} {row : FeeReserve}
    (hfind : s.feeReserves.find id = none) (hpos : 0 < lamports)
    (h : row.id ≠ id ∨ (s.reserveNew id lamports ttlMs now).1 ≠ .ok true) :
    row ∈ (s.reserveNew id lamports ttlMs now).2.feeReserves.rows ↔ row ∈ s.feeReserves.rows := by
  rcases reserveNew_cases ttlMs now hfind hpos with hno | ⟨-, -, feeReserves, hinsert, hyes⟩
  · rw [hno]
  · rw [hyes] at h ⊢
    have hne : row.id ≠ id := by
      rcases h with h | h
      · exact h
      · exact absurd rfl h
    rw [Table.mem_insert hinsert]
    constructor
    · intro hrow
      rcases hrow with hrow | rfl
      · exact hrow
      · exact absurd rfl hne
    · exact Or.inl

/-- An open row is left alone by `reserve`, unless it is the one that is added. -/
theorem mem_reserve {s : TokenTables} {id : String} {lamports ttlMs now : Int} {row : FeeReserve}
    (hopen : isOpen now row = true) (h : row.id ≠ id ∨ (s.reserve id lamports ttlMs now).1 ≠ .ok true) :
    row ∈ (s.reserve id lamports ttlMs now).2.feeReserves.rows ↔ row ∈ s.feeReserves.rows := by
  rcases reserve_cases s id lamports ttlMs now with
    heq | ⟨row', -, -, heq⟩ | ⟨hpos, -, hclosed, hfind, heq⟩ | ⟨hpos, -, hfind, heq⟩
  · rw [heq]
  · rw [heq]
  · rw [heq] at h ⊢
    rw [mem_reserveNew hfind hpos h]
    refine Table.mem_delete.trans ⟨And.left, fun hrow => ⟨hrow, fun hid => ?_⟩⟩
    have hexpired := hclosed row (Table.find_eq_some.2 ⟨hrow, hid⟩)
    rw [hopen] at hexpired
    cases hexpired
  · rw [heq] at h ⊢
    exact mem_reserveNew hfind hpos h

theorem mem_rebindReserve {s : TokenTables} {fromId toId : String} {now : Int} {row : FeeReserve} (hfrom : row.id ≠ fromId)
    (hto : row.id ≠ toId) : row ∈ (s.rebindReserve fromId toId now).2.feeReserves.rows ↔ row ∈ s.feeReserves.rows := by
  have hdelete : row ∈ (s.feeReserves.delete fromId).rows ↔ row ∈ s.feeReserves.rows :=
    Table.mem_delete.trans (and_iff_left hfrom)
  rcases rebindReserve_cases s fromId toId now with
    ⟨-, heq⟩ | ⟨row', -, -, -, -, ⟨_, -, heq⟩ | ⟨-, feeReserves, hinsert, heq⟩⟩
  · rw [heq]
  · rw [heq]
    exact hdelete
  · rw [heq]
    refine (Table.mem_insert hinsert).trans ((or_iff_left ?_).trans hdelete)
    rintro rfl
    exact hto rfl

/-- After `rebindReserve` no open row has the first id. -/
theorem rebindReserve_from {s : TokenTables} {fromId toId : String} {now : Int} {row : FeeReserve} (hfrom : fromId ≠ "")
    (hto : toId ≠ "") (hne : fromId ≠ toId) (hopen : isOpen now row = true) (hid : row.id = fromId) :
    row ∉ (s.rebindReserve fromId toId now).2.feeReserves.rows := by
  have hgone : row ∉ (s.feeReserves.delete fromId).rows := fun h => (Table.mem_delete.1 h).2 hid
  rcases rebindReserve_cases s fromId toId now with
    ⟨hwhy, heq⟩ | ⟨row', -, -, -, -, ⟨_, -, heq⟩ | ⟨-, feeReserves, hinsert, heq⟩⟩
  · rw [heq]
    intro hrow
    rcases hwhy with h | h | h | h
    · exact hfrom h
    · exact hto h
    · exact hne h
    · rw [h row (Table.find_eq_some.2 ⟨hrow, hid⟩)] at hopen
      cases hopen
  · rw [heq]
    exact hgone
  · rw [heq]
    intro hrow
    rcases (Table.mem_insert hinsert).1 hrow with hrow | rfl
    · exact hgone hrow
    · exact hne hid.symm

end TokenTables

end PhygitalWallet.Signer
