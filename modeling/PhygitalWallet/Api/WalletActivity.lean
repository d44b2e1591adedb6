import Mathlib.Data.Prod.Lex
import PhygitalWallet.Lib.Double
import PhygitalWallet.Lib.JsText
import PhygitalWallet.Lib.Keyset

/-!
# Reading a wallet's activity (`webhooks/wallet-activity-store.ts`, `webhooks/transactions.ts`)

Activity rows are read newest first, page by page; a page's cursor is the block time and the id of its last row.

- `routeLimit`, `readWalletActivity`: one page;
- `decodeCursor_encodeCursor`: a cursor names its row;
- `Follows`: the pages from a cursor to the end, of a table that may grow;
- `activity_pagination`: the limits that page through every table.
-/

namespace PhygitalWallet.Api

open Keyset Double

/-! ## The table -/

/-- An integer that a JavaScript number holds exactly. -/
abbrev SafeInteger := { n : ℤ // n.natAbs < 2 ^ 53 }

structure ActivityDbRow where
  id : SafeInteger
  walletAddress : String
  signature : String
  blockTime : SafeInteger
  kind : String
  title : String
  amountLabel : Option String
  statusLabel : Option String
  mint : Option String
  deltasJson : Option String
  detailJson : Option String
deriving DecidableEq

/-- Rows are inserted with growing ids. -/
structure ActivityTable where
  rows : List ActivityDbRow
  increasing : rows.Pairwise fun a b => a.id < b.id

/-- Inserts put rows behind those that are there. -/
def ActivityTable.Grows (table table' : ActivityTable) : Prop := table.rows <+: table'.rows

/-! ## Cursors -/

/-- Opaque keyset cursor, newest-first. -/
def encodeCursor (row : ActivityDbRow) : String :=
  String.ofList (JsText.integerText row.blockTime.1 ++ ':' :: JsText.integerText row.id.1)

structure Cursor where
  blockTime : ℚ
  id : ℚ
deriving DecidableEq, Repr

def decodeCursor (cursor : Option String) : Option Cursor :=
  match cursor with
  | none => none
  | some text =>
    if text = "" then none
    else match text.toList.splitOn ':' with
    | t :: id :: _ => do
      let blockTime ← JsText.number t
      let rowId ← JsText.number id
      return { blockTime, id := rowId }
    | _ => none

/-! ## One page -/

inductive SqlError
  | datatypeMismatch
deriving DecidableEq, Repr

/-- `LIMIT ?` takes a number that is an integer. -/
def sqlLimit (limit : ℚ) : Except SqlError ℕ := if limit.den = 1 then .ok limit.num.toNat else .error .datatypeMismatch

/-- `block_time < ? OR (block_time = ? AND id < ?)`. -/
def isBefore (after : Cursor) (row : ActivityDbRow) : Bool :=
  (row.blockTime.1 : ℚ) < after.blockTime ∨ ((row.blockTime.1 : ℚ) = after.blockTime ∧ (row.id.1 : ℚ) < after.id)

/-- `ORDER BY block_time DESC, id DESC`. -/
def newestFirst (a b : ActivityDbRow) : Prop :=
  b.blockTime.1 < a.blockTime.1 ∨ (b.blockTime.1 = a.blockTime.1 ∧ b.id.1 ≤ a.id.1)

instance : DecidableRel newestFirst := fun _ _ => inferInstanceAs (Decidable (_ ∨ _))

def selectActivity (table : ActivityTable) (walletAddress : String) (after : Option Cursor) (limit : ℕ) : List ActivityDbRow :=
  let rows := table.rows.filter fun row => row.walletAddress = walletAddress && (after.all fun after => isBefore after row)
  (rows.insertionSort newestFirst).take limit

section Items

variable {J Δ : Type}

structure WalletActivityItem (J Δ : Type) where
  id : String
  walletAddress : String
  kind : String
  title : String
  subtitle : Option String
  amountLabel : Option String
  balanceDeltas : List Δ
  statusLabel : Option String
  timestamp : Option ℤ
  signature : Option String
  mint : Option String
  detail : Option J
  source : String

variable (parse : String → Option J) (asArray : J → Option (List Δ))

/-- Corrupt row — serve the fallback rather than failing the whole page. -/
def parseJson (raw : Option String) : Option J := (raw.filter fun raw => raw ≠ "").bind parse

def toItem (row : ActivityDbRow) : WalletActivityItem J Δ where
  id := row.signature
  walletAddress := row.walletAddress
  kind := row.kind
  title := row.title
  subtitle := none
  amountLabel := row.amountLabel
  balanceDeltas := ((parseJson parse row.deltasJson).bind asArray).getD []
  statusLabel := row.statusLabel
  timestamp := some row.blockTime.1
  signature := some row.signature
  mint := row.mint
  detail := parseJson parse row.detailJson
  source := "local"

structure ActivityPage (J Δ : Type) where
  items : List (WalletActivityItem J Δ)
  nextCursor : Option String

/-- `Math.min(50, Math.max(1, args.limit))`. -/
def clampLimit (limit : ℚ) : ℚ := min 50 (max 1 limit)

/-- Returns one extra row beyond `limit` internally to compute `nextCursor`. -/
def readWalletActivity (table : ActivityTable) (walletAddress : String) (limit : ℚ) (cursor : Option String) :
    Except SqlError (ActivityPage J Δ) := do
  let limit := clampLimit limit
  let after := decodeCursor cursor
  let bound ← sqlLimit (double (limit + 1))
  let rows := selectActivity table walletAddress after bound
  let hasMore := limit < rows.length
  -- `slice` drops the fraction of its bound
  let page := if hasMore then rows.take ⌊limit⌋₊ else rows
  let nextCursor := if hasMore then page.getLast?.map encodeCursor else none
  return { items := page.map (toItem parse asArray), nextCursor }

/-- The page limit of the route: `limitParam` is the query's number where that is finite. -/
def routeLimit (limitParam : Option ℚ) : ℚ :=
  match limitParam with
  | some limit => if 0 < limit then limit else 20
  | none => 20

/-- The pages from a cursor to the end, each with the table that it is read from. -/
inductive Follows (walletAddress : String) (limit : ℚ) : Option String → List ActivityTable → List (WalletActivityItem J Δ) → Prop
  | last {cursor : Option String} {table : ActivityTable} {items : List (WalletActivityItem J Δ)}
      (h : readWalletActivity parse asArray table walletAddress limit cursor = .ok ⟨items, none⟩) :
      Follows walletAddress limit cursor [table] items
  | next {cursor : Option String} {next : String} {table : ActivityTable} {items rest : List (WalletActivityItem J Δ)}
      {tables : List ActivityTable}
      (h : readWalletActivity parse asArray table walletAddress limit cursor = .ok ⟨items, some next⟩)
      (hrest : Follows walletAddress limit (some next) tables rest) :
      Follows walletAddress limit cursor (table :: tables) (items ++ rest)

end Items

/-! ## Keys -/

/-- What the order and the cursors compare. -/
def activityKey (row : ActivityDbRow) : ℚ ×ₗ ℚ := toLex ((row.blockTime.1 : ℚ), (row.id.1 : ℚ))

def Cursor.key (cursor : Cursor) : ℚ ×ₗ ℚ := toLex (cursor.blockTime, cursor.id)

/-- The rows of a wallet. -/
def ActivityTable.walletRows (table : ActivityTable) (walletAddress : String) : List ActivityDbRow :=
  table.rows.filter fun row => row.walletAddress = walletAddress

/-- The wallet's rows, newest first. -/
def ActivityTable.newest (table : ActivityTable) (walletAddress : String) : List ActivityDbRow :=
  (table.walletRows walletAddress).insertionSort newestFirst

theorem newestFirst_iff {a b : ActivityDbRow} : newestFirst a b ↔ activityKey b ≤ activityKey a := by
  rw [newestFirst, activityKey, activityKey, Prod.Lex.toLex_le_toLex]
  simp only [Int.cast_lt, Int.cast_inj, Int.cast_le]

theorem isBefore_iff {after : Cursor} {row : ActivityDbRow} : isBefore after row = true ↔ activityKey row < after.key := by
  rw [isBefore, activityKey, Cursor.key, Prod.Lex.toLex_lt_toLex, decide_eq_true_iff]

theorem activityKey_inj {a b : ActivityDbRow} (h : activityKey a = activityKey b) : a.id = b.id := by
  have hpair := toLex.injective h
  exact Subtype.ext (Int.cast_injective (Prod.mk.inj hpair).2)

instance : Std.Total newestFirst := ⟨fun a b => by
  rw [newestFirst_iff, newestFirst_iff]
  exact le_total _ _⟩

instance : IsTrans ActivityDbRow newestFirst := ⟨fun a b c hab hbc => by
  rw [newestFirst_iff] at hab hbc ⊢
  exact hbc.trans hab⟩

/-- Rows with different ids are sorted without ties. -/
theorem descending_insertionSort {rows : List ActivityDbRow} (h : rows.Pairwise fun a b => a.id < b.id) :
    Descending activityKey (rows.insertionSort newestFirst) := by
  have hne : (rows.insertionSort newestFirst).Pairwise fun a b => a.id ≠ b.id :=
    (List.perm_insertionSort newestFirst rows).symm.pairwise (h.imp fun hlt => hlt.ne) fun hne => hne.symm
  refine ((List.pairwise_insertionSort newestFirst rows).and hne).imp fun ⟨hle, hid⟩ => ?_
  exact lt_of_le_of_ne (newestFirst_iff.1 hle) fun heq => hid (activityKey_inj heq).symm

/-- **A cursor names its row.** -/
theorem decodeCursor_encodeCursor (row : ActivityDbRow) :
    (decodeCursor (some (encodeCursor row))).map Cursor.key = some (activityKey row) := by
  have hnil : encodeCursor row ≠ "" := by
    intro h
    have hlist := congrArg String.toList h
    rw [encodeCursor, String.toList_ofList] at hlist
    exact List.append_ne_nil_of_right_ne_nil _ (List.cons_ne_nil _ _) hlist
  have hcolon : ∀ n, ':' ∉ JsText.integerText n := JsText.not_mem_integerText (by decide) (by decide)
  have hsplit : (encodeCursor row).toList.splitOn ':' = [JsText.integerText row.blockTime.1, JsText.integerText row.id.1] := by
    rw [encodeCursor, String.toList_ofList, List.splitOn_append_cons_self_of_not_mem (hcolon _),
      List.splitOn_eq_singleton (hcolon _)]
  simp only [decodeCursor, if_neg hnil, hsplit, JsText.number_integerText row.blockTime.2,
    JsText.number_integerText row.id.2]
  rfl

/-! ## The pages -/

/-- The key that a cursor stands for. -/
def cursorKey (cursor : Option String) : Option (ℚ ×ₗ ℚ) := (decodeCursor cursor).map Cursor.key

theorem cursorKey_encodeCursor (row : ActivityDbRow) : cursorKey (some (encodeCursor row)) = some (activityKey row) :=
  decodeCursor_encodeCursor row

section Pages

variable {J Δ : Type} {parse : String → Option J} {asArray : J → Option (List Δ)} {walletAddress : String} {limit : ℚ}

theorem clampLimit_bounds (limit : ℚ) : 1 ≤ clampLimit limit ∧ clampLimit limit ≤ 50 :=
  ⟨le_min (by norm_num) (le_max_left _ _), min_le_left _ _⟩

/-- What is selected after a cursor: the wallet's rows past it, newest first. -/
theorem mem_selected {table : ActivityTable} {after : Option Cursor} (r : ActivityDbRow) :
    r ∈ (table.rows.filter fun row => row.walletAddress = walletAddress && (after.all fun after => isBefore after row)).insertionSort
        newestFirst ↔ r ∈ table.walletRows walletAddress ∧ Past activityKey (after.map Cursor.key) r := by
  rw [List.mem_insertionSort, ActivityTable.walletRows, List.mem_filter, List.mem_filter, Bool.and_eq_true, and_assoc]
  refine and_congr_right fun _ => and_congr_right fun _ => ?_
  cases after with
  | none => simp [Past]
  | some after => simp [Past, isBefore_iff]

variable (parse asArray walletAddress) in
/-- **One page**, where the bound of the query is an integer. -/
theorem readWalletActivity_page (table : ActivityTable) (cursor : Option String)
    (hlimit : (double (clampLimit limit + 1)).den = 1) :
    ∃ rows next, readWalletActivity parse asArray table walletAddress limit cursor =
        .ok ⟨rows.map (toItem parse asArray), next⟩ ∧
      Page activityKey (table.walletRows walletAddress) rows (cursorKey cursor) (cursorKey next) ∧
      (next = none ↔ cursorKey next = none) := by
  obtain ⟨hone, hfifty⟩ := clampLimit_bounds limit
  generalize hn : (double (clampLimit limit + 1)).num.toNat = n
  have hfloor : 1 ≤ ⌊clampLimit limit⌋₊ := Nat.le_floor (by simpa using hone)
  -- the rounded sum is at least the page's length and one
  have hbound : ⌊clampLimit limit⌋₊ < n := by
    have hle : ((⌊clampLimit limit⌋₊ + 1 : ℕ) : ℚ) ≤ clampLimit limit + 1 := by
      push_cast
      have := Nat.floor_le (zero_le_one.trans hone)
      linarith
    have hlog : Nat.log2 ⌊clampLimit limit + 1⌋₊ ≤ 52 := by
      have h51 : ⌊clampLimit limit + 1⌋₊ ≤ 51 := by
        refine Nat.floor_le_of_le ?_
        push_cast
        linarith
      exact (Nat.log2_le_self _).trans (h51.trans (by norm_num))
    have hdouble := le_double hlog hle
    rw [← Rat.num_div_den (double (clampLimit limit + 1)), hlimit, Nat.cast_one, div_one] at hdouble
    have hint : ((⌊clampLimit limit⌋₊ + 1 : ℕ) : ℤ) ≤ (double (clampLimit limit + 1)).num := by exact_mod_cast hdouble
    omega
  have hsql : sqlLimit (double (clampLimit limit + 1)) = .ok n := by rw [sqlLimit, if_pos hlimit, hn]
  set rows := selectActivity table walletAddress (decodeCursor cursor) n with hrows
  have hmore : clampLimit limit < (rows.length : ℚ) ↔ ⌊clampLimit limit⌋₊ < rows.length :=
    (Nat.floor_lt (zero_le_one.trans hone)).symm
  have hincreasing : (table.rows.filter fun row => row.walletAddress = walletAddress &&
      ((decodeCursor cursor).all fun after => isBefore after row)).Pairwise fun a b => a.id < b.id :=
    table.increasing.sublist List.filter_sublist
  obtain ⟨hlong, hshort⟩ := page_lookAhead (descending_insertionSort hincreasing)
    (mem_selected) hfloor hbound
  by_cases hcount : ⌊clampLimit limit⌋₊ < rows.length
  · obtain ⟨last, hlast, hpage⟩ := hlong hcount
    have htake : rows.take ⌊clampLimit limit⌋₊ = ((table.rows.filter fun row => row.walletAddress = walletAddress &&
        ((decodeCursor cursor).all fun after => isBefore after row)).insertionSort newestFirst).take ⌊clampLimit limit⌋₊ := by
      rw [hrows, selectActivity, List.take_take, min_eq_left hbound.le]
    refine ⟨rows.take ⌊clampLimit limit⌋₊, some (encodeCursor last), ?_, ?_, ?_⟩
    · rw [readWalletActivity]
      simp only [hsql]
      show Except.ok _ = _
      rw [← hrows, if_pos (hmore.2 hcount), if_pos (hmore.2 hcount), htake, hlast]
      rfl
    · rw [htake, cursorKey_encodeCursor]
      exact hpage
    · rw [cursorKey_encodeCursor]
      simp
  · refine ⟨rows, none, ?_, hshort (not_lt.1 hcount), by simp [cursorKey, decodeCursor]⟩
    rw [readWalletActivity]
    simp only [hsql]
    show Except.ok _ = _
    rw [← hrows, if_neg (mt hmore.1 hcount), if_neg (mt hmore.1 hcount)]

/-! ## Whole readings -/

/-- Following the cursors reads the tables page by page. -/
theorem Follows.reads {cursor : Option String} {tables : List ActivityTable} {items : List (WalletActivityItem J Δ)}
    (hlimit : (double (clampLimit limit + 1)).den = 1) (h : Follows parse asArray walletAddress limit cursor tables items) :
    ∃ rows, items = rows.map (toItem parse asArray) ∧
      Reads activityKey (cursorKey cursor) (tables.map (·.walletRows walletAddress)) rows := by
  induction h with
  | @last cursor table items h =>
    obtain ⟨rows, next, hread, hpage, hnext⟩ := readWalletActivity_page parse asArray walletAddress table cursor hlimit
    rw [hread] at h
    obtain ⟨rfl, rfl⟩ := ActivityPage.mk.inj (Except.ok.inj h)
    rw [hnext.1 rfl] at hpage
    exact ⟨rows, rfl, .last hpage⟩
  | @next cursor next table items rest tables h hrest ih =>
    obtain ⟨rows, next', hread, hpage, hnext⟩ := readWalletActivity_page parse asArray walletAddress table cursor hlimit
    rw [hread] at h
    obtain ⟨rfl, rfl⟩ := ActivityPage.mk.inj (Except.ok.inj h)
    obtain ⟨rows', rfl, hreads⟩ := ih
    obtain ⟨k, hk⟩ : ∃ k, cursorKey (some next) = some k :=
      Option.ne_none_iff_exists'.1 fun hnone => Option.some_ne_none _ (hnext.2 hnone)
    rw [hk] at hpage hreads
    exact ⟨rows ++ rows', (List.map_append ..).symm, .next hpage hreads⟩

variable (parse asArray walletAddress) in
/-- A page of a table, and the rows that it leaves. -/
theorem follows_step (table : ActivityTable) (cursor : Option String) (hlimit : (double (clampLimit limit + 1)).den = 1) :
    (∃ items, readWalletActivity parse asArray table walletAddress limit cursor = .ok ⟨items, none⟩) ∨
    ∃ items next, readWalletActivity parse asArray table walletAddress limit cursor = .ok ⟨items, some next⟩ ∧
      ((table.walletRows walletAddress).filter (Past activityKey (cursorKey (some next)) ·)).length <
        ((table.walletRows walletAddress).filter (Past activityKey (cursorKey cursor) ·)).length := by
  obtain ⟨rows, next, hread, hpage, hnext⟩ := readWalletActivity_page parse asArray walletAddress table cursor hlimit
  cases next with
  | none => exact Or.inl ⟨_, hread⟩
  | some next =>
    obtain ⟨k, hk⟩ : ∃ k, cursorKey (some next) = some k :=
      Option.ne_none_iff_exists'.1 fun hnone => Option.some_ne_none _ (hnext.2 hnone)
    rw [hk] at hpage
    refine Or.inr ⟨_, next, hread, ?_⟩
    rw [hk]
    exact hpage.shrinks

variable (parse asArray walletAddress) in
/-- A table that stays the same is read to its end. -/
theorem follows_static (table : ActivityTable) (hlimit : (double (clampLimit limit + 1)).den = 1) (left : ℕ) :
    ∀ cursor, ((table.walletRows walletAddress).filter (Past activityKey (cursorKey cursor) ·)).length = left →
      ∃ n items, Follows parse asArray walletAddress limit cursor (List.replicate n table) items := by
  induction left using Nat.strong_induction_on with
  | _ left ih =>
    rintro cursor rfl
    rcases follows_step parse asArray walletAddress table cursor hlimit with
      ⟨items, h⟩ | ⟨items, next, h, hlt⟩
    · exact ⟨1, items, .last h⟩
    · obtain ⟨n, rest, hrest⟩ := ih _ hlt (some next) rfl
      exact ⟨n + 1, items ++ rest, .next h hrest⟩

/-- A table that stops growing after some pages is read to its end. -/
theorem follows_settles (hlimit : (double (clampLimit limit + 1)).den = 1) {tables : ℕ → ActivityTable} {settled : ℕ}
    (hsettled : ∀ n, settled ≤ n → tables n = tables settled) (wait : ℕ) :
    ∀ k, settled ≤ k + wait → ∀ cursor, ∃ n items,
      Follows parse asArray walletAddress limit cursor ((List.range' k n).map tables) items := by
  induction wait with
  | zero =>
    intro k hk cursor
    obtain ⟨n, items, h⟩ := follows_static parse asArray walletAddress (tables settled) hlimit _ cursor rfl
    have hsame : (List.range' k n).map tables = List.replicate n (tables settled) := by
      refine List.eq_replicate_iff.2 ⟨by simp, fun t ht => ?_⟩
      obtain ⟨i, hi, rfl⟩ := List.mem_map.1 ht
      apply hsettled
      have := (List.mem_range'_1.1 hi).1
      omega
    exact ⟨n, items, hsame ▸ h⟩
  | succ wait ih =>
    intro k hk cursor
    rcases follows_step parse asArray walletAddress (tables k) cursor hlimit with
      ⟨items, h⟩ | ⟨items, next, h, -⟩
    · exact ⟨1, items, .last h⟩
    · obtain ⟨n, rest, hrest⟩ := ih (k + 1) (by omega) (some next)
      exact ⟨n + 1, items ++ rest, .next h hrest⟩

end Pages

section Paginates

variable {J Δ : Type} (parse : String → Option J) (asArray : J → Option (List Δ))

/-- What a page limit is to do, on every table and for every wallet. -/
structure Paginates (limit : ℚ) : Prop where
  /-- The reading ends where the inserts do. -/
  terminates : ∀ (walletAddress : String) (tables : ℕ → ActivityTable),
    (∃ settled, ∀ n, settled ≤ n → tables n = tables settled) →
    ∃ n items, Follows parse asArray walletAddress limit none ((List.range' 0 n).map tables) items
  /-- The rows come in descending order, each once. -/
  static : ∀ (walletAddress : String) (table : ActivityTable) (n : ℕ) (items : List (WalletActivityItem J Δ)),
    Follows parse asArray walletAddress limit none (List.replicate n table) items →
    items = (table.newest walletAddress).map (toItem parse asArray)
  /-- No insert between the pages hides or repeats a row that was there at the start. -/
  inserts : ∀ (walletAddress : String) (table : ActivityTable) (tables : List ActivityTable)
    (items : List (WalletActivityItem J Δ)), (∀ table' ∈ tables, table.Grows table') →
    Follows parse asArray walletAddress limit none (table :: tables) items →
    ∃ rows, items = rows.map (toItem parse asArray) ∧ Descending activityKey rows ∧
      ∀ row ∈ table.walletRows walletAddress, rows.count row = 1

variable {parse asArray} {limit : ℚ}

theorem paginates (hlimit : (double (clampLimit limit + 1)).den = 1) : Paginates parse asArray limit where
  terminates walletAddress tables hsettled := by
    obtain ⟨settled, hsettled⟩ := hsettled
    exact follows_settles hlimit hsettled settled 0 (by omega) none
  static walletAddress table n items h := by
    obtain ⟨rows, rfl, hreads⟩ := h.reads hlimit
    have hsorted : Descending activityKey (table.newest walletAddress) :=
      descending_insertionSort (table.increasing.sublist List.filter_sublist)
    have hsame : ∀ t ∈ (List.replicate n table).map (·.walletRows walletAddress), t = table.walletRows walletAddress := by
      intro t ht
      obtain ⟨t', ht', rfl⟩ := List.mem_map.1 ht
      rw [List.eq_of_mem_replicate ht']
    have hmem : ∀ r, r ∈ table.newest walletAddress ↔ r ∈ table.walletRows walletAddress := by
      intro r
      rw [ActivityTable.newest, List.mem_insertionSort]
    rw [hreads.eq_of_static hsame hsorted hmem]
  inserts walletAddress table tables items hgrows h := by
    obtain ⟨rows, rfl, hreads⟩ := h.reads hlimit
    refine ⟨rows, rfl, hreads.descending, fun row hrow => ?_⟩
    refine List.count_eq_one_of_mem hreads.descending.nodup (hreads.complete row (fun t ht => ?_) nofun)
    obtain ⟨table', ht', rfl⟩ := List.mem_map.1 ht
    rcases List.mem_cons.1 ht' with rfl | ht'
    · exact hrow
    · exact ((hgrows table' ht').sublist.filter _).subset hrow

/-- A bound that is no integer fails the query. -/
theorem readWalletActivity_fraction {table : ActivityTable} {walletAddress : String} {cursor : Option String}
    (hlimit : (double (clampLimit limit + 1)).den ≠ 1) :
    readWalletActivity parse asArray table walletAddress limit cursor = .error .datatypeMismatch := by
  have hsql : sqlLimit (double (clampLimit limit + 1)) = .error .datatypeMismatch := by rw [sqlLimit, if_neg hlimit]
  rw [readWalletActivity]
  simp only [hsql]
  rfl

theorem not_paginates (hlimit : (double (clampLimit limit + 1)).den ≠ 1) : ¬ Paginates parse asArray limit := by
  intro h
  obtain ⟨n, items, hfollows⟩ := h.terminates "" (fun _ => ⟨[], .nil⟩) ⟨0, fun _ _ => rfl⟩
  generalize (List.range' 0 n).map _ = tables at hfollows
  cases hfollows with
  | last hread =>
    rw [readWalletActivity_fraction hlimit] at hread
    cases hread
  | next hread _ =>
    rw [readWalletActivity_fraction hlimit] at hread
    cases hread

/-- **Activity pagination**: a limit pages through every table exactly where the query's bound is an integer. -/
theorem activity_pagination (limitParam : Option ℚ) :
    Paginates parse asArray (routeLimit limitParam) ↔ (double (clampLimit (routeLimit limitParam) + 1)).den = 1 :=
  ⟨fun h => not_not.1 fun hden => not_paginates hden h, paginates⟩

end Paginates

/-- `?limit=2.5` is admitted, and its first page fails. -/
theorem activity_pagination_fraction :
    routeLimit (some (5 / 2)) = 5 / 2 ∧
    readWalletActivity (fun _ => (none : Option Unit)) (fun _ => (none : Option (List Unit))) ⟨[], .nil⟩ "wallet" (5 / 2) none =
      .error .datatypeMismatch ∧
    ¬ Paginates (fun _ => (none : Option Unit)) (fun _ => (none : Option (List Unit))) (5 / 2) := by
  have hden : (double (clampLimit (5 / 2) + 1)).den ≠ 1 := by decide +kernel
  exact ⟨by decide +kernel, readWalletActivity_fraction hden, not_paginates hden⟩

end PhygitalWallet.Api
