import PhygitalWallet.Api.ActivityRows

/-!
# Which activity is recorded (`webhooks/wallet-activity.ts`)

What an address gained or lost is read off the balances of the static and the loaded keys, as `fees/subscribe-fee-tx.ts`
resolves them; the rows come from the static keys and the owners of token balances.

- `lamportsChange`, `tokenChange`: what an address gained or lost, as exact numbers;
- `WalletActivityDelta.meaning`, `Changes`: what a reader of the deltas finds, and the deltas that say the changes;
- `EveryWalletRecorded`: one row, with these changes, for each affected address, and no other row;
- `changes_balanceDeltas`, `mem_affectedWallets`: the deltas of a row, and who is looked at;
- `activity_rows`: the transactions whose rows are so.
-/

namespace PhygitalWallet.Api

open ListLoop OrderedMap

/-! ## What the wallets gained or lost -/

/-- The accounts that the balances belong to: static keys, then loaded addresses (writable, then readonly). -/
def balanceKeys (confirmed : ConfirmedTransaction) : List (Option String) :=
  let loaded := confirmed.txMeta.bind FullTxMeta.loadedAddresses
  confirmed.accountKeys.map (fun key => accountPubkey (some key)) ++
    (loaded.elim [] LoadedAddresses.writable).map some ++ (loaded.elim [] LoadedAddresses.readonly).map some

/-- The balances before and after, where the address stands in the list and both are given. -/
def balancesOf (confirmed : ConfirmedTransaction) (address : String) : Option (ℕ × ℕ) := do
  let place ← (balanceKeys confirmed).findIdx? fun key => key = some address
  let pre ← confirmed.preBalances[place]?
  let post ← confirmed.postBalances[place]?
  return (pre, post)

/-- The lamports that an address gained, with the fee added back where it paid it. -/
def lamportsChange (confirmed : ConfirmedTransaction) (address : String) : ℤ :=
  match balancesOf confirmed address with
  | some (pre, post) => post - pre + if confirmed.feePayer = some address then (confirmed.fee : ℤ) else 0
  | none => 0

/-- The ways to write an amount, as far as they can be read. -/
def readings (amount : UiTokenAmount) : List ℚ :=
  amount.uiAmount.toList ++ ((truthy amount.uiAmountString).bind fun text => JsText.number text.toList).toList ++
    (do
      let text ← truthy amount.amount
      let decimals ← amount.decimals
      let units ← JsText.number text.toList
      return units / 10 ^ decimals).toList

/-- The amount of an entry: the first that can be read. -/
def entryAmount (entry : TokenBalanceEntry) : ℚ := (entry.uiTokenAmount.elim [] readings).headD 0

def tokenTotal (entries : Option (List TokenBalanceEntry)) (owner mint : String) : ℚ :=
  (((entries.getD []).filter fun entry => entry.owner = some owner ∧ entry.mint = some mint).map entryAmount).sum

def tokenChange (confirmed : ConfirmedTransaction) (owner mint : String) : ℚ :=
  tokenTotal confirmed.postTokens owner mint - tokenTotal confirmed.preTokens owner mint

/-- What a delta says: its mint, whether the amount came in, and the value of the text. -/
def WalletActivityDelta.meaning (delta : WalletActivityDelta) : String × Bool × Option ℚ :=
  (delta.mint, decide (delta.direction = .incoming), JsText.literal delta.amountUi.toList)

/-- What a delta has to say of a change. -/
def exactly (mint : String) (change : ℚ) : String × Bool × Option ℚ := (mint, decide (0 < change), some |change|)

/-- One delta for each mint whose total changed, and one for the lamports if these did; each says the exact change. -/
def Changes (confirmed : ConfirmedTransaction) (address : String) (deltas : List WalletActivityDelta) : Prop :=
  ∃ mints : List String, mints.Nodup ∧ (∀ m, m ∈ mints ↔ m ≠ "" ∧ tokenChange confirmed address m ≠ 0) ∧
    deltas.map WalletActivityDelta.meaning = mints.map (fun m => exactly m (tokenChange confirmed address m)) ++
      if lamportsChange confirmed address = 0 then []
      else [exactly NATIVE_SOL_MINT ((lamportsChange confirmed address : ℚ) / 10 ^ 9)]

/-- An address whose lamports or tokens changed, or that paid for a failed transaction. -/
def Affected (confirmed : ConfirmedTransaction) (address : String) : Prop :=
  address ≠ "" ∧ (lamportsChange confirmed address ≠ 0 ∨ (∃ m ≠ "", tokenChange confirmed address m ≠ 0) ∨
    confirmed.failed = true ∧ confirmed.feePayer = some address)

/-- The rows are one for each affected address, with its changes. -/
structure EveryWalletRecorded (confirmed : ConfirmedTransaction) (rows : List WalletActivityRow) : Prop where
  recorded : ∀ address, Affected confirmed address → ∃ row,
    rows.filter (fun row => row.walletAddress = address) = [row] ∧ Changes confirmed address row.balanceDeltas
  others : ∀ address, ¬Affected confirmed address → rows.filter (fun row => row.walletAddress = address) = []

/-- The address owns a token balance, or the balance of one of its static keys is another one afterwards. -/
def Touched (confirmed : ConfirmedTransaction) (address : String) : Prop :=
  (∃ entry ∈ confirmed.preTokens.getD [] ++ confirmed.postTokens.getD [], entry.owner = some address) ∨
    ∃ i < confirmed.accountKeys.length, accountPubkey confirmed.accountKeys[i]? = some address ∧
      confirmed.preBalances[i]? ≠ confirmed.postBalances[i]?

/-- Six decimals hold the number. -/
def SixDecimals (change : ℚ) : Prop := ∃ n : ℤ, change * 10 ^ 6 = n

/-- No lamports moved at an address that only a lookup table has; a fee payer with a row to come is touched: its balance
is not the same because it got back what it paid; and six decimals hold every change. -/
structure InSight (confirmed : ConfirmedTransaction) : Prop where
  loaded : ∀ address ≠ "", (∀ key ∈ confirmed.accountKeys, accountPubkey (some key) ≠ some address) →
    lamportsChange confirmed address = 0
  payer : ∀ address ≠ "", confirmed.feePayer = some address →
    (lamportsChange confirmed address ≠ 0 ∨ confirmed.failed = true) → Touched confirmed address
  decimals : ∀ address ≠ "", (∀ m ≠ "", SixDecimals (tokenChange confirmed address m)) ∧
    SixDecimals ((lamportsChange confirmed address : ℚ) / 10 ^ 9)

/-! ## The wallets that are looked at -/

section Rows

variable {confirmed : ConfirmedTransaction} {address : String}

theorem truthy_eq_some {text : Option String} {word : String} :
    truthy text = some word ↔ text = some word ∧ word ≠ "" := by
  rw [truthy, Option.filter_eq_some_iff]
  simp

theorem nodup_affectedWallets : (affectedWallets confirmed).Nodup := nodup_pushAll List.nodup_nil _

theorem mem_affectedWallets : address ∈ affectedWallets confirmed ↔ address ≠ "" ∧ Touched confirmed address := by
  unfold affectedWallets Touched
  simp only [mem_pushAll, List.not_mem_nil, false_or, List.mem_append, List.mem_filterMap, List.mem_range,
    truthy_eq_some]
  constructor
  · rintro ((⟨entry, hentry, howner, hne⟩ | ⟨entry, hentry, howner, hne⟩) | ⟨i, hi, hkey⟩)
    · exact ⟨hne, Or.inl ⟨entry, Or.inl hentry, howner⟩⟩
    · exact ⟨hne, Or.inl ⟨entry, Or.inr hentry, howner⟩⟩
    · split at hkey
      · next hchanged =>
        obtain ⟨hkey, hne⟩ := truthy_eq_some.1 hkey
        exact ⟨hne, Or.inr ⟨i, hi, hkey, hchanged⟩⟩
      · cases hkey
  · rintro ⟨hne, ⟨entry, hentry | hentry, howner⟩ | ⟨i, hi, hkey, hchanged⟩⟩
    · exact Or.inl (Or.inl ⟨entry, hentry, howner, hne⟩)
    · exact Or.inl (Or.inr ⟨entry, hentry, howner, hne⟩)
    · exact Or.inr ⟨i, hi, by rw [if_pos hchanged]; exact truthy_eq_some.2 ⟨hkey, hne⟩⟩

/-! ## The text of a change -/

/-- The text of an amount is its value, rounded to six decimals. -/
theorem literal_formatUiAmount (change : ℚ) : JsText.literal (formatUiAmount change).toList =
    some ((⌊|change| * 10 ^ 6 + 1 / 2⌋₊ : ℚ) / 10 ^ 6) := by
  rw [formatUiAmount, String.toList_ofList, JsText.literal_fixedText]

theorem round_eq_iff (change : ℚ) : (⌊|change| * 10 ^ 6 + 1 / 2⌋₊ : ℚ) / 10 ^ 6 = |change| ↔ SixDecimals change := by
  rw [div_eq_iff (by norm_num)]
  constructor
  · intro h
    rcases abs_choice change with habs | habs
    · exact ⟨⌊|change| * 10 ^ 6 + 1 / 2⌋₊, by rw [Int.cast_natCast, h, habs]⟩
    · refine ⟨-(⌊|change| * 10 ^ 6 + 1 / 2⌋₊ : ℤ), ?_⟩
      rw [Int.cast_neg, Int.cast_natCast, h, habs, neg_mul, neg_neg]
  · rintro ⟨n, hn⟩
    have hwhole : |change| * 10 ^ 6 = (n.natAbs : ℚ) := by
      rw [Nat.cast_natAbs, Int.cast_abs, ← hn, abs_mul, abs_of_nonneg (a := (10 : ℚ) ^ 6) (by norm_num)]
    rw [hwhole, Nat.cast_inj, Nat.floor_eq_iff (by positivity)]
    constructor <;> linarith

/-- A delta says the change exactly when six decimals hold it. -/
theorem meaning_deltaOf (mint : String) (change : ℚ) :
    (deltaOf mint change).meaning = exactly mint change ↔ SixDecimals change := by
  have hdirection : decide ((deltaOf mint change).direction = .incoming) = decide (0 < change) := by
    unfold deltaOf
    by_cases h : 0 < change <;> simp [h]
  rw [WalletActivityDelta.meaning, exactly, hdirection, ← round_eq_iff]
  simp only [deltaOf, literal_formatUiAmount, Prod.mk.injEq, true_and, Option.some.injEq]

theorem sixDecimals_zero : SixDecimals 0 := ⟨0, by simp⟩

/-- The first reading is the amount. -/
theorem uiAmountFromToken_eq (entry : TokenBalanceEntry) : uiAmountFromToken entry = entryAmount entry := by
  unfold uiAmountFromToken entryAmount
  cases entry.uiTokenAmount with
  | none => rfl
  | some amount =>
    simp only [Option.bind_some, Option.elim_some, readings]
    cases amount.uiAmount with
    | some ui => rfl
    | none =>
      cases (truthy amount.uiAmountString).bind fun text => JsText.number text.toList with
      | some n => rfl
      | none =>
        cases truthy amount.amount with
        | none => rfl
        | some raw =>
          cases amount.decimals with
          | none => rfl
          | some decimals => cases h : JsText.number raw.toList <;> simp [h]

/-! ## Token deltas -/

theorem foldl_pushDelta (change : String → ℚ) (mints : List String) (deltas : List WalletActivityDelta) :
    mints.foldl (fun deltas mint => pushDelta deltas mint (change mint)) deltas =
      deltas ++ (mints.filter fun mint => change mint ≠ 0).map fun mint => deltaOf mint (change mint) := by
  induction mints generalizing deltas with
  | nil => simp
  | cons mint mints ih =>
    rw [List.foldl_cons, ih, pushDelta]
    by_cases hzero : change mint = 0
    · simp [hzero]
    · simp [hzero]

theorem ownedAmount_eq_some {entry : TokenBalanceEntry} {mint : String} {amount : ℚ} :
    ownedAmount address entry = some (mint, amount) ↔
      (entry.owner = some address ∧ entry.mint = some mint) ∧ mint ≠ "" ∧ uiAmountFromToken entry = amount := by
  unfold ownedAmount
  by_cases howner : entry.owner = some address
  · rw [if_neg (not_not.2 howner), Option.map_eq_some_iff]
    simp only [truthy_eq_some, Prod.mk.injEq]
    constructor
    · rintro ⟨_, ⟨hmint, hne⟩, rfl, hamount⟩
      exact ⟨⟨howner, hmint⟩, hne, hamount⟩
    · rintro ⟨⟨-, hmint⟩, hne, hamount⟩
      exact ⟨mint, ⟨hmint, hne⟩, rfl, hamount⟩
  · rw [if_pos howner]
    simp [howner]

/-- The sum that the map holds for a mint is the owner's total. -/
theorem get_tokenAmountsByMint {entries : Option (List TokenBalanceEntry)} {mint : String} (hmint : mint ≠ "") :
    (get (tokenAmountsByMint entries address) mint).getD 0 = tokenTotal entries address mint := by
  rw [tokenAmountsByMint, get_totals, tokenTotal]
  induction entries.getD [] with
  | nil => rfl
  | cons entry entries ih =>
    by_cases howned : entry.owner = some address ∧ entry.mint = some mint
    · have hsome : ownedAmount address entry = some (mint, entryAmount entry) :=
        ownedAmount_eq_some.2 ⟨howned, hmint, uiAmountFromToken_eq entry⟩
      rw [List.filterMap_cons_some hsome, List.filter_cons, if_pos (decide_eq_true howned), List.map_cons,
        List.sum_cons, ← ih]
      simp [sumOf]
    · rw [List.filter_cons, if_neg (by simpa using howned), ← ih]
      cases hentry : ownedAmount address entry with
      | none => rw [List.filterMap_cons_none hentry]
      | some item =>
        obtain ⟨mint', amount⟩ := item
        obtain ⟨⟨howner, hmint'⟩, -⟩ := ownedAmount_eq_some.1 hentry
        have hne : mint' ≠ mint := by
          rintro rfl
          exact howned ⟨howner, hmint'⟩
        rw [List.filterMap_cons_some hentry]
        simp [sumOf, hne]

theorem mem_keys_tokenAmountsByMint {entries : Option (List TokenBalanceEntry)} {mint : String}
    (h : mint ∈ keys (tokenAmountsByMint entries address)) :
    mint ≠ "" ∧ ∃ entry ∈ entries.getD [], entry.owner = some address := by
  rw [tokenAmountsByMint, mem_keys_totals, List.mem_map] at h
  obtain ⟨⟨_, amount⟩, hitem, rfl⟩ := h
  obtain ⟨entry, hentry, hsome⟩ := List.mem_filterMap.1 hitem
  obtain ⟨⟨howner, -⟩, hne, -⟩ := ownedAmount_eq_some.1 hsome
  exact ⟨hne, entry, hentry, howner⟩

theorem get_of_not_mem_keys {entries : Option (List TokenBalanceEntry)} {mint : String}
    (h : mint ∉ keys (tokenAmountsByMint entries address)) :
    (get (tokenAmountsByMint entries address) mint).getD 0 = 0 := by
  rw [tokenAmountsByMint, mem_keys_totals] at h
  rw [tokenAmountsByMint, get_totals, sumOf_eq_zero h]

theorem mintChange_eq {mint : String} (hmint : mint ≠ "") :
    mintChange address confirmed mint = tokenChange confirmed address mint := by
  rw [mintChange, get_tokenAmountsByMint hmint, get_tokenAmountsByMint hmint, tokenChange]

/-- The deltas of the tokens are one for each mint whose total changed. -/
theorem exists_tokenDeltas (address : String) (confirmed : ConfirmedTransaction) :
    ∃ mints : List String, mints.Nodup ∧ (∀ m, m ∈ mints ↔ m ≠ "" ∧ tokenChange confirmed address m ≠ 0) ∧
      tokenDeltas address confirmed = mints.map fun m => deltaOf m (tokenChange confirmed address m) := by
  rw [tokenDeltas, foldl_pushDelta, List.nil_append]
  generalize hmints : pushAll [] (keys (tokenAmountsByMint confirmed.preTokens address) ++
    keys (tokenAmountsByMint confirmed.postTokens address)) = mints
  have hkeys : ∀ m, m ∈ mints ↔ m ∈ keys (tokenAmountsByMint confirmed.preTokens address) ∨
      m ∈ keys (tokenAmountsByMint confirmed.postTokens address) := by
    intro m
    rw [← hmints, mem_pushAll, List.mem_append]
    simp
  have hne : ∀ m ∈ mints, m ≠ "" := by
    intro m hm
    rcases (hkeys m).1 hm with hkey | hkey
    · exact (mem_keys_tokenAmountsByMint hkey).1
    · exact (mem_keys_tokenAmountsByMint hkey).1
  refine ⟨mints.filter fun m => mintChange address confirmed m ≠ 0, ?_, ?_, ?_⟩
  · exact (hmints ▸ nodup_pushAll List.nodup_nil _).filter _
  · intro m
    rw [List.mem_filter, decide_eq_true_eq]
    constructor
    · rintro ⟨hm, hchange⟩
      exact ⟨hne m hm, mintChange_eq (hne m hm) ▸ hchange⟩
    · rintro ⟨hm, hchange⟩
      rw [← mintChange_eq hm] at hchange
      refine ⟨?_, hchange⟩
      by_contra hmem
      rw [hkeys, not_or] at hmem
      rw [mintChange, get_of_not_mem_keys hmem.1, get_of_not_mem_keys hmem.2] at hchange
      exact hchange (sub_self 0)
  · refine List.map_congr_left fun m hm => ?_
    rw [mintChange_eq (hne m (List.mem_filter.1 hm).1)]

/-! ## The lamports -/

/-- An address that is a static key has the balances of its static position. -/
theorem findIdx?_balanceKeys (h : ∃ key ∈ confirmed.accountKeys, accountPubkey (some key) = some address) :
    (balanceKeys confirmed).findIdx? (fun key => key = some address) =
      confirmed.accountKeys.findIdx? fun k => accountPubkey (some k) = some address := by
  have hmap : (confirmed.accountKeys.map fun key => accountPubkey (some key)).findIdx? (fun key => key = some address) =
      confirmed.accountKeys.findIdx? fun k => accountPubkey (some k) = some address := List.findIdx?_map
  obtain ⟨key, hkey, hpubkey⟩ := h
  obtain ⟨i, hi⟩ : ∃ i, confirmed.accountKeys.findIdx? (fun k => accountPubkey (some k) = some address) = some i := by
    rw [← Option.isSome_iff_exists, List.findIdx?_isSome, List.any_eq_true]
    exact ⟨key, hkey, decide_eq_true hpubkey⟩
  simp only [balanceKeys, List.append_assoc]
  rw [List.findIdx?_append, hmap, hi]
  rfl

/-- The lamports of a static key are those that are read at its position. -/
theorem lamportsChange_static (h : ∃ key ∈ confirmed.accountKeys, accountPubkey (some key) = some address) :
    lamportsChange confirmed address =
      match confirmed.accountKeys.findIdx? fun k => accountPubkey (some k) = some address with
      | some i => lamportsAt confirmed address i
      | none => 0 := by
  rw [lamportsChange, balancesOf, findIdx?_balanceKeys h]
  cases confirmed.accountKeys.findIdx? fun k => accountPubkey (some k) = some address with
  | none => rfl
  | some i =>
    unfold lamportsAt
    cases hpre : confirmed.preBalances[i]? with
    | none => simp [hpre]
    | some pre =>
      cases hpost : confirmed.postBalances[i]? with
      | none => simp [hpre, hpost]
      | some post => by_cases hpayer : confirmed.feePayer = some address <;> simp [hpre, hpost, hpayer]

theorem pushDelta_native (deltas : List WalletActivityDelta) (n : ℤ) :
    pushDelta deltas NATIVE_SOL_MINT ((n : ℚ) / 10 ^ 9) =
      deltas ++ if n = 0 then [] else [deltaOf NATIVE_SOL_MINT ((n : ℚ) / 10 ^ 9)] := by
  unfold pushDelta
  by_cases hn : n = 0
  · simp [hn]
  · simp [hn]

theorem balanceDeltas_static (h : ∃ key ∈ confirmed.accountKeys, accountPubkey (some key) = some address) :
    balanceDeltas address confirmed = tokenDeltas address confirmed ++
      if lamportsChange confirmed address = 0 then []
      else [deltaOf NATIVE_SOL_MINT ((lamportsChange confirmed address : ℚ) / 10 ^ 9)] := by
  rw [balanceDeltas, lamportsChange_static h]
  cases confirmed.accountKeys.findIdx? fun k => accountPubkey (some k) = some address with
  | none => simp
  | some i => exact pushDelta_native _ _

theorem balanceDeltas_loaded (h : ∀ key ∈ confirmed.accountKeys, accountPubkey (some key) ≠ some address) :
    balanceDeltas address confirmed = tokenDeltas address confirmed := by
  have hnone : confirmed.accountKeys.findIdx? (fun k => accountPubkey (some k) = some address) = none := by
    rw [List.findIdx?_eq_none_iff]
    exact fun key hkey => decide_eq_false (h key hkey)
  rw [balanceDeltas, hnone]

/-- The deltas of mints say their changes exactly when six decimals hold them. -/
theorem map_meaning_iff {mints : List String} {change : String → ℚ} :
    (mints.map fun m => deltaOf m (change m)).map WalletActivityDelta.meaning = mints.map (fun m => exactly m (change m)) ↔
      ∀ m ∈ mints, SixDecimals (change m) := by
  rw [List.map_map, List.map_inj_left]
  exact forall₂_congr fun m _ => meaning_deltaOf m (change m)

/-- The deltas of the tokens are followed by what says the lamports. -/
theorem changes_append {lamportDeltas : List WalletActivityDelta} :
    Changes confirmed address (tokenDeltas address confirmed ++ lamportDeltas) ↔
      (∀ m ≠ "", SixDecimals (tokenChange confirmed address m)) ∧
      lamportDeltas.map WalletActivityDelta.meaning = if lamportsChange confirmed address = 0 then []
        else [exactly NATIVE_SOL_MINT ((lamportsChange confirmed address : ℚ) / 10 ^ 9)] := by
  obtain ⟨mints, hnodup, hmem, htokens⟩ := exists_tokenDeltas address confirmed
  have hdecimals : (∀ m ≠ "", SixDecimals (tokenChange confirmed address m)) ↔
      ∀ m ∈ mints, SixDecimals (tokenChange confirmed address m) := by
    refine ⟨fun h m hm => h m ((hmem m).1 hm).1, fun h m hne => ?_⟩
    by_cases hzero : tokenChange confirmed address m = 0
    · rw [hzero]
      exact sixDecimals_zero
    · exact h m ((hmem m).2 ⟨hne, hzero⟩)
  rw [htokens, hdecimals, ← map_meaning_iff]
  constructor
  · rintro ⟨mints', hnodup', hmem', heq⟩
    have hperm : mints.Perm mints' :=
      (List.perm_ext_iff_of_nodup hnodup hnodup').2 fun m => (hmem m).trans (hmem' m).symm
    rw [List.map_append] at heq
    obtain ⟨hleft, hright⟩ := List.append_inj heq (by simp [hperm.length_eq])
    -- the deltas name the mints in their order
    obtain rfl : mints = mints' := by
      have hnames := congrArg (List.map Prod.fst) hleft
      simpa [Function.comp_def, WalletActivityDelta.meaning, deltaOf, exactly] using hnames
    exact ⟨hleft, hright⟩
  · rintro ⟨hleft, hright⟩
    exact ⟨mints, hnodup, hmem, by rw [List.map_append, hleft, hright]⟩

/-- **The deltas are the changes**, where six decimals hold these, but for the lamports of an address from a lookup
table. -/
theorem changes_balanceDeltas : Changes confirmed address (balanceDeltas address confirmed) ↔
    ((∀ m ≠ "", SixDecimals (tokenChange confirmed address m)) ∧
      SixDecimals ((lamportsChange confirmed address : ℚ) / 10 ^ 9)) ∧
    ((∀ key ∈ confirmed.accountKeys, accountPubkey (some key) ≠ some address) →
      lamportsChange confirmed address = 0) := by
  rw [and_assoc]
  by_cases hstatic : ∃ key ∈ confirmed.accountKeys, accountPubkey (some key) = some address
  · have hnot : ¬∀ key ∈ confirmed.accountKeys, accountPubkey (some key) ≠ some address := by
      push Not
      exact hstatic
    rw [balanceDeltas_static hstatic, changes_append]
    refine and_congr_right fun _ => ?_
    rw [and_iff_left fun h => absurd h hnot]
    by_cases hzero : lamportsChange confirmed address = 0
    · simp [hzero, sixDecimals_zero]
    · simp [hzero, meaning_deltaOf]
  · have hloaded : ∀ key ∈ confirmed.accountKeys, accountPubkey (some key) ≠ some address :=
      fun key hkey hpubkey => hstatic ⟨key, hkey, hpubkey⟩
    rw [balanceDeltas_loaded hloaded, ← List.append_nil (tokenDeltas address confirmed), changes_append]
    refine and_congr_right fun _ => ?_
    by_cases hzero : lamportsChange confirmed address = 0
    · simp [hzero, sixDecimals_zero]
    · rw [if_neg hzero]
      exact iff_of_false nofun fun h => hzero (h.2 hloaded)

/-- There are no deltas where no total changed, and no lamports of a static key. -/
theorem balanceDeltas_eq_nil : balanceDeltas address confirmed = [] ↔
    (∀ m ≠ "", tokenChange confirmed address m = 0) ∧
      ((∃ key ∈ confirmed.accountKeys, accountPubkey (some key) = some address) → lamportsChange confirmed address = 0) := by
  obtain ⟨mints, -, hmem, htokens⟩ := exists_tokenDeltas address confirmed
  have hnil : tokenDeltas address confirmed = [] ↔ ∀ m ≠ "", tokenChange confirmed address m = 0 := by
    rw [htokens, List.map_eq_nil_iff, List.eq_nil_iff_forall_not_mem]
    refine forall_congr' fun m => ?_
    rw [hmem, not_and, not_not]
  by_cases hstatic : ∃ key ∈ confirmed.accountKeys, accountPubkey (some key) = some address
  · rw [balanceDeltas_static hstatic, List.append_eq_nil_iff, hnil, imp_iff_right hstatic]
    by_cases hzero : lamportsChange confirmed address = 0 <;> simp [hzero]
  · rw [balanceDeltas_loaded fun key hkey hpubkey => hstatic ⟨key, hkey, hpubkey⟩, hnil]
    exact (and_iff_left fun h => absurd h hstatic).symm

/-! ## The rows -/

theorem mapWalletActivity_eq_none {signature : String} {slot : Option ℤ} {blockTime : ℚ} :
    mapWalletActivity address confirmed signature slot blockTime = none ↔
      balanceDeltas address confirmed = [] ∧ ¬(confirmed.failed = true ∧ confirmed.feePayer = some address) := by
  unfold mapWalletActivity
  simp only
  split
  · next h => exact iff_of_true rfl h
  · next h => exact iff_of_false nofun h

theorem mapWalletActivity_some {signature : String} {slot : Option ℤ} {blockTime : ℚ} {row : WalletActivityRow}
    (h : mapWalletActivity address confirmed signature slot blockTime = some row) :
    row.walletAddress = address ∧ row.balanceDeltas = balanceDeltas address confirmed := by
  unfold mapWalletActivity at h
  simp only at h
  split at h
  · cases h
  · cases h
    exact ⟨rfl, rfl⟩

/-- Each wallet of a list without duplicates has its own row, if any. -/
theorem filter_rows {f : String → Option WalletActivityRow}
    (hf : ∀ wallet row, f wallet = some row → row.walletAddress = wallet) {wallets : List String}
    (hnodup : wallets.Nodup) (address : String) :
    (wallets.filterMap f).filter (fun row => row.walletAddress = address) =
      if address ∈ wallets then (f address).toList else [] := by
  induction wallets with
  | nil => rfl
  | cons wallet wallets ih =>
    obtain ⟨hnot, hnodup⟩ := List.nodup_cons.1 hnodup
    have ih := ih hnodup
    by_cases heq : address = wallet
    · subst heq
      rw [if_neg hnot] at ih
      rw [if_pos List.mem_cons_self]
      cases hrow : f address with
      | none => rw [List.filterMap_cons_none hrow, ih, Option.toList_none]
      | some row =>
        rw [List.filterMap_cons_some hrow, List.filter_cons, if_pos (decide_eq_true (hf _ _ hrow)), ih,
          Option.toList_some]
    · have hmem : address ∈ wallet :: wallets ↔ address ∈ wallets := by
        rw [List.mem_cons, or_iff_right heq]
      simp only [hmem]
      cases hrow : f wallet with
      | none => rw [List.filterMap_cons_none hrow, ih]
      | some row =>
        have hother : row.walletAddress ≠ address := fun h => heq (h.symm.trans (hf _ _ hrow))
        rw [List.filterMap_cons_some hrow, List.filter_cons, if_neg (by simpa using hother), ih]

theorem touched_of_tokenChange {mint : String} (h : tokenChange confirmed address mint ≠ 0) :
    Touched confirmed address := by
  left
  by_contra hnone
  push Not at hnone
  have hzero : ∀ entries : Option (List TokenBalanceEntry), (∀ entry ∈ entries.getD [], entry.owner ≠ some address) →
      tokenTotal entries address mint = 0 := by
    intro entries howner
    have hnil : (entries.getD []).filter (fun entry => entry.owner = some address ∧ entry.mint = some mint) = [] := by
      rw [List.filter_eq_nil_iff]
      intro entry hentry hboth
      exact howner entry hentry (of_decide_eq_true hboth).1
    rw [tokenTotal, hnil]
    rfl
  refine h ?_
  rw [tokenChange, hzero _ fun entry hentry => hnone entry (List.mem_append_right _ hentry),
    hzero _ fun entry hentry => hnone entry (List.mem_append_left _ hentry), sub_self]

/-- Where no fee is given back, the lamports of a static key moved in the balances. -/
theorem touched_of_lamportsChange (hstatic : ∃ key ∈ confirmed.accountKeys, accountPubkey (some key) = some address)
    (hpayer : confirmed.feePayer ≠ some address) (h : lamportsChange confirmed address ≠ 0) :
    Touched confirmed address := by
  right
  rw [lamportsChange_static hstatic] at h
  cases hidx : confirmed.accountKeys.findIdx? fun k => accountPubkey (some k) = some address with
  | none =>
    rw [hidx] at h
    exact absurd rfl h
  | some i =>
    rw [hidx] at h
    obtain ⟨hi, hkey, -⟩ := List.findIdx?_eq_some_iff_getElem.1 hidx
    refine ⟨i, hi, ?_, fun hsame => h ?_⟩
    · rw [List.getElem?_eq_getElem hi]
      exact of_decide_eq_true hkey
    · show lamportsAt confirmed address i = 0
      rw [lamportsAt, hsame]
      cases confirmed.postBalances[i]? with
      | none => rfl
      | some post =>
        show (if _ then _ else (post : ℤ) - post) = 0
        rw [if_neg hpayer, sub_self]

end Rows

section Transaction

variable {confirmed : ConfirmedTransaction} {address : String}

/-- An affected address is looked at, in a transaction where everything is in sight. -/
theorem InSight.touched (h : InSight confirmed) (haffected : Affected confirmed address) :
    Touched confirmed address := by
  obtain ⟨hne, hlamports | ⟨m, -, htokens⟩ | ⟨hfailed, hpayer⟩⟩ := haffected
  · by_cases hpayer : confirmed.feePayer = some address
    · exact h.payer address hne hpayer (Or.inl hlamports)
    · refine touched_of_lamportsChange ?_ hpayer hlamports
      by_contra hstatic
      push Not at hstatic
      exact hlamports (h.loaded address hne hstatic)
  · exact touched_of_tokenChange htokens
  · exact h.payer address hne hpayer (Or.inr hfailed)

/-- An address without a change has no deltas. -/
theorem balanceDeltas_of_not_affected (hne : address ≠ "") (h : ¬Affected confirmed address) :
    balanceDeltas address confirmed = [] ∧ ¬(confirmed.failed = true ∧ confirmed.feePayer = some address) := by
  refine ⟨balanceDeltas_eq_nil.2 ⟨fun m hm => ?_, fun _ => ?_⟩, fun hpays => h ⟨hne, Or.inr (Or.inr hpays)⟩⟩
  · by_contra htokens
    exact h ⟨hne, Or.inr (Or.inl ⟨m, hm, htokens⟩)⟩
  · by_contra hlamports
    exact h ⟨hne, Or.inl hlamports⟩

/-- An affected address has a row, if it is looked at. -/
theorem exists_row (h : Affected confirmed address) (signature : String) (slot : Option ℤ) (blockTime : ℚ)
    (hsight : (∀ key ∈ confirmed.accountKeys, accountPubkey (some key) ≠ some address) →
      lamportsChange confirmed address = 0) :
    ∃ row, mapWalletActivity address confirmed signature slot blockTime = some row := by
  rw [← Option.isSome_iff_exists, Option.isSome_iff_ne_none]
  intro hnone
  obtain ⟨hdeltas, hpays⟩ := mapWalletActivity_eq_none.1 hnone
  obtain ⟨hzero, hstatic⟩ := balanceDeltas_eq_nil.1 hdeltas
  obtain ⟨-, hlamports | ⟨m, hm, htokens⟩ | hpays'⟩ := h
  · refine hlamports (hsight fun key hkey hpubkey => hlamports (hstatic ⟨key, hkey, hpubkey⟩))
  · exact htokens (hzero m hm)
  · exact hpays hpays'

/-- Where nothing changed, six decimals hold it. -/
theorem sixDecimals_of_not_affected (hne : address ≠ "") (h : ¬Affected confirmed address) :
    (∀ m ≠ "", SixDecimals (tokenChange confirmed address m)) ∧
      SixDecimals ((lamportsChange confirmed address : ℚ) / 10 ^ 9) := by
  unfold Affected at h
  push Not at h
  obtain ⟨hlamports, htokens, -⟩ := h hne
  refine ⟨fun m hm => ?_, ?_⟩
  · rw [htokens m hm]
    exact sixDecimals_zero
  · rw [hlamports, Int.cast_zero, zero_div]
    exact sixDecimals_zero

end Transaction

/-- **Which transactions are recorded.** The rows are one for each affected address, with its changes, exactly when no
lamports moved at an address that only a lookup table has, a fee payer with a row to come is touched, and six decimals
hold every change. -/
theorem activity_rows {result : SubscribeTxResult} {confirmed : ConfirmedTransaction} (receivedAt : ℚ)
    (htx : result.transaction = some confirmed) (hsignature : signatureOf result confirmed ≠ "") :
    EveryWalletRecorded confirmed (activityRowsFromResult result receivedAt) ↔ InSight confirmed := by
  have hfilter : ∀ address, (activityRowsFromResult result receivedAt).filter (fun row => row.walletAddress = address) =
      if address ∈ affectedWallets confirmed then
        (mapWalletActivity address confirmed (signatureOf result confirmed) result.slot
          (result.blockTime.getD ⌊receivedAt⌋)).toList
      else [] := by
    intro address
    rw [activityRowsFromResult, htx]
    simp only [if_neg hsignature]
    exact filter_rows (fun wallet row h => (mapWalletActivity_some h).1) nodup_affectedWallets address
  constructor
  · intro h
    -- an affected address is looked at, and its row says the changes
    have hrecorded : ∀ address, Affected confirmed address →
        address ∈ affectedWallets confirmed ∧ Changes confirmed address (balanceDeltas address confirmed) := by
      intro address haffected
      obtain ⟨row, hrow, hchanges⟩ := h.recorded address haffected
      rw [hfilter] at hrow
      split at hrow
      · next hmem =>
        obtain ⟨-, hdeltas⟩ := mapWalletActivity_some (Option.toList_eq_singleton_iff.1 hrow)
        exact ⟨hmem, hdeltas ▸ hchanges⟩
      · cases hrow
    constructor
    · intro address hne hstatic
      by_contra hlamports
      have hchanges := (hrecorded address ⟨hne, Or.inl hlamports⟩).2
      exact hlamports ((changes_balanceDeltas.1 hchanges).2 hstatic)
    · intro address hne hpayer hcause
      have hmem := (hrecorded address ⟨hne, hcause.imp id fun hfailed => Or.inr ⟨hfailed, hpayer⟩⟩).1
      exact (mem_affectedWallets.1 hmem).2
    · intro address hne
      by_cases haffected : Affected confirmed address
      · exact (changes_balanceDeltas.1 (hrecorded address haffected).2).1
      · exact sixDecimals_of_not_affected hne haffected
  · intro h
    constructor
    · intro address haffected
      obtain ⟨row, hrow⟩ := exists_row haffected (signatureOf result confirmed) result.slot
        (result.blockTime.getD ⌊receivedAt⌋) (h.loaded address haffected.1)
      refine ⟨row, ?_, ?_⟩
      · rw [hfilter, if_pos (mem_affectedWallets.2 ⟨haffected.1, h.touched haffected⟩), hrow, Option.toList_some]
      · rw [(mapWalletActivity_some hrow).2]
        exact changes_balanceDeltas.2 ⟨h.decimals address haffected.1, h.loaded address haffected.1⟩
    · intro address hnot
      rw [hfilter]
      split
      · next hmem =>
        have hnone := balanceDeltas_of_not_affected (mem_affectedWallets.1 hmem).1 hnot
        rw [mapWalletActivity_eq_none.2 hnone, Option.toList_none]
      · rfl

/-- A payment, where the recipient is a static key or comes from a lookup table. -/
def paymentTx (lamports : ℕ) (accountKeys loaded : List String) : ConfirmedTransaction where
  transaction := some { signatures := some ["5sig"], message := some { accountKeys := some (accountKeys.map .text) } }
  txMeta := some {
    fee := some 5000
    preBalances := some [2000000000, 1, 0]
    postBalances := some [1999995000 - lamports, 1, lamports]
    loadedAddresses := some ⟨loaded, []⟩ }

def payment (lamports : ℕ) (accountKeys loaded : List String) : SubscribeTxResult where
  signature := some "5sig"
  slot := some 100
  blockTime := none
  transaction := some (paymentTx lamports accountKeys loaded)

example : (activityRowsFromResult (payment (10 ^ 9) ["payer", "program", "wallet"] []) 1700000000).map
    (fun row => (row.walletAddress, row.amountLabel)) = [("payer", some "-1"), ("wallet", some "+1")] := by
  decide +kernel

-- a lamport has nine decimals
example : (activityRowsFromResult (payment 1 ["payer", "program", "wallet"] []) 1700000000).map
    (fun row => (row.walletAddress, row.amountLabel)) = [("payer", some "-0"), ("wallet", some "+0")] := by
  decide +kernel

/-- Whole thousands of lamports have six decimals. -/
theorem sixDecimals_of_dvd {lamports : ℤ} (h : 1000 ∣ lamports) : SixDecimals ((lamports : ℚ) / 10 ^ 9) := by
  obtain ⟨n, rfl⟩ := h
  refine ⟨n, ?_⟩
  push_cast
  ring

/-- Both wallets have their row. -/
theorem activity_rows_static : EveryWalletRecorded (paymentTx (10 ^ 9) ["payer", "program", "wallet"] [])
    (activityRowsFromResult (payment (10 ^ 9) ["payer", "program", "wallet"] []) 1700000000) := by
  refine (activity_rows 1700000000 rfl (by decide +kernel)).2
    ⟨fun address _ hstatic => ?_, fun address _ hpayer _ => ?_, fun address _ => ⟨fun m _ => ?_, sixDecimals_of_dvd ?_⟩⟩
  · have hnone : (balanceKeys (paymentTx (10 ^ 9) ["payer", "program", "wallet"] [])).findIdx?
        (fun key => key = some address) = none := by
      rw [List.findIdx?_eq_none_iff]
      intro key hkey
      simp only [balanceKeys, List.mem_append, List.mem_map] at hkey
      rcases hkey with (⟨k, hk, rfl⟩ | ⟨k, hk, -⟩) | ⟨k, hk, -⟩
      · exact decide_eq_false (hstatic k hk)
      · cases hk
      · cases hk
    rw [lamportsChange, balancesOf, hnone]
    rfl
  · obtain rfl : "payer" = address := Option.some.inj hpayer
    exact Or.inr ⟨0, by decide, rfl, by decide⟩
  · show SixDecimals (0 - 0)
    rw [sub_self]
    exact sixDecimals_zero
  · unfold lamportsChange balancesOf
    have hfee : (1000 : ℤ) ∣ if (paymentTx (10 ^ 9) ["payer", "program", "wallet"] []).feePayer = some address
        then ((paymentTx (10 ^ 9) ["payer", "program", "wallet"] []).fee : ℤ) else 0 := by
      split
      · exact ⟨5, rfl⟩
      · exact dvd_zero 1000
    cases (balanceKeys (paymentTx (10 ^ 9) ["payer", "program", "wallet"] [])).findIdx? fun key => key = some address with
    | none => exact dvd_zero 1000
    | some place =>
      match place with
      | 0 | 1 | 2 => exact dvd_add (by decide) hfee
      | _ + 3 => exact dvd_zero 1000

/-- The wallet that is paid is in a lookup table, and has no row. -/
theorem activity_rows_loaded : ¬EveryWalletRecorded (paymentTx (10 ^ 9) ["payer", "program"] ["wallet"])
    (activityRowsFromResult (payment (10 ^ 9) ["payer", "program"] ["wallet"]) 1700000000) := by
  intro h
  have haffected : Affected (paymentTx (10 ^ 9) ["payer", "program"] ["wallet"]) "wallet" :=
    ⟨by decide, Or.inl (by decide +kernel)⟩
  obtain ⟨row, hrow, -⟩ := h.recorded "wallet" haffected
  have hnone : (activityRowsFromResult (payment (10 ^ 9) ["payer", "program"] ["wallet"]) 1700000000).filter
      (fun row => row.walletAddress = "wallet") = [] := by decide +kernel
  rw [hnone] at hrow
  cases hrow

end PhygitalWallet.Api
