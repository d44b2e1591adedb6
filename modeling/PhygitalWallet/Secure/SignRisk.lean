import PhygitalWallet.Lib.JsText
import PhygitalWallet.Secure.Shown

/-!
# The risk of a signature (`tx/sign-risk.ts`)

The classifier reads the titles and the rows that were rendered.

- `classifySignRisk`: normal, elevated or critical;
- `ownerInners`: the inner instructions of an owner's spend, and which of them are not decoded;
- `describeInnerInstruction_title`, `describeInnerInstruction_rows`: what the classifier finds in a rendered instruction;
- `unknown_inner_critical`: when a transaction with an inner instruction that is not decoded is critical.
-/

namespace PhygitalWallet.Secure

open Client JsText
open ByteSeq (Bytes)

/-! ## The classifier -/

inductive SignRisk
  | normal | elevated | critical
deriving DecidableEq, Repr

def isCriticalInstruction (kind : PhygitalWalletInstruction) : Bool := kind = .clearAuthority || kind = .clearWalletPolicy

def isElevatedInstruction (kind : PhygitalWalletInstruction) : Bool := kind = .setWalletPolicy

def isOwnerSpend (kind : PhygitalWalletInstruction) : Bool :=
  kind = .executeWithAuthority || kind = .executeWithAuthorityUsingPolicies

/-- `/unknown|opaque/i.test(value)`. -/
def mentionsUnknown (value : String) : Bool := includesIgnoreCase value "unknown" || includesIgnoreCase value "opaque"

/-- A row that makes an owner's spend critical. -/
def isUnknownRow (row : InnerInstructionSummary) : Bool :=
  startsWith row.title "Program " || includes row.title "opaque" || row.details.any fun d => mentionsUnknown d.value

/-- Owner escape-hatch spends are elevated by default; unknown inners → critical. -/
def ownerSpendRisk (ixs : List ParsedInstructionSummary) : Option SignRisk :=
  let ownerSpend := ixs.filter fun ix => isOwnerSpend ix.kind
  if ownerSpend.isEmpty then none
  else if ownerSpend.any fun ix => (ix.inner.getD []).isEmpty || (ix.inner.getD []).any isUnknownRow then some .critical
  else some .elevated

def classifySignRisk (summary : TransactionSummary) : SignRisk :=
  if summary.instructions.any fun ix => isCriticalInstruction ix.kind then .critical
  else
    let ownerRisk := ownerSpendRisk summary.instructions
    if ownerRisk = some .critical then .critical
    else if summary.instructions.any fun ix => isElevatedInstruction ix.kind then .elevated
    else if ownerRisk = some .elevated then .elevated
    else .normal

/-! ## Inner instructions -/

/-- An inner instruction with its indexes resolved. -/
structure InnerCall where
  programAddress : Pubkey
  accounts : List Pubkey
  data : Bytes
deriving DecidableEq, Repr

def InnerCall.summary (c : InnerCall) : InnerInstructionSummary := innerSummary c.programAddress c.accounts c.data

def resolveCompact (remaining : List Client.AccountMeta) (ci : CompactInstruction) : Option InnerCall := do
  let prog ← remaining[ci.programIdIndex.toNat]?
  let accounts ← ci.accountIndexes.mapM fun ai => remaining[ai.toNat]?
  return { programAddress := prog.address, accounts := accounts.map Client.AccountMeta.address, data := ci.data }

/-- The inner instructions of an owner's spend. -/
def ownerInners (ix : Client.Instruction) : Option (List InnerCall) := do
  let kind ← instructionOf (ix.data.getD [])
  guard (isOwnerSpend kind = true)
  let compacts ← (decodeFrom executeWithAuthorityInstructionData (ix.data.getD [])).toOption
  compacts.mapM (resolveCompact (ix.metas.drop 5))

def isMemo (programAddress : String) : Bool := programAddress = memoText || programAddress = memoV1Text

/-- The instruction is not decoded into an action: an unknown program, or data that the program's branch gives up on. -/
def InnerCall.Undecoded (c : InnerCall) : Prop :=
  let program := c.programAddress.text
  if program = systemText then ¬ (readLE 4 c.data 0 = some 2 ∧ (readLE 8 c.data 4).isSome = true)
  else if isMemo program then False
  else if program = tokenText ∨ program = token2022Text then
    ¬ (c.data.head? = some 12 ∧ 10 ≤ c.data.length) ∧ ¬ (c.data.head? = some 3 ∧ 9 ≤ c.data.length)
  else if program = ataText then c.data.head? ≠ some 1
  else ¬ (program = metadataText ∨ program = bubblegumText ∨ program = coreText)

/-- Some inner instruction of an owner's spend is not decoded. -/
def HasUndecoded (tx : DecodedV1Transaction) : Prop :=
  ∃ ix ∈ tx.message.compiled.instructions, ∃ inners, ownerInners ix = some inners ∧ ∃ c ∈ inners, c.Undecoded

/-- The text that is shown of a memo speaks of something unknown or opaque. -/
def InnerCall.UnknownMemo (c : InnerCall) : Prop :=
  isMemo c.programAddress.text = true ∧ ∃ row ∈ (describeMemo c.data).details, mentionsUnknown row.value = true


/-- What makes an accepted transaction critical. -/
def Flagged (tx : DecodedV1Transaction) : Prop :=
  (∃ ix ∈ tx.message.compiled.instructions, instructionOf (ix.data.getD []) = some .clearAuthority ∨
    instructionOf (ix.data.getD []) = some .clearWalletPolicy) ∨
  (∃ ix ∈ tx.message.compiled.instructions, ownerInners ix = some []) ∨
  ∃ ix ∈ tx.message.compiled.instructions, ∃ inners, ownerInners ix = some inners ∧ ∃ c ∈ inners, c.UnknownMemo

/-! ## Texts without the words -/

section Texts

variable {word : List Char}

/-- The text does not have the word. -/
def Lacks (word xs : List Char) : Prop := ¬ word <:+: xs

theorem Lacks.split {xs ys : List Char} {c : Char} (hc : c ∉ word) (hxs : Lacks word xs) (hys : Lacks word ys) :
    Lacks word (xs ++ c :: ys) := fun h => (infix_split hc h).elim hxs hys

theorem Lacks.of_length {xs : List Char} (h : xs.length < word.length) : Lacks word xs := not_infix_of_length h

theorem toDigits_isDigit {n : Nat} {c : Char} (h : c ∈ (toString n).toList) : c.isDigit = true := by
  rw [toList_toString] at h
  exact isDigit_toDigits c h

theorem toLower_of_isDigit {c : Char} (h : c.isDigit = true) : c.toLower = c := by
  simp only [Char.isDigit, Bool.and_eq_true, decide_eq_true_eq, ge_iff_le] at h
  refine toLower_of_not_capital ?_
  have hle : c.toNat ≤ 57 := h.2
  omega

/-- Raw units are digits and a point. -/
theorem formatUnits_chars (raw decimals : Nat) : ∀ c ∈ (formatUnits raw decimals).toList, c.isDigit = true ∨ c = '.' := by
  rw [toList_formatUnits]
  exact isDigit_or_point

/-! ## Rows -/

/-- The value does not make its row unknown. -/
def Unmarked (value : String) : Prop := mentionsUnknown value = false

theorem unmarked_iff {value : String} : Unmarked value ↔
    Lacks "unknown".toList (value.toList.map Char.toLower) ∧ Lacks "opaque".toList (value.toList.map Char.toLower) := by
  rw [Unmarked, mentionsUnknown, Bool.or_eq_false_iff, includesIgnoreCase, includesIgnoreCase, decide_eq_false_iff_not,
    decide_eq_false_iff_not]
  rfl

theorem unmarked_number (n : Nat) : Unmarked (toString n) := by
  have hno : 'o' ∉ (toString n).toList.map Char.toLower := by
    intro hmem
    obtain ⟨c, hc, hlower⟩ := List.mem_map.1 hmem
    have hdigit := toDigits_isDigit hc
    rw [toLower_of_isDigit hdigit] at hlower
    rw [hlower] at hdigit
    exact absurd hdigit (by decide)
  exact unmarked_iff.2 ⟨not_infix_of_not_mem (by decide) hno, not_infix_of_not_mem (by decide) hno⟩

theorem unmarked_address (k : Pubkey) : Unmarked (shorten k.text) := by
  obtain ⟨front, _, back, -, htext, hfront, hback⟩ := abbreviates_shorten k
  have hlacks : ∀ {word : List Char}, 4 < word.length → '…' ∉ word →
      Lacks word ((shorten k.text).toList.map Char.toLower) := by
    intro word hlen hdots
    rw [htext, List.map_append, List.map_cons, show Char.toLower '…' = '…' by decide]
    refine Lacks.split hdots (.of_length ?_) (.of_length ?_)
    · rwa [List.length_map, hfront]
    · rwa [List.length_map, hback]
  exact unmarked_iff.2 ⟨hlacks (by decide) (by decide), hlacks (by decide) (by decide)⟩

theorem unmarked_missing : Unmarked "?" := by
  unfold Unmarked
  decide +kernel

theorem unmarked_account (keys : List Pubkey) (i : Nat) : Unmarked (accountText (keys.map Pubkey.text) i) := by
  unfold accountText
  split
  · next account haccount =>
    split
    · exact unmarked_missing
    · rw [List.getElem?_map] at haccount
      obtain ⟨k, -, rfl⟩ := Option.map_eq_some_iff.1 haccount
      exact unmarked_address k
  · exact unmarked_missing

theorem unmarked_opaqueRows (keys : List Pubkey) (data : Bytes) :
    ∀ row ∈ opaqueRows (keys.map Pubkey.text) data, Unmarked row.value := by
  intro row hrow
  rcases List.mem_cons.1 hrow with rfl | hrow
  · exact unmarked_number _
  · obtain rfl := List.mem_singleton.1 hrow
    exact unmarked_number _

theorem unmarked_numberedRows (keys : List Pubkey) (n : Nat) :
    ∀ row ∈ numberedRows (keys.map Pubkey.text) n, Unmarked row.value := by
  intro row hrow
  obtain ⟨⟨account, i⟩, hmem, rfl⟩ := List.mem_map.1 hrow
  have haccount := List.mem_of_mem_take (List.fst_mem_of_mem_zipIdx hmem)
  obtain ⟨k, -, rfl⟩ := List.mem_map.1 haccount
  exact unmarked_address k

/-- Two rows of accounts. -/
theorem unmarked_accounts {rows : List DetailRow} (keys : List Pubkey)
    (h : ∀ row ∈ rows, (∃ i, row.value = accountText (keys.map Pubkey.text) i) ∨ ∃ n : Nat, row.value = toString n) :
    ∀ row ∈ rows, Unmarked row.value := by
  intro row hrow
  rcases h row hrow with ⟨i, hi⟩ | ⟨n, hn⟩
  · rw [hi]
    exact unmarked_account keys i
  · rw [hn]
    exact unmarked_number n

theorem unmarked_system (keys : List Pubkey) (data : Bytes) :
    ∀ row ∈ (describeSystem (keys.map Pubkey.text) data).details, Unmarked row.value := by
  unfold describeSystem
  split
  · refine unmarked_accounts keys fun row hrow => ?_
    rcases List.mem_cons.1 hrow with rfl | hrow
    · exact Or.inl ⟨0, rfl⟩
    · obtain rfl := List.mem_singleton.1 hrow
      exact Or.inl ⟨1, rfl⟩
  · exact unmarked_opaqueRows keys data

theorem unmarked_token (kind : String) (keys : List Pubkey) (data : Bytes) :
    ∀ row ∈ (describeToken kind (keys.map Pubkey.text) data).details, Unmarked row.value := by
  unfold describeToken
  split
  · refine unmarked_accounts keys fun row hrow => ?_
    rcases List.mem_cons.1 hrow with rfl | hrow
    · exact Or.inl ⟨1, mintText_eq _⟩
    · rcases List.mem_cons.1 hrow with rfl | hrow
      · exact Or.inl ⟨0, rfl⟩
      · obtain rfl := List.mem_singleton.1 hrow
        exact Or.inl ⟨2, rfl⟩
  · refine unmarked_accounts keys fun row hrow => ?_
    rcases List.mem_cons.1 hrow with rfl | hrow
    · exact Or.inr ⟨_, rfl⟩
    · rcases List.mem_cons.1 hrow with rfl | hrow
      · exact Or.inl ⟨0, rfl⟩
      · obtain rfl := List.mem_singleton.1 hrow
        exact Or.inl ⟨1, rfl⟩
  · exact unmarked_opaqueRows keys data

theorem unmarked_ata (keys : List Pubkey) : ∀ row ∈ ([⟨"Owner", accountText (keys.map Pubkey.text) 2⟩,
    ⟨"Mint", accountText (keys.map Pubkey.text) 3⟩] : List DetailRow), Unmarked row.value := by
  refine unmarked_accounts keys fun row hrow => ?_
  rcases List.mem_cons.1 hrow with rfl | hrow
  · exact Or.inl ⟨2, rfl⟩
  · obtain rfl := List.mem_singleton.1 hrow
    exact Or.inl ⟨3, rfl⟩

/-- **Rows**: outside memos no row of a rendered instruction has one of the words. -/
theorem describeInnerInstruction_rows {programAddress : String} (hmemo : isMemo programAddress = false) (keys : List Pubkey)
    (data : Bytes) : ∀ row ∈ (describeInnerInstruction programAddress (keys.map Pubkey.text) data).details,
      Unmarked row.value := by
  unfold describeInnerInstruction
  split_ifs
  · exact unmarked_system keys data
  · simp_all [isMemo]
  · exact unmarked_token _ keys data
  · exact unmarked_token _ keys data
  · exact unmarked_ata keys
  · exact unmarked_ata keys
  · exact unmarked_numberedRows keys 4
  · exact unmarked_opaqueRows keys data
  · exact unmarked_numberedRows keys 3
  · exact unmarked_opaqueRows keys data

/-! ## Titles -/

/-- The title is neither of the two that the classifier looks for. -/
def PlainTitle (title : String) : Prop := startsWith title "Program " = false ∧ includes title "opaque" = false

/-- A title that starts with another letter. -/
theorem plainTitle_of {title : String} (h : title.toList.head? ≠ some 'P') (hlacks : Lacks "opaque".toList title.toList) :
    PlainTitle title := by
  constructor
  · rw [startsWith, decide_eq_false_iff_not]
    rintro ⟨tail, htail⟩
    rw [← htail] at h
    exact h rfl
  · rw [includes, decide_eq_false_iff_not]
    exact hlacks

/-- An amount has no letter of the word. -/
theorem amount_lacks (raw decimals : Nat) : Lacks "opaque".toList (formatUnits raw decimals).toList := by
  refine not_infix_of_not_mem (c := 'q') (by decide) fun hmem => ?_
  rcases formatUnits_chars raw decimals _ hmem with h | h <;> exact absurd h (by decide)

/-- What stands between blanks. -/
theorem Lacks.blank {xs ys : List Char} (hxs : Lacks "opaque".toList xs) (hys : Lacks "opaque".toList ys) :
    Lacks "opaque".toList (xs ++ ' ' :: ys) := Lacks.split (by decide) hxs hys

theorem address_lacks (k : Pubkey) : Lacks "opaque".toList (shorten k.text).toList := by
  obtain ⟨front, _, back, -, htext, hfront, hback⟩ := abbreviates_shorten k
  rw [htext]
  refine Lacks.split (by decide) (.of_length ?_) (.of_length ?_)
  · rw [hfront]
    decide
  · rw [hback]
    decide

theorem mintMeta_symbol {mint : String} {known : MintMeta} (h : mintMeta mint = some known) :
    known.symbol = "SOL" ∨ known.symbol = "USDC" ∨ known.symbol = "USDT" := by
  have hall : ∀ entry ∈ knownMintMeta, entry.2.symbol = "SOL" ∨ entry.2.symbol = "USDC" ∨ entry.2.symbol = "USDT" := by
    decide +kernel
  obtain ⟨before, after, heq, -⟩ := List.lookup_eq_some_iff.1 h
  exact hall (mint, known) (heq ▸ List.mem_append_right _ List.mem_cons_self)

/-- The amount of a transfer, with its symbol or its mint. -/
theorem tokenAmount_lacks (raw decimals : Nat) (k : Pubkey) :
    Lacks "opaque".toList (formatTokenAmount raw k.text (some decimals)).toList := by
  rw [formatTokenAmount]
  cases hknown : mintMeta k.text with
  | none =>
    have hlist : (formatUnits raw decimals ++ " · mint " ++ shorten k.text).toList =
        (formatUnits raw decimals).toList ++ ' ' :: (['·'] ++ ' ' :: ("mint".toList ++ ' ' :: (shorten k.text).toList)) := by
      simp
    show Lacks _ (formatUnits raw decimals ++ " · mint " ++ shorten k.text).toList
    rw [hlist]
    exact (amount_lacks raw decimals).blank (Lacks.blank (by unfold Lacks; decide)
      (Lacks.blank (by unfold Lacks; decide) (address_lacks k)))
  | some known =>
    show Lacks _ (formatUnits raw known.decimals ++ " " ++ known.symbol).toList
    have hlist : (formatUnits raw known.decimals ++ " " ++ known.symbol).toList =
        (formatUnits raw known.decimals).toList ++ ' ' :: known.symbol.toList := by
      simp
    rw [hlist]
    refine (amount_lacks raw known.decimals).blank ?_
    rcases mintMeta_symbol hknown with h | h | h <;> rw [h] <;> unfold Lacks <;> decide

theorem toList_send (amount tail : String) :
    ("Send " ++ amount ++ tail).toList = "Send".toList ++ ' ' :: (amount.toList ++ tail.toList) := by
  simp only [String.toList_append, List.append_assoc]
  rfl

/-- The title of a transfer: an amount between blanks. -/
theorem plainTitle_send {title : String} (amount : String) (rest : List Char)
    (htitle : title.toList = "Send".toList ++ ' ' :: (amount.toList ++ ' ' :: rest))
    (hamount : Lacks "opaque".toList amount.toList) (hrest : Lacks "opaque".toList rest) : PlainTitle title := by
  refine plainTitle_of ?_ ?_
  · rw [htitle]
    simp
  · rw [htitle]
    exact Lacks.blank (by unfold Lacks; decide) (hamount.blank hrest)

theorem plainTitle_call (k : Pubkey) : PlainTitle ("Call " ++ shorten k.text) := by
  have hlist : ("Call " ++ shorten k.text).toList = "Call".toList ++ ' ' :: (shorten k.text).toList := by simp
  refine plainTitle_of ?_ ?_
  · rw [hlist]
    simp
  · rw [hlist]
    exact Lacks.blank (by unfold Lacks; decide) (address_lacks k)

theorem plainTitle_system (accounts : List String) (data : Bytes) : PlainTitle (describeSystem accounts data).title := by
  unfold describeSystem
  split
  · next lamports _ _ =>
    have htail : " SOL".toList = ' ' :: "SOL".toList := rfl
    refine plainTitle_send (formatUnits lamports 9) "SOL".toList ?_ (amount_lacks lamports 9) (by unfold Lacks; decide)
    rw [toList_send, htail]
  · show PlainTitle "System program"
    exact ⟨by decide +kernel, by decide +kernel⟩

/-- The amount that `TransferChecked` shows. -/
theorem transferChecked_lacks (keys : List Pubkey) (amount decimals : Nat) :
    Lacks "opaque".toList (if (keys.map Pubkey.text)[1]?.getD "" = "" then formatUnits amount decimals
      else formatTokenAmount amount ((keys.map Pubkey.text)[1]?.getD "") (some decimals)).toList := by
  split
  · exact amount_lacks amount decimals
  · next hmint =>
    rw [List.getElem?_map] at hmint ⊢
    cases hkey : keys[1]? with
    | none =>
      rw [hkey] at hmint
      exact absurd rfl hmint
    | some k => exact tokenAmount_lacks amount decimals k

theorem plainTitle_token {kind : String} (hkind : kind = "Token" ∨ kind = "Token-2022") (keys : List Pubkey) (data : Bytes) :
    PlainTitle (describeToken kind (keys.map Pubkey.text) data).title := by
  have hlacks : Lacks "opaque".toList ('(' :: (kind.toList ++ [')'])) := by
    rcases hkind with rfl | rfl <;> unfold Lacks <;> decide
  unfold describeToken
  split
  · next amount decimals _ _ _ =>
    refine plainTitle_send _ ('(' :: (kind.toList ++ [')'])) ?_ (transferChecked_lacks keys amount decimals.toNat) hlacks
    simp only [describeTransferChecked, String.toList_append, List.append_assoc]
    rfl
  · rcases hkind with rfl | rfl
    · show PlainTitle ("Send tokens (" ++ "Token" ++ ")")
      exact ⟨by decide +kernel, by decide +kernel⟩
    · show PlainTitle ("Send tokens (" ++ "Token-2022" ++ ")")
      exact ⟨by decide +kernel, by decide +kernel⟩
  · rcases hkind with rfl | rfl
    · show PlainTitle ("Token" ++ " instruction")
      exact ⟨by decide +kernel, by decide +kernel⟩
    · show PlainTitle ("Token-2022" ++ " instruction")
      exact ⟨by decide +kernel, by decide +kernel⟩

/-- **Titles**: no rendered instruction has one that the classifier looks for. -/
theorem describeInnerInstruction_title (k : Pubkey) (keys : List Pubkey) (data : Bytes) :
    PlainTitle (describeInnerInstruction k.text (keys.map Pubkey.text) data).title := by
  unfold describeInnerInstruction
  split_ifs
  · exact plainTitle_system _ data
  · show PlainTitle "Memo"
    exact ⟨by decide +kernel, by decide +kernel⟩
  · exact plainTitle_token (Or.inl rfl) keys data
  · exact plainTitle_token (Or.inr rfl) keys data
  · show PlainTitle "Create token account"
    exact ⟨by decide +kernel, by decide +kernel⟩
  · show PlainTitle "Associated token"
    exact ⟨by decide +kernel, by decide +kernel⟩
  · show PlainTitle "Transfer pNFT (Token Metadata)"
    exact ⟨by decide +kernel, by decide +kernel⟩
  · show PlainTitle "Transfer cNFT (Bubblegum)"
    exact ⟨by decide +kernel, by decide +kernel⟩
  · show PlainTitle "Transfer NFT (Core)"
    exact ⟨by decide +kernel, by decide +kernel⟩
  · exact plainTitle_call k

end Texts

/-- **What the classifier finds** in a rendered instruction: a memo that says so. -/
theorem isUnknownRow_summary (c : InnerCall) : isUnknownRow c.summary = true ↔ c.UnknownMemo := by
  obtain ⟨hprogram, hopaque⟩ := describeInnerInstruction_title c.programAddress c.accounts c.data
  have hrow : isUnknownRow c.summary = c.summary.details.any fun d => mentionsUnknown d.value := by
    show (startsWith (describeInnerInstruction _ _ _).title _ || includes (describeInnerInstruction _ _ _).title _ || _) = _
    rw [hprogram, hopaque]
    rfl
  rw [hrow, InnerCall.UnknownMemo]
  by_cases hmemo : isMemo c.programAddress.text = true
  · have hdetails : c.summary.details = (describeMemo c.data).details := by
      have hsystem : c.programAddress.text ≠ systemText := by
        intro heq
        rw [heq] at hmemo
        exact absurd hmemo (by decide +kernel)
      show (describeInnerInstruction _ _ _).details = _
      rw [describeInnerInstruction, if_neg hsystem, if_pos (by simpa [isMemo] using hmemo)]
    rw [hdetails, List.any_eq_true, and_iff_right hmemo]
  · refine iff_of_false (fun hany => ?_) fun h => hmemo h.1
    obtain ⟨row, hmem, hmark⟩ := List.any_eq_true.1 hany
    rw [describeInnerInstruction_rows (Bool.not_eq_true _ ▸ hmemo) c.accounts c.data row hmem] at hmark
    cases hmark

/-! ## Summaries -/

/-- A loop that may throw, where a loop that may find nothing does the same. -/
theorem mapM_option_of_except {α β γ ε : Type} {f : α → Except ε β} {g : α → Option γ} {p : γ → β}
    (hfg : ∀ a b, f a = .ok b → ∃ c, g a = some c ∧ b = p c) : ∀ {as : List α} {bs : List β}, as.mapM f = .ok bs →
      ∃ cs, as.mapM g = some cs ∧ bs = cs.map p
  | [], _, h => by
    cases h
    exact ⟨[], rfl, rfl⟩
  | a :: as, bs, h => by
    rw [List.mapM_cons] at h
    obtain ⟨b, hb, h⟩ := outcome_bind_eq_ok.1 h
    obtain ⟨bs, hbs, h⟩ := outcome_bind_eq_ok.1 h
    cases h
    obtain ⟨c, hc, rfl⟩ := hfg a b hb
    obtain ⟨cs, hcs, rfl⟩ := mapM_option_of_except hfg hbs
    refine ⟨c :: cs, ?_, rfl⟩
    rw [List.mapM_cons, hc, hcs]
    rfl

/-- The inner instructions of a list are those that its compact instructions resolve to. -/
theorem summarizeInner_eq {compacts : List CompactInstruction} {remaining : List Client.AccountMeta}
    {inner : List InnerInstructionSummary} (h : summarizeInner compacts remaining = .ok inner) :
    ∃ inners, compacts.mapM (resolveCompact remaining) = some inners ∧ inner = inners.map InnerCall.summary := by
  refine mapM_option_of_except (fun ci row hrow => ?_) h
  split at hrow
  · cases hrow
  · next prog hprog =>
    obtain ⟨accounts, haccounts, hrow⟩ := outcome_bind_eq_ok.1 hrow
    obtain ⟨metas, hmetas, rfl⟩ := mapM_option_of_except (g := fun ai : UInt8 => remaining[ai.toNat]?)
      (p := Client.AccountMeta.address) (fun ai key hkey => by
        unfold innerAccount at hkey
        split at hkey
        · next m hm => exact ⟨m, hm, (Except.ok.inj hkey).symm⟩
        · cases hkey) haccounts
    refine ⟨⟨prog.address, metas.map Client.AccountMeta.address, ci.data⟩, ?_, (Except.ok.inj hrow).symm⟩
    rw [resolveCompact, hprog, Option.bind_eq_bind, Option.bind_some, hmetas]
    rfl

section Summaries

variable {policyData : Bytes → Outcome WalletPolicyData} {ix : Client.Instruction} {s : ParsedInstructionSummary}

theorem parsePhygitalWalletInstruction_kind {accounts : List Client.AccountMeta} {data : Bytes}
    {parsed : ParsedWalletInstruction} (h : parsePhygitalWalletInstruction policyData accounts data = .ok parsed) :
    instructionOf data = some parsed.kind := by
  obtain ⟨kind, hidentify, h⟩ := outcome_bind_eq_ok.1 h
  have hkind : instructionOf data = some kind := by
    rw [identifyPhygitalWalletInstruction] at hidentify
    split at hidentify
    · next ix hix => rw [hix, Except.ok.inj hidentify]
    · cases hidentify
  suffices hparsed : parsed.kind = kind by rw [hparsed, hkind]
  cases kind with
  | clearAuthority | clearWalletPolicy =>
    obtain ⟨token, -, h⟩ := outcome_bind_eq_ok.1 h
    obtain ⟨authority, -, h⟩ := outcome_bind_eq_ok.1 h
    cases h
    rfl
  | execute =>
    obtain ⟨execute, -, h⟩ := outcome_bind_eq_ok.1 h
    cases h
    rfl
  | executeWithAuthority | executeWithAuthorityUsingPolicies =>
    obtain ⟨execute, -, h⟩ := outcome_bind_eq_ok.1 h
    obtain ⟨authority, -, h⟩ := outcome_bind_eq_ok.1 h
    cases h
    rfl
  | setAuthority =>
    obtain ⟨token, -, h⟩ := outcome_bind_eq_ok.1 h
    cases h
    rfl
  | setWalletPolicy =>
    obtain ⟨token, -, h⟩ := outcome_bind_eq_ok.1 h
    obtain ⟨policy, -, h⟩ := outcome_bind_eq_ok.1 h
    obtain ⟨authority, -, h⟩ := outcome_bind_eq_ok.1 h
    cases h
    rfl

/-- A summary has the kind of its instruction. -/
theorem parseInstruction_kind (h : parseInstruction policyData ix = .ok s) : instructionOf (ix.data.getD []) = some s.kind := by
  obtain ⟨parsed, hparsed, h⟩ := outcome_bind_eq_ok.1 h
  rw [parsePhygitalWalletInstruction_kind hparsed, Option.some.injEq]
  dsimp only at h
  split at h
  case h_1 | h_2 =>
    obtain ⟨remaining, -, h⟩ := outcome_bind_eq_ok.1 h
    obtain ⟨inner, -, h⟩ := outcome_bind_eq_ok.1 h
    cases h
    rfl
  all_goals
    cases h
    rfl

/-- The inner list of an owner's spend is what its inner instructions are rendered as. -/
theorem parseInstruction_inners (h : parseInstruction policyData ix = .ok s) (hspend : isOwnerSpend s.kind = true) :
    ∃ inners, ownerInners ix = some inners ∧ s.inner = some (inners.map InnerCall.summary) := by
  have hkind := parseInstruction_kind h
  have howner : s.kind = .executeWithAuthority ∨ s.kind = .executeWithAuthorityUsingPolicies := by
    simpa [isOwnerSpend] using hspend
  have hcases : instructionOf (ix.data.getD []) = some .executeWithAuthority ∨
      instructionOf (ix.data.getD []) = some .executeWithAuthorityUsingPolicies := by
    rw [hkind, Option.some.injEq, Option.some.injEq]
    exact howner
  obtain ⟨compacts, hdata⟩ : ∃ compacts, decodeFrom executeWithAuthorityInstructionData (ix.data.getD []) = .ok compacts := by
    obtain ⟨parsed, hparsed, -⟩ := outcome_bind_eq_ok.1 h
    obtain ⟨kind, hidentify, hparsed⟩ := outcome_bind_eq_ok.1 hparsed
    rcases hcases with hcases | hcases
    all_goals
      rw [identifyPhygitalWalletInstruction, hcases] at hidentify
      cases hidentify
      obtain ⟨execute, hexecute, -⟩ := outcome_bind_eq_ok.1 hparsed
      obtain ⟨token, -, hexecute⟩ := outcome_bind_eq_ok.1 hexecute
      obtain ⟨compacts, hcompacts, -⟩ := outcome_bind_eq_ok.1 hexecute
      exact ⟨compacts, hcompacts⟩
  obtain ⟨inner, hinner, hsummary⟩ := parseInstruction_owner hcases hdata h
  obtain ⟨inners, hinners, rfl⟩ := summarizeInner_eq hsummary
  refine ⟨inners, ?_, hinner⟩
  rw [ownerInners, hkind, hdata]
  simp only [Option.bind_eq_bind, Option.bind_some, hspend, Except.toOption]
  exact hinners

theorem ownerInners_eq_none (h : parseInstruction policyData ix = .ok s) (hspend : isOwnerSpend s.kind = false) :
    ownerInners ix = none := by
  rw [ownerInners, parseInstruction_kind h]
  simp [hspend]

end Summaries

/-! ## The risk -/

theorem ownerSpendRisk_critical {ixs : List ParsedInstructionSummary} : ownerSpendRisk ixs = some .critical ↔
    ∃ s ∈ ixs, isOwnerSpend s.kind = true ∧
      ((s.inner.getD []).isEmpty = true ∨ (s.inner.getD []).any isUnknownRow = true) := by
  rw [ownerSpendRisk]
  split
  · next hempty =>
    refine iff_of_false nofun ?_
    rintro ⟨s, hs, hspend, -⟩
    have hmem : s ∈ ixs.filter fun ix => isOwnerSpend ix.kind := List.mem_filter.2 ⟨hs, hspend⟩
    rw [List.isEmpty_iff.1 hempty] at hmem
    cases hmem
  · split
    · next hany =>
      obtain ⟨s, hs, hflag⟩ := List.any_eq_true.1 hany
      obtain ⟨hs, hspend⟩ := List.mem_filter.1 hs
      exact iff_of_true rfl ⟨s, hs, hspend, by simpa using hflag⟩
    · next hany =>
      refine iff_of_false nofun ?_
      rintro ⟨s, hs, hspend, hflag⟩
      exact hany (List.any_eq_true.2 ⟨s, List.mem_filter.2 ⟨hs, hspend⟩, by simpa using hflag⟩)

theorem classifySignRisk_critical {summary : TransactionSummary} : classifySignRisk summary = .critical ↔
    (∃ s ∈ summary.instructions, isCriticalInstruction s.kind = true) ∨ ownerSpendRisk summary.instructions = some .critical := by
  rw [classifySignRisk]
  by_cases hcritical : (summary.instructions.any fun ix => isCriticalInstruction ix.kind) = true
  · rw [if_pos hcritical]
    exact iff_of_true rfl (Or.inl (List.any_eq_true.1 hcritical))
  · rw [if_neg hcritical, or_iff_right fun h => hcritical (List.any_eq_true.2 h)]
    by_cases howner : ownerSpendRisk summary.instructions = some .critical
    · exact iff_of_true (if_pos howner) howner
    · refine iff_of_false (fun h => ?_) howner
      dsimp only at h
      rw [if_neg howner] at h
      split at h
      · cases h
      · split at h <;> cases h

/-- Related lists have related items. -/
theorem exists_iff_of_forall₂ {α β : Type} {R : α → β → Prop} {P : α → Prop} {Q : β → Prop} {as : List α} {bs : List β}
    (h : List.Forall₂ R as bs) (hPQ : ∀ a b, R a b → (P a ↔ Q b)) : (∃ a ∈ as, P a) ↔ ∃ b ∈ bs, Q b := by
  induction h with
  | nil => simp
  | cons hab _ ih => rw [List.exists_mem_cons_iff, List.exists_mem_cons_iff, hPQ _ _ hab, ih]

/-- **What is critical** in an accepted transaction. -/
theorem classifySignRisk_flagged {policyData : Bytes → Outcome WalletPolicyData} {tx : DecodedV1Transaction} {owner : Pubkey}
    {summary : TransactionSummary} (h : evaluatePolicy policyData tx owner = .ok summary) :
    classifySignRisk summary = .critical ↔ Flagged tx := by
  have hall := (evaluatePolicy_ok h).2
  have hcritical : (∃ ix ∈ tx.message.compiled.instructions, instructionOf (ix.data.getD []) = some .clearAuthority ∨
      instructionOf (ix.data.getD []) = some .clearWalletPolicy) ↔
      ∃ s ∈ summary.instructions, isCriticalInstruction s.kind = true := by
    refine exists_iff_of_forall₂ hall fun ix s hs => ?_
    rw [parseInstruction_kind hs, Option.some.injEq, Option.some.injEq, isCriticalInstruction, Bool.or_eq_true,
      decide_eq_true_iff, decide_eq_true_iff]
  have howner : ((∃ ix ∈ tx.message.compiled.instructions, ownerInners ix = some []) ∨
      ∃ ix ∈ tx.message.compiled.instructions, ∃ inners, ownerInners ix = some inners ∧ ∃ c ∈ inners, c.UnknownMemo) ↔
      ownerSpendRisk summary.instructions = some .critical := by
    have hdisj : ((∃ ix ∈ tx.message.compiled.instructions, ownerInners ix = some []) ∨
        ∃ ix ∈ tx.message.compiled.instructions, ∃ inners, ownerInners ix = some inners ∧ ∃ c ∈ inners, c.UnknownMemo) ↔
        ∃ ix ∈ tx.message.compiled.instructions, ownerInners ix = some [] ∨
          ∃ inners, ownerInners ix = some inners ∧ ∃ c ∈ inners, c.UnknownMemo := by
      simp only [and_or_left, exists_or]
    rw [hdisj, ownerSpendRisk_critical]
    refine exists_iff_of_forall₂ hall fun ix s hs => ?_
    cases hspend : isOwnerSpend s.kind with
    | false =>
      rw [ownerInners_eq_none hs hspend]
      simp
    | true =>
      obtain ⟨inners, hinners, hinner⟩ := parseInstruction_inners hs hspend
      rw [hinners, hinner, Option.getD_some, List.isEmpty_map, List.any_map, and_iff_right rfl, Option.some.injEq,
        List.isEmpty_iff, List.any_eq_true]
      refine or_congr_right ?_
      simp only [Option.some.injEq, exists_eq_left', Function.comp_apply, isUnknownRow_summary]
  rw [classifySignRisk_critical, Flagged, hcritical, howner]

/-- An instruction that is not decoded is no memo. -/
theorem not_isMemo_of_undecoded {c : InnerCall} (h : c.Undecoded) : isMemo c.programAddress.text = false := by
  unfold InnerCall.Undecoded at h
  dsimp only at h
  split at h
  · next hsystem =>
    rw [hsystem]
    decide +kernel
  · split at h
    · exact h.elim
    · next hmemo => exact Bool.not_eq_true _ ▸ hmemo

/-- **Unknown inner instructions**: no instruction that is not decoded is a reason for a critical risk, so a transaction
is critical exactly where something else of it is flagged. -/
theorem unknown_inner_critical {policyData : Bytes → Outcome WalletPolicyData} {tx : DecodedV1Transaction} {owner : Pubkey}
    {summary : TransactionSummary} (h : evaluatePolicy policyData tx owner = .ok summary) :
    (∀ c : InnerCall, c.Undecoded → isUnknownRow c.summary = false) ∧ (classifySignRisk summary = .critical ↔ Flagged tx) := by
  refine ⟨fun c hc => ?_, classifySignRisk_flagged h⟩
  rw [Bool.eq_false_iff]
  intro hrow
  have hmemo := ((isUnknownRow_summary c).1 hrow).1
  rw [not_isMemo_of_undecoded hc] at hmemo
  cases hmemo

/-! ## An example -/

/-- Two bytes for an unknown program, as an inner instruction of `execute_with_authority`. -/
def unknownData : Bytes :=
  PhygitalWalletInstruction.executeWithAuthority.discriminator ++ Borsh.encodeVec CompactInstruction.encode [⟨2, [1], [9, 9]⟩]

def unknownMessage : DecodedMessage where
  version := .v1
  signers := [.fill 6]
  compiled :=
    { accountKeys := ownerKeys
      instructions := [⟨crateId, some ownerMetas, some unknownData⟩]
      length_le := length_ownerKeys
      mem := by decide +kernel
      feePayer_role := by decide +kernel
      coherent := by decide +kernel }
  config := none
  signer_role := by decide +kernel

def unknownTx : DecodedV1Transaction := ⟨[], unknownMessage⟩

theorem unknownTx_undecoded : HasUndecoded unknownTx := by
  refine ⟨_, List.mem_cons_self, [⟨.fill 1, [.fill 6], [9, 9]⟩], by decide +kernel, _, List.mem_cons_self, ?_⟩
  unfold InnerCall.Undecoded
  decide +kernel

theorem unknown_inner_critical_accepted : ∃ summary, evaluatePolicy noPolicyData unknownTx (.fill 6) = .ok summary ∧
    (∀ c : InnerCall, c.Undecoded → isUnknownRow c.summary = false) ∧ (classifySignRisk summary = .critical ↔ Flagged unknownTx) := by
  have haccepted : (evaluatePolicy noPolicyData unknownTx (.fill 6)).isOk = true := by decide +kernel
  cases hsummary : evaluatePolicy noPolicyData unknownTx (.fill 6) with
  | error e =>
    rw [hsummary] at haccepted
    cases haccepted
  | ok summary => exact ⟨summary, rfl, unknown_inner_critical hsummary⟩

/-- The unknown program is called at an elevated risk. -/
theorem unknown_inner_critical_elevated : ∃ summary, evaluatePolicy noPolicyData unknownTx (.fill 6) = .ok summary ∧
    HasUndecoded unknownTx ∧ classifySignRisk summary = .elevated := by
  have hrisk : (evaluatePolicy noPolicyData unknownTx (.fill 6)).map classifySignRisk = .ok .elevated := by decide +kernel
  cases hsummary : evaluatePolicy noPolicyData unknownTx (.fill 6) with
  | error e =>
    rw [hsummary] at hrisk
    cases hrisk
  | ok summary =>
    rw [hsummary] at hrisk
    exact ⟨summary, rfl, unknownTx_undecoded, Except.ok.inj hrisk⟩

end PhygitalWallet.Secure
