import PhygitalWallet.Lib.FixedPoint
import PhygitalWallet.Secure.Parser

/-!
# What is shown of the layouts that the app builds

Clear-signing decodes the instructions of sends and top-ups. A layout is said by its bytes, and what an entry has to show of
it by the numbers and keys themselves: a number by a text that is read back, a key by its ends.

- `Layout`, `HasLayout`: the layouts, and the data that has one;
- `Layout.Shown`: what an entry shows of a layout;
- `shown_of_hasLayout`, `sends_of_title`: every layout is shown, and no entry shows a send without one.
-/

namespace PhygitalWallet.Secure

open ByteSeq JsText Utf8

/-! ## Layouts -/

inductive Layout
  | transferSol (lamports : Nat)
  | memo (text : List Char)
  | transferChecked (kind : String) (amount decimals : Nat)
  | transfer (kind : String) (amount : Nat)
  | createTokenAccount
deriving DecidableEq, Repr

/-- The layout moves lamports or tokens. -/
def Layout.sends : Layout → Bool
  | .transferSol _ | .transferChecked .. | .transfer .. => true
  | .memo _ | .createTokenAccount => false

/-- The token programs, with what they are called. -/
def tokenKinds : List (String × String) := [(tokenText, "Token"), (token2022Text, "Token-2022")]

/-- The data of an instruction of the program, byte for byte; more bytes may follow. -/
inductive HasLayout (program : Pubkey) : Bytes → Layout → Prop
  | transferSol (lamports : UInt64) (rest : Bytes) (hprogram : program.text = systemText) :
    HasLayout program (toLE 4 2 ++ (toLE 8 lamports.toNat ++ rest)) (.transferSol lamports.toNat)
  | memo (text : String) (hprogram : program.text = memoText ∨ program.text = memoV1Text)
    (hmark : text.toList.head? ≠ some '\uFEFF') : HasLayout program (utf8Bytes text) (.memo text.toList)
  | transferChecked (kind : String) (amount : UInt64) (decimals : UInt8) (rest : Bytes)
    (hprogram : (program.text, kind) ∈ tokenKinds) :
    HasLayout program (12 :: (toLE 8 amount.toNat ++ decimals :: rest)) (.transferChecked kind amount.toNat decimals.toNat)
  | transfer (kind : String) (amount : UInt64) (rest : Bytes) (hprogram : (program.text, kind) ∈ tokenKinds) :
    HasLayout program (3 :: (toLE 8 amount.toNat ++ rest)) (.transfer kind amount.toNat)
  | createTokenAccount (rest : Bytes) (hprogram : program.text = ataText) :
    HasLayout program (1 :: rest) .createTokenAccount

/-! ## What an entry shows -/

/-- The text is the number, in decimals. -/
def Denotes (shown : String) (units decimals : Nat) : Prop := literal shown.toList = some ((units : Rat) / 10 ^ decimals)

/-- The text has the ends of the key. -/
def Abbreviates (shown : String) (key : Pubkey) : Prop :=
  ∃ front middle back, key.text.toList = front ++ middle ++ back ∧ shown.toList = front ++ '…' :: back ∧
    front.length = 4 ∧ back.length = 4

/-- A row has the ends of the account, or a question mark where there is none. -/
def InnerInstructionSummary.Names (entry : InnerInstructionSummary) (label : String) (i : Nat) : Prop :=
  ∃ shown, ⟨label, shown⟩ ∈ entry.details ∧ entry.accounts[i]?.elim (shown = "?") (Abbreviates shown)

/-- The amount of a mint. A known mint has its own decimals and its symbol. -/
def AmountShown (mint : Option Pubkey) (amount decimals : Nat) (shown : String) : Prop :=
  match mint with
  | none => Denotes shown amount decimals
  | some mint =>
    match knownMintMeta.lookup mint.text with
    | some known => ∃ number, shown = number ++ " " ++ known.symbol ∧ Denotes number amount known.decimals
    | none => ∃ number ends, shown = number ++ " · mint " ++ ends ∧ Denotes number amount decimals ∧ Abbreviates ends mint

def Layout.Shown (entry : InnerInstructionSummary) : Layout → Prop
  | .transferSol lamports => (∃ number, entry.title = "Send " ++ number ++ " SOL" ∧ Denotes number lamports 9) ∧
      entry.Names "From" 0 ∧ entry.Names "To" 1
  | .memo text => entry.title = "Memo" ∧ ∃ shown, entry.details = [⟨"Text", shown⟩] ∧
      (text = [] → shown = "(empty)") ∧ (text ≠ [] → utf16Length text ≤ 80 → shown.toList = text) ∧
      (80 < utf16Length text → shown.toList = takeUnits 77 text ++ ['…'])
  | .transferChecked kind amount decimals =>
      (∃ shown, entry.title = "Send " ++ shown ++ " (" ++ kind ++ ")" ∧
        AmountShown entry.accounts[1]? amount decimals shown) ∧
      entry.Names "Mint" 1 ∧ entry.Names "From" 0 ∧ entry.Names "To" 2
  | .transfer kind amount => entry.title = "Send tokens (" ++ kind ++ ")" ∧
      (∃ number, ⟨"Amount", number⟩ ∈ entry.details ∧ Denotes number amount 0) ∧ entry.Names "From" 0 ∧ entry.Names "To" 1
  | .createTokenAccount => entry.title = "Create token account" ∧ entry.Names "Owner" 2 ∧ entry.Names "Mint" 3

/-! ## Texts -/

theorem length_text (k : Pubkey) : 32 ≤ k.text.toList.length := by
  have hlen := BaseText.length_base58Chars k.bytes
  rw [k.length_eq] at hlen
  rw [Pubkey.text, BaseText.base58Of, String.toList_ofList]
  exact hlen

theorem text_ne_empty (k : Pubkey) : k.text ≠ "" := by
  intro h
  have hlen := length_text k
  rw [h] at hlen
  exact absurd hlen (by decide)

/-- An address is shortened to its ends. -/
theorem abbreviates_shorten (k : Pubkey) : Abbreviates (shorten k.text) k := by
  have hlen := length_text k
  refine ⟨k.text.toList.take 4, (k.text.toList.drop 4).take (k.text.toList.length - 8),
    k.text.toList.drop (k.text.toList.length - 4), ?_, ?_, ?_, ?_⟩
  · have hback : k.text.toList.drop (k.text.toList.length - 4) =
        (k.text.toList.drop 4).drop (k.text.toList.length - 8) := by
      rw [List.drop_drop]
      congr 1
      omega
    rw [hback, List.append_assoc, List.take_append_drop, List.take_append_drop]
  · rw [shorten, if_pos (by omega), String.toList_ofList, List.append_assoc]
    rfl
  · rw [List.length_take]
    omega
  · rw [List.length_drop]
    omega

theorem toList_toString (n : Nat) : (toString n).toList = Nat.toDigits 10 n := by
  rw [Nat.toString_eq_repr, Nat.repr, String.toList_ofList]

/-- Raw units are the decimal text. -/
theorem toList_formatUnits (raw decimals : Nat) : (formatUnits raw decimals).toList = fixedText raw decimals := by
  unfold formatUnits
  split
  · next hzero =>
    subst hzero
    rw [toList_toString]
    simp [fixedText, fractionText, padStart, dropZeros, Nat.mod_one]
  · dsimp only
    rw [toList_toString (raw % 10 ^ decimals)]
    show (if (fractionText (raw % 10 ^ decimals) decimals).isEmpty = true then toString (raw / 10 ^ decimals)
      else toString (raw / 10 ^ decimals) ++ "." ++ String.ofList (fractionText (raw % 10 ^ decimals) decimals)).toList = _
    unfold fixedText
    simp only [List.isEmpty_iff]
    split
    · exact toList_toString _
    · simp only [String.toList_append, toList_toString, String.toList_ofList, List.append_assoc]
      rfl

theorem denotes_formatUnits (raw decimals : Nat) : Denotes (formatUnits raw decimals) raw decimals := by
  rw [Denotes, toList_formatUnits, literal_fixedText]

theorem amountShown_none (amount decimals : Nat) : AmountShown none amount decimals (formatUnits amount decimals) :=
  denotes_formatUnits amount decimals

theorem amountShown_some (mint : Pubkey) (amount decimals : Nat) :
    AmountShown (some mint) amount decimals (formatTokenAmount amount mint.text (some decimals)) := by
  rw [formatTokenAmount, mintMeta, AmountShown]
  cases knownMintMeta.lookup mint.text with
  | none => exact ⟨_, _, rfl, denotes_formatUnits amount decimals, abbreviates_shorten mint⟩
  | some known => exact ⟨_, rfl, denotes_formatUnits amount known.decimals⟩

theorem mintText_eq (accounts : List String) :
    (if accounts[1]?.getD "" = "" then "?" else shorten (accounts[1]?.getD "")) = accountText accounts 1 := by
  unfold accountText
  cases accounts[1]? <;> rfl

/-- A row with the text of an account. -/
theorem names_accountText {program : Pubkey} {accounts : List Pubkey} {data : Bytes} {label : String} {i : Nat}
    (h : ⟨label, accountText (accounts.map Pubkey.text) i⟩ ∈ (innerSummary program accounts data).details) :
    (innerSummary program accounts data).Names label i := by
  refine ⟨_, h, ?_⟩
  show accounts[i]?.elim (accountText (accounts.map Pubkey.text) i = "?")
    (Abbreviates (accountText (accounts.map Pubkey.text) i))
  rw [accountText, List.getElem?_map]
  cases accounts[i]? with
  | none => rfl
  | some account =>
    show Abbreviates (if account.text = "" then "?" else shorten account.text) account
    rw [if_neg (text_ne_empty account)]
    exact abbreviates_shorten account

/-! ## Reading the data -/

section Data

variable {program : Pubkey} {accounts : List Pubkey} {data : Bytes} {layout : Layout}

theorem readLE_append {width n : Nat} (pre rest : Bytes) (h : n < 256 ^ width) :
    readLE width (pre ++ (toLE width n ++ rest)) pre.length = some n := by
  rw [readLE, if_neg (by simp), List.drop_left, List.take_left' (length_toLE width n), ofLE_toLE h]

/-- A number that is read stands at its offset. -/
theorem eq_of_readLE {width offset n : Nat} (h : readLE width data offset = some n) :
    n < 256 ^ width ∧ ∃ pre rest, data = pre ++ (toLE width n ++ rest) ∧ pre.length = offset := by
  unfold readLE at h
  split at h
  · cases h
  · next hfits =>
    obtain rfl := Option.some.inj h
    have hwidth : ((data.drop offset).take width).length = width := by
      rw [List.length_take, List.length_drop]
      omega
    have hlt := ofLE_lt ((data.drop offset).take width)
    rw [hwidth] at hlt
    refine ⟨hlt, data.take offset, (data.drop offset).drop width, ?_, ?_⟩
    · have hbytes := toLE_ofLE ((data.drop offset).take width)
      rw [hwidth] at hbytes
      rw [hbytes, List.take_append_drop, List.take_append_drop]
    · rw [List.length_take]
      omega

/-! ## Every layout is shown -/

theorem describeInnerInstruction_token {address kind : String} (h : (address, kind) ∈ tokenKinds) (accounts : List String)
    (data : Bytes) : describeInnerInstruction address accounts data = describeToken kind accounts data := by
  simp only [tokenKinds, List.mem_cons, Prod.mk.injEq, List.not_mem_nil, or_false] at h
  rcases h with ⟨rfl, rfl⟩ | ⟨rfl, rfl⟩
  · rw [describeInnerInstruction, if_neg (by decide), if_neg (by decide), if_pos rfl]
  · rw [describeInnerInstruction, if_neg (by decide), if_neg (by decide), if_neg (by decide), if_pos rfl]

/-- A transfer of lamports shows them, and the two accounts. -/
theorem shown_transferSol (lamports : UInt64) (rest : Bytes) (hprogram : program.text = systemText) :
    (Layout.transferSol lamports.toNat).Shown
      (innerSummary program accounts (toLE 4 2 ++ (toLE 8 lamports.toNat ++ rest))) := by
  have hlamports : readLE 8 (toLE 4 2 ++ (toLE 8 lamports.toNat ++ rest)) 4 = some lamports.toNat :=
    readLE_append (toLE 4 2) rest lamports.toNat_lt
  have hkind : readLE 4 (toLE 4 2 ++ (toLE 8 lamports.toNat ++ rest)) 0 = some 2 :=
    readLE_append [] (toLE 8 lamports.toNat ++ rest) (by decide)
  have hcleared : describeInnerInstruction program.text (accounts.map Pubkey.text)
      (toLE 4 2 ++ (toLE 8 lamports.toNat ++ rest)) = ⟨"Send " ++ formatUnits lamports.toNat 9 ++ " SOL",
        [⟨"From", accountText (accounts.map Pubkey.text) 0⟩, ⟨"To", accountText (accounts.map Pubkey.text) 1⟩]⟩ := by
    rw [describeInnerInstruction, if_pos hprogram, describeSystem, hkind, hlamports]
    rfl
  refine ⟨⟨_, congrArg ClearedInner.title hcleared, denotes_formatUnits _ 9⟩, names_accountText ?_, names_accountText ?_⟩
  all_goals
    rw [innerSummary, hcleared]
    simp

/-- A memo shows its text, or the start of it. -/
theorem shown_memo (text : String) (hprogram : program.text = memoText ∨ program.text = memoV1Text)
    (hmark : text.toList.head? ≠ some '\uFEFF') :
    (Layout.memo text.toList).Shown (innerSummary program accounts (utf8Bytes text)) := by
  have hne : program.text ≠ systemText := by
    rcases hprogram with h | h <;> rw [h] <;> decide
  have hcleared : describeInnerInstruction program.text (accounts.map Pubkey.text) (utf8Bytes text) =
      describeMemo (utf8Bytes text) := by
    rw [describeInnerInstruction, if_neg hne, if_pos hprogram]
  refine ⟨congrArg ClearedInner.title hcleared, _, congrArg ClearedInner.details hcleared, ?_⟩
  rw [decodeUtf8_utf8Bytes hmark]
  refine ⟨fun hnil => ?_, fun hne hshort => ?_, fun hlong => ?_⟩
  · rw [hnil]
    rfl
  · rw [if_neg (not_lt.2 hshort), if_neg (by simpa [List.isEmpty_iff] using hne), String.toList_ofList]
  · rw [if_pos hlong, if_neg (by simp [List.isEmpty_iff]), String.toList_ofList]

/-- A checked transfer of tokens shows the amount of its mint, and the three accounts. -/
theorem shown_transferChecked (kind : String) (amount : UInt64) (decimals : UInt8) (rest : Bytes)
    (hprogram : (program.text, kind) ∈ tokenKinds) : (Layout.transferChecked kind amount.toNat decimals.toNat).Shown
      (innerSummary program accounts (12 :: (toLE 8 amount.toNat ++ decimals :: rest))) := by
  have hamount : readLE 8 (12 :: (toLE 8 amount.toNat ++ decimals :: rest)) 1 = some amount.toNat :=
    readLE_append [12] (decimals :: rest) amount.toNat_lt
  have hdecimals : (12 :: (toLE 8 amount.toNat ++ decimals :: rest) : Bytes)[9]? = some decimals := by
    rw [List.getElem?_cons_succ, List.getElem?_append_right (by simp)]
    simp
  have hcleared : describeInnerInstruction program.text (accounts.map Pubkey.text)
      (12 :: (toLE 8 amount.toNat ++ decimals :: rest)) =
        describeTransferChecked kind (accounts.map Pubkey.text) amount.toNat decimals.toNat := by
    rw [describeInnerInstruction_token hprogram, describeToken, hamount, hdecimals]
    rfl
  refine ⟨⟨_, congrArg ClearedInner.title hcleared, ?_⟩, names_accountText ?_, names_accountText ?_, names_accountText ?_⟩
  · show AmountShown accounts[1]? _ _ _
    rw [List.getElem?_map]
    cases accounts[1]? with
    | none => exact amountShown_none _ _
    | some mint =>
      simp only [Option.map_some, Option.getD_some, if_neg (text_ne_empty mint)]
      exact amountShown_some mint _ _
  · rw [innerSummary, hcleared, describeTransferChecked]
    simp only [mintText_eq]
    simp
  all_goals
    rw [innerSummary, hcleared, describeTransferChecked]
    simp

/-- A plain transfer of tokens shows its raw amount, and the two accounts. -/
theorem shown_transfer (kind : String) (amount : UInt64) (rest : Bytes) (hprogram : (program.text, kind) ∈ tokenKinds) :
    (Layout.transfer kind amount.toNat).Shown (innerSummary program accounts (3 :: (toLE 8 amount.toNat ++ rest))) := by
  have hamount : readLE 8 (3 :: (toLE 8 amount.toNat ++ rest)) 1 = some amount.toNat :=
    readLE_append [3] rest amount.toNat_lt
  have hcleared : describeInnerInstruction program.text (accounts.map Pubkey.text) (3 :: (toLE 8 amount.toNat ++ rest)) =
      describeTransfer kind (accounts.map Pubkey.text) amount.toNat := by
    rw [describeInnerInstruction_token hprogram, describeToken, hamount]
    rfl
  refine ⟨congrArg ClearedInner.title hcleared, ⟨toString amount.toNat, ?_, ?_⟩, names_accountText ?_, names_accountText ?_⟩
  · rw [innerSummary, hcleared, describeTransfer]
    simp
  · simpa [formatUnits] using denotes_formatUnits amount.toNat 0
  all_goals
    rw [innerSummary, hcleared, describeTransfer]
    simp

/-- A new token account shows its owner and its mint. -/
theorem shown_createTokenAccount (rest : Bytes) (hprogram : program.text = ataText) :
    Layout.createTokenAccount.Shown (innerSummary program accounts (1 :: rest)) := by
  have hcleared : describeInnerInstruction program.text (accounts.map Pubkey.text) (1 :: rest) =
      ⟨"Create token account",
        [⟨"Owner", accountText (accounts.map Pubkey.text) 2⟩, ⟨"Mint", accountText (accounts.map Pubkey.text) 3⟩]⟩ := by
    rw [hprogram, describeInnerInstruction, if_neg (by decide), if_neg (by decide), if_neg (by decide),
      if_neg (by decide), if_pos rfl]
    rfl
  refine ⟨congrArg ClearedInner.title hcleared, names_accountText ?_, names_accountText ?_⟩
  all_goals
    rw [innerSummary, hcleared]
    simp

/-- **Every layout is shown.** -/
theorem shown_of_hasLayout (h : HasLayout program data layout) (accounts : List Pubkey) :
    layout.Shown (innerSummary program accounts data) := by
  cases h with
  | transferSol lamports rest hprogram => exact shown_transferSol lamports rest hprogram
  | memo text hprogram hmark => exact shown_memo text hprogram hmark
  | transferChecked kind amount decimals rest hprogram => exact shown_transferChecked kind amount decimals rest hprogram
  | transfer kind amount rest hprogram => exact shown_transfer kind amount rest hprogram
  | createTokenAccount rest hprogram => exact shown_createTokenAccount rest hprogram

/-! ## No send without a layout -/

/-- The title starts as those of sends do. -/
def Sends (title : String) : Prop := "Send ".toList <+: title.toList

theorem not_sends (title : String) (h : "Send ".toList.isPrefixOf title.toList = false) : ¬Sends title := by
  intro hprefix
  rw [List.isPrefixOf_iff_prefix.2 hprefix] at h
  cases h

theorem hasLayout_of_system (hprogram : program.text = systemText)
    (h : Sends (describeSystem (accounts.map Pubkey.text) data).title) :
    ∃ layout, HasLayout program data layout ∧ layout.sends = true := by
  unfold describeSystem at h
  split at h
  · next lamports hkind hlamports =>
    obtain ⟨-, pre, rest, hdata, hpre⟩ := eq_of_readLE hkind
    rw [List.length_eq_zero_iff.1 hpre, List.nil_append] at hdata
    obtain ⟨hlt, front, back, hdata', hfront⟩ := eq_of_readLE hlamports
    -- the first four bytes are the number of the instruction
    obtain ⟨rfl, -⟩ := List.append_inj (hdata'.symm.trans hdata) (by rw [hfront, length_toLE])
    have hlayout := HasLayout.transferSol (UInt64.ofNat lamports) back hprogram
    rw [UInt64.toNat_ofNat_of_lt' hlt, ← hdata'] at hlayout
    exact ⟨_, hlayout, rfl⟩
  · exact absurd h (not_sends "System program" (by decide))

theorem hasLayout_of_token {kind : String} (hprogram : (program.text, kind) ∈ tokenKinds)
    (h : Sends (describeToken kind (accounts.map Pubkey.text) data).title) :
    ∃ layout, HasLayout program data layout ∧ layout.sends = true := by
  unfold describeToken at h
  split at h
  · next amount decimals hkind hamount hdecimals =>
    obtain ⟨hlt, pre, rest, rfl, hpre⟩ := eq_of_readLE hamount
    obtain ⟨b, rfl⟩ := List.length_eq_one_iff.1 hpre
    obtain rfl := Option.some.inj hkind
    rw [List.singleton_append, List.getElem?_cons_succ, List.getElem?_append_right (by simp)] at hdecimals
    obtain ⟨rest, rfl⟩ : ∃ tail, rest = decimals :: tail := by
      cases rest with
      | nil => simp at hdecimals
      | cons d tail => exact ⟨tail, by simpa using hdecimals⟩
    have hlayout := HasLayout.transferChecked kind (UInt64.ofNat amount) decimals rest hprogram
    rw [UInt64.toNat_ofNat_of_lt' hlt] at hlayout
    exact ⟨_, hlayout, rfl⟩
  · next _ amount hkind hamount =>
    obtain ⟨hlt, pre, rest, rfl, hpre⟩ := eq_of_readLE hamount
    obtain ⟨b, rfl⟩ := List.length_eq_one_iff.1 hpre
    obtain rfl := Option.some.inj hkind
    have hlayout := HasLayout.transfer kind (UInt64.ofNat amount) rest hprogram
    rw [UInt64.toNat_ofNat_of_lt' hlt] at hlayout
    exact ⟨_, hlayout, rfl⟩
  · simp only [tokenKinds, List.mem_cons, Prod.mk.injEq, List.not_mem_nil, or_false] at hprogram
    rcases hprogram with ⟨-, rfl⟩ | ⟨-, rfl⟩
    · exact absurd h (not_sends "Token instruction" (by decide))
    · exact absurd h (not_sends "Token-2022 instruction" (by decide))

/-- **A title of a send stands for a layout of one.** -/
theorem sends_of_title (h : Sends (innerSummary program accounts data).title) :
    ∃ layout, HasLayout program data layout ∧ layout.sends = true := by
  change Sends (describeInnerInstruction program.text (accounts.map Pubkey.text) data).title at h
  unfold describeInnerInstruction at h
  split at h
  · next hprogram => exact hasLayout_of_system hprogram h
  · split at h
    · exact absurd h (not_sends "Memo" (by decide))
    · split at h
      · next hprogram => exact hasLayout_of_token (by simp [tokenKinds, hprogram]) h
      · split at h
        · next hprogram => exact hasLayout_of_token (by simp [tokenKinds, hprogram]) h
        · refine absurd h ?_
          split
          · split
            · exact not_sends "Create token account" (by decide)
            · exact not_sends "Associated token" (by decide)
          · split
            · exact not_sends "Transfer pNFT (Token Metadata)" (by decide)
            · split
              · exact not_sends "Transfer cNFT (Bubblegum)" (by decide)
              · split
                · exact not_sends "Transfer NFT (Core)" (by decide)
                · rintro ⟨tail, htail⟩
                  rw [String.toList_append] at htail
                  cases htail

end Data

end PhygitalWallet.Secure
