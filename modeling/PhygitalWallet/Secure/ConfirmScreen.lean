import PhygitalWallet.Secure.SignRisk

/-!
# The confirmation screen (`ui/ui.ts`)

The content of a transaction's confirmation: a hero, a callout, the primary rows, and the rows under "Details".

- `confirmHero`, `primaryRows`, `advancedRows`, `confirmSignTransaction`: the content;
- `Alters`: another title of an inner instruction, or another value of one of its rows;
- `Exposed`: the summaries whose inner instructions are shown in full;
- `confirm_shows_inner`: these are the summaries that no alteration leaves as they are.
-/

namespace PhygitalWallet.Secure

open JsText

/-! ## Labels (`tx/sign-risk.ts`) -/

def instructionLabel : PhygitalWalletInstruction → String
  | .executeWithAuthority | .executeWithAuthorityUsingPolicies => "Owner spend"
  | .clearAuthority => "Remove owner"
  | .setWalletPolicy => "Update policy"
  | .clearWalletPolicy => "Turn off protections"
  | .execute => "Accessory spend"
  | .setAuthority => "Set owner"

def instructionSubtitle : PhygitalWalletInstruction → Option String
  | .executeWithAuthority => some "Approved on this phone — bypasses accessory limits"
  | .executeWithAuthorityUsingPolicies => some "Uses your wallet limits"
  | .clearAuthority => some "This can’t be undone from here"
  | .setWalletPolicy => some "Changes spend limits and rules"
  | .clearWalletPolicy => some "A tap can spend without checks until you restore protections"
  | .execute | .setAuthority => none

def riskCallout (ixs : List ParsedInstructionSummary) : Option String :=
  let kinds := ixs.map ParsedInstructionSummary.kind
  if .clearAuthority ∈ kinds then some "Removes the owner key from this accessory."
  else if .clearWalletPolicy ∈ kinds then
    some ("Turns off all accessory spend checks. Anyone with the item can move funds until you restore " ++
      "protections.")
  else if .setWalletPolicy ∈ kinds then some "Updates how this wallet can spend."
  else if .executeWithAuthority ∈ kinds ∨ .executeWithAuthorityUsingPolicies ∈ kinds then
    some ("This spend uses your owner key and can bypass accessory limits. Confirm the amount and destination " ++
      "carefully.")
  else none

/-! ## Titles -/

def isWordChar (c : Char) : Bool := c.isAlphanum || c = '_'

/-- `/^Send\b/i.test(title)`. -/
def isSendChars : List Char → Bool
  | s :: e :: n :: d :: rest =>
    [s, e, n, d].map Char.toLower = ['s', 'e', 'n', 'd'] && rest.head?.all fun c => !isWordChar c
  | _ => false

def isSendTitle (title : String) : Bool := isSendChars title.toList

/-- Without the white space at the end. -/
def trimEnd (cs : List Char) : List Char := (cs.reverse.dropWhile isSpace).reverse

/-- What stands before a suffix of small letters, in any case. -/
def beforeSuffix (suffix cs : List Char) : Option (List Char) :=
  if (cs.drop (cs.length - suffix.length)).map Char.toLower = suffix then some (cs.take (cs.length - suffix.length))
  else none

/-- `title.replace(/\s*\((Token(?:-2022)?)\)\s*$/i, "")`. -/
def withoutTokenKind (cs : List Char) : List Char :=
  match (beforeSuffix "(token)".toList (trimEnd cs)).or (beforeSuffix "(token-2022)".toList (trimEnd cs)) with
  | some front => trimEnd front
  | none => cs

def heroTitle (title : String) : String := String.ofList (trim (withoutTokenKind title.toList))

example : heroTitle "Send 1.5 USDC (Token-2022)" = "Send 1.5 USDC" ∧ isSendTitle "Sender" = false := by decide +kernel

/-! ## The parts of the screen -/

structure Hero where
  title : String
  subtitle : Option String
deriving DecidableEq, Repr

def pickToSubtitle (details : List DetailRow) : Option String :=
  (details.find? fun d => d.label = "To").map fun d => "To " ++ d.value

/-- `.replace(/^To /, "")`. -/
def withoutTo (text : String) : String := if startsWith text "To " then String.ofList (text.toList.drop 3) else text

def spendsOf (summary : TransactionSummary) : List InnerInstructionSummary :=
  summary.instructions.flatMap fun ix => ix.inner.getD []

def confirmHero (summary : TransactionSummary) : Hero :=
  let spends := spendsOf summary
  match spends.find? fun s => isSendTitle s.title, spends with
  | some send, _ => ⟨heroTitle send.title, pickToSubtitle send.details⟩
  | none, [spend] => ⟨spend.title, pickToSubtitle spend.details⟩
  | none, _ :: _ :: _ =>
    ⟨toString spends.length ++ " actions", some (" · ".intercalate (spends.map InnerInstructionSummary.title))⟩
  | none, [] =>
    match summary.instructions with
    | [] => ⟨"Authorize", none⟩
    | first :: _ => ⟨instructionLabel first.kind, instructionSubtitle first.kind⟩

def primaryRows (summary : TransactionSummary) : List DetailRow :=
  match spendsOf summary with
  | [spend] => spend.details.filter fun d => d.label = "To" ∨ d.label = "From" ∨ d.label = "Text"
  | [] => summary.instructions.flatMap fun ix => ix.details.take 4
  | spends => spends.zipIdx.map fun (s, i) =>
    ⟨if spends.length ≤ 3 then s.title else "Action " ++ toString (i + 1),
      ((pickToSubtitle s.details).map withoutTo).getD "—"⟩

/-- `shorten` of the screen. -/
def shortenWide (addr : String) : String :=
  let chars := addr.toList
  if 12 < chars.length then String.ofList (chars.take 6 ++ ['…'] ++ chars.drop (chars.length - 6)) else addr

def rowKey (row : DetailRow) : String := row.label ++ "|" ++ row.value

/-- The rows of an inner instruction under "Details". -/
def mintRows (inner : InnerInstructionSummary) : List DetailRow :=
  inner.details.filter fun d => d.label = "Mint" ∨ d.label = "Owner"

/-- The rows of the `i`-th of several instructions under "Details". -/
def instructionRows (count : Nat) (primary : List DetailRow) (entry : ParsedInstructionSummary × Nat) :
    List DetailRow :=
  let (ix, i) := entry
  let step := if 1 < count then [⟨"Step " ++ toString (i + 1), instructionLabel ix.kind⟩] else []
  step ++ ix.details.filter (fun d => rowKey d ∉ primary.map rowKey) ++ (ix.inner.getD []).flatMap mintRows

def configRows (config : TransactionConfig) : List DetailRow :=
  (config.priorityFeeLamports.map fun fee => (⟨"Priority fee", formatUnits fee 9 ++ " SOL"⟩ : DetailRow)).toList ++
    (config.computeUnitLimit.map fun units => (⟨"Compute units", toString units⟩ : DetailRow)).toList

def advancedRows (summary : TransactionSummary) (primary : List DetailRow) : List DetailRow :=
  ⟨"Wallet", shortenWide summary.walletAddress⟩ ::
    summary.instructions.zipIdx.flatMap (instructionRows summary.instructions.length primary) ++
      configRows summary.config

structure Callout where
  danger : Bool
  text : String
deriving DecidableEq, Repr

/-- The content; the layout of a row follows from its value. -/
structure SignContent where
  hero : Hero
  callout : Option Callout
  primary : List DetailRow
  advanced : List DetailRow
  cta : String
deriving DecidableEq, Repr

def confirmSignTransaction (summary : TransactionSummary) : SignContent :=
  let critical : Bool := classifySignRisk summary = .critical
  let hero := confirmHero summary
  let primary := primaryRows summary
  { hero := { hero with subtitle := hero.subtitle.filter fun subtitle => subtitle ≠ "" }
    callout := (riskCallout summary.instructions).map fun text => ⟨critical, text⟩
    primary
    advanced := advancedRows summary primary
    cta := if critical then "Continue with passkey" else "Authorize with passkey" }

/-- The texts of the hero and the rows. -/
def SignContent.texts (screen : SignContent) : List String :=
  screen.hero.title :: screen.hero.subtitle.toList ++
    (screen.primary ++ screen.advanced).flatMap fun row => [row.label, row.value]

/-- The text can be read on the screen. -/
def SignContent.Shows (screen : SignContent) (text : String) : Prop := ∃ t ∈ screen.texts, includes t text = true

/-! ## Alterations -/

/-- The rows of an inner instruction that say what it does. -/
def actionLabels : List String := ["Amount", "From", "To", "Mint"]

/-- Another title, or another value of one such row. -/
inductive Altered (s : InnerInstructionSummary) : InnerInstructionSummary → Prop
  | title {title : String} (h : title ≠ s.title) : Altered s { s with title }
  | value {front back : List DetailRow} {row : DetailRow} {value : String} (hdetails : s.details = front ++ row :: back)
      (hlabel : row.label ∈ actionLabels) (h : value ≠ row.value) :
      Altered s { s with details := front ++ { row with value } :: back }

/-- A place for an inner instruction. -/
structure Place where
  before : List ParsedInstructionSummary
  ix : ParsedInstructionSummary
  after : List ParsedInstructionSummary
  front : List InnerInstructionSummary
  back : List InnerInstructionSummary

/-- The summary with this inner instruction at the place. -/
def Place.fill (p : Place) (base : TransactionSummary) (s : InnerInstructionSummary) : TransactionSummary :=
  { base with instructions := p.before ++ { p.ix with inner := some (p.front ++ s :: p.back) } :: p.after }

/-- The two summaries differ in one title or value of an inner instruction. -/
def Alters (summary summary' : TransactionSummary) : Prop :=
  ∃ (p : Place) (s s' : InnerInstructionSummary),
    summary = p.fill summary s ∧ Altered s s' ∧ summary' = p.fill summary s'

/-- Every inner title and every value of the rows can be read, and no alteration leaves the screen as it is. -/
structure ShowsInner (summary : TransactionSummary) : Prop where
  titles : ∀ s ∈ spendsOf summary, (confirmSignTransaction summary).Shows s.title
  values : ∀ s ∈ spendsOf summary, ∀ row ∈ s.details, row.label ∈ actionLabels →
    (confirmSignTransaction summary).Shows row.value
  distinct : ∀ summary', Alters summary summary' → confirmSignTransaction summary' ≠ confirmSignTransaction summary

/-- At most one recipient and nothing of an amount or a source. -/
def OnlyTo (s : InnerInstructionSummary) : Prop :=
  (∀ row ∈ s.details, row.label ≠ "Amount" ∧ row.label ≠ "From") ∧ (s.details.filter fun d => d.label = "To").length ≤ 1

/-- What the screen shows in full: one action that is no transfer and has no amount; or several, at most with
recipients, and no transfer when they are more than three. -/
def Exposed (summary : TransactionSummary) : Prop :=
  match spendsOf summary with
  | [] => True
  | [s] => isSendTitle s.title = false ∧ ∀ row ∈ s.details, row.label ≠ "Amount"
  | spends => (∀ s ∈ spends, OnlyTo s) ∧ (3 < spends.length → ∀ s ∈ spends, isSendTitle s.title = false)

/-! ## Titles of transfers -/

theorem trimEnd_blank (cs : List Char) : trimEnd (cs ++ [' ']) = trimEnd cs := by
  rw [trimEnd, trimEnd, List.reverse_append, List.reverse_singleton, List.singleton_append,
    List.dropWhile_cons_of_pos (by decide)]

theorem trim_eq_trimEnd (cs : List Char) : trim cs = trimEnd (cs.dropWhile isSpace) := rfl

theorem trim_blank (cs : List Char) : trim (cs ++ [' ']) = trim cs := by
  rw [trim_eq_trimEnd, trim_eq_trimEnd, List.dropWhile_append]
  split
  · next hall =>
    rw [List.isEmpty_iff.1 hall]
    rfl
  · exact trimEnd_blank _

/-- A blank at the end does not show. -/
theorem heroTitle_blank (title : String) : heroTitle (title ++ " ") = heroTitle title := by
  have hlist : (title ++ " ").toList = title.toList ++ [' '] := by simp
  rw [heroTitle, heroTitle, withoutTokenKind, withoutTokenKind, hlist, trimEnd_blank]
  split
  · rfl
  · rw [trim_blank]

theorem isSendChars_cons {s e n d : Char} {rest : List Char} : isSendChars (s :: e :: n :: d :: rest) = true ↔
    [s, e, n, d].map Char.toLower = ['s', 'e', 'n', 'd'] ∧ ∀ c ∈ rest.head?, isWordChar c = false := by
  rw [isSendChars, Bool.and_eq_true, decide_eq_true_iff]
  refine and_congr_right fun _ => ?_
  cases rest <;> simp

theorem isSendChars_iff {cs : List Char} : isSendChars cs = true ↔ ∃ s e n d rest, cs = s :: e :: n :: d :: rest ∧
    [s, e, n, d].map Char.toLower = ['s', 'e', 'n', 'd'] ∧ ∀ c ∈ rest.head?, isWordChar c = false := by
  constructor
  · intro h
    match cs, h with
    | s :: e :: n :: d :: rest, h => exact ⟨s, e, n, d, rest, rfl, isSendChars_cons.1 h⟩
  · rintro ⟨s, e, n, d, rest, rfl, h⟩
    exact isSendChars_cons.2 h

/-- Nor does it make a transfer of another title, or take one away. -/
theorem isSendTitle_blank {title : String} (h : isSendTitle title = true) : isSendTitle (title ++ " ") = true := by
  have hlist : (title ++ " ").toList = title.toList ++ [' '] := by simp
  obtain ⟨s, e, n, d, rest, htitle, hsend, hrest⟩ := isSendChars_iff.1 h
  rw [isSendTitle, hlist, htitle]
  refine isSendChars_cons.2 ⟨hsend, fun c hc => ?_⟩
  cases rest with
  | nil =>
    obtain rfl := Option.some.inj hc
    rfl
  | cons c' rest => exact hrest c hc

/-- A part of a transfer's title that keeps the word. -/
theorem isSendChars_of_take {cs part : List Char} (hpart : part <+: cs) (hlen : 4 ≤ part.length)
    (h : isSendChars cs = true) : isSendChars part = true := by
  obtain ⟨s, e, n, d, rest, rfl, hsend, hrest⟩ := isSendChars_iff.1 h
  obtain ⟨tail, htail⟩ := hpart
  match part, hlen, htail with
  | s' :: e' :: n' :: d' :: part, _, htail =>
    simp only [List.cons_append, List.cons.injEq] at htail
    obtain ⟨rfl, rfl, rfl, rfl, rfl⟩ := htail
    refine isSendChars_cons.2 ⟨hsend, fun c hc => hrest c ?_⟩
    cases part with
    | nil => cases hc
    | cons c' part => exact hc

theorem trimEnd_isPrefix (cs : List Char) : trimEnd cs <+: cs := by
  rw [trimEnd, ← List.reverse_suffix, List.reverse_reverse]
  exact List.dropWhile_suffix isSpace

/-- What ends with a visible character stays. -/
theorem le_length_trimEnd (front : List Char) {c : Char} (hc : isSpace c = false) (rest : List Char) :
    front.length + 1 ≤ (trimEnd (front ++ c :: rest)).length := by
  have hdrop : c :: front.reverse <:+ (rest.reverse ++ c :: front.reverse).dropWhile isSpace := by
    rw [List.dropWhile_append]
    split
    · rw [List.dropWhile_cons_of_neg (by simp [hc])]
    · exact List.suffix_append _ _
  rw [trimEnd, List.length_reverse, List.reverse_append, List.reverse_cons, List.append_assoc, List.singleton_append]
  simpa using hdrop.length_le

theorem toLower_of_isSpace {c : Char} (h : isSpace c = true) : c.toLower = c := by
  refine toLower_of_not_capital ?_
  rintro ⟨hlow, hhigh⟩
  rw [isSpace_of_visible ⟨by omega, by omega⟩] at h
  cases h

theorem isSpace_of_toLower {c x : Char} (hx : isSpace x = false) (h : c.toLower = x) : isSpace c = false := by
  rw [Bool.eq_false_iff]
  intro hc
  rw [toLower_of_isSpace hc] at h
  rw [h, hx] at hc
  cases hc

/-- The four letters of a transfer's title. -/
structure SendLetters (s e n d : Char) : Prop where
  lower : [s, e, n, d].map Char.toLower = ['s', 'e', 'n', 'd']

namespace SendLetters

variable {s e n d : Char} (h : SendLetters s e n d)
include h

theorem first : isSpace s = false := isSpace_of_toLower (x := 's') (by decide) (List.cons.inj h.lower).1

theorem last : isSpace d = false := by
  have hlower := h.lower
  simp only [List.map_cons, List.map_nil, List.cons.injEq, and_true] at hlower
  exact isSpace_of_toLower (x := 'd') (by decide) hlower.2.2.2

/-- The end of the title stays behind the word. -/
theorem four_le_trimEnd (rest : List Char) : 4 ≤ (trimEnd (s :: e :: n :: d :: rest)).length :=
  le_length_trimEnd [s, e, n] h.last rest

/-- A suffix that starts with a bracket lies behind the word. -/
theorem four_le_before {suffix rest front : List Char} (hsuffix : suffix.head? = some '(')
    (hfront : beforeSuffix suffix (s :: e :: n :: d :: rest) = some front) : 4 ≤ front.length := by
  unfold beforeSuffix at hfront
  split at hfront
  · next heq =>
    obtain rfl := Option.some.inj hfront
    rw [List.length_take]
    generalize hk : (s :: e :: n :: d :: rest).length - suffix.length = k at heq
    have hlower := h.lower
    simp only [List.map_cons, List.map_nil, List.cons.injEq, and_true] at hlower
    obtain ⟨hs, he, hn, hd⟩ := hlower
    rw [← heq] at hsuffix
    by_contra hshort
    simp only [List.length_cons] at hshort
    obtain rfl | rfl | rfl | rfl : k = 0 ∨ k = 1 ∨ k = 2 ∨ k = 3 := by omega
    · simp [hs] at hsuffix
    · simp [he] at hsuffix
    · simp [hn] at hsuffix
    · simp [hd] at hsuffix
  · cases hfront

end SendLetters

/-- **The title of a transfer** is shown as the title of a transfer. -/
theorem isSendTitle_heroTitle {title : String} (h : isSendTitle title = true) :
    isSendTitle (heroTitle title) = true := by
  obtain ⟨s, e, n, d, rest, htitle, hlower, -⟩ := isSendChars_iff.1 h
  have hword : SendLetters s e n d := ⟨hlower⟩
  -- every step cuts off an end of the title behind its first four characters
  have hcut : ∀ part : List Char, part <+: title.toList → 4 ≤ part.length →
      ∃ rest', part = s :: e :: n :: d :: rest' := by
    intro part hpart hlen
    rw [htitle] at hpart
    obtain ⟨tail, htail⟩ := hpart
    match part, hlen, htail with
    | s' :: e' :: n' :: d' :: part, _, htail =>
      simp only [List.cons_append, List.cons.injEq] at htail
      obtain ⟨rfl, rfl, rfl, rfl, -⟩ := htail
      exact ⟨part, rfl⟩
  have hkind : withoutTokenKind title.toList <+: title.toList ∧ 4 ≤ (withoutTokenKind title.toList).length := by
    rw [withoutTokenKind]
    have hbody : trimEnd title.toList <+: title.toList := trimEnd_isPrefix _
    have hbodyLength : 4 ≤ (trimEnd title.toList).length := htitle ▸ hword.four_le_trimEnd rest
    obtain ⟨rest', hbody'⟩ := hcut _ hbody hbodyLength
    split
    · next front hfront =>
      have hbefore : front <+: trimEnd title.toList ∧ 4 ≤ front.length := by
        rcases Option.or_eq_some_iff.1 hfront with hfront | ⟨-, hfront⟩
        all_goals
          refine ⟨?_, hword.four_le_before (by decide) (hbody' ▸ hfront)⟩
          unfold beforeSuffix at hfront
          split at hfront
          · obtain rfl := Option.some.inj hfront
            exact List.take_prefix _ _
          · cases hfront
      obtain ⟨rest'', rfl⟩ := hcut front (hbefore.1.trans hbody) hbefore.2
      exact ⟨(trimEnd_isPrefix _).trans (hbefore.1.trans hbody), hword.four_le_trimEnd rest''⟩
    · exact ⟨List.prefix_rfl, by simp [htitle]⟩
  obtain ⟨rest', hrest'⟩ := hcut _ hkind.1 hkind.2
  have htrim : trim (withoutTokenKind title.toList) = trimEnd (withoutTokenKind title.toList) := by
    rw [trim_eq_trimEnd, hrest', List.dropWhile_cons_of_neg (by simp [hword.first])]
  rw [isSendTitle, heroTitle, String.toList_ofList, htrim]
  refine isSendChars_of_take ((trimEnd_isPrefix _).trans hkind.1) ?_ h
  rw [hrest']
  exact hword.four_le_trimEnd rest'

/-! ## Places -/

/-- The inner instructions of an instruction. -/
def innersOf (ix : ParsedInstructionSummary) : List InnerInstructionSummary := ix.inner.getD []

theorem exists_inner : ∀ {ixs : List ParsedInstructionSummary} {left right : List InnerInstructionSummary}
    {s : InnerInstructionSummary}, ixs.flatMap innersOf = left ++ s :: right →
    ∃ before ix after front back, ixs = before ++ ix :: after ∧ ix.inner = some (front ++ s :: back) ∧
      before.flatMap innersOf ++ front = left ∧ back ++ after.flatMap innersOf = right
  | [], _, _, _, h => by simp at h
  | ix :: ixs, left, right, s, h => by
    rw [List.flatMap_cons] at h
    -- the inner instruction is behind those of the first instruction, or one of them
    have hlater : ∀ left', left = innersOf ix ++ left' → ixs.flatMap innersOf = left' ++ s :: right →
        ∃ before ix' after front back, ix :: ixs = before ++ ix' :: after ∧ ix'.inner = some (front ++ s :: back) ∧
          before.flatMap innersOf ++ front = left ∧ back ++ after.flatMap innersOf = right := by
      rintro left' rfl hrest
      obtain ⟨before, ix', after, front, back, rfl, hinner, hleft, hright⟩ := exists_inner hrest
      exact ⟨ix :: before, ix', after, front, back, rfl, hinner, by rw [List.flatMap_cons, List.append_assoc, hleft],
        hright⟩
    rcases List.append_eq_append_iff.1 h with ⟨left', hleft, hrest⟩ | ⟨cut, hix, hcut⟩
    · exact hlater left' hleft hrest
    · cases cut with
      | nil => exact hlater [] (by rw [List.append_nil] at hix ⊢; exact hix.symm) hcut.symm
      | cons s' back =>
        obtain ⟨rfl, hright⟩ := List.cons.inj hcut
        refine ⟨[], ix, ixs, left, back, rfl, ?_, rfl, hright.symm⟩
        cases hinner : ix.inner with
        | none =>
          rw [innersOf, hinner] at hix
          simp at hix
        | some inner =>
          rw [innersOf, hinner, Option.getD_some] at hix
          rw [hix]

namespace Place

variable (p : Place) (base : TransactionSummary)

def left : List InnerInstructionSummary := p.before.flatMap innersOf ++ p.front

def right : List InnerInstructionSummary := p.back ++ p.after.flatMap innersOf

theorem spendsOf_fill (s : InnerInstructionSummary) : spendsOf (p.fill base s) = p.left ++ s :: p.right := by
  show (p.fill base s).instructions.flatMap innersOf = _
  rw [fill, left, right]
  simp [innersOf]

/-- Every inner instruction has its place. -/
theorem exists_fill {summary : TransactionSummary} {left right : List InnerInstructionSummary}
    {s : InnerInstructionSummary} (h : spendsOf summary = left ++ s :: right) :
    ∃ p : Place, summary = p.fill summary s ∧ p.left = left ∧ p.right = right := by
  obtain ⟨before, ix, after, front, back, hixs, hinner, hleft, hright⟩ := exists_inner h
  refine ⟨⟨before, ix, after, front, back⟩, ?_, hleft, hright⟩
  rw [fill, ← hinner, ← hixs]

theorem riskCallout_fill (s s' : InnerInstructionSummary) :
    riskCallout (p.fill base s').instructions = riskCallout (p.fill base s).instructions := by
  have hkinds : (p.fill base s').instructions.map ParsedInstructionSummary.kind =
      (p.fill base s).instructions.map ParsedInstructionSummary.kind := by
    simp [fill]
  rw [riskCallout, riskCallout, hkinds]

/-- The risk depends on whether the row is an unknown one. -/
theorem classifySignRisk_fill {s s' : InnerInstructionSummary} (h : isUnknownRow s' = isUnknownRow s) :
    classifySignRisk (p.fill base s') = classifySignRisk (p.fill base s) := by
  have hcritical : ∀ f : PhygitalWalletInstruction → Bool, ((p.fill base s').instructions.any fun ix => f ix.kind) =
      (p.fill base s).instructions.any fun ix => f ix.kind := by
    intro f
    simp [fill]
  have howner : ownerSpendRisk (p.fill base s').instructions = ownerSpendRisk (p.fill base s).instructions := by
    rw [ownerSpendRisk, ownerSpendRisk, fill, fill]
    simp only [List.filter_append, List.filter_cons]
    cases isOwnerSpend p.ix.kind with
    | false => rfl
    | true => simp [h]
  rw [classifySignRisk, classifySignRisk, hcritical, hcritical, howner]

/-- The rows under "Details" that come from the inner instruction. -/
theorem advancedRows_fill (primary : List DetailRow) :
    ∃ above below, ∀ s, advancedRows (p.fill base s) primary = above ++ mintRows s ++ below := by
  refine ⟨⟨"Wallet", shortenWide base.walletAddress⟩ ::
      p.before.zipIdx.flatMap (instructionRows (p.before.length + (p.after.length + 1)) primary) ++
      ((if 1 < p.before.length + (p.after.length + 1) then
          [⟨"Step " ++ toString (p.before.length + 1), instructionLabel p.ix.kind⟩] else []) ++
        p.ix.details.filter (fun d => rowKey d ∉ primary.map rowKey) ++ p.front.flatMap mintRows),
    p.back.flatMap mintRows ++
      (p.after.zipIdx (p.before.length + 1)).flatMap
        (instructionRows (p.before.length + (p.after.length + 1)) primary) ++
      configRows base.config, fun s => ?_⟩
  simp [advancedRows, fill, List.zipIdx_append, instructionRows]

end Place

/-! ## The parts, by the number of actions -/

section Parts

variable {summary : TransactionSummary}

theorem confirmHero_send (send : InnerInstructionSummary)
    (h : (spendsOf summary).find? (fun s => isSendTitle s.title) = some send) :
    confirmHero summary = ⟨heroTitle send.title, pickToSubtitle send.details⟩ := by
  simp only [confirmHero, h]

theorem find_send_none {spends : List InnerInstructionSummary} (h : ∀ s ∈ spends, isSendTitle s.title = false) :
    spends.find? (fun s => isSendTitle s.title) = none := by
  rw [List.find?_eq_none]
  intro s hs
  rw [h s hs]
  exact Bool.false_ne_true

theorem confirmHero_one {s : InnerInstructionSummary} (h : spendsOf summary = [s]) (hs : isSendTitle s.title = false) :
    confirmHero summary = ⟨s.title, pickToSubtitle s.details⟩ := by
  have hfind : [s].find? (fun t => isSendTitle t.title) = none := find_send_none (by simpa using hs)
  simp only [confirmHero, h, hfind]

theorem confirmHero_many (h : 2 ≤ (spendsOf summary).length)
    (hs : ∀ s ∈ spendsOf summary, isSendTitle s.title = false) :
    confirmHero summary = ⟨toString (spendsOf summary).length ++ " actions",
      some (" · ".intercalate ((spendsOf summary).map InnerInstructionSummary.title))⟩ := by
  have hfind := find_send_none hs
  rw [confirmHero]
  match hspends : spendsOf summary with
  | [] | [_] =>
    rw [hspends] at h
    simp at h
  | s :: t :: rest =>
    rw [hspends] at hfind
    simp only [hfind]

theorem primaryRows_one {s : InnerInstructionSummary} (h : spendsOf summary = [s]) :
    primaryRows summary = s.details.filter fun d => d.label = "To" ∨ d.label = "From" ∨ d.label = "Text" := by
  simp only [primaryRows, h]

/-- The row of one of several actions. -/
def actionRow (count : Nat) (entry : InnerInstructionSummary × Nat) : DetailRow :=
  ⟨if count ≤ 3 then entry.1.title else "Action " ++ toString (entry.2 + 1),
    ((pickToSubtitle entry.1.details).map withoutTo).getD "—"⟩

theorem primaryRows_many (h : 2 ≤ (spendsOf summary).length) :
    primaryRows summary = (spendsOf summary).zipIdx.map (actionRow (spendsOf summary).length) := by
  match hspends : spendsOf summary with
  | [] | [_] =>
    rw [hspends] at h
    simp at h
  | s :: t :: rest =>
    simp only [primaryRows, hspends]
    rfl

end Parts

/-! ## Alterations that do not show -/

section Hidden

variable {p : Place} {base : TransactionSummary} {s s' : InnerInstructionSummary}

/-- What the hero reads of one of the actions. -/
structure SameHero (s s' : InnerInstructionSummary) : Prop where
  send : isSendTitle s'.title = isSendTitle s.title
  title : heroTitle s'.title = heroTitle s.title
  recipient : pickToSubtitle s'.details = pickToSubtitle s.details
  plain : isSendTitle s.title = false → s'.title = s.title

theorem confirmHero_fill (h : SameHero s s') : confirmHero (p.fill base s') = confirmHero (p.fill base s) := by
  have hspends := p.spendsOf_fill base s
  have hspends' := p.spendsOf_fill base s'
  cases hleft : p.left.find? fun s => isSendTitle s.title with
  | some send =>
    rw [confirmHero_send send, confirmHero_send send]
    · rw [hspends, List.find?_append, hleft]
      rfl
    · rw [hspends', List.find?_append, hleft]
      rfl
  | none =>
    cases hsend : isSendTitle s.title with
    | true =>
      rw [confirmHero_send s', confirmHero_send s, h.title, h.recipient]
      · rw [hspends, List.find?_append, hleft, Option.none_or, List.find?_cons, hsend]
      · rw [hspends', List.find?_append, hleft, Option.none_or, List.find?_cons, h.send, hsend]
    | false =>
      have htitle := h.plain hsend
      cases hright : p.right.find? fun s => isSendTitle s.title with
      | some send =>
        rw [confirmHero_send send, confirmHero_send send]
        · rw [hspends, List.find?_append, hleft, Option.none_or, List.find?_cons_of_neg (by simp [hsend]), hright]
        · rw [hspends', List.find?_append, hleft, Option.none_or, List.find?_cons_of_neg (by simp [h.send, hsend]),
            hright]
      | none =>
        have hplain : ∀ t ∈ p.left ++ p.right, isSendTitle t.title = false := by
          intro t ht
          rcases List.mem_append.1 ht with ht | ht
          · exact Bool.not_eq_true _ ▸ List.find?_eq_none.1 hleft t ht
          · exact Bool.not_eq_true _ ▸ List.find?_eq_none.1 hright t ht
        have hall : ∀ u, isSendTitle u.title = false → ∀ t ∈ p.left ++ u :: p.right, isSendTitle t.title = false := by
          intro u hu t ht
          rcases List.mem_append.1 ht with ht | ht
          · exact hplain t (List.mem_append_left _ ht)
          · rcases List.mem_cons.1 ht with rfl | ht
            · exact hu
            · exact hplain t (List.mem_append_right _ ht)
        by_cases hone : p.left = [] ∧ p.right = []
        · rw [hone.1, hone.2] at hspends hspends'
          rw [confirmHero_one hspends' (h.send.trans hsend), confirmHero_one hspends hsend, htitle, h.recipient]
        · have hlen : 2 ≤ (p.left ++ s :: p.right).length := by
            rw [List.length_append, List.length_cons]
            by_contra hshort
            exact hone ⟨List.length_eq_zero_iff.1 (by omega), List.length_eq_zero_iff.1 (by omega)⟩
          rw [confirmHero_many (by rw [hspends']; simpa using hlen) (hspends' ▸ hall s' (h.send.trans hsend)),
            confirmHero_many (by rw [hspends]; exact hlen) (hspends ▸ hall s hsend), hspends, hspends']
          simp [htitle]

/-- What the primary rows read of one of `count` actions. -/
structure SamePrimary (count : Nat) (s s' : InnerInstructionSummary) : Prop where
  one : count = 1 → (s'.details.filter fun d => d.label = "To" ∨ d.label = "From" ∨ d.label = "Text") =
    s.details.filter fun d => d.label = "To" ∨ d.label = "From" ∨ d.label = "Text"
  title : count = 2 ∨ count = 3 → s'.title = s.title
  recipient : 2 ≤ count → pickToSubtitle s'.details = pickToSubtitle s.details

theorem primaryRows_fill (h : SamePrimary (p.left ++ s :: p.right).length s s') :
    primaryRows (p.fill base s') = primaryRows (p.fill base s) := by
  have hspends := p.spendsOf_fill base s
  have hspends' := p.spendsOf_fill base s'
  by_cases hone : p.left = [] ∧ p.right = []
  · rw [hone.1, hone.2] at h hspends hspends'
    rw [primaryRows_one hspends', primaryRows_one hspends, h.one rfl]
  · have hlen : 2 ≤ (p.left ++ s :: p.right).length := by
      rw [List.length_append, List.length_cons]
      by_contra hshort
      exact hone ⟨List.length_eq_zero_iff.1 (by omega), List.length_eq_zero_iff.1 (by omega)⟩
    have hsame : (p.left ++ s' :: p.right).length = (p.left ++ s :: p.right).length := by simp
    rw [primaryRows_many (by rw [hspends', hsame]; exact hlen), primaryRows_many (by rw [hspends]; exact hlen), hspends,
      hspends', hsame]
    simp only [List.zipIdx_append, List.zipIdx_cons, List.map_append, List.map_cons]
    have hrow : ∀ i, actionRow (p.left ++ s :: p.right).length (s', i) =
        actionRow (p.left ++ s :: p.right).length (s, i) := by
      intro i
      rw [actionRow, actionRow, h.recipient hlen]
      by_cases hthree : (p.left ++ s :: p.right).length ≤ 3
      · rw [if_pos hthree, if_pos hthree, h.title (by omega)]
      · rw [if_neg hthree, if_neg hthree]
    rw [hrow]

/-- A word is not made by a character that it does not have. -/
theorem infix_snoc {word xs : List Char} {c : Char} (hne : word ≠ []) (hc : c ∉ word) :
    word <:+: xs ++ [c] ↔ word <:+: xs := by
  constructor
  · intro h
    rcases infix_split hc h with h | h
    · exact h
    · exact absurd (List.eq_nil_of_infix_nil h) hne
  · exact fun h => h.trans (List.prefix_append xs [c]).isInfix

theorem isUnknownRow_blank (h : isSendTitle s.title = true) :
    isUnknownRow { s with title := s.title ++ " " } = isUnknownRow s := by
  obtain ⟨a, e, n, d, rest, htitle, hlower, -⟩ := isSendChars_iff.1 h
  have hfirst : a ≠ 'P' := by
    rintro rfl
    exact absurd (List.cons.inj hlower).1 (by decide)
  have hlist : (s.title ++ " ").toList = s.title.toList ++ [' '] := by simp
  have hstart : ∀ text : String, text.toList.head? = some a → startsWith text "Program " = false := by
    intro text hhead
    rw [startsWith, decide_eq_false_iff_not]
    rintro ⟨tail, htail⟩
    rw [← htail] at hhead
    exact hfirst (Option.some.inj hhead).symm
  have hleft : startsWith (s.title ++ " ") "Program " = false := hstart _ (by rw [hlist, htitle]; rfl)
  have hright : startsWith s.title "Program " = false := hstart _ (by rw [htitle]; rfl)
  have hincludes : includes (s.title ++ " ") "opaque" = includes s.title "opaque" := by
    rw [includes, includes, hlist, decide_eq_decide]
    exact infix_snoc (by decide) (by decide)
  rw [isUnknownRow, isUnknownRow, hleft, hright, hincludes]

/-- A blank at the end of a transfer's title does not show in the hero. -/
theorem sameHero_blank (h : isSendTitle s.title = true) : SameHero s { s with title := s.title ++ " " } where
  send := by rw [h, isSendTitle_blank h]
  title := heroTitle_blank s.title
  recipient := rfl
  plain hplain := by
    rw [h] at hplain
    cases hplain

theorem mentionsUnknown_append (value : String) : mentionsUnknown (value ++ "z") = mentionsUnknown value := by
  have hlist : (value ++ "z").toList.map Char.toLower = value.toList.map Char.toLower ++ ['z'] := by simp
  have hword : ∀ word : String, word.toList ≠ [] → 'z' ∉ word.toList →
      includesIgnoreCase (value ++ "z") word = includesIgnoreCase value word := by
    intro word hne hz
    rw [includesIgnoreCase, includesIgnoreCase, hlist, decide_eq_decide]
    exact infix_snoc hne hz
  rw [mentionsUnknown, mentionsUnknown, hword "unknown" (by decide) (by decide), hword "opaque" (by decide) (by decide)]

section Value

variable {front back : List DetailRow} {row : DetailRow}

/-- A row with another value. -/
def withZ (s : InnerInstructionSummary) (front back : List DetailRow) (row : DetailRow) : InnerInstructionSummary :=
  { s with details := front ++ { row with value := row.value ++ "z" } :: back }

theorem altered_withZ (h : s.details = front ++ row :: back) (hlabel : row.label ∈ actionLabels) :
    Altered s (withZ s front back row) := by
  refine Altered.value h hlabel fun heq => ?_
  have hlen := congrArg (fun t => t.toList.length) heq
  simp at hlen

theorem isUnknownRow_withZ (h : s.details = front ++ row :: back) :
    isUnknownRow (withZ s front back row) = isUnknownRow s := by
  rw [isUnknownRow, isUnknownRow, h, withZ]
  simp only [List.any_append, List.any_cons, mentionsUnknown_append]

/-- A filter that drops the row does not see its value. -/
theorem filter_withZ (keep : String → Bool) (h : s.details = front ++ row :: back) (hkeep : keep row.label = false) :
    (withZ s front back row).details.filter (fun d => keep d.label) = s.details.filter fun d => keep d.label := by
  rw [h, withZ]
  simp [hkeep]

/-- Nor does the search for the recipient, unless the row is the first one. -/
theorem pickToSubtitle_withZ (h : s.details = front ++ row :: back)
    (hto : row.label = "To" → ∃ d ∈ front, d.label = "To") :
    pickToSubtitle (withZ s front back row).details = pickToSubtitle s.details := by
  rw [pickToSubtitle, pickToSubtitle, h, withZ, List.find?_append, List.find?_append]
  cases hfind : front.find? fun d => d.label = "To" with
  | some d => rfl
  | none =>
    have hlabel : row.label ≠ "To" := by
      intro hlabel
      obtain ⟨d, hd, hdto⟩ := hto hlabel
      exact absurd hdto (by simpa using List.find?_eq_none.1 hfind d hd)
    simp [hlabel]

theorem sameHero_withZ (h : s.details = front ++ row :: back)
    (hto : row.label = "To" → ∃ d ∈ front, d.label = "To") : SameHero s (withZ s front back row) :=
  ⟨rfl, rfl, pickToSubtitle_withZ h hto, fun _ => rfl⟩

end Value

/-- **Nothing shows** of an alteration that neither the hero, nor the rows, nor the classifier reads. -/
theorem confirmSignTransaction_fill (hhero : SameHero s s')
    (hprimary : SamePrimary (p.left ++ s :: p.right).length s s') (hmint : mintRows s' = mintRows s)
    (hrisk : isUnknownRow s' = isUnknownRow s) :
    confirmSignTransaction (p.fill base s') = confirmSignTransaction (p.fill base s) := by
  have hadvanced : ∀ primary, advancedRows (p.fill base s') primary = advancedRows (p.fill base s) primary := by
    intro primary
    obtain ⟨above, below, hrows⟩ := p.advancedRows_fill base primary
    rw [hrows, hrows, hmint]
  rw [confirmSignTransaction, confirmSignTransaction, confirmHero_fill hhero, primaryRows_fill hprimary,
    p.riskCallout_fill base s s', p.classifySignRisk_fill base hrisk, hadvanced]

/-- An alteration that does not show at its place. -/
theorem not_distinct {summary : TransactionSummary} {left right : List InnerInstructionSummary}
    (hdistinct : ∀ summary', Alters summary summary' → confirmSignTransaction summary' ≠ confirmSignTransaction summary)
    (hspends : spendsOf summary = left ++ s :: right) (halt : Altered s s') (hhero : SameHero s s')
    (hprimary : SamePrimary (spendsOf summary).length s s') (hmint : mintRows s' = mintRows s)
    (hrisk : isUnknownRow s' = isUnknownRow s) : False := by
  obtain ⟨p, hfill, rfl, rfl⟩ := Place.exists_fill hspends
  rw [hspends] at hprimary
  have hsame : confirmSignTransaction (p.fill summary s') = confirmSignTransaction (p.fill summary s) :=
    confirmSignTransaction_fill hhero hprimary hmint hrisk
  rw [← hfill] at hsame
  exact hdistinct _ ⟨p, s, s', hfill, halt, rfl⟩ hsame

end Hidden

/-- The second one of two such elements. -/
theorem exists_second {α : Type} {keep : α → Bool} : ∀ {xs : List α}, 2 ≤ (xs.filter keep).length →
    ∃ front x back, xs = front ++ x :: back ∧ keep x = true ∧ ∃ y ∈ front, keep y = true
  | [], h => by simp at h
  | y :: xs, h => by
    cases hkeep : keep y with
    | false =>
      rw [List.filter_cons_of_neg (by simp [hkeep])] at h
      obtain ⟨front, x, back, rfl, hx, z, hz, hkz⟩ := exists_second h
      exact ⟨y :: front, x, back, rfl, hx, z, List.mem_cons_of_mem _ hz, hkz⟩
    | true =>
      rw [List.filter_cons_of_pos hkeep, List.length_cons] at h
      obtain ⟨x, hx⟩ := List.exists_mem_of_length_pos (l := xs.filter keep) (by omega)
      obtain ⟨hmem, hkx⟩ := List.mem_filter.1 hx
      obtain ⟨front, back, rfl⟩ := List.append_of_mem hmem
      exact ⟨y :: front, x, back, rfl, hkx, y, List.mem_cons_self, hkeep⟩

/-- **What stays hidden**: where an action is not shown in full, some alteration does not show. -/
theorem exposed_of_distinct {summary : TransactionSummary}
    (hdistinct : ∀ summary', Alters summary summary' →
      confirmSignTransaction summary' ≠ confirmSignTransaction summary) :
    Exposed summary := by
  have hsend : ∀ s ∈ spendsOf summary, (spendsOf summary).length = 1 ∨ 3 < (spendsOf summary).length →
      isSendTitle s.title = false := by
    intro s hs hcount
    rw [Bool.eq_false_iff]
    intro htrue
    obtain ⟨left, right, hspends⟩ := List.append_of_mem hs
    refine not_distinct hdistinct hspends (.title fun heq => ?_) (sameHero_blank htrue)
      ⟨fun _ => rfl, fun h => ?_, fun _ => rfl⟩ rfl (isUnknownRow_blank htrue)
    · have hlen := congrArg (fun t => t.toList.length) heq
      simp at hlen
    · omega
  have hrow : ∀ s ∈ spendsOf summary, ∀ front row back, s.details = front ++ row :: back → row.label ∈ actionLabels →
      row.label ≠ "Mint" → (row.label = "To" → ∃ d ∈ front, d.label = "To") →
      ¬ ((spendsOf summary).length = 1 → row.label = "Amount") := by
    intro s hs front row back hdetails hlabel hmint hto hone
    obtain ⟨left, right, hspends⟩ := List.append_of_mem hs
    have howner : row.label ≠ "Owner" := by
      intro howner
      rw [howner] at hlabel
      exact absurd hlabel (by decide)
    refine not_distinct hdistinct hspends (altered_withZ hdetails hlabel) (sameHero_withZ hdetails hto)
      ⟨fun h => ?_, fun _ => rfl, fun _ => pickToSubtitle_withZ hdetails hto⟩ ?_ (isUnknownRow_withZ hdetails)
    · have hamount := hone h
      exact filter_withZ (fun l => l = "To" ∨ l = "From" ∨ l = "Text") hdetails (by rw [hamount]; decide)
    · exact filter_withZ (fun l => l = "Mint" ∨ l = "Owner") hdetails (by simp [hmint, howner])
  unfold Exposed
  split
  · trivial
  · next s hspends =>
    rw [hspends] at hsend hrow
    refine ⟨hsend s (List.mem_singleton_self s) (Or.inl rfl), fun row hmem hamount => ?_⟩
    obtain ⟨front, back, hdetails⟩ := List.append_of_mem hmem
    exact hrow s (List.mem_singleton_self s) front row back hdetails (by rw [hamount]; decide) (by rw [hamount]; decide)
      (fun hto => by rw [hamount] at hto; exact absurd hto (by decide)) fun _ => hamount
  · next spends hone hmany =>
    have hcount : (spendsOf summary).length ≠ 1 := by
      intro hlen
      obtain ⟨s, hs⟩ := List.length_eq_one_iff.1 hlen
      exact hmany s hs
    refine ⟨fun s hs => ⟨fun row hmem => ?_, ?_⟩, fun hlen s hs => hsend s hs (Or.inr hlen)⟩
    · obtain ⟨front, back, hdetails⟩ := List.append_of_mem hmem
      have hhidden : ∀ label, row.label = label → label ∈ ["Amount", "From"] → False := by
        rintro _ rfl hlabel
        have hne : row.label ≠ "Mint" ∧ row.label ≠ "To" ∧ row.label ∈ actionLabels := by
          rcases List.mem_cons.1 hlabel with h | h
          · rw [h]
            decide
          · rw [List.mem_singleton.1 h]
            decide
        exact hrow s hs front row back hdetails hne.2.2 hne.1 (fun h => absurd h hne.2.1) fun h => absurd h hcount
      exact ⟨fun h => hhidden _ h (by decide), fun h => hhidden _ h (by decide)⟩
    · by_contra htwo
      obtain ⟨front, row, back, hdetails, hto, hfront⟩ := exists_second (Nat.lt_of_not_le htwo)
      rw [decide_eq_true_iff] at hto
      obtain ⟨d, hd, hdto⟩ := hfront
      exact hrow s hs front row back hdetails (by rw [hto]; decide) (by rw [hto]; decide)
        (fun _ => ⟨d, hd, of_decide_eq_true hdto⟩) fun h => absurd h hcount

/-! ## What an exposed action shows -/

theorem includes_self (text : String) : includes text text = true := by
  simp only [includes, List.infix_rfl, decide_true]

theorem includes_append (before text after : String) : includes (before ++ text ++ after) text = true := by
  simp only [includes, decide_eq_true_eq]
  exact ⟨before.toList, after.toList, by simp⟩

/-- A text among joined ones stands between two texts that do not depend on it. -/
theorem exists_intercalate (sep : String) (left right : List String) :
    ∃ before after : String, ∀ text, sep.intercalate (left ++ text :: right) = before ++ text ++ after := by
  have htail : ∃ after : String, ∀ text, sep.intercalate (text :: right) = text ++ after := by
    by_cases hright : right = []
    · exact ⟨"", fun text => by rw [hright, String.intercalate_singleton, String.append_empty]⟩
    · exact ⟨sep ++ sep.intercalate right, fun text => by
        rw [String.intercalate_cons_of_ne_nil hright, String.append_assoc]⟩
  obtain ⟨after, hafter⟩ := htail
  by_cases hleft : left = []
  · exact ⟨"", after, fun text => by rw [hleft, List.nil_append, hafter, String.empty_append]⟩
  · refine ⟨sep.intercalate left ++ sep, after, fun text => ?_⟩
    rw [String.intercalate_append_of_ne_nil hleft (List.cons_ne_nil _ _), hafter, String.append_assoc,
      String.append_assoc, String.append_assoc]

theorem withoutTo_to (value : String) : withoutTo ("To " ++ value) = value := by
  have hstart : startsWith ("To " ++ value) "To " = true := by
    rw [startsWith, decide_eq_true_iff, String.toList_append]
    exact List.prefix_append _ _
  rw [withoutTo, if_pos hstart, String.toList_append]
  exact String.ofList_toList

/-- The only recipient. -/
theorem pickToSubtitle_of_onlyTo {s : InnerInstructionSummary} {front back : List DetailRow} {row : DetailRow}
    (h : OnlyTo s) (hdetails : s.details = front ++ row :: back) (hto : row.label = "To") (value : String) :
    pickToSubtitle (front ++ { row with value } :: back) = some ("To " ++ value) := by
  have hfront : ∀ d ∈ front, ¬ decide (d.label = "To") = true := by
    intro d hd hdto
    have hpos : 0 < (front.filter fun d => d.label = "To").length :=
      List.length_pos_of_mem (List.mem_filter.2 ⟨hd, hdto⟩)
    have hone := h.2
    rw [hdetails, List.filter_append, List.filter_cons_of_pos (by simpa using hto), List.length_append,
      List.length_cons] at hone
    omega
  rw [pickToSubtitle, List.find?_append, List.find?_eq_none.2 hfront, Option.none_or,
    List.find?_cons_of_pos (by simpa using hto)]
  rfl

/-- A count of actions is no title of a transfer. -/
theorem isSendTitle_count (n : Nat) (text : String) : isSendTitle (toString n ++ text) = false := by
  rw [Bool.eq_false_iff]
  intro hsend
  obtain ⟨s, e, m, d, rest, htitle, hlower, -⟩ := isSendChars_iff.1 hsend
  have hlist : (toString n ++ text).toList = Nat.toDigits 10 n ++ text.toList := by
    rw [String.toList_append]
    exact congrArg (· ++ text.toList) Nat.toList_repr
  rw [hlist] at htitle
  cases hdigits : Nat.toDigits 10 n with
  | nil => exact Nat.toDigits_ne_nil hdigits
  | cons c digits =>
    have hc : c.isDigit = true := isDigit_toDigits c (by rw [hdigits]; exact List.mem_cons_self)
    rw [hdigits] at htitle
    obtain rfl := (List.cons.inj htitle).1
    have hs : c.toLower = 's' := (List.cons.inj hlower).1
    have hcapital : ¬ (65 ≤ c.toNat ∧ c.toNat ≤ 90) := by
      simp only [Char.isDigit, Bool.and_eq_true, decide_eq_true_eq] at hc
      have hhigh : c.toNat ≤ 57 := hc.2
      omega
    rw [toLower_of_not_capital hcapital] at hs
    rw [hs] at hc
    exact absurd hc (by decide)

section Shown

variable {summary : TransactionSummary}

theorem shows_row {row : DetailRow}
    (h : row ∈ primaryRows summary ∨ row ∈ advancedRows summary (primaryRows summary)) :
    (confirmSignTransaction summary).Shows row.label ∧ (confirmSignTransaction summary).Shows row.value := by
  have htexts : ∀ text ∈ [row.label, row.value], text ∈ (confirmSignTransaction summary).texts := fun text htext =>
    List.mem_cons_of_mem _ (List.mem_append_right _
      (List.mem_flatMap.2 ⟨row, List.mem_append.2 h, htext⟩))
  exact ⟨⟨_, htexts _ (by simp), includes_self _⟩, ⟨_, htexts _ (by simp), includes_self _⟩⟩

/-- The mint of an inner instruction stands under "Details". -/
theorem mem_advancedRows {s : InnerInstructionSummary} {row : DetailRow} (hs : s ∈ spendsOf summary)
    (hrow : row ∈ mintRows s) (primary : List DetailRow) : row ∈ advancedRows summary primary := by
  obtain ⟨left, right, hspends⟩ := List.append_of_mem hs
  obtain ⟨p, hfill, -, -⟩ := Place.exists_fill hspends
  obtain ⟨above, below, hrows⟩ := p.advancedRows_fill summary primary
  rw [hfill, hrows]
  exact List.mem_append_left _ (List.mem_append_right _ hrow)

/-- Every one of several actions has its row. -/
theorem exists_actionRow {left right : List InnerInstructionSummary} {s : InnerInstructionSummary}
    (hspends : spendsOf summary = left ++ s :: right) (h : 2 ≤ (spendsOf summary).length) :
    actionRow (spendsOf summary).length (s, left.length) ∈ primaryRows summary := by
  rw [primaryRows_many h]
  refine List.mem_map_of_mem ?_
  rw [hspends, List.zipIdx_append, List.zipIdx_cons]
  simp

end Shown

/-- Joined texts are not blank. -/
theorem intercalate_ne_empty {xs : List String} (h : 2 ≤ xs.length) : " · ".intercalate xs ≠ "" := by
  match xs, h with
  | x :: y :: rest, _ =>
    intro hempty
    have hlen := congrArg (fun t => t.toList.length) hempty
    rw [String.intercalate_cons_cons] at hlen
    simp at hlen

/-- The hero of several actions without a transfer. -/
theorem hero_many {summary : TransactionSummary} (hlen : 2 ≤ (spendsOf summary).length)
    (hplain : ∀ s ∈ spendsOf summary, isSendTitle s.title = false) :
    (confirmSignTransaction summary).hero = ⟨toString (spendsOf summary).length ++ " actions",
      some (" · ".intercalate ((spendsOf summary).map InnerInstructionSummary.title))⟩ := by
  have hjoin : " · ".intercalate ((spendsOf summary).map InnerInstructionSummary.title) ≠ "" :=
    intercalate_ne_empty (by rw [List.length_map]; exact hlen)
  rw [confirmSignTransaction, confirmHero_many hlen hplain]
  simp [Option.filter, hjoin]

section Exposed

variable {summary : TransactionSummary} (h : Exposed summary)
include h

/-- One action, or several. -/
theorem Exposed.split {left right : List InnerInstructionSummary} {s : InnerInstructionSummary}
    (hspends : spendsOf summary = left ++ s :: right) :
    (left = [] ∧ right = [] ∧ isSendTitle s.title = false ∧ ∀ row ∈ s.details, row.label ≠ "Amount") ∨
    (2 ≤ (spendsOf summary).length ∧ OnlyTo s ∧
      (3 < (spendsOf summary).length → ∀ t ∈ spendsOf summary, isSendTitle t.title = false)) := by
  unfold Exposed at h
  split at h
  · next hnil =>
    rw [hnil] at hspends
    simp at hspends
  · next t hone =>
    rw [hone] at hspends
    have hleft : left = [] := by
      cases left with
      | nil => rfl
      | cons u left => simp at hspends
    subst hleft
    obtain ⟨rfl, hright⟩ := List.cons.inj hspends
    exact Or.inl ⟨rfl, hright.symm, h.1, h.2⟩
  · next hnil hmany =>
    refine Or.inr ⟨?_, h.1 s (by rw [hspends]; simp), h.2⟩
    match hlist : spendsOf summary with
    | [] => exact absurd hlist hnil
    | [t] => exact absurd hlist (hmany t)
    | _ :: _ :: _ => simp

theorem Exposed.shows_title {s : InnerInstructionSummary} (hs : s ∈ spendsOf summary) :
    (confirmSignTransaction summary).Shows s.title := by
  obtain ⟨left, right, hspends⟩ := List.append_of_mem hs
  rcases h.split hspends with ⟨rfl, rfl, hplain, -⟩ | ⟨hlen, -, hmany⟩
  · refine ⟨s.title, List.mem_cons.2 (Or.inl ?_), includes_self _⟩
    exact (congrArg Hero.title (confirmHero_one hspends hplain)).symm
  · by_cases hthree : (spendsOf summary).length ≤ 3
    · have hrow := (shows_row (Or.inl (exists_actionRow hspends hlen))).1
      rw [actionRow, if_pos hthree] at hrow
      exact hrow
    · obtain ⟨before, after, htext⟩ := exists_intercalate " · " (left.map InnerInstructionSummary.title)
        (right.map InnerInstructionSummary.title)
      refine ⟨before ++ s.title ++ after, ?_, includes_append _ _ _⟩
      rw [SignContent.texts, hero_many hlen (hmany (by omega))]
      simp [hspends, htext]

theorem Exposed.shows_value {s : InnerInstructionSummary} {row : DetailRow} (hs : s ∈ spendsOf summary)
    (hrow : row ∈ s.details) (hlabel : row.label ∈ actionLabels) :
    (confirmSignTransaction summary).Shows row.value := by
  obtain ⟨left, right, hspends⟩ := List.append_of_mem hs
  by_cases hmint : row.label = "Mint"
  · exact (shows_row (Or.inr (mem_advancedRows hs (List.mem_filter.2 ⟨hrow, by simp [hmint]⟩) _))).2
  · rcases h.split hspends with ⟨rfl, rfl, -, hamount⟩ | ⟨hlen, honly, -⟩
    · have hkeep : row.label = "To" ∨ row.label = "From" := by
        have hne := hamount row hrow
        simp only [actionLabels, List.mem_cons, List.not_mem_nil, or_false] at hlabel
        tauto
      refine (shows_row (Or.inl ?_)).2
      rw [primaryRows_one hspends]
      exact List.mem_filter.2 ⟨hrow, by rcases hkeep with hto | hfrom <;> simp [*]⟩
    · have hto : row.label = "To" := by
        have hne := honly.1 row hrow
        simp only [actionLabels, List.mem_cons, List.not_mem_nil, or_false] at hlabel
        tauto
      obtain ⟨front, back, hdetails⟩ := List.append_of_mem hrow
      have hpick := pickToSubtitle_of_onlyTo honly hdetails hto row.value
      have hshown := (shows_row (Or.inl (exists_actionRow hspends hlen))).2
      rw [actionRow, hdetails, hpick, Option.map_some, withoutTo_to] at hshown
      exact hshown

end Exposed

/-- A changed value between the same rows. -/
theorem value_of_filter_eq {front back : List DetailRow} {row : DetailRow} {value : String} (keep : String → Bool)
    (hkeep : keep row.label = true)
    (h : (front ++ { row with value } :: back).filter (fun d => keep d.label) =
      (front ++ row :: back).filter fun d => keep d.label) : value = row.value := by
  simp only [List.filter_append, List.filter_cons, hkeep, if_true] at h
  exact congrArg DetailRow.value (List.cons.inj (List.append_cancel_left h)).1

section Distinct

variable {p : Place} {base : TransactionSummary} {s s' : InnerInstructionSummary}

/-- The content tells the rows under "Details" of one inner instruction. -/
theorem mintRows_of_screen (h : confirmSignTransaction (p.fill base s') = confirmSignTransaction (p.fill base s)) :
    mintRows s' = mintRows s := by
  have hprimary : primaryRows (p.fill base s') = primaryRows (p.fill base s) := congrArg SignContent.primary h
  have hadvanced : advancedRows (p.fill base s') (primaryRows (p.fill base s')) =
      advancedRows (p.fill base s) (primaryRows (p.fill base s)) := congrArg SignContent.advanced h
  obtain ⟨above, below, hrows⟩ := p.advancedRows_fill base (primaryRows (p.fill base s))
  rw [hprimary, hrows, hrows] at hadvanced
  exact List.append_cancel_left (List.append_cancel_right hadvanced)

/-- The content tells the row of one of several actions. -/
theorem actionRow_of_screen (hlen : 2 ≤ (p.left ++ s :: p.right).length)
    (h : confirmSignTransaction (p.fill base s') = confirmSignTransaction (p.fill base s)) :
    actionRow (p.left ++ s :: p.right).length (s', p.left.length) =
      actionRow (p.left ++ s :: p.right).length (s, p.left.length) := by
  have hprimary : primaryRows (p.fill base s') = primaryRows (p.fill base s) := congrArg SignContent.primary h
  have hsame : (p.left ++ s' :: p.right).length = (p.left ++ s :: p.right).length := by simp
  have hspends := p.spendsOf_fill base s
  have hspends' := p.spendsOf_fill base s'
  rw [primaryRows_many (by rw [hspends', hsame]; exact hlen), primaryRows_many (by rw [hspends]; exact hlen), hspends,
    hspends', hsame, List.zipIdx_append, List.zipIdx_append, List.zipIdx_cons, List.zipIdx_cons, List.map_append,
    List.map_append, List.map_cons, List.map_cons] at hprimary
  have hrow := (List.cons.inj (List.append_cancel_left hprimary)).1
  simpa using hrow

/-- Another title shows where the action is shown in full. -/
theorem title_of_screen {title : String} (hexposed : Exposed (p.fill base s))
    (h : confirmSignTransaction (p.fill base { s with title }) = confirmSignTransaction (p.fill base s)) :
    title = s.title := by
  have hspends := p.spendsOf_fill base s
  have hspends' := p.spendsOf_fill base { s with title }
  have hhero := congrArg SignContent.hero h
  rcases hexposed.split hspends with ⟨hleft, hright, hplain, -⟩ | ⟨hlen, -, hmany⟩
  · rw [hleft, hright] at hspends hspends'
    have htitle : (confirmHero (p.fill base { s with title })).title = s.title :=
      (congrArg Hero.title hhero).trans (congrArg Hero.title (confirmHero_one hspends hplain))
    cases hsend : isSendTitle title with
    | false => exact (congrArg Hero.title (confirmHero_one hspends' hsend)).symm.trans htitle
    | true =>
      -- the title of a transfer would be shown as one
      rw [confirmHero_send { s with title } (by rw [hspends']; simp [hsend])] at htitle
      have hshown := isSendTitle_heroTitle hsend
      rw [show heroTitle title = s.title from htitle, hplain] at hshown
      cases hshown
  · by_cases hthree : (spendsOf (p.fill base s)).length ≤ 3
    · rw [hspends] at hlen hthree
      have hrow := congrArg DetailRow.label (actionRow_of_screen hlen h)
      rw [actionRow, actionRow, if_pos hthree, if_pos hthree] at hrow
      exact hrow
    · have hall := hmany (by omega)
      have hcount := hero_many hlen hall
      have hsame : (spendsOf (p.fill base { s with title })).length = (spendsOf (p.fill base s)).length := by
        rw [hspends, hspends', List.length_append, List.length_append, List.length_cons, List.length_cons]
      cases hsend : isSendTitle title with
      | true =>
        -- the hero would be this transfer, not a count
        have hleft : p.left.find? (fun t => isSendTitle t.title) = none :=
          find_send_none fun t ht => hall t (by rw [hspends]; exact List.mem_append_left _ ht)
        have htitle : (confirmHero (p.fill base { s with title })).title = heroTitle title := by
          rw [confirmHero_send { s with title }]
          rw [hspends', List.find?_append, hleft, Option.none_or, List.find?_cons, hsend]
        have hshown := isSendTitle_heroTitle hsend
        rw [← htitle, show (confirmHero (p.fill base { s with title })).title = _ from
          (congrArg Hero.title hhero).trans (congrArg Hero.title hcount), isSendTitle_count] at hshown
        cases hshown
      | false =>
        have hall' : ∀ t ∈ spendsOf (p.fill base { s with title }), isSendTitle t.title = false := by
          intro t ht
          rw [hspends'] at ht
          rw [hspends] at hall
          rcases List.mem_append.1 ht with ht | ht
          · exact hall t (List.mem_append_left _ ht)
          · rcases List.mem_cons.1 ht with rfl | ht
            · exact hsend
            · exact hall t (List.mem_append_right _ (List.mem_cons_of_mem _ ht))
        rw [hero_many (by rw [hsame]; exact hlen) hall', hcount, hspends, hspends'] at hhero
        obtain ⟨before, after, htext⟩ := exists_intercalate " · " (p.left.map InnerInstructionSummary.title)
          (p.right.map InnerInstructionSummary.title)
        have hjoin := Option.some.inj (congrArg Hero.subtitle hhero)
        rw [List.map_append, List.map_append, List.map_cons, List.map_cons, htext, htext] at hjoin
        have hchars := congrArg String.toList hjoin
        simp only [String.toList_append, List.append_cancel_left_eq, List.append_cancel_right_eq] at hchars
        exact String.toList_inj.1 hchars

/-- And so does another value. -/
theorem value_of_screen {front back : List DetailRow} {row : DetailRow} {value : String}
    (hexposed : Exposed (p.fill base s)) (hdetails : s.details = front ++ row :: back)
    (hlabel : row.label ∈ actionLabels)
    (h : confirmSignTransaction (p.fill base { s with details := front ++ { row with value } :: back }) =
      confirmSignTransaction (p.fill base s)) : value = row.value := by
  have hspends := p.spendsOf_fill base s
  have hmem : row ∈ s.details := by rw [hdetails]; simp
  by_cases hmint : row.label = "Mint"
  · have hrows := mintRows_of_screen h
    rw [mintRows, mintRows, hdetails] at hrows
    exact value_of_filter_eq (fun l => l = "Mint" ∨ l = "Owner") (by simp [hmint]) hrows
  · rcases hexposed.split hspends with ⟨hleft, hright, -, hamount⟩ | ⟨hlen, honly, -⟩
    · have hkeep : row.label = "To" ∨ row.label = "From" := by
        have hne := hamount row hmem
        simp only [actionLabels, List.mem_cons, List.not_mem_nil, or_false] at hlabel
        tauto
      have hspends' := p.spendsOf_fill base { s with details := front ++ { row with value } :: back }
      rw [hleft, hright] at hspends hspends'
      have hprimary := congrArg SignContent.primary h
      rw [confirmSignTransaction, confirmSignTransaction] at hprimary
      simp only [primaryRows_one hspends, primaryRows_one hspends', hdetails] at hprimary
      exact value_of_filter_eq (fun l => l = "To" ∨ l = "From" ∨ l = "Text")
        (by rcases hkeep with hto | hfrom <;> simp [*]) hprimary
    · have hto : row.label = "To" := by
        have hne := honly.1 row hmem
        simp only [actionLabels, List.mem_cons, List.not_mem_nil, or_false] at hlabel
        tauto
      rw [hspends] at hlen
      have hrow := congrArg DetailRow.value (actionRow_of_screen hlen h)
      rw [actionRow, actionRow] at hrow
      simp only [hdetails] at hrow
      rw [pickToSubtitle_of_onlyTo honly hdetails hto value, pickToSubtitle_of_onlyTo honly hdetails hto row.value,
        Option.map_some, Option.map_some, withoutTo_to, withoutTo_to] at hrow
      exact hrow

end Distinct

/-- **The confirmation shows every inner instruction in full** where it is exposed, and only there. -/
theorem confirm_shows_inner (summary : TransactionSummary) : ShowsInner summary ↔ Exposed summary := by
  constructor
  · exact fun h => exposed_of_distinct h.distinct
  · intro h
    refine ⟨fun s hs => h.shows_title hs, fun s hs row hrow hlabel => h.shows_value hs hrow hlabel, ?_⟩
    rintro summary' ⟨p, s, s', hfill, halt, rfl⟩ hsame
    rw [hfill] at h hsame
    cases halt with
    | title hne => exact hne (title_of_screen h hsame)
    | value hdetails hlabel hne => exact hne (value_of_screen h hdetails hlabel hsame)

/-- A transfer of an amount of tokens without their mint. -/
def tokenTransfer (amount : UInt8) : InnerInstructionSummary :=
  innerSummary splTokenProgramId [.fill 1, .fill 2, .fill 3] (3 :: amount :: List.replicate 7 0)

/-- The spend of the owner with this transfer. -/
def tokenSpend (amount : UInt8) : TransactionSummary where
  walletAddress := (Pubkey.fill 6).text
  instructions := [⟨.executeWithAuthority, some (.fill 6), none, some [tokenTransfer amount], []⟩]
  config := ⟨none, none⟩

/-- The amount of the transfer is nowhere on the screen. -/
theorem confirm_shows_inner_amount : Alters (tokenSpend 1) (tokenSpend 2) ∧
    confirmSignTransaction (tokenSpend 2) = confirmSignTransaction (tokenSpend 1) ∧ ¬ ShowsInner (tokenSpend 1) := by
  have hrows : (tokenTransfer 1).details = [] ++ ⟨"Amount", "1"⟩ :: (tokenTransfer 1).details.tail ∧
      tokenTransfer 2 = { tokenTransfer 1 with
        details := [] ++ ⟨"Amount", "2"⟩ :: (tokenTransfer 1).details.tail } := by decide +kernel
  have halters : Alters (tokenSpend 1) (tokenSpend 2) := by
    refine ⟨⟨[], ⟨.executeWithAuthority, some (.fill 6), none, none, []⟩, [], [], []⟩, tokenTransfer 1, tokenTransfer 2,
      rfl, ?_, rfl⟩
    rw [hrows.2]
    exact .value hrows.1 (by decide) (by decide)
  have hsame : confirmSignTransaction (tokenSpend 2) = confirmSignTransaction (tokenSpend 1) := by decide +kernel
  exact ⟨halters, hsame, fun hshows => hshows.distinct _ halters hsame⟩

end PhygitalWallet.Secure
