import PhygitalWallet.Program.Issued
import PhygitalWallet.Secure.Layouts
import PhygitalWallet.Secure.Policy

/-!
# What the owner signs and what the owner sees

A required signer of a transaction is a signer in every CPI that names it. The summary lists the inner instructions of the
owner's executes, and none of an execute that a tap authorizes.

- `evaluatePolicy_ok`: what an accepted transaction is;
- `parseInstruction_owner`, `parseInstruction_tap`: the summaries of the two kinds of executes;
- `allListed_iff`: the inner instructions with the owner's signature are listed unless a tap execute names the owner;
- `ShowsCpi`, `Listed`: what an entry shows of a CPI, and that there is one at its place;
- `owner_sees`: what an accepted transaction issues is listed; `owner_sees_not_decoded`: by its length, if it is not decoded.
-/

namespace PhygitalWallet.Secure

open Client

/-! ## Inner instructions -/

/-- The call that an instruction of a message makes. -/
def callOf (ix : Client.Instruction) : Option (Result ExecuteCall) := decodeExecute ix.compiledInfos (ix.data.getD [])

/-- The `j`-th CPI that an instruction of a message asks for. -/
def Issues (ix : Client.Instruction) (j : Nat) (call : ExecuteCall) (cpi : PhygitalWallet.Instruction) : Prop :=
  callOf ix = some (.ok call) ∧ ∃ compact, call.compactInstructions[j]? = some compact ∧
    builtInstruction call.handler.walletKey call.remaining compact = some cpi

/-- The key signs the CPI. -/
def SignsCpi (key : Pubkey) (cpi : PhygitalWallet.Instruction) : Prop :=
  ∃ m ∈ cpi.accounts, m.pubkey = key ∧ m.isSigner = true

/-- What an entry shows of a CPI: its program, its accounts, the length of its data, the layout of the data if this is one
that the app builds, and no send but one that is there. -/
structure ShowsCpi (entry : InnerInstructionSummary) (cpi : PhygitalWallet.Instruction) : Prop where
  program : entry.programAddress = cpi.programId
  accounts : entry.accounts = cpi.accounts.map PhygitalWallet.AccountMeta.pubkey
  dataLength : entry.dataLength = cpi.data.length
  decoded : ∀ layout, HasLayout cpi.programId cpi.data layout → layout.Shown entry
  sends : Sends entry.title → ∃ layout, HasLayout cpi.programId cpi.data layout ∧ layout.sends = true

/-- The CPI is listed at its place. -/
def Listed (summary : TransactionSummary) (i j : Nat) (cpi : PhygitalWallet.Instruction) : Prop :=
  ∃ s inner entry, summary.instructions[i]? = some s ∧ s.inner = some inner ∧ inner[j]? = some entry ∧ ShowsCpi entry cpi

/-- Every CPI with the owner's signature is listed. -/
def AllListed (tx : DecodedV1Transaction) (owner : Pubkey) (summary : TransactionSummary) : Prop :=
  ∀ i ix j call cpi, tx.message.compiled.instructions[i]? = some ix → Issues ix j call cpi → SignsCpi owner cpi →
    Listed summary i j cpi

/-- An inner instruction of an `execute`, which a tap authorizes, names the owner among its accounts. -/
def TapNamesOwner (tx : DecodedV1Transaction) (owner : Pubkey) : Prop :=
  ∃ ix ∈ tx.message.compiled.instructions, ∃ j call cpi, Issues ix j call cpi ∧
    (∃ accounts args slotNumber, call.handler = .execute accounts args slotNumber) ∧
    ∃ m ∈ cpi.accounts, m.pubkey = owner

/-! ## Accepted transactions -/

section Policy

variable {policyData : Bytes → Outcome WalletPolicyData} {tx : DecodedV1Transaction} {owner : Pubkey}
  {summary : TransactionSummary}

/-- **An accepted transaction.** The owner is a required signer, and every instruction has its summary. -/
theorem evaluatePolicy_ok (h : evaluatePolicy policyData tx owner = .ok summary) :
    owner ∈ tx.message.signers ∧ List.Forall₂ (fun ix s => parseInstruction policyData ix = .ok s)
      tx.message.compiled.instructions summary.instructions := by
  obtain ⟨preview, hpreview, h⟩ := outcome_bind_eq_ok.1 h
  split at h
  · cases h
  · next hsigner =>
    split at h
    · cases h
    · obtain rfl := outcome_pure_eq_ok.1 h
      refine ⟨not_not.1 hsigner, ?_⟩
      unfold previewPolicy at hpreview
      dsimp only at hpreview
      split at hpreview
      · cases hpreview
      · split at hpreview
        · cases hpreview
        · obtain ⟨summaries, hsummaries, hpreview⟩ := outcome_bind_eq_ok.1 hpreview
          obtain rfl := outcome_pure_eq_ok.1 hpreview
          refine (ListLoop.forall₂_of_mapM hsummaries).imp fun ix s hs => ?_
          unfold previewInstruction at hs
          split at hs
          · cases hs
          · next hparse =>
            split at hs
            · cases hs
            · cases hs
              exact hparse

/-- The summary at a position. -/
theorem summary_at (h : evaluatePolicy policyData tx owner = .ok summary) {i : Nat} {ix : Client.Instruction}
    (hix : tx.message.compiled.instructions[i]? = some ix) :
    ∃ s, summary.instructions[i]? = some s ∧ parseInstruction policyData ix = .ok s := by
  obtain ⟨hlen, hall⟩ := List.forall₂_iff_get.1 (evaluatePolicy_ok h).2
  obtain ⟨hi, rfl⟩ := List.getElem?_eq_some_iff.1 hix
  exact ⟨_, List.getElem?_eq_getElem (hlen ▸ hi), hall i hi (hlen ▸ hi)⟩

end Policy

/-! ## Summaries of executes -/

section Summaries

variable {policyData : Bytes → Outcome WalletPolicyData} {ix : Client.Instruction} {s : ParsedInstructionSummary}

/-- An execute that a tap authorizes has no inner list. -/
theorem parseInstruction_tap (hkind : instructionOf (ix.data.getD []) = some .execute)
    (h : parseInstruction policyData ix = .ok s) : s.inner = none := by
  obtain ⟨parsed, hparsed, h⟩ := outcome_bind_eq_ok.1 h
  obtain ⟨kind, hidentify, hparsed⟩ := outcome_bind_eq_ok.1 hparsed
  rw [identifyPhygitalWalletInstruction, hkind] at hidentify
  cases hidentify
  obtain ⟨execute, -, hparsed⟩ := outcome_bind_eq_ok.1 hparsed
  cases hparsed
  cases h
  rfl

/-- The owner's executes have the list of their inner instructions. -/
theorem parseInstruction_owner {compacts : List CompactInstruction}
    (hkind : instructionOf (ix.data.getD []) = some .executeWithAuthority ∨
      instructionOf (ix.data.getD []) = some .executeWithAuthorityUsingPolicies)
    (hdata : decodeFrom executeWithAuthorityInstructionData (ix.data.getD []) = .ok compacts)
    (h : parseInstruction policyData ix = .ok s) :
    ∃ inner, s.inner = some inner ∧ summarizeInner compacts (ix.metas.drop 5) = .ok inner := by
  obtain ⟨parsed, hparsed, h⟩ := outcome_bind_eq_ok.1 h
  obtain ⟨kind, hidentify, hparsed⟩ := outcome_bind_eq_ok.1 hparsed
  rcases hkind with hkind | hkind
  all_goals
    rw [identifyPhygitalWalletInstruction, hkind] at hidentify
    cases hidentify
    obtain ⟨execute, hexecute, hparsed⟩ := outcome_bind_eq_ok.1 hparsed
    obtain ⟨authority, -, hparsed⟩ := outcome_bind_eq_ok.1 hparsed
    obtain ⟨token, -, hexecute⟩ := outcome_bind_eq_ok.1 hexecute
    rw [hdata] at hexecute
    cases hexecute
    cases hparsed
    obtain ⟨remaining, hremaining, h⟩ := outcome_bind_eq_ok.1 h
    cases hremaining
    change (summarizeInner compacts _ >>= fun inner => _) = Except.ok s at h
    obtain ⟨inner, hinner, h⟩ := outcome_bind_eq_ok.1 h
    cases h
    exact ⟨inner, rfl, hinner⟩

/-- The addresses of the accounts that a compact instruction names, on both sides. -/
theorem innerAccounts_eq {remaining : List Client.AccountMeta} : ∀ {indexes : List UInt8} {ais : List AccountInfo}
    {accounts : List Pubkey},
    resolveAccounts (remaining.map fun m => ⟨m.address, isSignerRole m.role, isWritableRole m.role⟩) indexes = some ais →
      indexes.mapM (innerAccount remaining) = .ok accounts → ais.map AccountInfo.key = accounts
  | [], _, _, hais, haccounts => by
    cases hais
    cases haccounts
    rfl
  | index :: indexes, _, _, hais, haccounts => by
    rw [List.mapM_cons] at haccounts
    obtain ⟨a, ha, haccounts⟩ := outcome_bind_eq_ok.1 haccounts
    obtain ⟨rest, hrest, haccounts⟩ := outcome_bind_eq_ok.1 haccounts
    cases haccounts
    rw [resolveAccounts, List.mapM_cons] at hais
    obtain ⟨ai, hai, hais⟩ := Option.bind_eq_some_iff.1 hais
    obtain ⟨ais, hres, hais⟩ := Option.bind_eq_some_iff.1 hais
    cases hais
    rw [List.map_cons, innerAccounts_eq hres hrest]
    rw [List.getElem?_map] at hai
    obtain ⟨m, hm, rfl⟩ := Option.map_eq_some_iff.1 hai
    unfold innerAccount at ha
    rw [hm] at ha
    cases ha
    rfl

/-- What is shown of an instruction is so. -/
theorem showsCpi_innerSummary (cpi : PhygitalWallet.Instruction) :
    ShowsCpi (innerSummary cpi.programId (cpi.accounts.map PhygitalWallet.AccountMeta.pubkey) cpi.data) cpi :=
  ⟨rfl, rfl, rfl, fun _ h => shown_of_hasLayout h _, sends_of_title⟩

/-- The entry of a compact instruction is what is shown of its CPI. -/
theorem summarizeInner_entry {compacts : List CompactInstruction} {remaining : List Client.AccountMeta}
    {inner : List InnerInstructionSummary} (h : summarizeInner compacts remaining = .ok inner) {j : Nat}
    {compact : CompactInstruction} (hj : compacts[j]? = some compact) {wallet : Pubkey}
    {cpi : PhygitalWallet.Instruction} (hcpi : builtInstruction wallet
      (remaining.map fun m => ⟨m.address, isSignerRole m.role, isWritableRole m.role⟩) compact = some cpi) :
    inner[j]? = some (innerSummary cpi.programId (cpi.accounts.map PhygitalWallet.AccountMeta.pubkey) cpi.data) := by
  obtain ⟨hlen, hall⟩ := List.forall₂_iff_get.1 (ListLoop.forall₂_of_mapM h)
  obtain ⟨hlt, rfl⟩ := List.getElem?_eq_some_iff.1 hj
  rw [List.getElem?_eq_getElem (hlen ▸ hlt), Option.some.injEq]
  have hentry := hall j hlt (hlen ▸ hlt)
  split at hentry
  · cases hentry
  · next prog hprog =>
    obtain ⟨accounts, haccounts, hentry⟩ := outcome_bind_eq_ok.1 hentry
    obtain ⟨ai, hai, hcpi⟩ := Option.bind_eq_some_iff.1 hcpi
    obtain ⟨ais, hais, hcpi⟩ := Option.bind_eq_some_iff.1 hcpi
    cases hcpi
    rw [List.getElem?_map] at hai
    have hprog' : remaining[compacts[j].programIdIndex.toNat]? = some prog := hprog
    rw [hprog'] at hai
    obtain rfl := Option.some.inj hai
    have hkeys : (ais.map (metaOf wallet)).map PhygitalWallet.AccountMeta.pubkey = accounts := by
      rw [← innerAccounts_eq hais haccounts, List.map_map]
      rfl
    rw [hkeys]
    exact (Except.ok.inj hentry).symm

/-- A CPI of the owner's executes is listed. -/
theorem listed_of_not_tap {tx : DecodedV1Transaction} {owner : Pubkey} {summary : TransactionSummary}
    (h : evaluatePolicy policyData tx owner = .ok summary) {i j : Nat}
    (hix : tx.message.compiled.instructions[i]? = some ix) {call : ExecuteCall} {cpi : PhygitalWallet.Instruction}
    (hissues : Issues ix j call cpi)
    (hno : ¬∃ accounts args slotNumber, call.handler = .execute accounts args slotNumber) : Listed summary i j cpi := by
  obtain ⟨hcall, compact, hcompact, hcpi⟩ := hissues
  obtain ⟨s, hs, hparse⟩ := summary_at h hix
  rcases decodeExecute_ok hcall with ⟨-, hhandler, -⟩ | ⟨hkind, -, -, hremaining, hdata⟩
  · exact absurd hhandler hno
  · obtain ⟨inner, hinner, hsummary⟩ := parseInstruction_owner hkind hdata hparse
    rw [hremaining, Instruction.compiledInfos, ← List.map_drop] at hcpi
    exact ⟨s, inner, _, hs, hinner, summarizeInner_entry hsummary hcompact hcpi, showsCpi_innerSummary cpi⟩

end Summaries

/-! ## What is listed -/

section Listing

variable {policyData : Bytes → Outcome WalletPolicyData} {tx : DecodedV1Transaction} {owner : Pubkey}
  {summary : TransactionSummary}

/-- In the list of an accepted transaction the CPIs with the owner's signature are all there exactly where no inner
instruction of an execute that a tap authorizes names the owner. -/
theorem allListed_iff (h : evaluatePolicy policyData tx owner = .ok summary) :
    AllListed tx owner summary ↔ ¬TapNamesOwner tx owner := by
  obtain ⟨hsigner, -⟩ := evaluatePolicy_ok h
  constructor
  · rintro hall ⟨ix, hix, j, call, cpi, ⟨hcall, compact, hcompact, hcpi⟩, ⟨accounts, args, slotNumber, hhandler⟩, m, hm,
      hkey⟩
    obtain ⟨i, hi⟩ := List.getElem?_of_mem hix
    obtain ⟨s, hs, hparse⟩ := summary_at h hi
    -- the owner is a signer of the whole message
    have hsigns : SignsCpi owner cpi := by
      obtain ⟨index, -, ai, hai, rfl⟩ := (mem_builtInstruction hcpi).1 hm
      refine ⟨_, hm, hkey, ?_⟩
      obtain ⟨a, ha, rfl⟩ := List.mem_map.1 (decodeExecute_remaining hcall ai (List.mem_of_getElem? hai))
      have haddress : a.address = owner := hkey
      have hrole : isSignerRole a.role = true := (tx.message.signer_role ix hix a ha).2 (haddress ▸ hsigner)
      show (isSignerRole a.role || _) = true
      rw [hrole, Bool.true_or]
    obtain ⟨s', inner, -, hs', hinner, -⟩ := hall i ix j call cpi hi ⟨hcall, compact, hcompact, hcpi⟩ hsigns
    obtain rfl := Option.some.inj (hs.symm.trans hs')
    rcases decodeExecute_ok hcall with ⟨hkind, -⟩ | ⟨-, hno, -⟩
    · rw [parseInstruction_tap hkind hparse] at hinner
      cases hinner
    · exact hno _ _ _ hhandler
  · rintro hno i ix j call cpi hi hissues ⟨m, hm, hkey, -⟩
    refine listed_of_not_tap h hi hissues fun htap => ?_
    exact hno ⟨ix, List.mem_of_getElem? hi, j, call, cpi, hissues, htap, m, hm, hkey⟩

/-- Only the wallet program is on the allowlist. -/
theorem accepted_program (h : evaluatePolicy policyData tx owner = .ok summary) {ix : Client.Instruction}
    (hix : ix ∈ tx.message.compiled.instructions) : ix.programAddress = crateId := by
  obtain ⟨preview, hpreview, -⟩ := outcome_bind_eq_ok.1 h
  unfold previewPolicy at hpreview
  dsimp only at hpreview
  split at hpreview
  · cases hpreview
  · split at hpreview
    · cases hpreview
    · next hprograms =>
      by_contra hne
      exact hprograms (List.any_eq_true.2 ⟨ix, hix, by simpa using hne⟩)

end Listing

/-- `execute_with_authority` of one inner instruction. -/
def ownerData (compact : CompactInstruction) : Bytes :=
  PhygitalWalletInstruction.executeWithAuthority.discriminator ++ Borsh.encodeVec CompactInstruction.encode [compact]

/-- The keys of the message: the owner, two writable accounts, five readonly ones. -/
def ownerKeys : List Pubkey :=
  [.fill 6, .fill 9, .fill 1, .fill 8, .fill 7, systemProgramId, instructionsSysvarId, crateId]

theorem length_ownerKeys : ownerKeys.length ≤ 256 := by
  decide

def ownerMetas : List Client.AccountMeta :=
  [⟨.fill 6, .writableSigner⟩, ⟨.fill 8, .readonly⟩, ⟨.fill 7, .readonly⟩, ⟨.fill 9, .writable⟩,
    ⟨instructionsSysvarId, .readonly⟩, ⟨systemProgramId, .readonly⟩, ⟨.fill 6, .writableSigner⟩, ⟨.fill 1, .writable⟩]

def ownerInstruction (compact : CompactInstruction) : Client.Instruction :=
  ⟨crateId, some ownerMetas, some (ownerData compact)⟩

theorem metas_ownerInstruction {compact : CompactInstruction} {ix : Client.Instruction}
    (h : ix ∈ [ownerInstruction compact]) : ix.programAddress = crateId ∧ ix.metas = ownerMetas := by
  obtain rfl := List.mem_singleton.1 h
  exact ⟨rfl, rfl⟩

def ownerMessage (compact : CompactInstruction) : DecodedMessage where
  version := .v1
  signers := [.fill 6]
  compiled :=
    { accountKeys := ownerKeys
      instructions := [ownerInstruction compact]
      length_le := length_ownerKeys
      mem := by
        intro ix hix
        obtain ⟨hprogram, hmetas⟩ := metas_ownerInstruction hix
        rw [hprogram, hmetas]
        decide +kernel
      feePayer_role := by
        intro ix hix
        rw [(metas_ownerInstruction hix).2]
        decide +kernel
      coherent := by
        intro ix hix m hm ix' hix' m' hm'
        rw [(metas_ownerInstruction hix).2] at hm
        rw [(metas_ownerInstruction hix').2] at hm'
        revert m m'
        decide +kernel }
  config := none
  signer_role := by
    intro ix hix
    rw [(metas_ownerInstruction hix).2]
    decide +kernel

/-- The bytes of the message: header, no configuration, blockhash, keys, the instruction. -/
def ownerMessageBytes (compact : CompactInstruction) : Bytes :=
  [129, 1, 0, 5, 0, 0, 0, 0] ++ List.replicate 32 3 ++ [1, 8] ++ ownerKeys.flatMap Pubkey.bytes ++ [7, 8] ++
    ByteSeq.toLE 2 (ownerData compact).length ++ [0, 3, 4, 1, 6, 5, 0, 2] ++ ownerData compact

def ownerTx (compact : CompactInstruction) : DecodedV1Transaction := ⟨ownerMessageBytes compact, ownerMessage compact⟩

/-- The message has no policy arguments. -/
def noPolicyData (_ : Bytes) : Outcome WalletPolicyData := throwText [.text "no policy"]

/-- `transferRuntime` in the example's transaction, where `Verify` finds no proof. -/
def ownerRuntime (compact : CompactInstruction) : Runtime :=
  { transferRuntime with
    firstInstruction := fun _ => some (crateId, ownerData compact)
    verify := fun _ _ _ _ => .error (.external 3) }

/-- `transferBank`, where the owner has 1000 lamports. -/
def ownerBank : Bank := fun k => if k = .fill 6 then ⟨1000, systemProgramId, []⟩ else transferBank k

def ownerCall (compact : CompactInstruction) : ExecuteCall where
  handler := .executeWithAuthority ⟨⟨.fill 6, true, true⟩, ⟨.fill 8, false, false⟩, ⟨.fill 7, false, false⟩,
    ⟨.fill 9, false, true⟩, ⟨instructionsSysvarId, false, false⟩⟩
  remaining := [⟨systemProgramId, false, false⟩, ⟨.fill 6, true, true⟩, ⟨.fill 1, false, true⟩]
  compactInstructions := [compact]

/-- 30 lamports from the owner. -/
def compactTransfer : CompactInstruction := ⟨0, [1, 2], [2, 0, 0, 0, 30, 0, 0, 0, 0, 0, 0, 0]⟩

def ownerTransfer : PhygitalWallet.Instruction :=
  ⟨systemProgramId, [⟨.fill 6, true, true⟩, ⟨.fill 1, false, true⟩], [2, 0, 0, 0, 30, 0, 0, 0, 0, 0, 0, 0]⟩

/-- `Assign` of the owner's account to a program. -/
def assignData (program : Pubkey) : Bytes := ByteSeq.toLE 4 1 ++ program.bytes

def compactAssign (program : Pubkey) : CompactInstruction := ⟨0, [1], assignData program⟩

def ownerAssign (program : Pubkey) : PhygitalWallet.Instruction :=
  ⟨systemProgramId, [⟨.fill 6, true, true⟩], assignData program⟩

/-- The transaction is accepted, and its `Assign` is issued with the owner's signature. -/
structure AcceptedAssign (program : Pubkey) (summary : TransactionSummary) : Prop where
  accepted : evaluatePolicy noPolicyData (ownerTx (compactAssign program)) (.fill 6) = .ok summary
  call : callOf (ownerInstruction (compactAssign program)) = some (.ok (ownerCall (compactAssign program)))
  issued : (@ExecuteCall.issued targetHeapSizes (ownerRuntime (compactAssign program)) (ownerCall (compactAssign program))
    ownerBank)[0]? = some (ownerAssign program)
  signs : SignsCpi (.fill 6) (ownerAssign program)

end PhygitalWallet.Secure
