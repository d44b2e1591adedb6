import PhygitalWallet.Client.Challenges

/-!
# Wrapped transactions (`wallet/wrap-transaction.ts`)

A transaction of the wallet becomes one `execute` over its instructions, with the memos after it. The challenge is hashed
before the wrapped message exists, over flags that the client foresees. Simulation, fees, limits and lifetime leave the
instructions and the fee payer as they are.

- `modifyAndWrapWalletTransaction`: the pipeline, over what the network and the passkey answer;
- `mem_remainingAccounts`, `wrapped_info`: the flags that the client foresees, and those of the wrapped message;
- `wrap_challenge`: the tap verifies exactly where they agree.
-/

namespace PhygitalWallet.Client

open ListLoop

/-! ## The pipeline -/

def memoProgramAddress : Pubkey :=
  ⟨[5, 74, 83, 90, 153, 41, 33, 6, 77, 36, 232, 113, 96, 218, 56, 124,
    124, 53, 181, 221, 188, 146, 187, 129, 228, 31, 168, 64, 65, 5, 68, 141], rfl⟩

def computeBudgetProgramAddress : Pubkey :=
  ⟨[3, 6, 70, 111, 229, 33, 23, 50, 255, 236, 173, 186, 114, 195, 155, 231,
    188, 140, 229, 187, 197, 247, 18, 107, 44, 67, 155, 58, 64, 0, 0, 0], rfl⟩

/-- A message as kit decompiles it: an instruction names its accounts by one byte each. -/
structure DecompiledMessage extends Message where
  accountKeys : List Pubkey
  length_le : accountKeys.length ≤ 256
  mem : ∀ ix ∈ instructions, ∀ a ∈ instructionKeys ix, a ∈ accountKeys

structure WalletExecuteAccounts where
  authority : Pubkey
  feePayer : Pubkey
  authorityAccount : Pubkey
  wallet : Pubkey
  phygitalToken : Pubkey
deriving DecidableEq, Repr

structure PreparedWalletWrap where
  decompiled : Message
  bodyInstructions : List Instruction
  memoInstructions : List Instruction
deriving DecidableEq, Repr

structure SlotEntry where
  slotNumber : UInt64
  slotHash : Bytes
deriving DecidableEq, Repr

structure PendingWalletWrap where
  prepared : PreparedWalletWrap
  compactInstructions : List CompactInstructionArgs
  remainingAccounts : List AccountMeta
  slotNumber : UInt64
  messageHash : Bytes
deriving DecidableEq, Repr

/-- What `buildSecp256r1VerifyInstruction` makes of a tap. -/
structure Secp256r1Verify where
  secp256r1VerifyInstruction : Instruction
  secp256r1VerifyArgs : Secp256r1VerifyArgs
deriving DecidableEq, Repr

/-- The answers of the network, and of the passkey. -/
structure WrapServices where
  assertPolicyPreviewSucceeds : Message → Outcome Unit
  fetchLatestSlotHash : Outcome SlotEntry
  authenticate : Bytes → Outcome Secp256r1Verify

def stripComputeBudgetInstructions (instructions : List Instruction) : List Instruction :=
  instructions.filter fun ix => ix.programAddress ≠ computeBudgetProgramAddress

/-- The instructions to wrap. -/
def bodyInstructions (instructions : List Instruction) : List Instruction :=
  (stripComputeBudgetInstructions instructions).filter fun ix => ix.programAddress ≠ memoProgramAddress

/-- The instructions that stay outside. -/
def memoInstructions (instructions : List Instruction) : List Instruction :=
  (stripComputeBudgetInstructions instructions).filter fun ix => ix.programAddress = memoProgramAddress

def prepareWrappedWalletTransaction (decompiled : Message) : Outcome PreparedWalletWrap :=
  let bodyInstructions := bodyInstructions decompiled.instructions
  if bodyInstructions.isEmpty then
    throwText [.text "Transaction has no instructions to wrap (only compute budget/memo, or empty)"]
  else .ok { decompiled, bodyInstructions, memoInstructions := memoInstructions decompiled.instructions }

/-- Elevate remaining metas for outer execute named accounts + fee payer. -/
def elevateForExecuteAccounts (remainingAccounts : List AccountMeta) (executeAccounts : WalletExecuteAccounts) :
    List AccountMeta :=
  elevateRemainingForExecuteChallenge remainingAccounts
    [executeAccounts.wallet, executeAccounts.phygitalToken, executeAccounts.authorityAccount] [executeAccounts.feePayer]

def buildPendingWalletWrap (sha256 : Bytes → Bytes) (prepared : PreparedWalletWrap) (slot : SlotEntry)
    (compiled : CompiledInstructions) : Outcome PendingWalletWrap := do
  let messageHash ← hashExecuteChallenge sha256 slot.slotHash compiled.compactInstructions
    (compiled.remainingAccounts.map RemainingAccount.account)
  return { prepared, compactInstructions := compiled.compactInstructions,
           remainingAccounts := compiled.remainingAccounts, slotNumber := slot.slotNumber, messageHash }

def withRemainingAccounts (instruction : Instruction) (remainingAccounts : List AccountMeta) : Instruction :=
  { instruction with accounts := some (instruction.metas ++ remainingAccounts) }

/-- Wallet PDA cannot pay fees (no private key). -/
def withFeePayerIfWallet (message : Message) (walletPda feePayer : Pubkey) : Message :=
  if message.feePayer ≠ walletPda then message else { message with feePayer }

/-- `PLACEHOLDER_SECP_ARGS`. -/
def placeholderSecpArgs : Secp256r1VerifyArgs := ⟨0, 0, []⟩

def buildWrappedBaseMessage (pending : PendingWalletWrap) (executeAccounts : WalletExecuteAccounts)
    (verify : Option Secp256r1Verify) : Outcome Message := do
  let executeIx ← getExecuteInstruction {
    phygitalToken := executeAccounts.phygitalToken
    wallet := executeAccounts.wallet
    compactInstructions := pending.compactInstructions
    secp256r1VerifyArgs := (verify.map Secp256r1Verify.secp256r1VerifyArgs).getD placeholderSecpArgs
    slotNumber := pending.slotNumber
    authorityAccount := executeAccounts.authorityAccount }
  let executeWithRemaining := withRemainingAccounts executeIx pending.remainingAccounts
  let instructions := (verify.map Secp256r1Verify.secp256r1VerifyInstruction).toList ++ [executeWithRemaining] ++
    pending.prepared.memoInstructions
  return withFeePayerIfWallet { pending.prepared.decompiled with instructions } executeAccounts.wallet
    executeAccounts.feePayer

def stripBudgetAndEnsureV1 (message : Message) : Message :=
  { message with instructions := stripComputeBudgetInstructions message.instructions }

def buildPolicyPreviewMessage (prepared : PreparedWalletWrap) (compactInstructions : List CompactInstructionArgs)
    (remainingAccounts : List AccountMeta) (executeAccounts : WalletExecuteAccounts) : Outcome Message := do
  let previewIx ← getExecuteWithAuthorityUsingPoliciesInstruction executeAccounts.authority executeAccounts.phygitalToken
    executeAccounts.authorityAccount executeAccounts.wallet compactInstructions
  let instructions := [withRemainingAccounts previewIx remainingAccounts] ++ prepared.memoInstructions
  return stripBudgetAndEnsureV1 (withFeePayerIfWallet { prepared.decompiled with instructions } executeAccounts.wallet
    executeAccounts.feePayer)

/-- What was handed to the passkey, and the message that was built after the tap. -/
structure WrappedTransaction where
  pending : PendingWalletWrap
  message : Message
deriving DecidableEq, Repr

/-- The message of the wrapped transaction, up to its limits and its lifetime. -/
def modifyAndWrapWalletTransaction (sha256 : Bytes → Bytes) (services : WrapServices) (source : Message)
    (walletPda : Pubkey) (executeAccounts : WalletExecuteAccounts) : Outcome WrappedTransaction := do
  let prepared ← prepareWrappedWalletTransaction source
  let earlyCompiled ← compileWalletInstructions prepared.bodyInstructions walletPda
  let remainingAccounts := elevateForExecuteAccounts earlyCompiled.remainingAccounts executeAccounts
  let previewMessage ← buildPolicyPreviewMessage prepared earlyCompiled.compactInstructions remainingAccounts
    executeAccounts
  services.assertPolicyPreviewSucceeds previewMessage
  let slot ← services.fetchLatestSlotHash
  let pending ← buildPendingWalletWrap sha256 prepared slot ⟨remainingAccounts, earlyCompiled.compactInstructions⟩
  let verify ← services.authenticate pending.messageHash
  let baseMessage ← buildWrappedBaseMessage pending executeAccounts (some verify)
  return { pending, message := stripBudgetAndEnsureV1 baseMessage }

/-! ## What the client foresees -/

/-- The fee payer of the wrapped message. -/
def wrappedFeePayer (source : Message) (executeAccounts : WalletExecuteAccounts) : Pubkey :=
  if source.feePayer = executeAccounts.wallet then executeAccounts.feePayer else source.feePayer

/-- Some instruction names the address with such a role. -/
def NamedAs (instructions : List Instruction) (address : Pubkey) (p : AccountRole → Bool) : Prop :=
  ∃ ix ∈ instructions, ∃ m ∈ ix.metas, m.address = address ∧ p m.role = true

instance (instructions : List Instruction) (address : Pubkey) (p : AccountRole → Bool) :
    Decidable (NamedAs instructions address p) :=
  inferInstanceAs (Decidable (∃ ix ∈ instructions, ∃ m ∈ ix.metas, m.address = address ∧ p m.role = true))

/-- Where a wrapped instruction names an account that pays, or that a memo names, the client has foreseen the flags that
the account gets there. -/
def Foreseen (source : Message) (walletPda : Pubkey) (executeAccounts : WalletExecuteAccounts) : Prop :=
  ∀ ix ∈ bodyInstructions source.instructions, ∀ a ∈ instructionKeys ix,
    (a = wrappedFeePayer source executeAccounts ∨ NamedAs (memoInstructions source.instructions) a isSignerRole →
      a = executeAccounts.feePayer ∨ a ≠ walletPda ∧ NamedAs (bodyInstructions source.instructions) a isSignerRole) ∧
    (a = wrappedFeePayer source executeAccounts ∨ NamedAs (memoInstructions source.instructions) a isWritableRole →
      a ∈ [walletPda, executeAccounts.wallet, executeAccounts.phygitalToken, executeAccounts.authorityAccount] ∨
        NamedAs (bodyInstructions source.instructions) a isWritableRole)

instance (source : Message) (walletPda : Pubkey) (executeAccounts : WalletExecuteAccounts) :
    Decidable (Foreseen source walletPda executeAccounts) := by
  unfold Foreseen
  infer_instance

theorem isSignerRole_elevateMeta (writableAddresses signerAddresses : List Pubkey) (m : AccountMeta) :
    isSignerRole (elevateMeta writableAddresses signerAddresses m).role =
      (isSignerRole m.role || signerAddresses.contains m.address) := by
  unfold elevateMeta
  by_cases hs : signerAddresses.contains m.address <;> by_cases hw : writableAddresses.contains m.address <;>
    simp only [hs, hw, if_true, if_false, Bool.or_true, Bool.or_false, upgradeRoleToSigner, upgradeRoleToWritable,
      isSignerRole_roleOf, Bool.false_eq_true]

theorem isWritableRole_elevateMeta (writableAddresses signerAddresses : List Pubkey) (m : AccountMeta) :
    isWritableRole (elevateMeta writableAddresses signerAddresses m).role =
      (isWritableRole m.role || writableAddresses.contains m.address) := by
  unfold elevateMeta
  by_cases hs : signerAddresses.contains m.address <;> by_cases hw : writableAddresses.contains m.address <;>
    simp only [hs, hw, if_true, if_false, Bool.or_true, Bool.or_false, upgradeRoleToSigner, upgradeRoleToWritable,
      isWritableRole_roleOf, Bool.false_eq_true]

section Compiled

variable {body : List Instruction} {walletPda : Pubkey} {a : Pubkey}

/-- A signer among the insertions is a signer of the body, other than the wallet. -/
theorem anyRole_inserted_signer : anyRole (body.flatMap (insertedMetas walletPda)) a isSignerRole = true ↔
    a ≠ walletPda ∧ NamedAs body a isSignerRole := by
  simp only [anyRole, List.any_eq_true, List.mem_flatMap, Bool.and_eq_true, decide_eq_true_eq, NamedAs]
  constructor
  · rintro ⟨m, ⟨ix, hix, hm⟩, rfl, hrole⟩
    rcases List.mem_cons.1 hm with rfl | hm
    · cases hrole
    · obtain ⟨m', hm', rfl⟩ := List.mem_map.1 hm
      rw [downgrade_address]
      unfold downgradeWalletSignerRole at hrole
      split at hrole
      · next h => exact ⟨fun hw => h.elim (· hw) (by simp [hrole]), ix, hix, m', hm', rfl, hrole⟩
      · simp [downgradeRoleToNonSigner] at hrole
  · rintro ⟨hne, ix, hix, m, hm, rfl, hrole⟩
    refine ⟨_, ⟨ix, hix, List.mem_cons_of_mem _ (List.mem_map_of_mem hm)⟩, downgrade_address _ _, ?_⟩
    rw [downgradeWalletSignerRole, if_pos (Or.inl hne)]
    exact hrole

/-- What is writable among the insertions is writable in the body. -/
theorem anyRole_inserted_writable : anyRole (body.flatMap (insertedMetas walletPda)) a isWritableRole = true ↔
    NamedAs body a isWritableRole := by
  have hdown : ∀ m, isWritableRole (downgradeWalletSignerRole m walletPda).role = isWritableRole m.role := by
    intro m
    unfold downgradeWalletSignerRole
    split
    · rfl
    · exact isWritableRole_roleOf _ _
  simp only [anyRole, List.any_eq_true, List.mem_flatMap, Bool.and_eq_true, decide_eq_true_eq, NamedAs]
  constructor
  · rintro ⟨m, ⟨ix, hix, hm⟩, rfl, hrole⟩
    rcases List.mem_cons.1 hm with rfl | hm
    · cases hrole
    · obtain ⟨m', hm', rfl⟩ := List.mem_map.1 hm
      rw [hdown] at hrole
      exact ⟨ix, hix, m', hm', (downgrade_address _ _).symm, hrole⟩
  · rintro ⟨ix, hix, m, hm, rfl, hrole⟩
    exact ⟨_, ⟨ix, hix, List.mem_cons_of_mem _ (List.mem_map_of_mem hm)⟩, downgrade_address _ _, (hdown m).trans hrole⟩

/-- **The flags that the client foresees.** -/
theorem mem_remainingAccounts {compiled : CompiledInstructions} {executeAccounts : WalletExecuteAccounts}
    (h : compileWalletInstructions body walletPda = .ok compiled) {m : AccountMeta}
    (hm : m ∈ elevateForExecuteAccounts compiled.remainingAccounts executeAccounts) :
    (isSignerRole m.role = true ↔
      m.address = executeAccounts.feePayer ∨ m.address ≠ walletPda ∧ NamedAs body m.address isSignerRole) ∧
    (isWritableRole m.role = true ↔
      m.address ∈ [walletPda, executeAccounts.wallet, executeAccounts.phygitalToken, executeAccounts.authorityAccount] ∨
        NamedAs body m.address isWritableRole) := by
  obtain ⟨-, remaining, hmerged, hremaining, -, -⟩ := compileWalletInstructions_ok h
  rw [elevateForExecuteAccounts, hremaining, elevateRemainingForExecuteChallenge, elevateRemainingForExecuteChallenge,
    List.map_map] at hm
  obtain ⟨m₀, hm₀, rfl⟩ := List.mem_map.1 hm
  simp only [Function.comp_apply, elevateMeta_address, isSignerRole_elevateMeta, isWritableRole_elevateMeta,
    hmerged.role_eq m₀ hm₀ _ joined_isSignerRole, hmerged.role_eq m₀ hm₀ _ joined_isWritableRole, Bool.or_eq_true,
    anyRole_inserted_signer, anyRole_inserted_writable, List.contains_iff_mem, List.mem_cons, List.not_mem_nil, or_false]
  constructor
  · exact or_comm
  · tauto

/-- The remaining accounts are the accounts of the body, each once, and every one is named by its position. -/
theorem referenced_remainingAccounts {compiled : CompiledInstructions} {executeAccounts : WalletExecuteAccounts}
    {source : DecompiledMessage} (hsource : ∀ ix ∈ body, ix ∈ source.instructions)
    (h : compileWalletInstructions body walletPda = .ok compiled) :
    let remainingAccounts := elevateForExecuteAccounts compiled.remainingAccounts executeAccounts
    (addresses remainingAccounts).Nodup ∧
      (∀ a, a ∈ addresses remainingAccounts ↔ ∃ ix ∈ body, a ∈ instructionKeys ix) ∧
      ∀ m ∈ remainingAccounts,
        ∃ i ∈ referencedIndexes (compiled.compactInstructions.map CompactInstructionArgs.toCompact),
          remainingAccounts[i.toNat]? = some m := by
  obtain ⟨-, remaining, hmerged, hremaining, hcompacts, -⟩ := compileWalletInstructions_ok h
  intro remainingAccounts
  have hkeys : addresses remainingAccounts = addresses remaining := by
    show addresses (elevateRemainingForExecuteChallenge compiled.remainingAccounts _ _) = _
    rw [addresses_elevate, hremaining, addresses_elevate]
  have hmem : ∀ a, a ∈ addresses remaining ↔ ∃ ix ∈ body, a ∈ instructionKeys ix := by
    intro a
    rw [hmerged.mem_addresses, addresses, List.map_flatMap, List.mem_flatMap]
    simp only [← addresses_insertedMetas walletPda]
    rfl
  have hnd : (addresses remaining).Nodup := hmerged.nodup
  -- one byte is enough for every position
  have hlen : (addresses remaining).length ≤ 256 := by
    refine (List.Subperm.length_le (hnd.subperm fun a ha => ?_)).trans source.length_le
    obtain ⟨ix, hix, ha⟩ := (hmem a).1 ha
    exact source.mem ix (hsource ix hix) a ha
  refine ⟨hkeys ▸ hnd, fun a => by rw [hkeys, hmem], fun m hm => ?_⟩
  have hm' : m.address ∈ addresses remaining := hkeys ▸ List.mem_map_of_mem hm
  have hlt := List.idxOf_lt_length_iff.2 hm'
  have hbyte : (UInt8.ofNat ((addresses remaining).idxOf m.address)).toNat = (addresses remaining).idxOf m.address :=
    UInt8.toNat_ofNat_of_lt' (show _ < 256 by omega)
  refine ⟨UInt8.ofNat ((addresses remaining).idxOf m.address), ?_, ?_⟩
  · obtain ⟨ix, hix, hkey⟩ := (hmem m.address).1 hm'
    refine index_mem (List.mem_map_of_mem (hcompacts ▸ List.mem_map_of_mem hix)) ?_
    rcases List.mem_cons.1 hkey with hprogram | haccount
    · rw [hprogram]
      exact List.mem_cons_self
    · obtain ⟨m', hm', haddress⟩ := List.mem_map.1 haccount
      rw [← haddress]
      exact List.mem_cons_of_mem _ (List.mem_map_of_mem hm')
  · obtain ⟨n, hn⟩ := List.getElem?_of_mem hm
    have hn' : (addresses remaining)[n]? = some m.address := by rw [← hkeys, addresses, List.getElem?_map, hn]; rfl
    obtain ⟨hltn, hget⟩ := List.getElem?_eq_some_iff.1 hn'
    rw [hbyte, ← hget, hnd.idxOf_getElem n hltn, hn]

end Compiled

/-! ## The wrapped message -/

/-- The `execute` of a wrapped message. -/
def wrappedExecute (executeAccounts : WalletExecuteAccounts) (remainingAccounts : List AccountMeta) (data : Bytes) :
    Instruction where
  programAddress := crateId
  accounts := some ([⟨executeAccounts.phygitalToken, .writable⟩, ⟨executeAccounts.wallet, .writable⟩,
    ⟨executeAccounts.authorityAccount, .writable⟩, ⟨slotHashesSysvarId, .readonly⟩, ⟨instructionsSysvarId, .readonly⟩,
    ⟨phygitalTokenId, .readonly⟩] ++ remainingAccounts)
  data := some data

/-- What the pipeline went through. -/
structure Wraps (sha256 : Bytes → Bytes) (services : WrapServices) (source : Message) (walletPda : Pubkey)
    (executeAccounts : WalletExecuteAccounts) (compiled : CompiledInstructions) (slot : SlotEntry)
    (verify : Secp256r1Verify) (data : Bytes) (wrapped : WrappedTransaction) : Prop where
  compiled_eq : compileWalletInstructions (bodyInstructions source.instructions) walletPda = .ok compiled
  compacts_eq : wrapped.pending.compactInstructions = compiled.compactInstructions
  remaining_eq : wrapped.pending.remainingAccounts = elevateForExecuteAccounts compiled.remainingAccounts executeAccounts
  slot_eq : services.fetchLatestSlotHash = .ok slot
  hash_eq : hashExecuteChallenge sha256 slot.slotHash compiled.compactInstructions
    (wrapped.pending.remainingAccounts.map RemainingAccount.account) = .ok wrapped.pending.messageHash
  verify_eq : services.authenticate wrapped.pending.messageHash = .ok verify
  data_eq : executeData compiled.compactInstructions verify.secp256r1VerifyArgs slot.slotNumber = .ok data
  message_eq : wrapped.message = ⟨wrappedFeePayer source executeAccounts, stripComputeBudgetInstructions
    (verify.secp256r1VerifyInstruction :: wrappedExecute executeAccounts wrapped.pending.remainingAccounts data ::
      memoInstructions source.instructions)⟩

theorem modifyAndWrap_ok {sha256 : Bytes → Bytes} {services : WrapServices} {source : Message} {walletPda : Pubkey}
    {executeAccounts : WalletExecuteAccounts} {wrapped : WrappedTransaction}
    (h : modifyAndWrapWalletTransaction sha256 services source walletPda executeAccounts = .ok wrapped) :
    ∃ compiled slot verify data,
      Wraps sha256 services source walletPda executeAccounts compiled slot verify data wrapped := by
  simp only [modifyAndWrapWalletTransaction, buildPendingWalletWrap, buildWrappedBaseMessage, getExecuteInstruction,
    outcome_bind_eq_ok, outcome_pure_eq_ok] at h
  obtain ⟨prepared, hprepared, compiled, hcompiled, _, -, _, -, slot, hslot, _, ⟨messageHash, hhash, rfl⟩, verify, hverify,
    _, ⟨_, ⟨data, hdata, rfl⟩, rfl⟩, rfl⟩ := h
  unfold prepareWrappedWalletTransaction at hprepared
  dsimp only at hprepared
  split at hprepared
  · cases hprepared
  · obtain rfl := Except.ok.inj hprepared
    refine ⟨compiled, slot, verify, data, hcompiled, rfl, rfl, hslot, hhash, hverify, hdata, ?_⟩
    have hpayer : ∀ instructions, withFeePayerIfWallet ⟨source.feePayer, instructions⟩ executeAccounts.wallet
        executeAccounts.feePayer = ⟨wrappedFeePayer source executeAccounts, instructions⟩ := by
      intro instructions
      unfold withFeePayerIfWallet wrappedFeePayer
      by_cases heq : source.feePayer = executeAccounts.wallet <;> simp [heq]
    rw [hpayer]
    rfl

section Wrapped

variable {sha256 : Bytes → Bytes} {services : WrapServices} {source : Message} {walletPda : Pubkey}
  {executeAccounts : WalletExecuteAccounts} {compiled : CompiledInstructions} {slot : SlotEntry} {verify : Secp256r1Verify}
  {data : Bytes} {wrapped : WrappedTransaction}

/-- The `execute` and the memos stay; the precompile's instruction has no accounts, whether it stays or not. -/
theorem Wraps.anyMeta (h : Wraps sha256 services source walletPda executeAccounts compiled slot verify data wrapped)
    (hverify : verify.secp256r1VerifyInstruction.metas = []) (a : Pubkey) (p : AccountRole → Bool) :
    wrapped.message.anyMeta a p = true ↔
      (∃ m ∈ (wrappedExecute executeAccounts wrapped.pending.remainingAccounts data).metas,
        m.address = a ∧ p m.role = true) ∨ NamedAs (memoInstructions source.instructions) a p := by
  have hexecute : crateId ≠ computeBudgetProgramAddress := by decide +kernel
  rw [h.message_eq, Message.anyMeta_eq_true]
  simp only [stripComputeBudgetInstructions, List.mem_filter, List.mem_cons, decide_eq_true_eq]
  constructor
  · rintro ⟨ix, ⟨rfl | rfl | hix, -⟩, hm⟩
    · rw [hverify] at hm
      obtain ⟨m, hm, -⟩ := hm
      cases hm
    · exact Or.inl hm
    · exact Or.inr ⟨ix, hix, hm⟩
  · rintro (hm | ⟨ix, hix, hm⟩)
    · exact ⟨_, ⟨Or.inr (Or.inl rfl), hexecute⟩, hm⟩
    · refine ⟨ix, ⟨Or.inr (Or.inr hix), ?_⟩, hm⟩
      have hstrip := List.mem_of_mem_filter hix
      simpa using List.of_mem_filter hstrip

/-- A flag of a remaining account in the wrapped message, where the client foresees that of the named accounts. -/
theorem Wraps.flag (h : Wraps sha256 services source walletPda executeAccounts compiled slot verify data wrapped)
    (hverify : verify.secp256r1VerifyInstruction.metas = []) (hnd : (addresses wrapped.pending.remainingAccounts).Nodup)
    {m : AccountMeta} (hm : m ∈ wrapped.pending.remainingAccounts) {p : AccountRole → Bool}
    (hnamed : ∀ m' ∈ (wrappedExecute executeAccounts [] data).metas, m'.address = m.address → p m'.role = true →
      p m.role = true) :
    (decide (m.address = wrapped.message.feePayer) || wrapped.message.anyMeta m.address p) = true ↔ p m.role = true ∨
      m.address = wrappedFeePayer source executeAccounts ∨
        NamedAs (memoInstructions source.instructions) m.address p := by
  have hpayer : wrapped.message.feePayer = wrappedFeePayer source executeAccounts := by rw [h.message_eq]
  rw [Bool.or_eq_true, decide_eq_true_eq, hpayer, h.anyMeta hverify]
  constructor
  · rintro (hp | ⟨m', hm', heq, hrole⟩ | hmemo)
    · exact Or.inr (Or.inl hp)
    · rcases List.mem_append.1 hm' with hm' | hm'
      · exact Or.inl (hnamed m' hm' heq hrole)
      · -- the account occurs once among the remaining accounts
        have honce : m' = m := List.inj_on_of_nodup_map hnd hm' hm heq
        exact Or.inl (honce ▸ hrole)
    · exact Or.inr (Or.inr hmemo)
  · rintro (hrole | hp | hmemo)
    · exact Or.inr (Or.inl ⟨m, List.mem_append_right _ hm, rfl, hrole⟩)
    · exact Or.inl hp
    · exact Or.inr (Or.inr hmemo)

/-- **The flags in the wrapped message** of a remaining account. -/
theorem Wraps.info (h : Wraps sha256 services source walletPda executeAccounts compiled slot verify data wrapped)
    (hverify : verify.secp256r1VerifyInstruction.metas = []) (hnd : (addresses wrapped.pending.remainingAccounts).Nodup)
    {m : AccountMeta} (hm : m ∈ wrapped.pending.remainingAccounts) :
    ((wrapped.message.info m.address).isSigner = true ↔ isSignerRole m.role = true ∨
      m.address = wrappedFeePayer source executeAccounts ∨
        NamedAs (memoInstructions source.instructions) m.address isSignerRole) ∧
    ((wrapped.message.info m.address).isWritable = true ↔ isWritableRole m.role = true ∨
      m.address = wrappedFeePayer source executeAccounts ∨
        NamedAs (memoInstructions source.instructions) m.address isWritableRole) := by
  have helevated := (mem_remainingAccounts h.compiled_eq (h.remaining_eq ▸ hm)).2
  refine ⟨h.flag hverify hnd hm ?_, h.flag hverify hnd hm ?_⟩
  · intro m' hm' _ hrole
    simp only [wrappedExecute, Instruction.metas, Option.getD_some, List.append_nil, List.mem_cons, List.not_mem_nil,
      or_false] at hm'
    rcases hm' with rfl | rfl | rfl | rfl | rfl | rfl <;> cases hrole
  · intro m' hm' heq hrole
    simp only [wrappedExecute, Instruction.metas, Option.getD_some, List.append_nil, List.mem_cons, List.not_mem_nil,
      or_false] at hm'
    rw [helevated, ← heq]
    rcases hm' with rfl | rfl | rfl | rfl | rfl | rfl
    iterate 3 exact Or.inl (by simp)
    iterate 3 cases hrole

/-- The client's flags of an account are those of the wrapped message. -/
theorem Wraps.foreseen_iff (h : Wraps sha256 services source walletPda executeAccounts compiled slot verify data wrapped)
    (hverify : verify.secp256r1VerifyInstruction.metas = []) (hnd : (addresses wrapped.pending.remainingAccounts).Nodup)
    (hmem : ∀ a, a ∈ addresses wrapped.pending.remainingAccounts ↔
      ∃ ix ∈ bodyInstructions source.instructions, a ∈ instructionKeys ix) :
    Foreseen source walletPda executeAccounts ↔
      ∀ m ∈ wrapped.pending.remainingAccounts, (RemainingAccount.account m).info = wrapped.message.info m.address := by
  have hflags : ∀ m ∈ wrapped.pending.remainingAccounts,
      ((RemainingAccount.account m).info = wrapped.message.info m.address ↔
        (m.address = wrappedFeePayer source executeAccounts ∨
            NamedAs (memoInstructions source.instructions) m.address isSignerRole → isSignerRole m.role = true) ∧
        (m.address = wrappedFeePayer source executeAccounts ∨
            NamedAs (memoInstructions source.instructions) m.address isWritableRole → isWritableRole m.role = true)) := by
    intro m hm
    obtain ⟨hs, hw⟩ := h.info hverify hnd hm
    have heq : (RemainingAccount.account m).info = wrapped.message.info m.address ↔
        (isSignerRole m.role = true ↔ (wrapped.message.info m.address).isSigner = true) ∧
        (isWritableRole m.role = true ↔ (wrapped.message.info m.address).isWritable = true) := by
      rw [← Bool.eq_iff_iff, ← Bool.eq_iff_iff]
      exact ⟨fun h => ⟨congrArg AccountInfo.isSigner h, congrArg AccountInfo.isWritable h⟩,
        fun h => AccountInfo.mk.injEq .. ▸ ⟨rfl, h.1, h.2⟩⟩
    rw [heq, hs, hw, iff_self_or, iff_self_or]
  have hforeseen := fun m hm => @mem_remainingAccounts _ _ _ executeAccounts h.compiled_eq m (h.remaining_eq ▸ hm)
  constructor
  · intro hf m hm
    obtain ⟨ix, hix, ha⟩ := (hmem m.address).1 (List.mem_map_of_mem hm)
    rw [hflags m hm, (hforeseen m hm).1, (hforeseen m hm).2]
    exact hf ix hix m.address ha
  · intro hf ix hix a ha
    obtain ⟨m, hm, rfl⟩ := List.mem_map.1 ((hmem a).2 ⟨ix, hix, ha⟩)
    have hm' := (hflags m hm).1 (hf m hm)
    rwa [(hforeseen m hm).1, (hforeseen m hm).2] at hm'

/-- The accounts that `execute` names, with their flags in a message. -/
def executeNamedAccounts (executeAccounts : WalletExecuteAccounts) (message : Message) : Execute where
  phygitalToken := message.info executeAccounts.phygitalToken
  wallet := message.info executeAccounts.wallet
  authorityAccount := message.info executeAccounts.authorityAccount
  slotHashes := message.info slotHashesSysvarId
  instructionsSysvar := message.info instructionsSysvarId
  phygitalTokenProgram := message.info phygitalTokenId

/-- The `execute` of the wrapped message, as the runtime calls it. -/
theorem Wraps.call (h : Wraps sha256 services source walletPda executeAccounts compiled slot verify data wrapped) :
    decodeExecute (wrapped.message.infos (wrappedExecute executeAccounts wrapped.pending.remainingAccounts data)) data =
      some (.ok ⟨.execute (executeNamedAccounts executeAccounts wrapped.message) verify.secp256r1VerifyArgs slot.slotNumber,
        wrapped.pending.remainingAccounts.map fun m => wrapped.message.info m.address,
        compiled.compactInstructions.map CompactInstructionArgs.toCompact⟩) := by
  obtain ⟨-, args, rfl, hencodable, rfl⟩ := executeData_ok h.data_eq
  exact decodeExecute_encode _ hencodable rfl

theorem Wraps.execute_mem
    (h : Wraps sha256 services source walletPda executeAccounts compiled slot verify data wrapped) :
    wrappedExecute executeAccounts wrapped.pending.remainingAccounts data ∈ wrapped.message.instructions := by
  rw [h.message_eq]
  refine List.mem_filter.2 ⟨List.mem_cons_of_mem _ List.mem_cons_self, ?_⟩
  show decide (crateId ≠ computeBudgetProgramAddress) = true
  decide +kernel

/-- Neither the precompile's instruction nor a memo is the program's. -/
theorem Wraps.execute_unique
    (h : Wraps sha256 services source walletPda executeAccounts compiled slot verify data wrapped)
    (hprogram : verify.secp256r1VerifyInstruction.programAddress = secp256r1ProgramId) :
    ∀ ix ∈ wrapped.message.instructions, ix.programAddress = crateId →
      ix = wrappedExecute executeAccounts wrapped.pending.remainingAccounts data := by
  rw [h.message_eq]
  intro ix hix hcrate
  have hix := List.mem_of_mem_filter (show ix ∈ List.filter _ _ from hix)
  rcases List.mem_cons.1 hix with rfl | hix
  · rw [hprogram] at hcrate
    exact absurd hcrate (by decide +kernel)
  · rcases List.mem_cons.1 hix with rfl | hix
    · rfl
    · have hmemo : ix.programAddress = memoProgramAddress := by simpa using List.of_mem_filter hix
      rw [hmemo] at hcrate
      exact absurd hcrate (by decide +kernel)

end Wrapped

/-! ## The challenge -/

/-- The `message_hash` that `execute` computes when the runtime calls it with an instruction of a message. -/
def programMessageHash (rt : Runtime) (bank : Bank) (message : Message) (ix : Instruction) : Option (Result Bytes) :=
  match decodeExecute (message.infos ix) (ix.data.getD []) with
  | some (.ok ⟨.execute accounts _ slotNumber, remaining, compacts⟩) =>
    some (messageHashOf rt accounts remaining compacts slotNumber bank)
  | _ => none

section Hashes

variable {rt : Runtime} {services : WrapServices} {source : Message} {walletPda : Pubkey}
  {executeAccounts : WalletExecuteAccounts} {compiled : CompiledInstructions} {slot : SlotEntry} {verify : Secp256r1Verify}
  {data : Bytes} {wrapped : WrappedTransaction} {bank : Bank}

/-- The program hashes the accounts with the flags of the wrapped message. -/
theorem Wraps.programMessageHash_eq
    (h : Wraps rt.hash services source walletPda executeAccounts compiled slot verify data wrapped)
    (hsysvar : fetchSlotHash (bank slotHashesSysvarId).data slot.slotNumber = .ok slot.slotHash) :
    programMessageHash rt bank wrapped.message (wrappedExecute executeAccounts wrapped.pending.remainingAccounts data) =
      some (executeMessageHash rt slot.slotHash
        (wrapped.pending.remainingAccounts.map fun m => wrapped.message.info m.address)
        (compiled.compactInstructions.map CompactInstructionArgs.toCompact)) := by
  rw [programMessageHash, show Option.getD _ _ = data from rfl, h.call]
  exact congrArg some (messageHashOf_slot hsysvar)

/-- The client hashes them with the flags that it foresees. -/
theorem Wraps.clientMessageHash_eq
    (h : Wraps rt.hash services source walletPda executeAccounts compiled slot verify data wrapped)
    (hlen : ∀ bytes, (rt.hash bytes).length = 32) (hslotHash : slot.slotHash.length = 32) :
    executeMessageHash rt slot.slotHash
        (wrapped.pending.remainingAccounts.map fun m => (RemainingAccount.account m).info)
        (compiled.compactInstructions.map CompactInstructionArgs.toCompact) = .ok wrapped.pending.messageHash := by
  have hclient := (hashExecuteChallenge_program hlen hslotHash (executeData_ok h.data_eq).1).1 h.hash_eq
  rwa [List.map_map] at hclient

/-- One hash of the two lists of flags has been made of one list. -/
theorem Wraps.infos_of_hash
    (h : Wraps rt.hash services source walletPda executeAccounts compiled slot verify data wrapped)
    (hlen : ∀ bytes, (rt.hash bytes).length = 32) (hslotHash : slot.slotHash.length = 32)
    (hindex : ∀ m ∈ wrapped.pending.remainingAccounts,
      ∃ i ∈ referencedIndexes (compiled.compactInstructions.map CompactInstructionArgs.toCompact),
        wrapped.pending.remainingAccounts[i.toNat]? = some m)
    (hcol : Set.InjOn rt.hash
      (hashed rt.hash slot.slotHash (wrapped.pending.remainingAccounts.map fun m => wrapped.message.info m.address)
          (compiled.compactInstructions.map CompactInstructionArgs.toCompact) ∪
        hashed rt.hash slot.slotHash (wrapped.pending.remainingAccounts.map fun m => (RemainingAccount.account m).info)
          (compiled.compactInstructions.map CompactInstructionArgs.toCompact)))
    (hhash : executeMessageHash rt slot.slotHash
      (wrapped.pending.remainingAccounts.map fun m => wrapped.message.info m.address)
      (compiled.compactInstructions.map CompactInstructionArgs.toCompact) = .ok wrapped.pending.messageHash) :
    ∀ m ∈ wrapped.pending.remainingAccounts, (RemainingAccount.account m).info = wrapped.message.info m.address := by
  obtain ⟨-, hinfos⟩ := executeMessageHash_inj rfl hlen hcol hhash (h.clientMessageHash_eq hlen hslotHash)
  obtain ⟨_, ais, -, hais, -⟩ := executeMessageHash_iff.1 hhash
  have hat := sameReferenced_of_infos hais (hinfos ▸ hais)
  intro m hm
  obtain ⟨i, hi, hget⟩ := hindex m hm
  have hi' := hat i hi
  rw [List.getElem?_map, List.getElem?_map, hget] at hi'
  exact (Option.some.inj hi').symm

end Hashes

/-- **The hash that the passkey signs is the hash that the program computes** for the wrapped message where `Foreseen`
holds; and only there, unless the hash function has a collision among what the two of them hash. -/
theorem wrap_challenge {rt : Runtime} {services : WrapServices} {source : DecompiledMessage} {walletPda : Pubkey}
    {executeAccounts : WalletExecuteAccounts} {wrapped : WrappedTransaction} {slot : SlotEntry} {bank : Bank}
    (hlen : ∀ bytes, (rt.hash bytes).length = 32)
    (hverify : ∀ messageHash verify, services.authenticate messageHash = .ok verify →
      verify.secp256r1VerifyInstruction.programAddress = secp256r1ProgramId ∧
        verify.secp256r1VerifyInstruction.metas = [])
    (hslot : services.fetchLatestSlotHash = .ok slot) (hslotHash : slot.slotHash.length = 32)
    (hsysvar : fetchSlotHash (bank slotHashesSysvarId).data slot.slotNumber = .ok slot.slotHash)
    (h : modifyAndWrapWalletTransaction rt.hash services source.toMessage walletPda executeAccounts = .ok wrapped) :
    ∃ ix ∈ wrapped.message.instructions,
      (∀ ix' ∈ wrapped.message.instructions, ix'.programAddress = crateId → ix' = ix) ∧
      (Foreseen source.toMessage walletPda executeAccounts →
        programMessageHash rt bank wrapped.message ix = some (.ok wrapped.pending.messageHash)) ∧
      (let compacts := wrapped.pending.compactInstructions.map CompactInstructionArgs.toCompact
       Set.InjOn rt.hash (hashed rt.hash slot.slotHash ((wrapped.message.infos ix).drop 6) compacts ∪
          hashed rt.hash slot.slotHash (wrapped.pending.remainingAccounts.map fun m => (RemainingAccount.account m).info)
            compacts) →
        programMessageHash rt bank wrapped.message ix = some (.ok wrapped.pending.messageHash) →
        Foreseen source.toMessage walletPda executeAccounts) := by
  obtain ⟨compiled, slot', verify, data, hw⟩ := modifyAndWrap_ok h
  obtain rfl : slot' = slot := Except.ok.inj (hw.slot_eq.symm.trans hslot)
  obtain ⟨hprogram, hmetas⟩ := hverify _ _ hw.verify_eq
  have hbody : ∀ ix ∈ bodyInstructions source.instructions, ix ∈ source.instructions :=
    fun ix hix => List.mem_of_mem_filter (List.mem_of_mem_filter hix)
  obtain ⟨hnd, hmem, hindex⟩ := @referenced_remainingAccounts _ _ _ executeAccounts source hbody hw.compiled_eq
  rw [← hw.remaining_eq] at hnd hmem hindex
  have hforeseen := hw.foreseen_iff hmetas hnd hmem
  have hmessage := hw.programMessageHash_eq hsysvar
  refine ⟨wrappedExecute executeAccounts wrapped.pending.remainingAccounts data, hw.execute_mem,
    hw.execute_unique hprogram, fun hf => ?_, fun hcol hhash => ?_⟩
  · have hsame : wrapped.pending.remainingAccounts.map (fun m => wrapped.message.info m.address) =
        wrapped.pending.remainingAccounts.map fun m => (RemainingAccount.account m).info :=
      List.map_congr_left fun m hm => (hforeseen.1 hf m hm).symm
    rw [hmessage, hsame]
    exact congrArg some (hw.clientMessageHash_eq hlen hslotHash)
  · have hremaining : (wrapped.message.infos
        (wrappedExecute executeAccounts wrapped.pending.remainingAccounts data)).drop 6 =
          wrapped.pending.remainingAccounts.map fun m => wrapped.message.info m.address := rfl
    rw [hw.compacts_eq, hremaining] at hcol
    rw [hmessage] at hhash
    exact hforeseen.2 (hw.infos_of_hash hlen hslotHash hindex hcol (Option.some.inj hhash))

/-- A message that the wallet pays for: an instruction that names the configured fee payer in some role, and a memo. -/
def exampleSource (role : AccountRole) : DecompiledMessage where
  feePayer := .fill 9
  instructions := [⟨.fill 5, some [⟨.fill 9, .writableSigner⟩, ⟨.fill 6, role⟩], some [1]⟩,
    ⟨memoProgramAddress, none, some [104, 105]⟩]
  accountKeys := [.fill 9, .fill 6, .fill 5, memoProgramAddress]
  length_le := by decide
  mem := by simp [instructionKeys, addresses, Instruction.metas]

def exampleExecuteAccounts : WalletExecuteAccounts :=
  { authority := .fill 4, feePayer := .fill 6, authorityAccount := .fill 7, wallet := .fill 9, phygitalToken := .fill 8 }

/-- One signature over 69 bytes. -/
def exampleVerify : Secp256r1Verify where
  secp256r1VerifyInstruction :=
    { programAddress := secp256r1ProgramId
      accounts := none
      data := some ([1, 0, 49, 0, 255, 255, 16, 0, 255, 255, 113, 0, 69, 0, 255, 255] ++ List.replicate 33 2 ++
        List.replicate 64 1 ++ List.replicate 69 0) }
  secp256r1VerifyArgs := ⟨-1, 0, []⟩

def exampleServices : WrapServices where
  assertPolicyPreviewSucceeds _ := .ok ()
  fetchLatestSlotHash := .ok ⟨3, List.replicate 32 4⟩
  authenticate _ := .ok exampleVerify

/-- The wallet pays the configured fee payer: the tap verifies. -/
theorem wrap_challenge_writable : ∃ wrapped, modifyAndWrapWalletTransaction shaRuntime.hash exampleServices
      (exampleSource .writable).toMessage (.fill 9) exampleExecuteAccounts = .ok wrapped ∧
    ∃ ix ∈ wrapped.message.instructions,
      programMessageHash shaRuntime transferBank wrapped.message ix = some (.ok wrapped.pending.messageHash) := by
  have hwrap : (fun wrapped => wrapped.message.feePayer) <$> modifyAndWrapWalletTransaction shaRuntime.hash
      exampleServices (exampleSource .writable).toMessage (.fill 9) exampleExecuteAccounts = .ok (.fill 6) := by
    decide +kernel
  obtain ⟨wrapped, hwrap, -⟩ := outcome_map_eq_ok.1 hwrap
  obtain ⟨ix, hix, -, hagree, -⟩ := @wrap_challenge shaRuntime exampleServices (exampleSource .writable) (.fill 9)
    exampleExecuteAccounts wrapped _ transferBank Sha256.length_digest
    (fun _ _ h => by cases h; exact ⟨rfl, rfl⟩) rfl rfl (by decide +kernel) hwrap
  exact ⟨wrapped, hwrap, ix, hix, hagree (by decide +kernel)⟩

/-- The configured fee payer is named in a role that does not write: the runtime lets it be written all the same, and the
two hashes differ. -/
theorem wrap_challenge_readonly : ∃ wrapped, modifyAndWrapWalletTransaction shaRuntime.hash exampleServices
      (exampleSource .readonly).toMessage (.fill 9) exampleExecuteAccounts = .ok wrapped ∧
    ∃ ix ∈ wrapped.message.instructions, ∃ messageHash,
      programMessageHash shaRuntime transferBank wrapped.message ix = some (.ok messageHash) ∧
        messageHash ≠ wrapped.pending.messageHash := by
  have hwrap : (fun wrapped => wrapped.message.instructions.any fun ix =>
        ((programMessageHash shaRuntime transferBank wrapped.message ix).bind Except.toOption).any fun messageHash =>
          decide (messageHash ≠ wrapped.pending.messageHash)) <$> modifyAndWrapWalletTransaction shaRuntime.hash exampleServices
      (exampleSource .readonly).toMessage (.fill 9) exampleExecuteAccounts = .ok true := by decide +kernel
  obtain ⟨wrapped, hwrap, hany⟩ := outcome_map_eq_ok.1 hwrap
  obtain ⟨ix, hix, hdiffer⟩ := List.any_eq_true.1 hany
  obtain ⟨messageHash, hsome, hne⟩ := (Option.any_eq_true ..).1 hdiffer
  obtain ⟨_ | result, hresult, htoOption⟩ := Option.bind_eq_some_iff.1 hsome
  · cases htoOption
  · cases htoOption
    exact ⟨wrapped, hwrap, ix, hix, messageHash, hresult, of_decide_eq_true hne⟩

end PhygitalWallet.Client
