import PhygitalWallet.Client.RoundTrip
import PhygitalWallet.Program.Issued
import PhygitalWallet.Program.Verdict

/-!
# The policy preview (`wallet/wrap-transaction.ts`, `instructions/execute.rs`)

Before the tap the client simulates the same compact instructions as the owner, with policy. Both messages name the same
remaining accounts; the flags of an account are those of its whole message.

- `modifyAndWrap_preview`: the message that is simulated;
- `Previews.isSigner`, `Previews.isWritable`: its flags against those of the wrapped message;
- `run_verified`: after their own checks both handlers are `executePolicied`;
- `TwoLists.agree`, `TwoLists.exact`: the condition is enough, and needed;
- `preview_verdict`: where the two verdicts agree.
-/

namespace PhygitalWallet.Client

open Agreement ListLoop ByteCodec Borsh

/-! ## The message that is simulated -/

/-- The `execute_with_authority_using_policies` of a preview. -/
def previewExecute (executeAccounts : WalletExecuteAccounts) (remainingAccounts : List AccountMeta) (data : Bytes) :
    Instruction where
  programAddress := crateId
  accounts := some ([⟨executeAccounts.authority, .readonlySigner⟩, ⟨executeAccounts.phygitalToken, .readonly⟩,
    ⟨executeAccounts.authorityAccount, .writable⟩, ⟨executeAccounts.wallet, .writable⟩,
    ⟨instructionsSysvarId, .readonly⟩] ++ remainingAccounts)
  data := some data

/-- What the preview is built of. -/
structure Previews (source : Message) (executeAccounts : WalletExecuteAccounts) (wrapped : WrappedTransaction)
    (data : Bytes) (preview : Message) : Prop where
  data_eq : executeWithAuthorityData .executeWithAuthorityUsingPolicies wrapped.pending.compactInstructions = .ok data
  message_eq : preview = ⟨wrappedFeePayer source executeAccounts, stripComputeBudgetInstructions
    (previewExecute executeAccounts wrapped.pending.remainingAccounts data :: memoInstructions source.instructions)⟩

theorem withFeePayerIfWallet_eq (source : Message) (executeAccounts : WalletExecuteAccounts)
    (instructions : List Instruction) :
    withFeePayerIfWallet ⟨source.feePayer, instructions⟩ executeAccounts.wallet executeAccounts.feePayer =
      ⟨wrappedFeePayer source executeAccounts, instructions⟩ := by
  unfold withFeePayerIfWallet wrappedFeePayer
  by_cases heq : source.feePayer = executeAccounts.wallet <;> simp [heq]

/-- **The simulated message** of a transaction that was wrapped; the pipeline has seen it succeed. -/
theorem modifyAndWrap_preview {sha256 : Bytes → Bytes} {services : WrapServices} {source : Message} {walletPda : Pubkey}
    {executeAccounts : WalletExecuteAccounts} {wrapped : WrappedTransaction}
    (h : modifyAndWrapWalletTransaction sha256 services source walletPda executeAccounts = .ok wrapped) :
    ∃ preview data, buildPolicyPreviewMessage wrapped.pending.prepared wrapped.pending.compactInstructions
        wrapped.pending.remainingAccounts executeAccounts = .ok preview ∧
      services.assertPolicyPreviewSucceeds preview = .ok () ∧ Previews source executeAccounts wrapped data preview := by
  simp only [modifyAndWrapWalletTransaction, buildPendingWalletWrap, outcome_bind_eq_ok, outcome_pure_eq_ok] at h
  obtain ⟨prepared, hprepared, compiled, -, preview, hpreview, ⟨⟩, hsimulated, slot, -, _, ⟨messageHash, -, rfl⟩,
    verify, -, _, -, rfl⟩ := h
  refine ⟨preview, ?_⟩
  have hbuild := hpreview
  simp only [buildPolicyPreviewMessage, getExecuteWithAuthorityUsingPoliciesInstruction, outcome_bind_eq_ok,
    outcome_pure_eq_ok] at hbuild
  obtain ⟨_, ⟨data, hdata, rfl⟩, rfl⟩ := hbuild
  refine ⟨data, hpreview, hsimulated, hdata, ?_⟩
  unfold prepareWrappedWalletTransaction at hprepared
  dsimp only at hprepared
  split at hprepared
  · cases hprepared
  · obtain rfl := Except.ok.inj hprepared
    rw [withFeePayerIfWallet_eq]
    rfl

/-! ## The call -/

/-- The encoder of the owner's executes. -/
theorem executeWithAuthorityData_ok {kind : PhygitalWalletInstruction} {compacts : List CompactInstructionArgs}
    {data : Bytes} (h : executeWithAuthorityData kind compacts = .ok data) :
    ((compacts.map CompactInstructionArgs.toCompact).length < 2 ^ 32 ∧
        ∀ ix ∈ compacts.map CompactInstructionArgs.toCompact, ix.Encodable) ∧
      data = kind.discriminator ++
        encodeVec CompactInstruction.encode (compacts.map CompactInstructionArgs.toCompact) := by
  simp only [executeWithAuthorityData, outcome_bind_eq_ok, outcome_pure_eq_ok] at h
  obtain ⟨encoded, hencoded, rfl⟩ := h
  obtain ⟨⟨hlen, hall⟩, rfl⟩ := encodeArray_ok (fun _ _ => encodeCompactInstruction_ok) hencoded
  refine ⟨⟨by rwa [List.length_map], fun ix hix => ?_⟩, ?_⟩
  · obtain ⟨ix', hix', rfl⟩ := List.mem_map.1 hix
    exact (hall ix' hix').2
  · simp [encodeVec, List.flatMap_map]

section Preview

variable {source : Message} {executeAccounts : WalletExecuteAccounts} {wrapped : WrappedTransaction} {data : Bytes}
  {preview : Message}

/-- The accounts that the preview's instruction names. -/
def previewAccounts (executeAccounts : WalletExecuteAccounts) (preview : Message) : ExecuteWithAuthority where
  authority := preview.info executeAccounts.authority
  phygitalToken := preview.info executeAccounts.phygitalToken
  authorityAccount := preview.info executeAccounts.authorityAccount
  wallet := preview.info executeAccounts.wallet
  instructionsSysvar := preview.info instructionsSysvarId

/-- The instruction of a preview, as the runtime calls it. -/
theorem Previews.call (h : Previews source executeAccounts wrapped data preview) :
    decodeExecute (preview.infos (previewExecute executeAccounts wrapped.pending.remainingAccounts data)) data =
      some (.ok ⟨.executeWithAuthorityUsingPolicies (previewAccounts executeAccounts preview),
        wrapped.pending.remainingAccounts.map fun m => preview.info m.address,
        wrapped.pending.compactInstructions.map CompactInstructionArgs.toCompact⟩) := by
  obtain ⟨hvalid, rfl⟩ := executeWithAuthorityData_ok h.data_eq
  have hdec : deserialize (vec (.external instructionDidNotDeserialize)
      (compactInstruction (.external instructionDidNotDeserialize)))
      (encodeVec CompactInstruction.encode (wrapped.pending.compactInstructions.map CompactInstructionArgs.toCompact)
        ++ []) = .ok (wrapped.pending.compactInstructions.map CompactInstructionArgs.toCompact) :=
    deserialize_encode (decodes_vec _ (decodes_compactInstruction _) fun ix _ => encode_compactInstruction_ne_nil ix)
      hvalid (by simp [Format.vec]) []
  have hdrop : ∀ encoded,
      (PhygitalWalletInstruction.executeWithAuthorityUsingPolicies.discriminator ++ encoded).drop 8 =
        encoded ++ [] := by
    intro encoded
    rw [List.append_nil]
    rfl
  simp only [decodeExecute, instructionOf_discriminator, hdrop]
  rw [hdec]
  rfl

/-! ## The flags -/

/-- The instruction and the memos stay. -/
theorem Previews.anyMeta (h : Previews source executeAccounts wrapped data preview) (a : Pubkey)
    (p : AccountRole → Bool) : preview.anyMeta a p = true ↔
      (∃ m ∈ (previewExecute executeAccounts wrapped.pending.remainingAccounts data).metas,
        m.address = a ∧ p m.role = true) ∨ NamedAs (memoInstructions source.instructions) a p := by
  have hexecute : crateId ≠ computeBudgetProgramAddress := by decide +kernel
  rw [h.message_eq, Message.anyMeta_eq_true]
  simp only [stripComputeBudgetInstructions, List.mem_filter, List.mem_cons, decide_eq_true_eq]
  constructor
  · rintro ⟨ix, ⟨rfl | hix, -⟩, hm⟩
    · exact Or.inl hm
    · exact Or.inr ⟨ix, hix, hm⟩
  · rintro (hm | ⟨ix, hix, hm⟩)
    · exact ⟨_, ⟨Or.inl rfl, hexecute⟩, hm⟩
    · refine ⟨ix, ⟨Or.inr hix, ?_⟩, hm⟩
      have hstrip := List.mem_of_mem_filter hix
      simpa using List.of_mem_filter hstrip

variable {sha256 : Bytes → Bytes} {services : WrapServices} {walletPda : Pubkey} {compiled : CompiledInstructions}
  {slot : SlotEntry} {verify : Secp256r1Verify} {executeData : Bytes}

/-- **The preview's signers** are those of the wrapped message and the authority. -/
theorem Previews.isSigner (h : Previews source executeAccounts wrapped data preview)
    (hw : Wraps sha256 services source walletPda executeAccounts compiled slot verify executeData wrapped)
    (hverify : verify.secp256r1VerifyInstruction.metas = []) (a : Pubkey) :
    (preview.info a).isSigner = true ↔ (wrapped.message.info a).isSigner = true ∨ a = executeAccounts.authority := by
  have hpayer : preview.feePayer = wrapped.message.feePayer := by rw [h.message_eq, hw.message_eq]
  simp only [Message.info, Bool.or_eq_true, decide_eq_true_eq, h.anyMeta, hw.anyMeta hverify, hpayer]
  constructor
  · rintro (hp | ⟨m, hm, heq, hrole⟩ | hmemo)
    · exact Or.inl (Or.inl hp)
    · rcases List.mem_append.1 hm with hm | hm
      · simp only [List.mem_cons, List.not_mem_nil, or_false] at hm
        rcases hm with rfl | rfl | rfl | rfl | rfl
        · exact Or.inr heq.symm
        all_goals cases hrole
      · exact Or.inl (Or.inr (Or.inl ⟨m, List.mem_append_right _ hm, heq, hrole⟩))
    · exact Or.inl (Or.inr (Or.inr hmemo))
  · rintro ((hp | ⟨m, hm, heq, hrole⟩ | hmemo) | rfl)
    · exact Or.inl hp
    · rcases List.mem_append.1 hm with hm | hm
      · simp only [List.mem_cons, List.not_mem_nil, or_false] at hm
        rcases hm with rfl | rfl | rfl | rfl | rfl | rfl <;> cases hrole
      · exact Or.inr (Or.inl ⟨m, List.mem_append_right _ hm, heq, hrole⟩)
    · exact Or.inr (Or.inr hmemo)
    · exact Or.inr (Or.inl ⟨_, List.mem_cons_self, rfl, rfl⟩)

/-- **What is writable** among the remaining accounts is the same in both messages. -/
theorem Previews.isWritable (h : Previews source executeAccounts wrapped data preview)
    (hw : Wraps sha256 services source walletPda executeAccounts compiled slot verify executeData wrapped)
    (hverify : verify.secp256r1VerifyInstruction.metas = []) {a : Pubkey}
    (ha : a ∈ addresses wrapped.pending.remainingAccounts) :
    (preview.info a).isWritable = (wrapped.message.info a).isWritable := by
  have hpayer : preview.feePayer = wrapped.message.feePayer := by rw [h.message_eq, hw.message_eq]
  -- the named accounts are elevated where they are among the remaining accounts
  have hnamed : a ∈ [executeAccounts.phygitalToken, executeAccounts.wallet, executeAccounts.authorityAccount] →
      ∃ m ∈ wrapped.pending.remainingAccounts, m.address = a ∧ isWritableRole m.role = true := by
    intro hmem
    obtain ⟨m, hm, rfl⟩ := List.mem_map.1 ha
    refine ⟨m, hm, rfl, (mem_remainingAccounts hw.compiled_eq (hw.remaining_eq ▸ hm)).2.2 (Or.inl ?_)⟩
    simp only [List.mem_cons, List.not_mem_nil, or_false] at hmem ⊢
    tauto
  rw [Bool.eq_iff_iff]
  simp only [Message.info, Bool.or_eq_true, decide_eq_true_eq, h.anyMeta, hw.anyMeta hverify, hpayer]
  refine or_congr Iff.rfl (or_congr ?_ Iff.rfl)
  constructor
  · rintro ⟨m, hm, heq, hrole⟩
    rcases List.mem_append.1 hm with hm | hm
    · simp only [List.mem_cons, List.not_mem_nil, or_false] at hm
      have hmem : a ∈ [executeAccounts.phygitalToken, executeAccounts.wallet, executeAccounts.authorityAccount] := by
        rw [← heq]
        rcases hm with rfl | rfl | rfl | rfl | rfl
        iterate 2 cases hrole
        iterate 2 simp
        cases hrole
      obtain ⟨m', hm', heq', hrole'⟩ := hnamed hmem
      exact ⟨m', List.mem_append_right _ hm', heq', hrole'⟩
    · exact ⟨m, List.mem_append_right _ hm, heq, hrole⟩
  · rintro ⟨m, hm, heq, hrole⟩
    rcases List.mem_append.1 hm with hm | hm
    · simp only [List.mem_cons, List.not_mem_nil, or_false] at hm
      have hmem : a ∈ [executeAccounts.phygitalToken, executeAccounts.wallet, executeAccounts.authorityAccount] := by
        rw [← heq]
        rcases hm with rfl | rfl | rfl | rfl | rfl | rfl
        iterate 3 simp
        iterate 3 cases hrole
      obtain ⟨m', hm', heq', hrole'⟩ := hnamed hmem
      exact ⟨m', List.mem_append_right _ hm', heq', hrole'⟩
    · exact ⟨m, List.mem_append_right _ hm, heq, hrole⟩

end Preview

/-! ## The handlers -/

/-- The runtime runs an instruction of a message. -/
def runInstruction [HeapSizes] (rt : Runtime) (message : Message) (ix : Instruction) (bank : Bank) :
    Option (Result Executed) :=
  (decodeExecute (message.infos ix) (ix.data.getD [])).map fun call => do
    let call ← call
    call.run rt bank

/-- What an `execute` of a message has verified before its snapshot. -/
def verifyInstruction (rt : Runtime) (message : Message) (ix : Instruction) (bank : Bank) :
    Option (Result (AuthorityHeader × Bool × Bank)) :=
  match decodeExecute (message.infos ix) (ix.data.getD []) with
  | some (.ok ⟨.execute accounts args slotNumber, remaining, compacts⟩) =>
    some (verifyExecute rt accounts remaining compacts args slotNumber bank)
  | _ => none

/-- The accounts whose state the two transactions share: all but the sysvar that holds the transaction itself. The
wallet's own accounts are never that sysvar. -/
def ledger (executeAccounts : WalletExecuteAccounts) : Set Pubkey :=
  { key | key = instructionsSysvarId →
      key ∈ [executeAccounts.wallet, executeAccounts.phygitalToken, executeAccounts.authorityAccount] }

instance (executeAccounts : WalletExecuteAccounts) (key : Pubkey) : Decidable (key ∈ ledger executeAccounts) :=
  inferInstanceAs (Decidable (key = instructionsSysvarId → _))

/-- From the snapshot to the charge, with the flags that the remaining accounts have in a message. -/
def policiedOver [HeapSizes] (rt : Runtime) (executeAccounts : WalletExecuteAccounts) (walletBump : UInt8)
    (policyPresent : Bool) (wrapped : WrappedTransaction) (message : Message) (bank : Bank) : Result Executed :=
  executePolicied rt executeAccounts.phygitalToken executeAccounts.wallet executeAccounts.authorityAccount walletBump
    policyPresent (wrapped.pending.remainingAccounts.map fun m => message.info m.address)
    (wrapped.pending.compactInstructions.map CompactInstructionArgs.toCompact) bank

section Handlers

variable {source : Message} {executeAccounts : WalletExecuteAccounts} {wrapped : WrappedTransaction} {data : Bytes}
  {preview : Message} {sha256 : Bytes → Bytes} {services : WrapServices} {walletPda : Pubkey}
  {compiled : CompiledInstructions} {slot : SlotEntry} {verify : Secp256r1Verify} {executeData : Bytes}

/-- The owner's checks pass where the tap was verified, when the owner is the authority on record. -/
theorem authorizePolicied_of_verified {rt : Runtime} {accounts : Execute} {owner : ExecuteWithAuthority}
    {remaining : List AccountInfo} {compacts : List CompactInstruction} {args : Secp256r1VerifyArgs}
    {slotNumber : UInt64} {b₁ b₂ after : Bank} {header : AuthorityHeader} {policyPresent : Bool}
    (h : verifyExecute rt accounts remaining compacts args slotNumber b₁ = .ok (header, policyPresent, after))
    (htoken : owner.phygitalToken.key = accounts.phygitalToken.key) (hwallet : owner.wallet.key = accounts.wallet.key)
    (haccount : owner.authorityAccount.key = accounts.authorityAccount.key)
    (hsysvar : owner.instructionsSysvar.key = instructionsSysvarId) (hsigner : owner.authority.isSigner = true)
    (hwritable : owner.authorityAccount.isWritable = true) (hwalletWritable : owner.wallet.isWritable = true)
    (hstate : ∀ key ∈ [accounts.wallet.key, accounts.phygitalToken.key, accounts.authorityAccount.key], b₁ key = b₂ key)
    (hauthority : header.authority = owner.authority.key) {data : Bytes}
    (hfirst : rt.firstInstruction (b₂ instructionsSysvarId).data = some (crateId, data)) :
    authorizePolicied rt owner b₂ = .ok (header, policyPresent) := by
  simp only [verifyExecute, Execute.validate, unit_bind_eq_ok, require_eq_ok, anchorRequire_eq_ok] at h
  obtain ⟨⟨-, hlocked, howner, -, hmatches, -⟩, htop, h⟩ := h
  obtain ⟨⟨header', policyPresent'⟩, hread, h⟩ := bind_eq_ok.1 h
  simp only [unit_bind_eq_ok, require_eq_ok] at h
  obtain ⟨hcanonical, hheader, h⟩ := h
  obtain ⟨_, -, h⟩ := bind_eq_ok.1 h
  obtain ⟨_, -, h⟩ := bind_eq_ok.1 h
  obtain ⟨_, -, h⟩ := bind_eq_ok.1 h
  cases h
  rw [hstate _ (by simp)] at hlocked howner hmatches hread
  have hnonce : rejectDurableNonce rt (b₂ owner.instructionsSysvar.key).data = .ok () := by
    rw [rejectDurableNonce, hsysvar, hfirst]
    have hprogram : crateId ≠ systemProgramId := by decide +kernel
    simp [okOr, hprogram]
  simp only [authorizePolicied, ExecuteWithAuthority.validate, unit_bind_eq_ok, require_eq_ok, anchorRequire_eq_ok,
    htoken, hwallet, haccount]
  exact ⟨⟨hsigner, hlocked, howner, fun _ => hwritable, hwalletWritable, hmatches, hsysvar⟩, htop, hnonce,
    bind_eq_ok.2 ⟨_, hread, by simp [hcanonical, hauthority, hheader]⟩⟩

theorem executeWithAuthorityUsingPolicies_eq [HeapSizes] (rt : Runtime) (accounts : ExecuteWithAuthority)
    (remaining : List AccountInfo) (compacts : List CompactInstruction) (bank : Bank) :
    executeWithAuthorityUsingPolicies rt accounts remaining compacts bank = (do
      let (header, policyPresent) ← authorizePolicied rt accounts bank
      executePolicied rt accounts.phygitalToken.key accounts.wallet.key accounts.authorityAccount.key header.walletBump
        policyPresent remaining compacts bank) := by
  simp only [executeWithAuthorityUsingPolicies, authorizePolicied, bind_assoc, pure_bind]

/-- **After their own checks both handlers are `executePolicied`.** -/
theorem run_verified [HeapSizes] (h : Previews source executeAccounts wrapped data preview)
    (hw : Wraps sha256 services source walletPda executeAccounts compiled slot verify executeData wrapped)
    {rt : Runtime} {b₁ b₂ : Bank} {header : AuthorityHeader} {policyPresent : Bool}
    (hstate : Set.EqOn b₁ b₂ (ledger executeAccounts))
    (hverified : verifyInstruction rt wrapped.message
      (wrappedExecute executeAccounts wrapped.pending.remainingAccounts executeData) b₁ =
        some (.ok (header, policyPresent, b₁)))
    (hauthority : header.authority = executeAccounts.authority)
    (hfirst : rt.firstInstruction (b₂ instructionsSysvarId).data = some (crateId, data)) :
    runInstruction rt wrapped.message
        (wrappedExecute executeAccounts wrapped.pending.remainingAccounts executeData) b₁ =
      some (policiedOver rt executeAccounts header.walletBump policyPresent wrapped wrapped.message b₁) ∧
    runInstruction rt preview (previewExecute executeAccounts wrapped.pending.remainingAccounts data) b₂ =
      some (policiedOver rt executeAccounts header.walletBump policyPresent wrapped preview b₂) := by
  have hcall := hw.call
  have hverify : verifyExecute rt (executeNamedAccounts executeAccounts wrapped.message)
      (wrapped.pending.remainingAccounts.map fun m => wrapped.message.info m.address)
      (compiled.compactInstructions.map CompactInstructionArgs.toCompact) verify.secp256r1VerifyArgs slot.slotNumber
      b₁ = .ok (header, policyPresent, b₁) := by
    rw [verifyInstruction, show Option.getD _ _ = executeData from rfl, hcall] at hverified
    exact Option.some.inj hverified
  have howner : authorizePolicied rt (previewAccounts executeAccounts preview) b₂ = .ok (header, policyPresent) := by
    have hnamed : ∀ a p, (∃ m ∈ (previewExecute executeAccounts wrapped.pending.remainingAccounts data).metas,
        m.address = a ∧ p m.role = true) → (decide (a = preview.feePayer) || preview.anyMeta a p) = true := by
      intro a p hm
      rw [(h.anyMeta a p).2 (Or.inl hm), Bool.or_true]
    refine authorizePolicied_of_verified hverify rfl rfl rfl rfl (hnamed _ _ ?_) (hnamed _ _ ?_) (hnamed _ _ ?_) ?_
      hauthority hfirst
    · exact ⟨_, List.mem_cons_self, rfl, rfl⟩
    · exact ⟨⟨executeAccounts.authorityAccount, .writable⟩, by simp [previewExecute, Instruction.metas], rfl, rfl⟩
    · exact ⟨⟨executeAccounts.wallet, .writable⟩, by simp [previewExecute, Instruction.metas], rfl, rfl⟩
    · exact fun key hkey => hstate fun _ => hkey
  constructor
  · rw [runInstruction, show Option.getD _ _ = executeData from rfl, hcall, policiedOver, hw.compacts_eq]
    refine congrArg some ?_
    show execute rt _ _ _ _ _ b₁ = _
    rw [execute, hverify]
    rfl
  · rw [runInstruction, show Option.getD _ _ = data from rfl, h.call, policiedOver]
    refine congrArg some ?_
    show executeWithAuthorityUsingPolicies rt _ _ _ b₂ = _
    rw [executeWithAuthorityUsingPolicies_eq, howner]
    rfl

end Handlers

/-! ## What the compact instructions resolve to -/

/-- The CPI of an instruction, over the flags of a message. -/
def resolvedAs (wallet : Pubkey) (info : Pubkey → AccountInfo) (ix : Instruction) : PhygitalWallet.Instruction where
  programId := ix.programAddress
  accounts := ix.metas.map fun m => metaOf wallet (info m.address)
  data := ix.data.getD []

section Resolved

variable {remaining : List AccountMeta} {info : Pubkey → AccountInfo} {body : List Instruction}

/-- An address is found at its position, with its flags. -/
theorem info_position (hlen : (addresses remaining).length ≤ 256) {a : Pubkey} (h : a ∈ addresses remaining) :
    (remaining.map fun m => info m.address)[(UInt8.ofNat ((addresses remaining).idxOf a)).toNat]? = some (info a) := by
  have hlt := List.idxOf_lt_length_iff.2 h
  obtain ⟨m, -, rfl, hget⟩ := position_mem h
  rw [UInt8.toNat_ofNat_of_lt' (show _ < 256 by omega), List.getElem?_map, hget]
  rfl

/-- **The compact instructions resolve to the instructions**, with the flags of the message. -/
theorem resolved_infos (wallet : Pubkey) (hlen : (addresses remaining).length ≤ 256) (hkey : ∀ a, (info a).key = a)
    (hbody : ∀ ix ∈ body, ∀ a ∈ instructionKeys ix, a ∈ addresses remaining) :
    resolvedInstructions wallet (remaining.map fun m => info m.address)
      (body.map fun ix => (compactOf (addresses remaining) ix).toCompact) =
        some (body.map (resolvedAs wallet info)) := by
  have hone : ∀ ix ∈ body, builtInstruction wallet (remaining.map fun m => info m.address)
      (compactOf (addresses remaining) ix).toCompact = some (resolvedAs wallet info ix) := by
    intro ix hix
    have haccounts : ∀ metas : List AccountMeta, (∀ m ∈ metas, m.address ∈ addresses remaining) →
        resolveAccounts (remaining.map fun m => info m.address)
          (metas.map fun m => UInt8.ofNat ((addresses remaining).idxOf m.address)) =
        some (metas.map fun m => info m.address) := by
      intro metas hmetas
      induction metas with
      | nil => rfl
      | cons m metas ih =>
        have ih' := ih fun m' hm' => hmetas m' (List.mem_cons_of_mem _ hm')
        unfold resolveAccounts at ih' ⊢
        rw [List.map_cons, List.mapM_cons, info_position hlen (hmetas m List.mem_cons_self), ih']
        rfl
    unfold builtInstruction
    simp only [CompactInstructionArgs.toCompact, compactOf]
    rw [info_position hlen (hbody ix hix _ List.mem_cons_self), haccounts ix.metas fun m hm =>
      hbody ix hix m.address (List.mem_cons_of_mem _ (List.mem_map_of_mem hm))]
    simp [resolvedAs, hkey, List.map_map, Function.comp_def]
  unfold resolvedInstructions
  rw [List.mapM_map]
  exact (mapM_congr hone).trans List.mapM_pure

end Resolved

/-! ## Where the verdicts agree -/

/-- The account signs the wrapped message. -/
def SignsWrapped (source : Message) (walletPda : Pubkey) (executeAccounts : WalletExecuteAccounts) (a : Pubkey) :
    Prop :=
  a = wrappedFeePayer source executeAccounts ∨ a = executeAccounts.feePayer ∨
    (a ≠ walletPda ∧ NamedAs (bodyInstructions source.instructions) a isSignerRole) ∨
    NamedAs (memoInstructions source.instructions) a isSignerRole

instance (source : Message) (walletPda : Pubkey) (executeAccounts : WalletExecuteAccounts) (a : Pubkey) :
    Decidable (SignsWrapped source walletPda executeAccounts a) := by
  unfold SignsWrapped
  infer_instance

/-- Some wrapped instruction names a protected account, and both runs fail; or no wrapped instruction names the sysvar,
and none names the authority unless the authority signs in either message. -/
def PreviewExact (source : Message) (walletPda : Pubkey) (executeAccounts : WalletExecuteAccounts) : Prop :=
  (∃ ix ∈ bodyInstructions source.instructions, ∃ m ∈ ix.metas,
    m.address ∈ [executeAccounts.phygitalToken, executeAccounts.authorityAccount]) ∨
  ∀ ix ∈ bodyInstructions source.instructions, (∀ a ∈ instructionKeys ix, a ∈ ledger executeAccounts) ∧
    (executeAccounts.authority ∈ addresses ix.metas → executeAccounts.authority = executeAccounts.wallet ∨
      SignsWrapped source walletPda executeAccounts executeAccounts.authority)

instance (source : Message) (walletPda : Pubkey) (executeAccounts : WalletExecuteAccounts) :
    Decidable (PreviewExact source walletPda executeAccounts) := by
  unfold PreviewExact
  infer_instance

section Verdict

variable {source : DecompiledMessage} {executeAccounts : WalletExecuteAccounts} {wrapped : WrappedTransaction}
  {data : Bytes} {preview : Message} {sha256 : Bytes → Bytes} {services : WrapServices} {walletPda : Pubkey}
  {compiled : CompiledInstructions} {slot : SlotEntry} {verify : Secp256r1Verify} {executeData : Bytes}

/-- Two lists over one list of remaining accounts: the flags of the wrapped message, and those of its preview. -/
structure TwoLists (source : Message) (walletPda : Pubkey) (executeAccounts : WalletExecuteAccounts)
    (wrapped : WrappedTransaction) (preview : Message) : Prop where
  length_le : (addresses wrapped.pending.remainingAccounts).length ≤ 256
  mem_addresses : ∀ a, a ∈ addresses wrapped.pending.remainingAccounts ↔
    ∃ ix ∈ bodyInstructions source.instructions, a ∈ instructionKeys ix
  compacts_eq : wrapped.pending.compactInstructions =
    (bodyInstructions source.instructions).map (compactOf (addresses wrapped.pending.remainingAccounts))
  allowed : ∀ ix ∈ bodyInstructions source.instructions, ix.programAddress ∉ deniedPrograms
  signer : ∀ a, (preview.info a).isSigner = true ↔
    (wrapped.message.info a).isSigner = true ∨ a = executeAccounts.authority
  writable : ∀ a ∈ addresses wrapped.pending.remainingAccounts,
    (preview.info a).isWritable = (wrapped.message.info a).isWritable
  signs : ∀ a ∈ addresses wrapped.pending.remainingAccounts,
    ((wrapped.message.info a).isSigner = true ↔ SignsWrapped source walletPda executeAccounts a)
  elevated : ∀ a ∈ addresses wrapped.pending.remainingAccounts,
    a ∈ [executeAccounts.phygitalToken, executeAccounts.authorityAccount] → (wrapped.message.info a).isWritable = true

theorem Previews.twoLists (h : Previews source.toMessage executeAccounts wrapped data preview)
    (hw : Wraps sha256 services source.toMessage walletPda executeAccounts compiled slot verify executeData wrapped)
    (hverify : verify.secp256r1VerifyInstruction.metas = []) :
    TwoLists source.toMessage walletPda executeAccounts wrapped preview := by
  have hbody : ∀ ix ∈ bodyInstructions source.instructions, ix ∈ source.instructions :=
    fun ix hix => List.mem_of_mem_filter (List.mem_of_mem_filter hix)
  obtain ⟨hnd, hmem, -⟩ := @referenced_remainingAccounts _ _ _ executeAccounts source hbody hw.compiled_eq
  rw [← hw.remaining_eq] at hnd hmem
  obtain ⟨-, remaining, -, hremaining, hcompacts, hallowed⟩ := compileWalletInstructions_ok hw.compiled_eq
  have hkeys : addresses remaining = addresses wrapped.pending.remainingAccounts := by
    rw [hw.remaining_eq, elevateForExecuteAccounts, addresses_elevate, hremaining, addresses_elevate]
  have hinfo := fun m hm => hw.info hverify hnd (m := m) hm
  have hforeseen := fun m hm => @mem_remainingAccounts _ _ _ executeAccounts hw.compiled_eq m (hw.remaining_eq ▸ hm)
  refine ⟨?_, hmem, by rw [hw.compacts_eq, hcompacts, hkeys], hallowed, h.isSigner hw hverify,
    fun a ha => h.isWritable hw hverify ha, ?_, ?_⟩
  · refine (List.Subperm.length_le (hnd.subperm fun a ha => ?_)).trans source.length_le
    obtain ⟨ix, hix, ha⟩ := (hmem a).1 ha
    exact source.mem ix (hbody ix hix) a ha
  · intro a ha
    obtain ⟨m, hm, rfl⟩ := List.mem_map.1 ha
    rw [(hinfo m hm).1, (hforeseen m hm).1]
    unfold SignsWrapped
    tauto
  · intro a ha hprotected
    obtain ⟨m, hm, rfl⟩ := List.mem_map.1 ha
    refine (hinfo m hm).2.2 (Or.inl ((hforeseen m hm).2.2 (Or.inl ?_)))
    simp only [List.mem_cons, List.not_mem_nil, or_false] at hprotected ⊢
    tauto

theorem TwoLists.index (h : TwoLists source.toMessage walletPda executeAccounts wrapped preview)
    {compact : CompactInstruction}
    (hc : compact ∈ wrapped.pending.compactInstructions.map CompactInstructionArgs.toCompact) {i : UInt8}
    (hi : i ∈ compact.accountIndexes) : ∃ ix ∈ bodyInstructions source.instructions, ∃ m ∈ ix.metas,
      m.address ∈ addresses wrapped.pending.remainingAccounts ∧ ∀ message : Message,
        (wrapped.pending.remainingAccounts.map fun m => message.info m.address)[i.toNat]? =
          some (message.info m.address) := by
  rw [h.compacts_eq, List.map_map] at hc
  obtain ⟨ix, hix, rfl⟩ := List.mem_map.1 hc
  obtain ⟨m, hm, rfl⟩ := List.mem_map.1 hi
  have haddress : m.address ∈ addresses wrapped.pending.remainingAccounts :=
    (h.mem_addresses _).2 ⟨ix, hix, List.mem_cons_of_mem _ (List.mem_map_of_mem hm)⟩
  exact ⟨ix, hix, m, hm, haddress, fun message => info_position h.length_le haddress⟩

/-- The metas of an account that the authority's signature does not change. -/
theorem TwoLists.meta_eq (h : TwoLists source.toMessage walletPda executeAccounts wrapped preview) {a : Pubkey}
    (ha : a ∈ addresses wrapped.pending.remainingAccounts) (hsigns : a = executeAccounts.authority →
      a = executeAccounts.wallet ∨ SignsWrapped source.toMessage walletPda executeAccounts a) :
    metaOf executeAccounts.wallet (wrapped.message.info a) = metaOf executeAccounts.wallet (preview.info a) := by
  have hsigner : ((wrapped.message.info a).isSigner || decide (a = executeAccounts.wallet)) =
      ((preview.info a).isSigner || decide (a = executeAccounts.wallet)) := by
    rw [Bool.eq_iff_iff, Bool.or_eq_true, Bool.or_eq_true, h.signer, decide_eq_true_eq]
    constructor
    · rintro (hs | hwallet)
      · exact Or.inl (Or.inl hs)
      · exact Or.inr hwallet
    · rintro ((hs | hauthority) | hwallet)
      · exact Or.inl hs
      · exact (hsigns hauthority).symm.imp (h.signs a ha).2 id
      · exact Or.inr hwallet
  show PhygitalWallet.AccountMeta.mk a ((wrapped.message.info a).isSigner || decide (a = executeAccounts.wallet)) _ =
    PhygitalWallet.AccountMeta.mk a ((preview.info a).isSigner || decide (a = executeAccounts.wallet)) _
  rw [hsigner, h.writable a ha]

variable [HeapSizes]

/-- The two runs end alike, in every state and under every clock. -/
def VerdictsAgree (executeAccounts : WalletExecuteAccounts) (wrapped : WrappedTransaction) (preview : Message) : Prop :=
  ∀ rt : Runtime, rt.Local → ∀ walletBump policyPresent (b₁ b₂ : Bank), Set.EqOn b₁ b₂ (ledger executeAccounts) →
    Agree (SameExecuted (ledger executeAccounts))
      (policiedOver rt executeAccounts walletBump policyPresent wrapped wrapped.message b₁)
      (policiedOver rt executeAccounts walletBump policyPresent wrapped preview b₂)

/-- The condition is enough. -/
theorem TwoLists.agree (h : TwoLists source.toMessage walletPda executeAccounts wrapped preview)
    (hexact : PreviewExact source.toMessage walletPda executeAccounts) :
    VerdictsAgree executeAccounts wrapped preview := by
  intro rt hlocal walletBump policyPresent b₁ b₂ hstate
  by_cases hprotected : ∃ ix ∈ bodyInstructions source.instructions, ∃ m ∈ ix.metas,
      m.address ∈ [executeAccounts.phygitalToken, executeAccounts.authorityAccount]
  · -- a protected account is writable in both messages
    obtain ⟨ix, hix, m, hm, hmem⟩ := hprotected
    have haddress : m.address ∈ addresses wrapped.pending.remainingAccounts :=
      (h.mem_addresses _).2 ⟨ix, hix, List.mem_cons_of_mem _ (List.mem_map_of_mem hm)⟩
    have hc : (compactOf (addresses wrapped.pending.remainingAccounts) ix).toCompact ∈
        wrapped.pending.compactInstructions.map CompactInstructionArgs.toCompact := by
      rw [h.compacts_eq, List.map_map]
      exact List.mem_map_of_mem hix
    have hi : UInt8.ofNat ((addresses wrapped.pending.remainingAccounts).idxOf m.address) ∈
        (compactOf (addresses wrapped.pending.remainingAccounts) ix).toCompact.accountIndexes := List.mem_map_of_mem hm
    have helevated := h.elevated _ haddress hmem
    refine agree_of_fail (fun executed => ?_) fun executed => ?_
    · exact executePolicied_privileged hc hi (info_position h.length_le haddress) hmem helevated executed
    · exact executePolicied_privileged hc hi (info_position h.length_le haddress) hmem
        ((h.writable _ haddress).trans helevated) executed
  · have hexact := hexact.resolve_left hprotected
    refine executePolicied_same hlocal ?_ ?_ ?_ ?_ ?_ hstate
    · rw [List.map_map, List.map_map]
      rfl
    · intro ai hai
      obtain ⟨m, hm, rfl⟩ := List.mem_map.1 hai
      obtain ⟨ix, hix, ha⟩ := (h.mem_addresses _).1 (List.mem_map_of_mem hm)
      exact (hexact ix hix).1 _ ha
    · intro compact hc
      constructor
      · intro i hi
        obtain ⟨ix, hix, m, hm, haddress, hget⟩ := h.index hc hi
        rw [hget wrapped.message, hget preview, Option.map_some, Option.map_some]
        refine congrArg some (h.meta_eq haddress fun heq => ?_)
        rw [heq]
        exact (hexact ix hix).2 (heq ▸ List.mem_map_of_mem hm)
      · intro i hi ai hai
        obtain ⟨ix, hix, m, hm, haddress, hget⟩ := h.index hc hi
        rw [hget wrapped.message] at hai
        cases hai
        exact fun hmem => hprotected ⟨ix, hix, m, hm, hmem⟩
    · exact fun _ => by simp
    · exact fun _ => by simp

/-- Where no protected account is named, a run without a policy succeeds when no CPI is refused. -/
theorem TwoLists.screened (h : TwoLists source.toMessage walletPda executeAccounts wrapped preview)
    (hfree : ¬∃ ix ∈ bodyInstructions source.instructions, ∃ m ∈ ix.metas,
      m.address ∈ [executeAccounts.phygitalToken, executeAccounts.authorityAccount])
    (refuses : PhygitalWallet.Instruction → Bank → Bool) (message : Message) (bank : Bank) :
    (∃ executed, policiedOver (screeningRuntime refuses) executeAccounts 0 false wrapped message bank = .ok executed) ↔
      ∀ ix ∈ bodyInstructions source.instructions,
        refuses (resolvedAs executeAccounts.wallet message.info ix) bank = false := by
  have hresolved := @resolved_infos wrapped.pending.remainingAccounts message.info
    (bodyInstructions source.instructions) executeAccounts.wallet h.length_le (fun _ => rfl)
    fun ix hix a ha => (h.mem_addresses a).2 ⟨ix, hix, ha⟩
  unfold policiedOver
  rw [h.compacts_eq, List.map_map]
  refine (executePolicied_screened hresolved ?_ ?_).trans List.forall_mem_map
  · intro cpi hcpi
    obtain ⟨ix, hix, rfl⟩ := List.mem_map.1 hcpi
    have hallowed := h.allowed ix hix
    simp only [deniedPrograms, List.mem_cons, List.not_mem_nil, or_false, not_or] at hallowed
    exact hallowed
  · intro cpi hcpi m hm hmem
    obtain ⟨ix, hix, rfl⟩ := List.mem_map.1 hcpi
    obtain ⟨m', hm', rfl⟩ := List.mem_map.1 hm
    exact hfree ⟨ix, hix, m', hm', hmem⟩

/-- No wrapped instruction names the sysvar: a program may fail on one content of it. -/
theorem TwoLists.sysvar_unnamed (h : TwoLists source.toMessage walletPda executeAccounts wrapped preview)
    (hagree : VerdictsAgree executeAccounts wrapped preview)
    (hfree : ¬∃ ix ∈ bodyInstructions source.instructions, ∃ m ∈ ix.metas,
      m.address ∈ [executeAccounts.phygitalToken, executeAccounts.authorityAccount])
    {ix : Instruction} (hix : ix ∈ bodyInstructions source.instructions) {a : Pubkey} (ha : a ∈ instructionKeys ix) :
    a ∈ ledger executeAccounts := by
  by_contra hsysvar
  obtain ⟨rfl, hledger⟩ := Classical.not_imp.1 hsysvar
  let refuses : PhygitalWallet.Instruction → Bank → Bool := fun cpi bank =>
    decide (cpi.programId = instructionsSysvarId ∨ ∃ m ∈ cpi.accounts, m.pubkey = instructionsSysvarId) &&
      decide ((bank instructionsSysvarId).lamports ≠ 0)
  let empty : Bank := fun _ => ⟨0, systemProgramId, []⟩
  let full : Bank := fun k => if k = instructionsSysvarId then ⟨1, systemProgramId, []⟩ else empty k
  have hlocal : (screeningRuntime refuses).Local := by
    refine screeningRuntime_local fun cpi keys b₁ b₂ hprogram haccounts hbank => ?_
    by_cases hnamed : cpi.programId = instructionsSysvarId ∨ ∃ m ∈ cpi.accounts, m.pubkey = instructionsSysvarId
    · have hkey : instructionsSysvarId ∈ keys := by
        rcases hnamed with hp | ⟨m, hm, hp⟩
        · exact hp ▸ hprogram
        · exact hp ▸ haccounts m hm
      simp only [refuses, hbank hkey]
    · simp only [refuses, hnamed, decide_false, Bool.false_and]
  have hstate : Set.EqOn empty full (ledger executeAccounts) := by
    intro key hkey
    have hne : key ≠ instructionsSysvarId := fun heq => hledger (heq ▸ hkey heq)
    exact (if_neg hne).symm
  have hboth := (hagree _ hlocal 0 false empty full hstate).ok_iff
  rw [h.screened hfree, h.screened hfree] at hboth
  have hrefused := hboth.1 (fun ix _ => by simp [refuses, empty]) ix hix
  have hnamed : (resolvedAs executeAccounts.wallet preview.info ix).programId = instructionsSysvarId ∨
      ∃ m ∈ (resolvedAs executeAccounts.wallet preview.info ix).accounts, m.pubkey = instructionsSysvarId := by
    rcases List.mem_cons.1 ha with hp | hm
    · exact Or.inl hp.symm
    · obtain ⟨m, hm, haddress⟩ := List.mem_map.1 hm
      exact Or.inr ⟨_, List.mem_map_of_mem hm, haddress⟩
  have hcharged : (full instructionsSysvarId).lamports ≠ 0 := by simp [full]
  simp only [refuses, hcharged, decide_eq_true hnamed, ne_eq, not_false_eq_true, decide_true, Bool.and_true,
    Bool.true_eq_false] at hrefused

/-- An authority that is named signs: a program may refuse to be signed for by it. -/
theorem TwoLists.authority_signs (h : TwoLists source.toMessage walletPda executeAccounts wrapped preview)
    (hagree : VerdictsAgree executeAccounts wrapped preview)
    (hfree : ¬∃ ix ∈ bodyInstructions source.instructions, ∃ m ∈ ix.metas,
      m.address ∈ [executeAccounts.phygitalToken, executeAccounts.authorityAccount])
    {ix : Instruction} (hix : ix ∈ bodyInstructions source.instructions)
    (hnamed : executeAccounts.authority ∈ addresses ix.metas) :
    executeAccounts.authority = executeAccounts.wallet ∨
      SignsWrapped source.toMessage walletPda executeAccounts executeAccounts.authority := by
  by_contra hsigns
  rw [not_or] at hsigns
  let refuses : PhygitalWallet.Instruction → Bank → Bool := fun cpi _ =>
    cpi.accounts.any fun m => m.pubkey = executeAccounts.authority && m.isSigner
  have hlocal : (screeningRuntime refuses).Local := screeningRuntime_local fun _ _ _ _ _ _ _ => rfl
  have hboth := (hagree _ hlocal 0 false (fun _ => ⟨0, systemProgramId, []⟩) _ fun _ _ => rfl).ok_iff
  rw [h.screened hfree, h.screened hfree] at hboth
  have hunsigned : ∀ ix' ∈ bodyInstructions source.instructions,
      refuses (resolvedAs executeAccounts.wallet wrapped.message.info ix') (fun _ => ⟨0, systemProgramId, []⟩) =
        false := by
    intro ix' hix'
    rw [Bool.eq_false_iff]
    intro hany
    obtain ⟨cpiMeta, hmeta, hany⟩ := List.any_eq_true.1 hany
    obtain ⟨m, hm, rfl⟩ := List.mem_map.1 hmeta
    have haddress := (h.mem_addresses _).2 ⟨ix', hix', List.mem_cons_of_mem _ (List.mem_map_of_mem hm)⟩
    simp only [metaOf, Message.info, Bool.and_eq_true, decide_eq_true_eq, Bool.or_eq_true] at hany
    obtain ⟨heq, hsigner⟩ := hany
    have heq : m.address = executeAccounts.authority := of_decide_eq_true heq
    rcases hsigner with hsigner | hwallet
    · have hsigned := (h.signs _ haddress).1 (by simpa [Message.info] using hsigner)
      exact hsigns.2 (heq ▸ hsigned)
    · exact hsigns.1 (heq ▸ of_decide_eq_true hwallet)
  have hrefused := hboth.1 hunsigned ix hix
  obtain ⟨m, hm, haddress⟩ := List.mem_map.1 hnamed
  refine absurd (Bool.eq_false_iff.1 hrefused) (not_not_intro (List.any_eq_true.2 ⟨_, List.mem_map_of_mem hm, ?_⟩))
  have hsigner : (preview.info m.address).isSigner = true := (h.signer _).2 (Or.inr haddress)
  simp only [metaOf, hsigner, Bool.true_or, Bool.and_true, decide_eq_true_eq]
  exact haddress

/-- The condition is needed. -/
theorem TwoLists.exact (h : TwoLists source.toMessage walletPda executeAccounts wrapped preview)
    (hagree : VerdictsAgree executeAccounts wrapped preview) :
    PreviewExact source.toMessage walletPda executeAccounts :=
  or_iff_not_imp_left.2 fun hfree _ hix =>
    ⟨fun _ ha => h.sysvar_unnamed hagree hfree hix ha, fun hnamed => h.authority_signs hagree hfree hix hnamed⟩

end Verdict

/-- **The preview and the execution** of a transaction that was wrapped. After their own checks both are
`executePolicied`, over the flags that the remaining accounts have in either message; the two end alike in every state
and under every clock exactly where `PreviewExact` holds. -/
theorem preview_verdict [HeapSizes] {sha256 : Bytes → Bytes} {services : WrapServices} {source : DecompiledMessage}
    {walletPda : Pubkey} {executeAccounts : WalletExecuteAccounts} {wrapped : WrappedTransaction}
    (hverify : ∀ messageHash verify, services.authenticate messageHash = .ok verify →
      verify.secp256r1VerifyInstruction.metas = [])
    (h : modifyAndWrapWalletTransaction sha256 services source.toMessage walletPda executeAccounts = .ok wrapped) :
    ∃ preview executeIx previewIx,
      buildPolicyPreviewMessage wrapped.pending.prepared wrapped.pending.compactInstructions
        wrapped.pending.remainingAccounts executeAccounts = .ok preview ∧
      executeIx ∈ wrapped.message.instructions ∧ preview.instructions.head? = some previewIx ∧
      (∀ rt header policyPresent (b₁ b₂ : Bank), Set.EqOn b₁ b₂ (ledger executeAccounts) →
        verifyInstruction rt wrapped.message executeIx b₁ = some (.ok (header, policyPresent, b₁)) →
        header.authority = executeAccounts.authority →
        rt.firstInstruction (b₂ instructionsSysvarId).data = some (previewIx.programAddress, previewIx.data.getD []) →
        runInstruction rt wrapped.message executeIx b₁ =
            some (policiedOver rt executeAccounts header.walletBump policyPresent wrapped wrapped.message b₁) ∧
          runInstruction rt preview previewIx b₂ =
            some (policiedOver rt executeAccounts header.walletBump policyPresent wrapped preview b₂)) ∧
      (VerdictsAgree executeAccounts wrapped preview ↔ PreviewExact source.toMessage walletPda executeAccounts) := by
  obtain ⟨compiled, slot, verify, executeData, hw⟩ := modifyAndWrap_ok h
  obtain ⟨preview, data, hbuild, -, hp⟩ := modifyAndWrap_preview h
  have hmetas := hverify _ _ hw.verify_eq
  have htwo := hp.twoLists hw hmetas
  have hstays : ∀ ix : Instruction, ix.programAddress = crateId → ix.programAddress ≠ computeBudgetProgramAddress := by
    intro ix hix
    rw [hix]
    decide +kernel
  refine ⟨preview, wrappedExecute executeAccounts wrapped.pending.remainingAccounts executeData,
    previewExecute executeAccounts wrapped.pending.remainingAccounts data, hbuild, ?_, ?_, ?_, htwo.exact, htwo.agree⟩
  · rw [hw.message_eq]
    exact List.mem_filter.2 ⟨List.mem_cons_of_mem _ List.mem_cons_self, decide_eq_true (hstays _ rfl)⟩
  · rw [hp.message_eq]
    unfold stripComputeBudgetInstructions
    have hkept := hstays (previewExecute executeAccounts wrapped.pending.remainingAccounts data) rfl
    rw [List.filter_cons, if_pos (decide_eq_true hkept)]
    rfl
  · intro rt header policyPresent b₁ b₂ hstate hverified hauthority hfirst
    exact run_verified hp hw hstate hverified hauthority hfirst

/-- The wallet pays an account that is not the authority: the verdicts agree. -/
theorem preview_verdict_other : ∃ wrapped preview, modifyAndWrapWalletTransaction shaRuntime.hash exampleServices
      (exampleSource .writable).toMessage (.fill 9) exampleExecuteAccounts = .ok wrapped ∧
    buildPolicyPreviewMessage wrapped.pending.prepared wrapped.pending.compactInstructions
      wrapped.pending.remainingAccounts exampleExecuteAccounts = .ok preview ∧
    @VerdictsAgree targetHeapSizes exampleExecuteAccounts wrapped preview := by
  let _ := targetHeapSizes
  have hwrap : (fun wrapped => wrapped.message.feePayer) <$> modifyAndWrapWalletTransaction shaRuntime.hash
      exampleServices (exampleSource .writable).toMessage (.fill 9) exampleExecuteAccounts = .ok (.fill 6) := by
    decide +kernel
  obtain ⟨wrapped, hwrap, -⟩ := outcome_map_eq_ok.1 hwrap
  obtain ⟨preview, -, -, hbuild, -, -, -, hagree⟩ :=
    preview_verdict (fun _ _ h => by cases h; rfl) hwrap
  exact ⟨wrapped, preview, hwrap, hbuild, hagree.2 (by decide +kernel)⟩

/-- The wallet pays its authority. -/
def authoritySource : DecompiledMessage where
  feePayer := .fill 9
  instructions := [⟨systemProgramId, some [⟨.fill 9, .writableSigner⟩, ⟨.fill 6, .writable⟩],
    some transferInstruction.data⟩]
  accountKeys := [.fill 9, .fill 6, systemProgramId]
  length_le := by decide
  mem := by simp [instructionKeys, addresses, Instruction.metas]

def authorityExecuteAccounts : WalletExecuteAccounts :=
  { exampleExecuteAccounts with authority := .fill 6, feePayer := .fill 3 }

/-- `transferBank`, where the policy permits transfers to accounts that do not sign. -/
def unsignedTransferBank : Bank := fun k =>
  if k = .fill 7 then
    ⟨1, crateId, policyBytes (discriminator ++ encodeHeader transferHeader) (lifetimeCap 50 50) []
      (encodePermissions [⟨systemProgramId, .restricted [⟨[2, 0, 0, 0], none, none,
        [⟨1, .any, none, some false, none, []⟩], []⟩]⟩])⟩
  else transferBank k

/-- `shaRuntime`, where the sysvar holds this instruction first. -/
def firstRuntime (ix : Instruction) : Runtime :=
  { shaRuntime with firstInstruction := fun _ => some (ix.programAddress, ix.data.getD []) }

/-- What an instruction of a message charges in the example, when the preview holds this instruction. -/
def exampleVerdict (message : Message) (previewIx ix : Instruction) : Option (Result (Option Charges)) :=
  let _ := targetHeapSizes
  (runInstruction (firstRuntime previewIx) message ix unsignedTransferBank).map (Except.map Executed.charges)

/-- **The authority signs the preview only.** The wallet pays its authority under a policy for accounts that do not
sign: the preview is refused, where the execution succeeds. -/
theorem preview_verdict_authority : ∃ wrapped preview executeIx previewIx,
    modifyAndWrapWalletTransaction shaRuntime.hash exampleServices authoritySource.toMessage (.fill 9)
      authorityExecuteAccounts = .ok wrapped ∧
    buildPolicyPreviewMessage wrapped.pending.prepared wrapped.pending.compactInstructions
      wrapped.pending.remainingAccounts authorityExecuteAccounts = .ok preview ∧
    executeIx ∈ wrapped.message.instructions ∧ previewIx ∈ preview.instructions ∧
    exampleVerdict wrapped.message previewIx executeIx = some (.ok (some ⟨30, []⟩)) ∧
    exampleVerdict preview previewIx previewIx = some (err .instructionNotAllowed) := by
  have hrun : (do
      let wrapped ← modifyAndWrapWalletTransaction shaRuntime.hash exampleServices authoritySource.toMessage (.fill 9)
        authorityExecuteAccounts
      let preview ← buildPolicyPreviewMessage wrapped.pending.prepared wrapped.pending.compactInstructions
        wrapped.pending.remainingAccounts authorityExecuteAccounts
      return wrapped.message.instructions.any fun executeIx => preview.instructions.any fun previewIx =>
        decide (exampleVerdict wrapped.message previewIx executeIx = some (.ok (some ⟨30, []⟩)) ∧
          exampleVerdict preview previewIx previewIx = some (err .instructionNotAllowed)) : Outcome Bool) =
      .ok true := by
    decide +kernel
  obtain ⟨wrapped, hwrap, hrun⟩ := outcome_bind_eq_ok.1 hrun
  obtain ⟨preview, hbuild, hrun⟩ := outcome_bind_eq_ok.1 hrun
  obtain ⟨executeIx, hexecute, hany⟩ := List.any_eq_true.1 (Except.ok.inj hrun)
  obtain ⟨previewIx, hpreview, hverdicts⟩ := List.any_eq_true.1 hany
  have hverdicts := of_decide_eq_true hverdicts
  exact ⟨wrapped, preview, executeIx, previewIx, hwrap, hbuild, hexecute, hpreview, hverdicts.1, hverdicts.2⟩

end PhygitalWallet.Client
