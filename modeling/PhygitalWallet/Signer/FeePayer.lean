import PhygitalWallet.Program.Binding
import PhygitalWallet.Signer.TokenSigner

/-!
# What the fee payer's signature reaches

The signer looks at the program of each top-level instruction and, for an execute, at where its inner transfers go. It does
not look at who pays inside. On chain an inner instruction that names the fee payer gets it as a writable signer.

- `decodeWireTransaction_ok`: what an accepted transaction is;
- `passedToPay_iff`: the CPIs that pass the fee payer as a writable signer;
- `fee_payer_exposure`: the two together.
-/

namespace PhygitalWallet.Signer

open Client Async Prog

/-! ## Accepted transactions -/

/-- The instructions of the program in a message. -/
def walletInstructions (instructions : List Client.Instruction) : List Client.Instruction :=
  instructions.filter fun ix => ix.programAddress = crateId

/-- One turn of the loop. -/
theorem resolveTopLevel_ok {d : Decoders} {accumulator : String} {resolved resolved' : Option ResolvedInstruction}
    {ix : Client.Instruction} (h : resolveTopLevel d accumulator resolved ix = .ok resolved') :
    ix.programAddress ∈ topLevelOk ∧
      ((ix.programAddress ≠ crateId ∧ resolved' = resolved) ∨
        (ix.programAddress = crateId ∧ resolved = none ∧ resolved'.isSome = true)) := by
  obtain ⟨_, hallowed, h⟩ := outcome_bind_eq_ok.1 h
  unfold assertTopLevelInstructionAllowed at hallowed
  split at hallowed
  · cases hallowed
  · next hmem =>
    refine ⟨not_not.1 hmem, ?_⟩
    split at h
    · next hne =>
      cases h
      exact Or.inl ⟨hne, rfl⟩
    · next heq =>
      split at h
      · cases h
      · next hnone =>
        obtain ⟨_, -, h⟩ := outcome_bind_eq_ok.1 h
        obtain ⟨_, -, h⟩ := outcome_bind_eq_ok.1 h
        obtain ⟨r, -, rfl⟩ := outcome_map_eq_ok.1 h
        exact Or.inr ⟨not_not.1 heq, by simpa using hnone, rfl⟩

/-- The loop accepts at most one instruction of the program. -/
theorem resolveTopLevels_ok {d : Decoders} {accumulator : String} {ixs : List Client.Instruction} :
    ∀ {resolved resolved' : Option ResolvedInstruction}, ixs.foldlM (resolveTopLevel d accumulator) resolved = .ok resolved' →
      (∀ ix ∈ ixs, ix.programAddress ∈ topLevelOk) ∧
        (resolved = none → resolved'.isSome = true → ∃ ix, walletInstructions ixs = [ix]) ∧
        (resolved.isSome = true → walletInstructions ixs = []) ∧
        (resolved'.isSome = false → resolved.isSome = false) := by
  induction ixs with
  | nil =>
    intro resolved resolved' h
    cases h
    refine ⟨nofun, ?_, fun _ => rfl, id⟩
    rintro rfl hsome
    cases hsome
  | cons ix ixs ih =>
    intro resolved resolved' h
    rw [List.foldlM_cons] at h
    obtain ⟨next, hstep, h⟩ := outcome_bind_eq_ok.1 h
    obtain ⟨hall, hone, hnone, hback⟩ := ih h
    obtain ⟨hmem, hcase⟩ := resolveTopLevel_ok hstep
    rcases hcase with ⟨hne, rfl⟩ | ⟨heq, rfl, hsome⟩
    · have hskip : walletInstructions (ix :: ixs) = walletInstructions ixs := by simp [walletInstructions, hne]
      exact ⟨List.forall_mem_cons.2 ⟨hmem, hall⟩, fun h₀ h₁ => by rw [hskip]; exact hone h₀ h₁,
        fun h₀ => by rw [hskip]; exact hnone h₀, hback⟩
    · have htake : walletInstructions (ix :: ixs) = ix :: walletInstructions ixs := by simp [walletInstructions, heq]
      refine ⟨List.forall_mem_cons.2 ⟨hmem, hall⟩, fun _ _ => ⟨ix, ?_⟩, nofun, fun _ => rfl⟩
      rw [htake, hnone hsome]

/-- An accepted transaction, decoded. -/
structure Accepted (d : Decoders) (wire : String) (decoded : DecodedSignTx) (compiled : CompiledMessage)
    (ix : Client.Instruction) : Prop where
  message : ∃ bytes tx, d.base64Encoder wire = .ok bytes ∧ d.txDecoder bytes = .ok tx ∧
    decoded.messageBytes = tx.messageBytes ∧ d.messageDecoder tx.messageBytes = .ok compiled
  feePayer : compiled.accountKeys.head? = some decoded.feePayer
  programs : ∀ ix ∈ compiled.instructions, ix.programAddress ∈ topLevelOk
  wallet : walletInstructions compiled.instructions = [ix]

/-- **An accepted transaction** has one instruction of the program. -/
theorem decodeWireTransaction_ok {d : Decoders} {wire accumulator : String} {decoded : DecodedSignTx}
    (h : decodeWireTransaction d wire accumulator = .ok decoded) : ∃ compiled ix, Accepted d wire decoded compiled ix := by
  obtain ⟨bytes, hbytes, h⟩ := outcome_bind_eq_ok.1 h
  obtain ⟨tx, htx, h⟩ := outcome_bind_eq_ok.1 h
  obtain ⟨compiled, hcompiled, h⟩ := outcome_bind_eq_ok.1 h
  split at h
  · cases h
  · next feePayer hpayer =>
    obtain ⟨resolved, hloop, h⟩ := outcome_bind_eq_ok.1 h
    split at h
    · cases h
    · next resolved =>
      obtain rfl := outcome_pure_eq_ok.1 h
      obtain ⟨hall, hone, -, -⟩ := resolveTopLevels_ok hloop
      obtain ⟨ix, hix⟩ := hone rfl rfl
      exact ⟨compiled, ix, ⟨⟨bytes, tx, hbytes, htx, rfl, hcompiled⟩, hpayer, hall, hix⟩⟩

/-! ## The fee payer in the CPIs -/

section Issued

variable {remaining : List AccountInfo} {compacts : List CompactInstruction} {payer : Pubkey}

/-- The compact instruction names the key among its accounts. -/
def NamesAccount (remaining : List AccountInfo) (key : Pubkey) (compact : CompactInstruction) : Prop :=
  ∃ index ∈ compact.accountIndexes, (remaining[index.toNat]?).map AccountInfo.key = some key

/-- The key is a writable signer of the CPI. -/
def PassedToPay (key : Pubkey) (cpi : PhygitalWallet.Instruction) : Prop :=
  ∃ m ∈ cpi.accounts, m.pubkey = key ∧ m.isSigner = true ∧ m.isWritable = true

/-- **Who pays inside.** -/
theorem passedToPay_iff (hpayer : ∀ ai ∈ remaining, ai.key = payer → ai.isSigner = true ∧ ai.isWritable = true)
    {wallet : Pubkey} {compact : CompactInstruction} {cpi : PhygitalWallet.Instruction}
    (h : builtInstruction wallet remaining compact = some cpi) :
    PassedToPay payer cpi ↔ NamesAccount remaining payer compact := by
  constructor
  · rintro ⟨m, hm, hkey, -, -⟩
    obtain ⟨index, hindex, ai, hget, rfl⟩ := (mem_builtInstruction h).1 hm
    refine ⟨index, hindex, ?_⟩
    rw [hget]
    exact congrArg some hkey
  · rintro ⟨index, hindex, hname⟩
    obtain ⟨ai, hget, hkey⟩ := Option.map_eq_some_iff.1 hname
    obtain ⟨hsigner, hwritable⟩ := hpayer ai (List.mem_of_getElem? hget) hkey
    refine ⟨metaOf wallet ai, (mem_builtInstruction h).2 ⟨index, hindex, ai, hget, rfl⟩, hkey, ?_, hwritable⟩
    rw [metaOf, hsigner, Bool.true_or]

/-- An account that no compact instruction names among its accounts stays as it is. -/
theorem executeCompactInstructions_unnamed {rt : Runtime} (hrt : rt.WritesOnlyWritable) {programId wallet : Pubkey}
    {walletBump : UInt8} {token : Pubkey} {protectedAccounts : List Pubkey} {permissions : Option (List ProgramPermission)}
    {before after : Bank} (h : executeCompactInstructions rt programId wallet walletBump token protectedAccounts remaining
      compacts permissions before = .ok after) (hnot : ∀ compact ∈ compacts, ¬NamesAccount remaining payer compact) :
    after payer = before payer := by
  simp only [executeCompactInstructions, bind_eq_ok, pure_eq_ok] at h
  obtain ⟨bank', hrun, _, -, rfl⟩ := h
  refine issueInstructions_frame hrt (fun b compact hc ix hprep m hm hkey => ?_) hrun
  obtain ⟨index, hindex, ai, hget, rfl⟩ := (mem_builtInstruction (prepareInstruction_iff.1 hprep).1).1 hm
  refine absurd ⟨index, hindex, ?_⟩ (hnot compact hc)
  rw [hget]
  exact congrArg some hkey

end Issued

/-- **What a sponsor is exposed to.** An accepted transaction has one instruction of the program. Where that is an
execute, whatever the bank, the wallet, the permissions: a CPI that is issued passes the fee payer as a writable signer
exactly where its compact instruction names the fee payer among its accounts; and where none names it, the CPIs leave the
fee payer's account as it was. -/
theorem fee_payer_exposure {d : Decoders} {wire accumulator : String} {decoded : DecodedSignTx}
    (hdecode : decodeWireTransaction d wire accumulator = .ok decoded) :
    ∃ compiled ix, Accepted d wire decoded compiled ix ∧
      ∀ data call, ix.data = some data → decodeExecute ix.compiledInfos data = some (.ok call) →
        ∀ (rt : Runtime) (wallet : Pubkey) (walletBump : UInt8) (token : Pubkey) (protectedAccounts : List Pubkey)
          (permissions : Option (List ProgramPermission)) (bank : Bank),
          (∀ (i : Nat) b cpi, (issueCompactInstructions rt crateId wallet walletBump token protectedAccounts call.remaining
              call.compactInstructions permissions bank).issued[i]? = some (b, cpi) →
            ∃ compact, call.compactInstructions[i]? = some compact ∧
              (PassedToPay decoded.feePayer cpi ↔ NamesAccount call.remaining decoded.feePayer compact)) ∧
          (rt.WritesOnlyWritable →
            (∀ compact ∈ call.compactInstructions, ¬NamesAccount call.remaining decoded.feePayer compact) →
            ∀ after, executeCompactInstructions rt crateId wallet walletBump token protectedAccounts call.remaining
              call.compactInstructions permissions bank = .ok after → after decoded.feePayer = bank decoded.feePayer) := by
  obtain ⟨compiled, ix, haccepted⟩ := decodeWireTransaction_ok hdecode
  refine ⟨compiled, ix, haccepted, ?_⟩
  intro data call _ hcall rt wallet walletBump token protectedAccounts permissions bank
  have hix : ix ∈ compiled.instructions := by
    have hmem : ix ∈ walletInstructions compiled.instructions := by rw [haccepted.wallet]; exact List.mem_singleton.2 rfl
    exact (List.mem_filter.1 hmem).1
  have hpayer : ∀ ai ∈ call.remaining, ai.key = decoded.feePayer → ai.isSigner = true ∧ ai.isWritable = true := by
    intro ai hai hkey
    obtain ⟨m, hm, rfl⟩ := List.mem_map.1 (decodeExecute_remaining hcall ai hai)
    have hrole := compiled.feePayer_role ix hix m hm (by rw [haccepted.feePayer]; exact congrArg some hkey.symm)
    dsimp only
    rw [hrole]
    exact ⟨rfl, rfl⟩
  refine ⟨fun i b cpi hissued => ?_, fun hrt hnot after h => executeCompactInstructions_unnamed hrt h hnot⟩
  obtain ⟨-, compact, hcompact, hprep⟩ := gate_issued call.compactInstructions bank hissued
  exact ⟨compact, hcompact, passedToPay_iff hpayer (prepareInstruction_iff.1 hprep).1⟩

/-! ## An example -/

/-- The call that the example's instruction makes. -/
def exampleCall : ExecuteCall where
  handler := .executeWithAuthority ⟨⟨.fill 6, true, false⟩, ⟨.fill 8, false, false⟩, ⟨.fill 7, false, false⟩,
    ⟨.fill 9, false, true⟩, ⟨instructionsSysvarId, false, false⟩⟩
  remaining := [⟨systemProgramId, false, false⟩, ⟨examplePayer, true, true⟩, ⟨.fill 1, false, true⟩]
  compactInstructions := [⟨0, [1, 2], [2, 0, 0, 0, 30, 0, 0, 0, 0, 0, 0, 0]⟩]

/-- `transferRuntime` in the example's transaction, whose first instruction is the one of the program. -/
def exampleRuntime : Runtime := { transferRuntime with firstInstruction := fun _ => some (crateId, exampleData) }

/-- `transferBank`, where the fee payer has 1000 lamports. -/
def exampleBank : Bank := fun k => if k = examplePayer then ⟨1000, systemProgramId, []⟩ else transferBank k

theorem example_decoded : decodeWireTransaction exampleDecoders exampleWire (Pubkey.fill 4).text =
    .ok ⟨exampleMessageBytes, examplePayer, .fill 8, false⟩ := by decide +kernel

theorem example_call : decodeExecute (Client.Instruction.compiledInfos ⟨crateId, some exampleMetas, some exampleData⟩)
    exampleData = some (.ok exampleCall) := by decide +kernel

/-- The accepted message is the example's. -/
theorem example_accepted {compiled : CompiledMessage} {ix : Client.Instruction}
    (h : Accepted exampleDecoders exampleWire ⟨exampleMessageBytes, examplePayer, .fill 8, false⟩ compiled ix) :
    ix = ⟨crateId, some exampleMetas, some exampleData⟩ := by
  obtain ⟨_, tx, -, -, hbytes, hmessage⟩ := h.message
  have hdecode : exampleDecoders.messageDecoder exampleMessageBytes = .ok exampleMessage := by
    simp only [exampleDecoders, if_true]
  rw [← hbytes, hdecode] at hmessage
  obtain rfl := Except.ok.inj hmessage
  have hwallet : walletInstructions exampleMessage.instructions = [⟨crateId, some exampleMetas, some exampleData⟩] := by
    decide +kernel
  have hone := h.wallet
  rw [hwallet] at hone
  exact (List.singleton_inj.1 hone).symm

theorem fee_payer_exposure_example : ∃ b cpi,
    (issueCompactInstructions exampleRuntime crateId (.fill 9) 254 (.fill 8) [.fill 8, .fill 7] exampleCall.remaining
      exampleCall.compactInstructions none exampleBank).issued[0]? = some (b, cpi) ∧ PassedToPay examplePayer cpi := by
  have hsome : (issueCompactInstructions exampleRuntime crateId (.fill 9) 254 (.fill 8) [.fill 8, .fill 7]
      exampleCall.remaining exampleCall.compactInstructions none exampleBank).issued[0]?.isSome = true := by decide +kernel
  obtain ⟨⟨b, cpi⟩, hissued⟩ := Option.isSome_iff_exists.1 hsome
  obtain ⟨compiled, ix, haccepted, hall⟩ := fee_payer_exposure example_decoded
  obtain rfl := example_accepted haccepted
  obtain ⟨compact, hcompact, hiff⟩ := (hall exampleData exampleCall rfl example_call exampleRuntime (.fill 9) 254 (.fill 8)
    [.fill 8, .fill 7] none exampleBank).1 0 b cpi hissued
  cases hcompact
  exact ⟨b, cpi, hissued, hiff.2 ⟨1, by decide, by decide +kernel⟩⟩

/-- The signer co-signs the example's transaction; on chain its inner transfer takes 30 lamports from the fee payer. -/
theorem fee_payer_pays : ∃ ix ∈ exampleMessage.instructions, ∃ data, ix.data = some data ∧
    decodeWireTransaction exampleDecoders exampleWire exampleEnv.accumulator =
      .ok ⟨exampleMessageBytes, examplePayer, .fill 8, false⟩ ∧
    Runs othersRun (signTransactions exampleEnv [exampleWire]) (.start 0 exampleTables false)
      (.ok (.ok [BaseText.base64Of exampleSignature] (some ⟨examplePayer, 1, 1⟩)))
      (exampleRun [exampleWire] 0 exampleTables).2 ∧
    decodeExecute ix.compiledInfos data = some (.ok exampleCall) ∧
    ∃ executed, @ExecuteCall.run targetHeapSizes exampleRuntime exampleCall exampleBank = .ok executed ∧
      (exampleBank examplePayer).lamports = 1000 ∧ (executed.bank examplePayer).lamports = 970 := by
  refine ⟨_, List.mem_singleton.2 rfl, exampleData, rfl, example_decoded, runs_signed, example_call, ?_⟩
  · have hrun : (@ExecuteCall.run targetHeapSizes exampleRuntime exampleCall exampleBank).map
        (fun executed => ((exampleBank examplePayer).lamports, (executed.bank examplePayer).lamports)) = .ok (1000, 970) := by
      decide +kernel
    obtain ⟨executed, hexecuted, hlamports⟩ := exists_of_map_eq_ok hrun
    obtain ⟨hbefore, hafter⟩ := Prod.mk.inj hlamports
    exact ⟨executed, hexecuted, hbefore, hafter⟩

end PhygitalWallet.Signer
