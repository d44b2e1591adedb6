import PhygitalWallet.Program.RentRun
import PhygitalWallet.Signer.FeePayer

/-!
# The rent that a fee payer pays

The signer looks at the kind of a wallet instruction and at its token, not at the accounts that pay inside. The fee payer
may so be the payer of a save while the header of the account names somebody else, who gets the rent back.

- `RentCall.infos`, `RentCall.data`: a call as the runtime gets it;
- `Sent`: who has sent a call, and that the service's keys sign through the signer alone;
- `sponsored_rent`: what outsiders get back over every run;
- `sponsored_rent_unbacked`: a run that refunds a user more than the users paid.
-/

namespace PhygitalWallet

open ByteSeq Borsh

/-! ## Calls on the wire -/

def SolCapArg.encode (cap : SolCapArg) : Bytes := encodeU64 cap.cap ++ encodeI64 cap.windowSeconds

def MintCapArg.encode (cap : MintCapArg) : Bytes := cap.mint.bytes ++ encodeU64 cap.cap ++ encodeI64 cap.windowSeconds

def WalletPolicyArgs.encode (args : WalletPolicyArgs) : Bytes :=
  encodeOption SolCapArg.encode args.solCap ++ encodeVec MintCapArg.encode args.mintCaps ++
    encodePermissions args.programPermissions

/-- The accounts of a call in the order of its instruction. -/
def RentCall.infos : RentCall → List AccountInfo
  | .setAuthority accounts _ _ _ =>
    [accounts.payer, accounts.phygitalToken, accounts.wallet, accounts.authorityAccount, accounts.slotHashes,
      accounts.instructionsSysvar, accounts.phygitalTokenProgram, accounts.systemProgram]
  | .setWalletPolicy accounts _ =>
    [accounts.authority, accounts.payer, accounts.rentReceiver, accounts.phygitalToken, accounts.authorityAccount,
      accounts.instructionsSysvar, accounts.systemProgram]
  | .clearWalletPolicy accounts =>
    [accounts.authority, accounts.rentReceiver, accounts.phygitalToken, accounts.authorityAccount,
      accounts.instructionsSysvar]
  | .clearAuthority accounts =>
    [accounts.authority, accounts.phygitalToken, accounts.rentReceiver, accounts.authorityAccount,
      accounts.instructionsSysvar]

/-- The data of a call. -/
def RentCall.data : RentCall → Bytes
  | .setAuthority _ authority args slotNumber =>
    PhygitalWalletInstruction.setAuthority.discriminator ++ authority.bytes ++ args.encode ++ encodeU64 slotNumber
  | .setWalletPolicy _ args => PhygitalWalletInstruction.setWalletPolicy.discriminator ++ args.encode
  | .clearWalletPolicy _ => PhygitalWalletInstruction.clearWalletPolicy.discriminator
  | .clearAuthority _ => PhygitalWalletInstruction.clearAuthority.discriminator

end PhygitalWallet

namespace PhygitalWallet.Signer

open Client Async Prog Runs Balances

/-! ## Who sends -/

/-- The key is one of the service's fee payers. -/
def SignerEnv.serves (env : SignerEnv) (key : Pubkey) : Bool :=
  match env.backend with
  | .ok backend => backend.canSign key
  | .error _ => false

/-- `signTransactions` has signed a transaction whose one wallet instruction is the call. -/
def CoSigned (env : SignerEnv) (call : RentCall) : Prop :=
  ∃ wires s texts audit s', Runs othersRun (signTransactions env wires) s (.ok (.ok texts audit)) s' ∧
    ∃ wire ∈ wires, ∃ decoded compiled ix, decodeWireTransaction env.decoders wire env.accumulator = .ok decoded ∧
      Accepted env.decoders wire decoded compiled ix ∧ env.serves decoded.feePayer = true ∧
      ix.compiledInfos = call.infos ∧ ix.data = some call.data

/-- A call was co-signed, or no key of the service signs it. -/
def Sent (env : SignerEnv) (call : RentCall) : Prop :=
  CoSigned env call ∨ ∀ info ∈ call.infos, info.isSigner = true → env.serves info.key = false

/-- **Sponsored rent.** Over every run from before the account exists, outsiders get back no more than outsiders paid, and
what the service's fee payers paid into an account whose header names none of them. -/
theorem sponsored_rent [HeapSizes] (env : SignerEnv) {key : Pubkey} {bank₀ bank : Bank} {events : List RentEvent}
    (hnew : (bank₀ key).owner ≠ crateId) (hempty : balances bank₀ key = 0)
    (hrun : Run (RentStep (Sent env) key) bank₀ events bank) :
    refundedOutside env.serves events ≤ paidOutside env.serves events + lent env.serves events :=
  (rent_run env.serves hnew hempty hrun).2.refunds

/-! ## A save that the service pays -/

def sponsoredKeys : List Pubkey :=
  [examplePayer, .fill 6, .fill 5, .fill 7, .fill 8, instructionsSysvarId, systemProgramId, crateId]

/-- The service pays, the user who created the account is the receiver of the rent. -/
def sponsoredMetas : List Client.AccountMeta :=
  [⟨.fill 6, .readonlySigner⟩, ⟨examplePayer, .writableSigner⟩, ⟨.fill 5, .writable⟩, ⟨.fill 8, .readonly⟩,
    ⟨.fill 7, .writable⟩, ⟨instructionsSysvarId, .readonly⟩, ⟨systemProgramId, .readonly⟩]

def servicePaidSave : SetWalletPolicy :=
  ⟨⟨.fill 6, true, false⟩, ⟨examplePayer, true, true⟩, ⟨.fill 5, false, true⟩, ⟨.fill 8, false, false⟩,
    ⟨.fill 7, false, true⟩, ⟨instructionsSysvarId, false, false⟩, ⟨systemProgramId, false, false⟩⟩

def sponsoredData : Bytes := (RentCall.setWalletPolicy servicePaidSave lifecyclePolicy).data

def sponsoredMessage : CompiledMessage where
  accountKeys := sponsoredKeys
  instructions := [⟨crateId, some sponsoredMetas, some sponsoredData⟩]
  length_le := by decide
  mem := by decide +kernel
  feePayer_role := by decide +kernel
  coherent := by decide +kernel

def sponsoredMessageBytes : Bytes :=
  [2, 1, 4, 8] ++ sponsoredKeys.flatMap Pubkey.bytes ++ List.replicate 32 3 ++ [1, 7, 7, 1, 0, 2, 4, 3, 5, 6, 81] ++
    sponsoredData

def sponsoredTransaction : Bytes := [2] ++ List.replicate 128 0 ++ sponsoredMessageBytes

def sponsoredWire : String := BaseText.base64Of sponsoredTransaction

/-- The Ed25519 signature of the message. -/
def sponsoredSignature : Bytes :=
  [14, 133, 208, 34, 169, 232, 188, 125, 224, 171, 167, 239, 10, 203, 211, 209,
    155, 112, 128, 168, 240, 142, 98, 225, 196, 12, 19, 27, 126, 65, 35, 234,
    200, 53, 78, 32, 21, 218, 52, 250, 163, 36, 178, 36, 40, 151, 191, 128,
    91, 247, 53, 126, 254, 253, 230, 180, 43, 150, 246, 211, 108, 130, 70, 4]

/-- What kit's decoders make of the transaction; no other text is given to them. -/
def sponsoredDecoders : Decoders where
  base64Encoder _ := .ok sponsoredTransaction
  txDecoder bytes :=
    if bytes = sponsoredTransaction then .ok ⟨sponsoredMessageBytes, List.replicate 2 (List.replicate 64 0)⟩
    else .error codecError
  messageDecoder bytes := if bytes = sponsoredMessageBytes then .ok sponsoredMessage else .error codecError
  setWalletPolicyData bytes := if bytes = sponsoredData then .ok () else .error codecError

def sponsorEnv : SignerEnv :=
  { exampleEnv with
    decoders := sponsoredDecoders
    ed25519 := fun message seed =>
      if message = sponsoredMessageBytes ∧ seed = exampleSeed then sponsoredSignature else List.replicate 64 0 }

def sponsoredDecoded : DecodedSignTx := ⟨sponsoredMessageBytes, examplePayer, .fill 8, false⟩

/-- The call on this transaction, with nobody else there. -/
def sponsoredRun : Except JsError SignTransactionsResult × SignState :=
  (signTransactions sponsorEnv [sponsoredWire]).alone (fun _ => .ok ()) SignState.wait (.start 0 exampleTables false)

theorem sponsored_decoded :
    decodeWireTransaction sponsorEnv.decoders sponsoredWire sponsorEnv.accumulator = .ok sponsoredDecoded := by
  decide +kernel

theorem sponsoredRun_signed : sponsoredRun.1 =
    .ok (.ok [BaseText.base64Of sponsoredSignature] (some ⟨examplePayer, 1, 1⟩)) := by decide +kernel

theorem sponsored_accepted : Accepted sponsorEnv.decoders sponsoredWire sponsoredDecoded sponsoredMessage
    ⟨crateId, some sponsoredMetas, some sponsoredData⟩ where
  message := by
    refine ⟨sponsoredTransaction, ⟨sponsoredMessageBytes, List.replicate 2 (List.replicate 64 0)⟩, rfl, ?_, rfl, ?_⟩
    · simp only [sponsorEnv, sponsoredDecoders, if_true]
    · simp only [sponsorEnv, sponsoredDecoders, if_true]
  feePayer := rfl
  programs := by decide +kernel
  wallet := by decide +kernel

theorem sponsored_coSigned : CoSigned sponsorEnv (.setWalletPolicy servicePaidSave lifecyclePolicy) := by
  have hruns : Runs othersRun (signTransactions sponsorEnv [sponsoredWire]) (.start 0 exampleTables false)
      sponsoredRun.1 sponsoredRun.2 := runs_alone (fun c s => othersRun_wait c (.ok ()) s) _ _
  rw [sponsoredRun_signed] at hruns
  exact ⟨_, _, _, _, _, hruns, sponsoredWire, List.mem_singleton.2 rfl, _, _, _, sponsored_decoded, sponsored_accepted,
    by decide +kernel, by decide +kernel, rfl⟩

/-! ## A run with this save -/

/-- The System program's account creation, for this program, at one lamport a byte. -/
def createRentAccount (payer key : Pubkey) (space : Nat) (bank : Bank) : Result Bank :=
  if (bank key).owner = systemProgramId then do
    let paid ← transferLamports payer key (UInt64.ofNat space) bank
    return Function.update paid key { paid key with owner := crateId, data := List.replicate space 0 }
  else .error (.external 0)

/-- `rentRuntime` in a transaction that starts with an instruction of the program. -/
def sponsorRuntime (data : Bytes) : Runtime :=
  { rentRuntime with createAccount := createRentAccount, firstInstruction := fun _ => some (crateId, data) }

theorem transferLamports_owner {source destination : Pubkey} {lamports : UInt64} {before after : Bank}
    (h : transferLamports source destination lamports before = .ok after) (k : Pubkey) :
    (after k).owner = (before k).owner := by
  unfold transferLamports at h
  split at h
  · simp only at h
    split at h
    · cases h
      simp
    · cases h
  · cases h

theorem sponsorRuntime_lawful (data : Bytes) : (sponsorRuntime data).Lawful where
  createAccount := by
    intro payer key space before after h
    change createRentAccount payer key space before = .ok after at h
    unfold createRentAccount at h
    split at h
    · next howner =>
      simp only [bind_eq_ok, pure_eq_ok] at h
      obtain ⟨paid, -, rfl⟩ := h
      refine ⟨?_, by simp, by simp⟩
      rw [howner]
      decide
    · cases h
  transfer := by
    intro source destination lamports before after h k
    exact ⟨transferLamports_owner h k, rentRuntime_moves.transfer_data _ _ _ _ _ h k⟩
  transfer_returns := by
    intro source destination lamports bank h
    change transferLamports source destination lamports bank = .error .panic at h
    unfold transferLamports at h
    split at h
    · simp only at h
      split at h <;> cases h
    · cases h
  verify := by
    intro token args message before after h k howner
    cases h
    exact ⟨howner, rfl⟩
  invokeSigned := transferRuntime_writes

theorem sponsorRuntime_funds (data : Bytes) : (sponsorRuntime data).Funds where
  transfer := rentRuntime_moves.transfer
  transfer_data := rentRuntime_moves.transfer_data
  createAccount := by
    intro payer key space before after h
    change createRentAccount payer key space before = .ok after at h
    unfold createRentAccount at h
    split at h
    · simp only [bind_eq_ok, pure_eq_ok] at h
      obtain ⟨paid, hpaid, rfl⟩ := h
      refine ⟨(UInt64.ofNat space).toNat, ?_⟩
      have hsame : balances (Function.update paid key { paid key with owner := crateId, data := List.replicate space 0 }) =
          balances paid := by
        funext k
        by_cases hk : k = key
        · subst hk
          simp [balances]
        · simp [balances, Function.update_of_ne hk]
      rw [hsame]
      exact rentRuntime_moves.transfer _ _ _ _ _ hpaid
    · cases h
  verify := by
    intro token args message before after h k _
    cases h
    rfl

/-- `lifecycleBank`, where the fee payer has 1000 lamports. -/
def unbackedBank : Bank := fun k => if k = examplePayer then ⟨1000, systemProgramId, []⟩ else lifecycleBank k

def userClear : ClearAuthority :=
  ⟨⟨.fill 6, true, false⟩, ⟨.fill 8, false, false⟩, ⟨.fill 5, false, true⟩, ⟨.fill 7, false, true⟩,
    ⟨instructionsSysvarId, false, false⟩⟩

/-- What a call leaves. -/
def runCall (call : RentCall) (bank : Bank) : Bank := bankOf (@RentCall.run targetHeapSizes (sponsorRuntime call.data) call bank)

def callEvent (call : RentCall) (bank : Bank) : RentEvent :=
  call.event (sponsorRuntime call.data) bank (runCall call bank)

theorem rentStep_runCall {call : RentCall} {bank : Bank} (hkey : call.key = .fill 7) (hsent : Sent sponsorEnv call)
    (hok : (@RentCall.run targetHeapSizes (sponsorRuntime call.data) call bank).isOk = true) :
    @RentStep targetHeapSizes (Sent sponsorEnv) (.fill 7) (callEvent call bank) bank (runCall call bank) :=
  @RentStep.call targetHeapSizes _ _ _ _ _ _ (sponsorRuntime_lawful _) (sponsorRuntime_funds _) hkey hsent
    (eq_ok_bankOf hok)

-- The user creates the account, the service pays for a save, the user closes the account.
def userCreate : RentCall := .setAuthority lifecycleSetAuthority (.fill 6) ⟨0, 0, []⟩ 3
def serviceSave : RentCall := .setWalletPolicy servicePaidSave lifecyclePolicy
def userClose : RentCall := .clearAuthority userClear

def createdBank : Bank := runCall userCreate unbackedBank
def savedBank : Bank := runCall serviceSave createdBank
def closedBank : Bank := runCall userClose savedBank

def unbackedEvents : List RentEvent :=
  [callEvent userCreate unbackedBank, callEvent serviceSave createdBank, callEvent userClose savedBank]

theorem unbackedRun : Run (@RentStep targetHeapSizes (Sent sponsorEnv) (.fill 7)) unbackedBank unbackedEvents closedBank := by
  have hcreate : @RentStep targetHeapSizes (Sent sponsorEnv) (.fill 7) (callEvent userCreate unbackedBank) unbackedBank
      createdBank := rentStep_runCall rfl (Or.inr (by decide +kernel)) (by decide +kernel)
  have hsave : @RentStep targetHeapSizes (Sent sponsorEnv) (.fill 7) (callEvent serviceSave createdBank) createdBank
      savedBank := rentStep_runCall rfl (Or.inl sponsored_coSigned) (by decide +kernel)
  have hclose : @RentStep targetHeapSizes (Sent sponsorEnv) (.fill 7) (callEvent userClose savedBank) savedBank
      closedBank := rentStep_runCall rfl (Or.inr (by decide +kernel)) (by decide +kernel)
  exact .snoc (.snoc (.snoc .nil hcreate) hsave) hclose

theorem unbackedEvents_eq : unbackedEvents =
    [⟨.fill 5, 156, .fill 5, 0, some (.fill 5)⟩, ⟨examplePayer, 64, .fill 5, 0, some (.fill 5)⟩,
      ⟨.fill 5, 0, .fill 5, 220, none⟩] := by
  decide +kernel

theorem unbackedBank_new : (unbackedBank (.fill 7)).owner ≠ crateId ∧ balances unbackedBank (.fill 7) = 0 := by
  decide +kernel

/-- The 64 lamports that the service pays for the growth go to the user. -/
theorem sponsored_rent_unbacked : ∃ bank events,
    Run (@RentStep targetHeapSizes (Sent sponsorEnv) (.fill 7)) unbackedBank events bank ∧
    (unbackedBank (.fill 7)).owner ≠ crateId ∧ balances unbackedBank (.fill 7) = 0 ∧
    paidOutside sponsorEnv.serves events = 156 ∧ refundedOutside sponsorEnv.serves events = 220 ∧
    balances bank (.fill 5) = balances unbackedBank (.fill 5) + 64 ∧
    balances bank examplePayer + 64 = balances unbackedBank examplePayer := by
  refine ⟨closedBank, unbackedEvents, unbackedRun, unbackedBank_new.1, unbackedBank_new.2, ?_, ?_, ?_, ?_⟩
  · rw [unbackedEvents_eq]
    decide +kernel
  · rw [unbackedEvents_eq]
    decide +kernel
  · decide +kernel
  · decide +kernel

theorem sponsored_rent_lent : refundedOutside sponsorEnv.serves unbackedEvents = 220 ∧
    lent sponsorEnv.serves unbackedEvents = 64 ∧
    refundedOutside sponsorEnv.serves unbackedEvents ≤
      paidOutside sponsorEnv.serves unbackedEvents + lent sponsorEnv.serves unbackedEvents := by
  refine ⟨?_, ?_, @sponsored_rent targetHeapSizes sponsorEnv _ _ _ _ unbackedBank_new.1 unbackedBank_new.2 unbackedRun⟩
  · rw [unbackedEvents_eq]
    decide +kernel
  · rw [unbackedEvents_eq]
    decide +kernel

end PhygitalWallet.Signer
