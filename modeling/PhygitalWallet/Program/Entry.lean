import PhygitalWallet.Program.Execute
import PhygitalWallet.Lib.Borsh

/-!
# The execute instructions as the runtime calls them (`lib.rs`)

What Anchor makes of an instruction's account list and data before a handler runs: the discriminator chooses the handler,
the arguments are deserialized, the named accounts are taken off the front, and what is left are the remaining accounts.

- `decodes_compactInstruction`, `decodes_executeArgs`: the formats of the arguments;
- `decodeExecute_encode`: the call that encoded arguments make.
-/

namespace PhygitalWallet

open ByteCodec Borsh

/-! ## Discriminators -/

/-- `PhygitalWalletInstruction`. -/
inductive PhygitalWalletInstruction
  | clearAuthority | clearWalletPolicy | execute | executeWithAuthority | executeWithAuthorityUsingPolicies
  | setAuthority | setWalletPolicy
deriving DecidableEq, Repr

def PhygitalWalletInstruction.discriminator : PhygitalWalletInstruction → Bytes
  | .clearAuthority => [129, 249, 41, 111, 187, 52, 199, 214]
  | .clearWalletPolicy => [226, 224, 82, 15, 201, 69, 123, 12]
  | .execute => [130, 221, 242, 154, 13, 193, 189, 29]
  | .executeWithAuthority => [249, 39, 107, 35, 244, 181, 161, 142]
  | .executeWithAuthorityUsingPolicies => [237, 150, 126, 114, 227, 5, 73, 250]
  | .setAuthority => [133, 250, 37, 21, 110, 163, 26, 121]
  | .setWalletPolicy => [246, 162, 84, 132, 73, 92, 217, 149]

/-- The instruction whose discriminator the data starts with. -/
def instructionOf (data : Bytes) : Option PhygitalWalletInstruction :=
  [.clearAuthority, .clearWalletPolicy, .execute, .executeWithAuthority, .executeWithAuthorityUsingPolicies,
    .setAuthority, .setWalletPolicy].find? fun ix => ix.discriminator.isPrefixOf data

/-! ## Arguments -/

section Arguments

variable {ε : Type}

def CompactInstruction.encode (ix : CompactInstruction) : Bytes :=
  encodeU8 ix.programIdIndex ++ encodeVec encodeU8 ix.accountIndexes ++ encodeVec encodeU8 ix.data

def compactInstruction (e : ε) : Decoder ε CompactInstruction := do
  let programIdIndex ← u8 e
  let accountIndexes ← vec e (u8 e)
  let data ← vec e (u8 e)
  pure { programIdIndex, accountIndexes, data }

def Secp256r1VerifyArgs.encode (args : Secp256r1VerifyArgs) : Bytes :=
  encodeI64 args.verifyArgsRelativeIndex ++ encodeU8 args.signedMessageIndex ++ encodeVec encodeU8 args.clientDataJson

def secp256r1VerifyArgs (e : ε) : Decoder ε Secp256r1VerifyArgs := do
  let verifyArgsRelativeIndex ← i64 e
  let signedMessageIndex ← u8 e
  let clientDataJson ← vec e (u8 e)
  pure { verifyArgsRelativeIndex, signedMessageIndex, clientDataJson }

/-- The arguments of `execute`. -/
structure ExecuteArgs where
  compactInstructions : List CompactInstruction
  secp256r1VerifyArgs : Secp256r1VerifyArgs
  slotNumber : UInt64
deriving DecidableEq, Repr

def ExecuteArgs.encode (args : ExecuteArgs) : Bytes :=
  encodeVec CompactInstruction.encode args.compactInstructions ++ args.secp256r1VerifyArgs.encode
    ++ encodeU64 args.slotNumber

def executeArgs (e : ε) : Decoder ε ExecuteArgs := do
  let compactInstructions ← vec e (compactInstruction e)
  let verifyArgs ← secp256r1VerifyArgs e
  let slotNumber ← u64 e
  pure { compactInstructions, secp256r1VerifyArgs := verifyArgs, slotNumber }

/-- Lengths that a `u32` count spells. -/
def CompactInstruction.Encodable (ix : CompactInstruction) : Prop :=
  ix.accountIndexes.length < 2 ^ 32 ∧ ix.data.length < 2 ^ 32

def ExecuteArgs.Encodable (args : ExecuteArgs) : Prop :=
  (args.compactInstructions.length < 2 ^ 32 ∧ ∀ ix ∈ args.compactInstructions, ix.Encodable) ∧
    args.secp256r1VerifyArgs.clientDataJson.length < 2 ^ 32

theorem decodes_compactInstruction (e : ε) : Decodes (compactInstruction e)
    ⟨CompactInstruction.encode, fun _ => 0, CompactInstruction.Encodable⟩ := by
  refine ((decodes_u8 e).bind CompactInstruction.programIdIndex (fun _ =>
    (decodes_vec_u8 e).bind CompactInstruction.accountIndexes (fun _ =>
      (decodes_vec_u8 e).bind CompactInstruction.data (fun _ => Decodes.pure _) ?_) ?_) ?_).congr
      (fun ix => ?_) (fun ix _ => ?_)
  · rintro data ix - rfl
    rfl
  · rintro accountIndexes ix - ⟨-, h⟩
    rw [h]
  · rintro programIdIndex ix - ⟨-, -, h⟩
    rw [h]
  · simp [CompactInstruction.Encodable]
  · simp [CompactInstruction.encode]

theorem decodes_secp256r1VerifyArgs (e : ε) : Decodes (secp256r1VerifyArgs e)
    ⟨Secp256r1VerifyArgs.encode, fun _ => 0, fun args => args.clientDataJson.length < 2 ^ 32⟩ := by
  refine ((decodes_i64 e).bind Secp256r1VerifyArgs.verifyArgsRelativeIndex (fun _ =>
    (decodes_u8 e).bind Secp256r1VerifyArgs.signedMessageIndex (fun _ =>
      (decodes_vec_u8 e).bind Secp256r1VerifyArgs.clientDataJson (fun _ => Decodes.pure _) ?_) ?_) ?_).congr
      (fun args => ?_) (fun args _ => ?_)
  · rintro clientDataJson args - rfl
    rfl
  · rintro signedMessageIndex args - ⟨-, h⟩
    rw [h]
  · rintro relativeIndex args - ⟨-, -, h⟩
    rw [h]
  · simp
  · simp [Secp256r1VerifyArgs.encode]

theorem encode_compactInstruction_ne_nil (ix : CompactInstruction) : ix.encode ≠ [] := by
  simp [CompactInstruction.encode, encodeU8]

theorem decodes_executeArgs (e : ε) : Decodes (executeArgs e)
    ⟨ExecuteArgs.encode, fun _ => 0, ExecuteArgs.Encodable⟩ := by
  have hvec := decodes_vec e (decodes_compactInstruction e) fun ix _ => encode_compactInstruction_ne_nil ix
  refine (hvec.bind ExecuteArgs.compactInstructions (fun _ =>
    (decodes_secp256r1VerifyArgs e).bind ExecuteArgs.secp256r1VerifyArgs (fun _ =>
      (decodes_u64 e).bind ExecuteArgs.slotNumber (fun _ => Decodes.pure _) ?_) ?_) ?_).congr
      (fun args => ?_) (fun args _ => ?_)
  · rintro slotNumber args - rfl
    rfl
  · rintro verifyArgs args - ⟨-, h⟩
    rw [h]
  · rintro compacts args - ⟨-, -, h⟩
    rw [h]
  · simp [ExecuteArgs.Encodable, Format.vec]
  · simp [ExecuteArgs.encode, Format.vec]

end Arguments

/-! ## The call -/

def instructionDidNotDeserialize : Nat := 102
def accountNotEnoughKeys : Nat := 3005

/-- `T::deserialize(&mut data)`, which leaves what it does not need. -/
def deserialize {α : Type} (d : Decoder Failure α) (data : Bytes) : Result α := Prod.fst <$> d ⟨data, 0⟩

/-- The handler with its own accounts and arguments. -/
inductive ExecuteHandler
  | execute (accounts : Execute) (secp256r1VerifyArgs : Secp256r1VerifyArgs) (slotNumber : UInt64)
  | executeWithAuthority (accounts : ExecuteWithAuthority)
  | executeWithAuthorityUsingPolicies (accounts : ExecuteWithAuthority)
deriving DecidableEq, Repr

/-- A call of an execute handler. -/
structure ExecuteCall where
  handler : ExecuteHandler
  remaining : List AccountInfo
  compactInstructions : List CompactInstruction
deriving DecidableEq, Repr

/-- The accounts of `execute`, and what is left. -/
def takeExecute (accounts : List AccountInfo) : Result (Execute × List AccountInfo) :=
  match accounts with
  | phygitalToken :: wallet :: authorityAccount :: slotHashes :: instructionsSysvar :: phygitalTokenProgram :: rest =>
    .ok (⟨phygitalToken, wallet, authorityAccount, slotHashes, instructionsSysvar, phygitalTokenProgram⟩, rest)
  | _ => .error (.external accountNotEnoughKeys)

/-- The accounts of the owner's executes, and what is left. -/
def takeExecuteWithAuthority (accounts : List AccountInfo) : Result (ExecuteWithAuthority × List AccountInfo) :=
  match accounts with
  | authority :: phygitalToken :: authorityAccount :: wallet :: instructionsSysvar :: rest =>
    .ok (⟨authority, phygitalToken, authorityAccount, wallet, instructionsSysvar⟩, rest)
  | _ => .error (.external accountNotEnoughKeys)

/-- The call that accounts and data make, when they are for an execute handler. -/
def decodeExecute (accounts : List AccountInfo) (data : Bytes) : Option (Result ExecuteCall) :=
  let failure := Failure.external instructionDidNotDeserialize
  match instructionOf data with
  | some .execute => some do
    let args ← deserialize (executeArgs failure) (data.drop 8)
    let (accounts, remaining) ← takeExecute accounts
    return ⟨.execute accounts args.secp256r1VerifyArgs args.slotNumber, remaining, args.compactInstructions⟩
  | some .executeWithAuthority => some do
    let compacts ← deserialize (vec failure (compactInstruction failure)) (data.drop 8)
    let (accounts, remaining) ← takeExecuteWithAuthority accounts
    return ⟨.executeWithAuthority accounts, remaining, compacts⟩
  | some .executeWithAuthorityUsingPolicies => some do
    let compacts ← deserialize (vec failure (compactInstruction failure)) (data.drop 8)
    let (accounts, remaining) ← takeExecuteWithAuthority accounts
    return ⟨.executeWithAuthorityUsingPolicies accounts, remaining, compacts⟩
  | _ => none

/-- The handler runs. -/
def ExecuteCall.run [HeapSizes] (rt : Runtime) (call : ExecuteCall) (bank : Bank) : Result Executed :=
  match call.handler with
  | .execute accounts args slotNumber =>
    PhygitalWallet.execute rt accounts call.remaining call.compactInstructions args slotNumber bank
  | .executeWithAuthority accounts =>
    PhygitalWallet.executeWithAuthority rt accounts call.remaining call.compactInstructions bank
  | .executeWithAuthorityUsingPolicies accounts =>
    PhygitalWallet.executeWithAuthorityUsingPolicies rt accounts call.remaining call.compactInstructions bank

/-! ## What the decoder takes -/

theorem deserialize_encode {α : Type} {d : Decoder Failure α} {c : Format α} (h : Decodes d c) {a : α}
    (ha : c.valid a) (hcost : c.cost a = 0) (rest : Bytes) : deserialize d (c.encode a ++ rest) = .ok a := by
  have hd := (h ⟨c.encode a ++ rest, 0⟩ a ⟨rest, 0⟩).2 ⟨ha, rfl, by rw [hcost, Nat.zero_add]⟩
  rw [deserialize, hd]
  rfl

theorem instructionOf_discriminator (ix : PhygitalWalletInstruction) (rest : Bytes) :
    instructionOf (ix.discriminator ++ rest) = some ix := by
  cases ix <;> rfl

/-- Encoded arguments of `execute` are decoded. -/
theorem decodeExecute_encode {accounts remaining : List AccountInfo} {args : ExecuteArgs} (named : Execute)
    (hargs : args.Encodable) (haccounts : takeExecute accounts = .ok (named, remaining)) :
    decodeExecute accounts (PhygitalWalletInstruction.execute.discriminator ++ args.encode) =
      some (.ok ⟨.execute named args.secp256r1VerifyArgs args.slotNumber, remaining, args.compactInstructions⟩) := by
  have hdrop : (PhygitalWalletInstruction.execute.discriminator ++ args.encode).drop 8 = args.encode ++ [] := by
    rw [List.append_nil]
    rfl
  have hdec := deserialize_encode (decodes_executeArgs (.external instructionDidNotDeserialize)) hargs rfl []
  simp only [decodeExecute, instructionOf_discriminator, hdrop, haccounts]
  rw [hdec]
  rfl

theorem takeExecute_mem {infos remaining : List AccountInfo} {accounts : Execute}
    (h : takeExecute infos = .ok (accounts, remaining)) : ∀ ai ∈ remaining, ai ∈ infos := by
  unfold takeExecute at h
  split at h
  · cases h
    intro ai hai
    simp [hai]
  · cases h

theorem takeExecuteWithAuthority_mem {infos remaining : List AccountInfo} {accounts : ExecuteWithAuthority}
    (h : takeExecuteWithAuthority infos = .ok (accounts, remaining)) : ∀ ai ∈ remaining, ai ∈ infos := by
  unfold takeExecuteWithAuthority at h
  split at h
  · cases h
    intro ai hai
    simp [hai]
  · cases h

/-- The remaining accounts of a call are among the accounts of the instruction. -/
theorem decodeExecute_remaining {infos : List AccountInfo} {data : Bytes} {call : ExecuteCall}
    (h : decodeExecute infos data = some (.ok call)) : ∀ ai ∈ call.remaining, ai ∈ infos := by
  unfold decodeExecute at h
  dsimp only at h
  split at h
  · obtain ⟨args, -, h⟩ := bind_eq_ok.1 (Option.some.inj h)
    obtain ⟨⟨accounts, remaining⟩, htake, h⟩ := bind_eq_ok.1 h
    cases h
    exact takeExecute_mem htake
  · obtain ⟨args, -, h⟩ := bind_eq_ok.1 (Option.some.inj h)
    obtain ⟨⟨accounts, remaining⟩, htake, h⟩ := bind_eq_ok.1 h
    cases h
    exact takeExecuteWithAuthority_mem htake
  · obtain ⟨args, -, h⟩ := bind_eq_ok.1 (Option.some.inj h)
    obtain ⟨⟨accounts, remaining⟩, htake, h⟩ := bind_eq_ok.1 h
    cases h
    exact takeExecuteWithAuthority_mem htake
  · cases h

end PhygitalWallet
