import PhygitalWallet.Client.Compile
import PhygitalWallet.Program.Entry

/-!
# The generated instruction builders and parsers (`generated/`, `wallet/execute-remaining.ts`)

Kit's codecs write what the program's derived decoders read; a number that does not fit is thrown. Parsers check the number
of accounts and decode the data.

- `executeData_ok`: what the encoder of `execute` writes;
- `decodeExecute_ok`: the parsers read in a call what the program reads.
-/

namespace PhygitalWallet.Client

open ByteCodec Borsh

/-! ## Encoders -/

def codecError : JsError := .kit .codec

/-- `getU8Encoder` on a JavaScript number. -/
def encodeNumberU8 (n : Nat) : Outcome Bytes := if n < 256 then .ok [UInt8.ofNat n] else .error codecError

/-- `getU32Encoder` as a size prefix. -/
def encodeSize (n : Nat) : Outcome Bytes := if n < 2 ^ 32 then .ok (ByteSeq.toLE 4 n) else .error codecError

/-- `addEncoderSizePrefix(getBytesEncoder(), getU32Encoder())`. -/
def encodeSizedBytes (bytes : Bytes) : Outcome Bytes := do
  let size ← encodeSize bytes.length
  return size ++ bytes

/-- `getArrayEncoder`. -/
def encodeArray {α : Type} (encode : α → Outcome Bytes) (items : List α) : Outcome Bytes := do
  let size ← encodeSize items.length
  let parts ← items.mapM encode
  return size ++ parts.flatten

def encodeCompactInstruction (ix : CompactInstructionArgs) : Outcome Bytes := do
  let programIdIndex ← encodeNumberU8 ix.programIdIndex
  let accountIndexes ← encodeSizedBytes ix.accountIndexes
  let data ← encodeSizedBytes ix.data
  return programIdIndex ++ accountIndexes ++ data

def encodeSecp256r1VerifyArgs (args : Secp256r1VerifyArgs) : Outcome Bytes := do
  let clientDataJson ← encodeSizedBytes args.clientDataJson
  return encodeI64 args.verifyArgsRelativeIndex ++ encodeU8 args.signedMessageIndex ++ clientDataJson

/-- `getExecuteInstructionDataEncoder`. -/
def executeData (compactInstructions : List CompactInstructionArgs) (secp256r1VerifyArgs : Secp256r1VerifyArgs)
    (slotNumber : UInt64) : Outcome Bytes := do
  let compacts ← encodeArray encodeCompactInstruction compactInstructions
  let verifyArgs ← encodeSecp256r1VerifyArgs secp256r1VerifyArgs
  return PhygitalWalletInstruction.execute.discriminator ++ compacts ++ verifyArgs ++ encodeU64 slotNumber

/-- The data encoders of the owner's executes. -/
def executeWithAuthorityData (kind : PhygitalWalletInstruction) (compactInstructions : List CompactInstructionArgs) :
    Outcome Bytes := do
  let compacts ← encodeArray encodeCompactInstruction compactInstructions
  return kind.discriminator ++ compacts

/-! ## Builders -/

structure ExecuteInput where
  phygitalToken : Pubkey
  wallet : Pubkey
  authorityAccount : Pubkey
  compactInstructions : List CompactInstructionArgs
  secp256r1VerifyArgs : Secp256r1VerifyArgs
  slotNumber : UInt64

def getExecuteInstruction (input : ExecuteInput) : Outcome Instruction := do
  let data ← executeData input.compactInstructions input.secp256r1VerifyArgs input.slotNumber
  return {
    programAddress := crateId
    accounts := some [⟨input.phygitalToken, .writable⟩, ⟨input.wallet, .writable⟩, ⟨input.authorityAccount, .writable⟩,
      ⟨slotHashesSysvarId, .readonly⟩, ⟨instructionsSysvarId, .readonly⟩, ⟨phygitalTokenId, .readonly⟩]
    data := some data }

/-- The signer `authority` is a no-op signer. -/
def getExecuteWithAuthorityUsingPoliciesInstruction (authority phygitalToken authorityAccount wallet : Pubkey)
    (compactInstructions : List CompactInstructionArgs) : Outcome Instruction := do
  let data ← executeWithAuthorityData .executeWithAuthorityUsingPolicies compactInstructions
  return {
    programAddress := crateId
    accounts := some [⟨authority, .readonlySigner⟩, ⟨phygitalToken, .readonly⟩, ⟨authorityAccount, .writable⟩,
      ⟨wallet, .writable⟩, ⟨instructionsSysvarId, .readonly⟩]
    data := some data }

/-! ## Parsers -/

/-- `getArrayDecoder`, which reads nothing where nothing is left. -/
def decodeArray {α : Type} (item : Decoder JsError α) : Decoder JsError (List α) := do
  let s ← get
  if s.input = [] then pure [] else vec codecError item

/-- `decode` reads from the start and leaves what it does not need. -/
def decodeFrom {α : Type} (d : Decoder JsError α) (data : Bytes) : Outcome α := Prod.fst <$> d ⟨data, 0⟩

def executeInstructionData : Decoder JsError (List CompactInstruction) := do
  let _ ← takeBytes codecError 8
  let compactInstructions ← decodeArray (compactInstruction codecError)
  let _ ← secp256r1VerifyArgs codecError
  let _ ← u64 codecError
  pure compactInstructions

def executeWithAuthorityInstructionData : Decoder JsError (List CompactInstruction) := do
  let _ ← takeBytes codecError 8
  decodeArray (compactInstruction codecError)

def setAuthorityInstructionData : Decoder JsError Unit := do
  let _ ← takeBytes codecError 8
  let _ ← takeBytes codecError 32
  let _ ← secp256r1VerifyArgs codecError
  let _ ← u64 codecError
  pure ()

/-- The instructions whose data is the discriminator. -/
def discriminatorOnlyData : Decoder JsError Unit := do
  let _ ← takeBytes codecError 8
  pure ()

def identifyPhygitalWalletInstruction (data : Bytes) : Outcome PhygitalWalletInstruction :=
  match instructionOf data with
  | some ix => .ok ix
  | none => .error (.kit .failedToIdentifyInstruction)

/-- The account at a position, after the check of their number. -/
def accountAt (accounts : List AccountMeta) (expected i : Nat) : Outcome AccountMeta :=
  match accounts[i]? with
  | some account =>
    if accounts.length < expected then .error (.kit (.insufficientAccountMetas accounts.length expected)) else .ok account
  | none => .error (.kit (.insufficientAccountMetas accounts.length expected))

/-- What a parser returns: the token's account, and the compact instructions of an execute variant. -/
structure ParsedExecute where
  phygitalToken : AccountMeta
  compactInstructions : List CompactInstruction
deriving DecidableEq, Repr

def parseExecuteInstruction (accounts : List AccountMeta) (data : Bytes) : Outcome ParsedExecute := do
  let phygitalToken ← accountAt accounts 6 0
  let compactInstructions ← decodeFrom executeInstructionData data
  return { phygitalToken, compactInstructions }

def parseExecuteWithAuthorityInstruction (accounts : List AccountMeta) (data : Bytes) : Outcome ParsedExecute := do
  let phygitalToken ← accountAt accounts 5 1
  let compactInstructions ← decodeFrom executeWithAuthorityInstructionData data
  return { phygitalToken, compactInstructions }

def parseSetAuthorityInstruction (accounts : List AccountMeta) (data : Bytes) : Outcome AccountMeta := do
  let phygitalToken ← accountAt accounts 8 1
  decodeFrom setAuthorityInstructionData data
  return phygitalToken

/-- The codec of the policy arguments is a parameter: nothing here reads its result. -/
def parseSetWalletPolicyInstruction (decodeData : Bytes → Outcome Unit) (accounts : List AccountMeta) (data : Bytes) :
    Outcome AccountMeta := do
  let phygitalToken ← accountAt accounts 7 3
  decodeData data
  return phygitalToken

def parseClearAuthorityInstruction (accounts : List AccountMeta) (data : Bytes) : Outcome AccountMeta := do
  let phygitalToken ← accountAt accounts 5 1
  decodeFrom discriminatorOnlyData data
  return phygitalToken

def parseClearWalletPolicyInstruction (accounts : List AccountMeta) (data : Bytes) : Outcome AccountMeta := do
  let phygitalToken ← accountAt accounts 5 2
  decodeFrom discriminatorOnlyData data
  return phygitalToken

/-! ## Remaining accounts -/

def executeNamedAccountCount : Nat := 6
def executeWithAuthorityNamedAccountCount : Nat := 5

/-- Named-account count before the remaining accounts, or `none` when the instruction has no compact instructions. -/
def executeRemainingAccountOffset : PhygitalWalletInstruction → Option Nat
  | .execute => some executeNamedAccountCount
  | .executeWithAuthority | .executeWithAuthorityUsingPolicies => some executeWithAuthorityNamedAccountCount
  | _ => none

/-- The name of an enum member. -/
def PhygitalWalletInstruction.memberName : PhygitalWalletInstruction → String
  | .clearAuthority => "ClearAuthority"
  | .clearWalletPolicy => "ClearWalletPolicy"
  | .execute => "Execute"
  | .executeWithAuthority => "ExecuteWithAuthority"
  | .executeWithAuthorityUsingPolicies => "ExecuteWithAuthorityUsingPolicies"
  | .setAuthority => "SetAuthority"
  | .setWalletPolicy => "SetWalletPolicy"

def sliceExecuteRemainingAccounts {α : Type} (kind : PhygitalWalletInstruction) (accounts : List α) : Outcome (List α) :=
  match executeRemainingAccountOffset kind with
  | some offset => .ok (accounts.drop offset)
  | none => throwText [.text "Instruction ", .text (PhygitalWalletInstruction.memberName kind),
      .text " has no compact remaining accounts"]

/-! ## What the encoder writes -/

theorem encodeSize_eq_ok {n : Nat} {bytes : Bytes} : encodeSize n = .ok bytes ↔ n < 2 ^ 32 ∧ bytes = ByteSeq.toLE 4 n := by
  unfold encodeSize
  split <;> simp_all [eq_comm]

theorem encodeSizedBytes_eq_ok {bytes out : Bytes} : encodeSizedBytes bytes = .ok out ↔
    bytes.length < 2 ^ 32 ∧ out = encodeVec encodeU8 bytes := by
  have hflat : bytes.flatMap encodeU8 = bytes := List.flatMap_singleton' bytes
  simp only [encodeSizedBytes, outcome_bind_eq_ok, encodeSize_eq_ok, outcome_pure_eq_ok, encodeVec, hflat]
  constructor
  · rintro ⟨_, ⟨hlt, rfl⟩, rfl⟩
    exact ⟨hlt, rfl⟩
  · rintro ⟨hlt, rfl⟩
    exact ⟨_, ⟨hlt, rfl⟩, rfl⟩

/-- An array of items that are encoded one by one. -/
theorem encodeArray_ok {α : Type} {encode : α → Outcome Bytes} {f : α → Bytes} {P : α → Prop}
    (h : ∀ a out, encode a = .ok out → P a ∧ out = f a) {items : List α} {out : Bytes}
    (hout : encodeArray encode items = .ok out) :
    (items.length < 2 ^ 32 ∧ ∀ a ∈ items, P a) ∧ out = encodeVec f items := by
  simp only [encodeArray, outcome_bind_eq_ok, encodeSize_eq_ok, outcome_pure_eq_ok] at hout
  obtain ⟨_, ⟨hlt, rfl⟩, parts, hparts, rfl⟩ := hout
  have hall : ∀ {items : List α} {parts : List Bytes}, List.Forall₂ (fun a b => encode a = .ok b) items parts →
      (∀ a ∈ items, P a) ∧ parts.flatten = items.flatMap f := by
    intro items parts hrel
    induction hrel with
    | nil => simp
    | cons ha _ ih =>
      obtain ⟨hP, rfl⟩ := h _ _ ha
      obtain ⟨hPs, hflat⟩ := ih
      exact ⟨List.forall_mem_cons.2 ⟨hP, hPs⟩, by simp [hflat]⟩
  obtain ⟨hP, hflat⟩ := hall (ListLoop.forall₂_of_mapM hparts)
  exact ⟨⟨hlt, hP⟩, by rw [hflat]; rfl⟩

/-- The compact instruction that the program decodes. -/
def CompactInstructionArgs.toCompact (ix : CompactInstructionArgs) : CompactInstruction :=
  ⟨UInt8.ofNat ix.programIdIndex, ix.accountIndexes, ix.data⟩

theorem encodeCompactInstruction_ok {ix : CompactInstructionArgs} {out : Bytes}
    (h : encodeCompactInstruction ix = .ok out) :
    (ix.programIdIndex < 256 ∧ ix.toCompact.Encodable) ∧ out = ix.toCompact.encode := by
  simp only [encodeCompactInstruction, outcome_bind_eq_ok, encodeSizedBytes_eq_ok, outcome_pure_eq_ok] at h
  obtain ⟨index, hindex, _, ⟨haccounts, rfl⟩, _, ⟨hdata, rfl⟩, rfl⟩ := h
  unfold encodeNumberU8 at hindex
  split at hindex
  · next hlt =>
    cases hindex
    exact ⟨⟨hlt, haccounts, hdata⟩, rfl⟩
  · cases hindex

/-- **The data of `execute`.** -/
theorem executeData_ok {compacts : List CompactInstructionArgs} {verifyArgs : Secp256r1VerifyArgs} {slotNumber : UInt64}
    {data : Bytes} (h : executeData compacts verifyArgs slotNumber = .ok data) :
    (∀ ix ∈ compacts, ix.programIdIndex < 256) ∧
      ∃ args : ExecuteArgs, args = ⟨compacts.map CompactInstructionArgs.toCompact, verifyArgs, slotNumber⟩ ∧
        args.Encodable ∧ data = PhygitalWalletInstruction.execute.discriminator ++ args.encode := by
  simp only [executeData, encodeSecp256r1VerifyArgs, outcome_bind_eq_ok, encodeSizedBytes_eq_ok, outcome_pure_eq_ok] at h
  obtain ⟨encoded, hencoded, _, ⟨_, ⟨hjson, rfl⟩, rfl⟩, rfl⟩ := h
  obtain ⟨⟨hlen, hall⟩, rfl⟩ := encodeArray_ok (fun _ _ => encodeCompactInstruction_ok) hencoded
  refine ⟨fun ix hix => (hall ix hix).1, _, rfl, ⟨⟨by simpa using hlen, fun ix hix => ?_⟩, hjson⟩, ?_⟩
  · obtain ⟨ix', hix', rfl⟩ := List.mem_map.1 hix
    exact (hall ix' hix').2
  · have hvec : encodeVec (fun ix : CompactInstructionArgs => ix.toCompact.encode) compacts =
        encodeVec CompactInstruction.encode (compacts.map CompactInstructionArgs.toCompact) := by
      simp [encodeVec, List.flatMap_map]
    simp only [ExecuteArgs.encode, Secp256r1VerifyArgs.encode, hvec, List.append_assoc]

/-! ## What the parsers read -/

theorem takeBytes_discriminator {data : Bytes} {kind : PhygitalWalletInstruction} (h : instructionOf data = some kind) :
    takeBytes codecError 8 ⟨data, 0⟩ = .ok (data.take 8, ⟨data.drop 8, 0⟩) := by
  have hfound : List.find? (fun ix => ix.discriminator.isPrefixOf data) _ = some kind := h
  have hprefix : kind.discriminator <+: data := List.isPrefixOf_iff_prefix.1 (by simpa using List.find?_some hfound)
  have hlen : kind.discriminator.length = 8 := by cases kind <;> rfl
  have hle : 8 ≤ data.length := hlen ▸ hprefix.length_le
  exact if_pos hle

/-- Where the program reads a list of compact instructions, so does the codec. -/
theorem decodeArray_compacts {input : Bytes} {compacts : List CompactInstruction} {s' : Cursor} {e : Failure}
    (h : vec e (compactInstruction e) ⟨input, 0⟩ = .ok (compacts, s')) :
    decodeArray (compactInstruction codecError) ⟨input, 0⟩ = .ok (compacts, s') := by
  have hvec := fun {ε : Type} (e : ε) =>
    decodes_vec e (decodes_compactInstruction e) fun ix _ => encode_compactInstruction_ne_nil ix
  have hne : input ≠ [] := by
    rintro rfl
    have hinput : [] = encodeVec CompactInstruction.encode compacts ++ s'.input := ((hvec e _ _ _).1 h).2.1
    have hlen := congrArg List.length hinput
    rw [encodeVec, List.length_append, List.length_append, ByteSeq.length_toLE, List.length_nil] at hlen
    omega
  show (if input = [] then _ else vec codecError (compactInstruction codecError)) _ = _
  rw [if_neg hne]
  exact (hvec e).transfer (hvec codecError) h

/-- The owner's two handlers read the list of instructions right after the discriminator. -/
theorem decodeExecute_owner {infos : List AccountInfo} {data : Bytes} {call : ExecuteCall}
    {kind : PhygitalWalletInstruction} (handler : ExecuteWithAuthority → ExecuteHandler) (e : Failure)
    (hkind : instructionOf data = some kind)
    (h : (do
      let compacts ← deserialize (vec e (compactInstruction e)) (data.drop 8)
      let taken ← takeExecuteWithAuthority infos
      return ⟨handler taken.1, taken.2, compacts⟩) = Except.ok call) :
    (∃ accounts, call.handler = handler accounts) ∧ 5 ≤ infos.length ∧ call.remaining = infos.drop 5 ∧
      decodeFrom executeWithAuthorityInstructionData data = .ok call.compactInstructions := by
  obtain ⟨compacts, hcompacts, h⟩ := bind_eq_ok.1 h
  obtain ⟨⟨accounts, remaining⟩, htake, h⟩ := bind_eq_ok.1 h
  cases h
  obtain ⟨⟨_, s'⟩, hvec, rfl⟩ := outcome_map_eq_ok.1 hcompacts
  unfold takeExecuteWithAuthority at htake
  split at htake
  · cases htake
    refine ⟨⟨_, rfl⟩, by simp, rfl, ?_⟩
    have hrun : executeWithAuthorityInstructionData ⟨data, 0⟩ = .ok (_, s') :=
      ByteCodec.bind_eq_ok.2 ⟨_, _, takeBytes_discriminator hkind, decodeArray_compacts hvec⟩
    rw [decodeFrom, hrun]
    rfl
  · cases htake

/-- `execute` reads the list, the proof and the slot. -/
theorem decodeExecute_execute {infos : List AccountInfo} {data : Bytes} {call : ExecuteCall} (e : Failure)
    (hkind : instructionOf data = some .execute)
    (h : (do
      let args ← deserialize (executeArgs e) (data.drop 8)
      let taken ← takeExecute infos
      return ⟨.execute taken.1 args.secp256r1VerifyArgs args.slotNumber, taken.2, args.compactInstructions⟩) =
        Except.ok call) :
    (∃ accounts args slotNumber, call.handler = .execute accounts args slotNumber) ∧ 6 ≤ infos.length ∧
      call.remaining = infos.drop 6 ∧ decodeFrom executeInstructionData data = .ok call.compactInstructions := by
  obtain ⟨args, hargs, h⟩ := bind_eq_ok.1 h
  obtain ⟨⟨accounts, remaining⟩, htake, h⟩ := bind_eq_ok.1 h
  cases h
  obtain ⟨⟨_, s'⟩, hrun, rfl⟩ := outcome_map_eq_ok.1 hargs
  obtain ⟨compacts, s₁, hcompacts, hrun⟩ := ByteCodec.bind_eq_ok.1 hrun
  obtain ⟨verifyArgs, s₂, hverify, hrun⟩ := ByteCodec.bind_eq_ok.1 hrun
  obtain ⟨slotNumber, s₃, hslot, hrun⟩ := ByteCodec.bind_eq_ok.1 hrun
  cases hrun
  unfold takeExecute at htake
  split at htake
  · cases htake
    refine ⟨⟨_, _, _, rfl⟩, by simp, rfl, ?_⟩
    have hrun : executeInstructionData ⟨data, 0⟩ = .ok (_, s') :=
      ByteCodec.bind_eq_ok.2 ⟨_, _, takeBytes_discriminator hkind, ByteCodec.bind_eq_ok.2 ⟨_, _,
        decodeArray_compacts hcompacts, ByteCodec.bind_eq_ok.2 ⟨_, _,
          (decodes_secp256r1VerifyArgs _).transfer (decodes_secp256r1VerifyArgs codecError) hverify,
          ByteCodec.bind_eq_ok.2 ⟨_, _, (decodes_u64 _).transfer (decodes_u64 codecError) hslot, rfl⟩⟩⟩⟩
    rw [decodeFrom, hrun]
    rfl
  · cases htake

/-- **The parsers read in a call what the program reads.** -/
theorem decodeExecute_ok {infos : List AccountInfo} {data : Bytes} {call : ExecuteCall}
    (h : decodeExecute infos data = some (.ok call)) :
    (instructionOf data = some .execute ∧ (∃ accounts args slotNumber, call.handler = .execute accounts args slotNumber) ∧
      6 ≤ infos.length ∧ call.remaining = infos.drop 6 ∧
      decodeFrom executeInstructionData data = .ok call.compactInstructions) ∨
    ((instructionOf data = some .executeWithAuthority ∨ instructionOf data = some .executeWithAuthorityUsingPolicies) ∧
      (∀ accounts args slotNumber, call.handler ≠ .execute accounts args slotNumber) ∧
      5 ≤ infos.length ∧ call.remaining = infos.drop 5 ∧
      decodeFrom executeWithAuthorityInstructionData data = .ok call.compactInstructions) := by
  unfold decodeExecute at h
  dsimp only at h
  split at h
  · next hkind => exact Or.inl ⟨hkind, decodeExecute_execute _ hkind (Option.some.inj h)⟩
  · next hkind =>
    obtain ⟨⟨accounts, hhandler⟩, hrest⟩ := decodeExecute_owner _ _ hkind (Option.some.inj h)
    exact Or.inr ⟨Or.inl hkind, by simp [hhandler], hrest⟩
  · next hkind =>
    obtain ⟨⟨accounts, hhandler⟩, hrest⟩ := decodeExecute_owner _ _ hkind (Option.some.inj h)
    exact Or.inr ⟨Or.inr hkind, by simp [hhandler], hrest⟩
  · cases h

end PhygitalWallet.Client
