import PhygitalWallet.Program.Binding
import PhygitalWallet.Program.Entry
import PhygitalWallet.Program.Lifecycle
import PhygitalWallet.Program.SlotHash

/-!
# `set_authority` as the runtime calls it

The call that accounts and data make, the message that it hands to `Verify`, and what that message says.

- `decodeSetAuthority_encode`: the call that encoded arguments make;
- `fetchSlotHash_iff`: the lookup finds what the sysvar lists;
- `SetAuthorityCall.run_messageHash`: the message of an accepted call;
- `setAuthorityPreimage_inj`, `challengePreimage_ne`: the message names one slot, one token and one authority, and no
  execute has it.
-/

namespace PhygitalWallet

open ByteCodec ByteSeq Borsh Bisection

/-! ## Arguments -/

section Arguments

variable {ε : Type}

/-- A `Pubkey` among the arguments. -/
def pubkey (e : ε) : Decoder ε Pubkey := do
  let bytes ← takeBytes e 32
  if h : bytes.length = 32 then pure ⟨bytes, h⟩ else throw e

/-- The arguments of `set_authority`. -/
structure SetAuthorityArgs where
  authority : Pubkey
  secp256r1VerifyArgs : Secp256r1VerifyArgs
  slotNumber : UInt64
deriving DecidableEq, Repr

def SetAuthorityArgs.encode (args : SetAuthorityArgs) : Bytes :=
  encodePubkey args.authority ++ args.secp256r1VerifyArgs.encode ++ encodeU64 args.slotNumber

def setAuthorityArgs (e : ε) : Decoder ε SetAuthorityArgs := do
  let authority ← pubkey e
  let verifyArgs ← secp256r1VerifyArgs e
  let slotNumber ← u64 e
  pure { authority, secp256r1VerifyArgs := verifyArgs, slotNumber }

theorem decodes_pubkey (e : ε) : Decodes (pubkey e) (Format.plain encodePubkey) := by
  have hk : ∀ bytes : Bytes, Decodes (if h : bytes.length = 32 then pure ⟨bytes, h⟩ else throw e : Decoder ε Pubkey)
      ⟨fun _ => [], fun _ => 0, fun k => k.bytes = bytes⟩ := by
    intro bytes
    by_cases h : bytes.length = 32
    · rw [dif_pos h]
      refine (Decodes.pure _).congr (fun k => ?_) (fun _ _ => ⟨rfl, rfl⟩)
      exact ⟨fun hk => by rw [hk], fun hk => Pubkey.ext hk⟩
    · rw [dif_neg h]
      refine (Decodes.fail _).congr (fun k => ?_) (fun _ _ => ⟨rfl, rfl⟩)
      exact ⟨False.elim, fun hk => h (hk ▸ k.length_eq)⟩
  refine ((decodes_takeBytes _ 32).bind Pubkey.bytes hk fun _ _ _ h => h).congr (fun k => ?_) (fun k _ => ?_)
  · simp [Format.bytes, k.length_eq]
  · simp [Format.bytes, encodePubkey]

theorem decodes_setAuthorityArgs (e : ε) : Decodes (setAuthorityArgs e)
    ⟨SetAuthorityArgs.encode, fun _ => 0, fun args => args.secp256r1VerifyArgs.clientDataJson.length < 2 ^ 32⟩ := by
  refine ((decodes_pubkey e).bind SetAuthorityArgs.authority (fun _ =>
    (decodes_secp256r1VerifyArgs e).bind SetAuthorityArgs.secp256r1VerifyArgs (fun _ =>
      (decodes_u64 e).bind SetAuthorityArgs.slotNumber (fun _ => Decodes.pure _) ?_) ?_) ?_).congr
      (fun args => ?_) (fun args _ => ?_)
  · rintro slotNumber args - rfl
    rfl
  · rintro verifyArgs args - ⟨-, h⟩
    rw [h]
  · rintro authority args - ⟨-, -, h⟩
    rw [h]
  · simp
  · simp [SetAuthorityArgs.encode]

end Arguments

/-! ## The call -/

/-- A call of `set_authority`. -/
structure SetAuthorityCall where
  accounts : SetAuthority
  args : SetAuthorityArgs
deriving DecidableEq, Repr

/-- The accounts of `set_authority`. -/
def takeSetAuthority (accounts : List AccountInfo) : Result SetAuthority :=
  match accounts with
  | payer :: phygitalToken :: wallet :: authorityAccount :: slotHashes :: instructionsSysvar :: phygitalTokenProgram ::
      systemProgram :: _ =>
    .ok ⟨payer, phygitalToken, wallet, authorityAccount, slotHashes, instructionsSysvar, phygitalTokenProgram,
      systemProgram⟩
  | _ => .error (.external accountNotEnoughKeys)

/-- The call that accounts and data make, when they are for `set_authority`. -/
def decodeSetAuthority (accounts : List AccountInfo) (data : Bytes) : Option (Result SetAuthorityCall) :=
  match instructionOf data with
  | some .setAuthority => some do
    let args ← deserialize (setAuthorityArgs (Failure.external instructionDidNotDeserialize)) (data.drop 8)
    let accounts ← takeSetAuthority accounts
    return ⟨accounts, args⟩
  | _ => none

/-- Encoded arguments of `set_authority` are decoded. -/
theorem decodeSetAuthority_encode {infos : List AccountInfo} {args : SetAuthorityArgs} {accounts : SetAuthority}
    (hargs : args.secp256r1VerifyArgs.clientDataJson.length < 2 ^ 32) (haccounts : takeSetAuthority infos = .ok accounts) :
    decodeSetAuthority infos (PhygitalWalletInstruction.setAuthority.discriminator ++ args.encode) =
      some (.ok ⟨accounts, args⟩) := by
  have hdrop : (PhygitalWalletInstruction.setAuthority.discriminator ++ args.encode).drop 8 = args.encode ++ [] := by
    rw [List.append_nil]
    rfl
  have hdec := deserialize_encode (decodes_setAuthorityArgs (.external instructionDidNotDeserialize)) hargs rfl []
  simp only [decodeSetAuthority, instructionOf_discriminator, hdrop, haccounts]
  rw [hdec]
  rfl

/-- The handler runs. -/
def SetAuthorityCall.run (rt : Runtime) (call : SetAuthorityCall) (bank : Bank) : Result Bank :=
  setAuthority rt call.accounts call.args.authority call.args.secp256r1VerifyArgs call.args.slotNumber bank

/-- The `message_hash` that it hands to `Verify`. -/
def SetAuthorityCall.messageHash (rt : Runtime) (call : SetAuthorityCall) (bank : Bank) : Result Bytes := do
  let bank ← call.accounts.validate rt bank
  let slotHash ← fetchSlotHash (bank call.accounts.slotHashes.key).data call.args.slotNumber
  return buildSetAuthorityChallenge rt slotHash call.accounts.phygitalToken.key call.args.authority

theorem SetAuthorityCall.run_messageHash {rt : Runtime} {call : SetAuthorityCall} {bank bank' : Bank}
    (h : call.run rt bank = .ok bank') : ∃ messageHash before after, call.messageHash rt bank = .ok messageHash ∧
      rt.verify call.accounts.phygitalToken.key call.args.secp256r1VerifyArgs messageHash before = .ok after := by
  simp only [SetAuthorityCall.run, setAuthority, bind_eq_ok, pure_eq_ok] at h
  obtain ⟨before, hvalidate, _, -, _, -, slotHash, hslot, after, hverify, -⟩ := h
  refine ⟨_, before, after, ?_, hverify⟩
  rw [SetAuthorityCall.messageHash, hvalidate, ok_bind, hslot, ok_bind]
  rfl

theorem SetAuthorityCall.messageHash_iff {rt : Runtime} {call : SetAuthorityCall} {bank : Bank} {messageHash : Bytes} :
    call.messageHash rt bank = .ok messageHash ↔ ∃ before slotHash, call.accounts.validate rt bank = .ok before ∧
      fetchSlotHash (before call.accounts.slotHashes.key).data call.args.slotNumber = .ok slotHash ∧
      messageHash = buildSetAuthorityChallenge rt slotHash call.accounts.phygitalToken.key call.args.authority := by
  simp only [SetAuthorityCall.messageHash, bind_eq_ok, pure_eq_ok]
  constructor
  · rintro ⟨before, hvalidate, slotHash, hslot, rfl⟩
    exact ⟨before, slotHash, hvalidate, hslot, rfl⟩
  · rintro ⟨before, slotHash, hvalidate, hslot, rfl⟩
    exact ⟨before, hvalidate, slotHash, hslot, rfl⟩

/-! ## The slot -/

/-- The number of entries that the sysvar names. -/
def slotCount (data : Bytes) : Nat := ofLE (slice data 0 8)

/-- The data of the sysvar: its entries lie within it, newest first. -/
structure SlotHashes (data : Bytes) : Prop where
  length_lt : data.length < 2 ^ 64
  fits : 8 + slotCount data * entryLen ≤ data.length
  sorted : ∀ i j, i < j → j < slotCount data → slotAt data j < slotAt data i

/-- The sysvar has an entry with this slot and this hash. -/
def Lists (data : Bytes) (slotNumber : UInt64) (slotHash : Bytes) : Prop :=
  ∃ i < slotCount data, slotAt data i = slotNumber ∧ hashAt data i = slotHash

section Slots

variable {data slotHash : Bytes} {slotNumber : UInt64}

/-- **The lookup finds what the sysvar lists.** -/
theorem fetchSlotHash_iff (h : SlotHashes data) :
    fetchSlotHash data slotNumber = .ok slotHash ↔ Lists data slotNumber slotHash := by
  have hread : ∀ i < slotCount data, readSlot data i = some (slotAt data i).toNat :=
    fun i hi => readSlot_of_lt h.fits hi
  obtain ⟨out, hout⟩ := Search.total slotNumber.toNat (fun i hi => ⟨_, hread i hi⟩) (Nat.zero_le (slotCount data))
  have hdescends : ∀ i j a b, i < j → j < slotCount data → readSlot data i = some a → readSlot data j = some b → b < a := by
    intro i j a b hij hj ha hb
    obtain rfl := Option.some.inj ((hread i (by omega)).symm.trans ha)
    obtain rfl := Option.some.inj ((hread j hj).symm.trans hb)
    exact UInt64.lt_iff_toNat_lt.1 (h.sorted i j hij hj)
  have hfound : ∀ i, out = some i ↔ i < slotCount data ∧ slotAt data i = slotNumber := by
    intro i
    rw [hout.eq_some_iff hdescends]
    constructor
    · rintro ⟨-, hi, hslot⟩
      exact ⟨hi, UInt64.toNat_inj.1 (Option.some.inj ((hread i hi).symm.trans hslot))⟩
    · rintro ⟨hi, rfl⟩
      exact ⟨Nat.zero_le i, hi, hread i hi⟩
  have hresult : 0 < slotCount data → fetchSlotHash data slotNumber = lookupResult data out := by
    intro hpos
    rw [fetchSlotHash_eq h.length_lt h.fits hpos]
    have hwindow : slotCount data - 0 ≤ slotCount data := by omega
    exact searchSlot_search hout hwindow
  constructor
  · intro hok
    rcases Nat.eq_zero_or_pos (slotCount data) with hzero | hpos
    · have hlen : 8 ≤ data.length := by
        have := h.fits
        omega
      rw [fetchSlotHash_empty hlen hzero] at hok
      cases hok
    · rw [hresult hpos] at hok
      cases hout' : out with
      | none =>
        rw [hout'] at hok
        cases hok
      | some i =>
        obtain ⟨hi, hslot⟩ := (hfound i).1 hout'
        rw [hout'] at hok
        exact ⟨i, hi, hslot, Except.ok.inj hok⟩
  · rintro ⟨i, hi, hslot, rfl⟩
    rw [hresult (by omega), (hfound i).2 ⟨hi, hslot⟩]
    rfl

theorem length_searchSlot {fuel left right : Nat} (h : searchSlot data slotNumber fuel left right = .ok slotHash) :
    slotHash.length = 32 := by
  induction fuel generalizing left right with
  | zero => cases h
  | succ fuel ih =>
    rw [searchSlot] at h
    split at h
    · obtain ⟨bytes, -, h⟩ := bind_eq_ok.1 h
      simp only at h
      split at h
      · obtain ⟨hle, rfl⟩ := rangeOf_eq_ok h
        rw [length_slice hle]
        omega
      · split at h
        · exact ih h
        · exact ih h
    · cases h

/-- A slot hash has 32 bytes. -/
theorem length_fetchSlotHash (h : fetchSlotHash data slotNumber = .ok slotHash) : slotHash.length = 32 := by
  simp only [fetchSlotHash, bind_eq_ok] at h
  obtain ⟨_, -, _, -, _, -, _, -, _, -, h⟩ := h
  exact length_searchSlot h

end Slots

/-! ## What the message says -/

/-- What the hash covers. -/
def setAuthorityPreimage (slotHash : Bytes) (phygitalToken authority : Pubkey) : Bytes :=
  setAuthorityChallengePrefix ++ slotHash ++ phygitalToken.bytes ++ authority.bytes

/-- The bytes determine the slot hash, the token and the authority. -/
theorem setAuthorityPreimage_inj {slotHash slotHash' : Bytes} {token token' authority authority' : Pubkey}
    (hlen : slotHash.length = slotHash'.length)
    (h : setAuthorityPreimage slotHash token authority = setAuthorityPreimage slotHash' token' authority') :
    slotHash = slotHash' ∧ token = token' ∧ authority = authority' := by
  simp only [setAuthorityPreimage, List.append_assoc] at h
  obtain ⟨hslot, h⟩ := List.append_inj (List.append_cancel_left h) hlen
  obtain ⟨htoken, hauthority⟩ := List.append_inj h (token.length_eq.trans token'.length_eq.symm)
  exact ⟨hslot, Pubkey.ext htoken, Pubkey.ext hauthority⟩

/-- No execute hashes these bytes: the prefixes differ after `phygital_wallet:`. -/
theorem challengePreimage_ne (slotHash instructionsHash accountsHash slotHash' : Bytes) (token authority : Pubkey) :
    challengePreimage slotHash instructionsHash accountsHash ≠ setAuthorityPreimage slotHash' token authority := by
  intro h
  have hbyte := congrArg (fun bytes => bytes[16]?) h
  simp only [challengePreimage, setAuthorityPreimage, List.append_assoc] at hbyte
  rw [List.getElem?_append_left (by decide), List.getElem?_append_left (by decide)] at hbyte
  revert hbyte
  decide

end PhygitalWallet
