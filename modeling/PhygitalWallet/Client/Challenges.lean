import PhygitalWallet.Client.Instructions
import PhygitalWallet.Lib.Buffer
import PhygitalWallet.Program.Binding

/-!
# The execute challenge on the client (`utils/challenges.ts`)

The client writes each preimage into a buffer whose size it computes first, the accounts with the flags of their roles.

- `packCompactInstructions_program`, `referencedBuffer_program`, `executeChallengePreimage_eq`: the three preimages are
  those of the program;
- `hashExecuteChallenge_program`: the client computes what the program computes;
- `challenges_agree`: both, with where they fail.
-/

namespace PhygitalWallet.Client

open ListLoop ByteBuffer

/-! ## The instructions -/

/-- One turn of the loop that checks the lengths and adds up the size. -/
def addSize (size : Nat) (ix : CompactInstructionArgs) : Outcome Nat :=
  if 255 < ix.accountIndexes.length then throwText [.text "Too many account indexes for u8 count"]
  else if 0xffff < ix.data.length then throwText [.text "Instruction data exceeds u16 length"]
  else .ok (size + (1 + 1 + ix.accountIndexes.length + 2 + ix.data.length))

/-- One turn of the loop that writes the instructions. -/
def writeInstruction (out : Writer) (ix : CompactInstructionArgs) : Outcome Writer := do
  let out := out.push (UInt8.ofNat ix.programIdIndex)
  let out := out.push (UInt8.ofNat ix.accountIndexes.length)
  let out ← out.set .rangeError ix.accountIndexes
  let out := out.skip ix.accountIndexes.length
  let out := out.push (UInt8.ofNat (ix.data.length &&& 0xff))
  let out := out.push (UInt8.ofNat ((ix.data.length >>> 8) &&& 0xff))
  let out ← out.set .rangeError ix.data
  return out.skip ix.data.length

def packCompactInstructions (instructions : List CompactInstructionArgs) : Outcome Bytes :=
  if 255 < instructions.length then throwText [.text "Too many compact instructions for u8 count"]
  else do
    let size ← instructions.foldlM addSize 1
    let out := (alloc size).push (UInt8.ofNat instructions.length)
    let out ← instructions.foldlM writeInstruction out
    return out.out

/-! ## The accounts -/

def privilegeByte (isSigner isWritable : Bool) : UInt8 :=
  (if isSigner then (1 : UInt8) else 0) ||| (if isWritable then (2 : UInt8) else 0)

/-- `AccountMeta | Address`. -/
inductive RemainingAccount
  | account (m : AccountMeta)
  | address (key : Pubkey)
deriving DecidableEq, Repr

structure ChallengeAccount where
  address : Pubkey
  isSigner : Bool
  isWritable : Bool
deriving DecidableEq, Repr

def toChallengeAccount : RemainingAccount → ChallengeAccount
  | .address key => { address := key, isSigner := false, isWritable := false }
  | .account m => { address := m.address, isSigner := isSignerRole m.role, isWritable := isWritableRole m.role }

def pushAccount (buf : Writer) (account : ChallengeAccount) : Outcome Writer := do
  let buf ← buf.set .rangeError account.address.bytes
  let buf := buf.skip account.address.bytes.length
  return buf.push (privilegeByte account.isSigner account.isWritable)

/-- One turn of the loop over the account indexes. -/
def pushIndex (accounts : List ChallengeAccount) (buf : Writer) (idx : UInt8) : Outcome Writer :=
  match accounts[idx.toNat]? with
  | some account => pushAccount buf account
  | none => throwText [.text "Invalid account index ", .number idx.toNat]

/-- One turn of the loop over the instructions. -/
def pushInstruction (accounts : List ChallengeAccount) (buf : Writer) (ix : CompactInstructionArgs) : Outcome Writer :=
  match accounts[ix.programIdIndex]? with
  | some program => do
    let buf ← pushAccount buf program
    ix.accountIndexes.foldlM (pushIndex accounts) buf
  | none => throwText [.text "Invalid program_id_index ", .number ix.programIdIndex]

/-- The size of the buffer over the accounts. -/
def referencedSize (instructions : List CompactInstructionArgs) : Nat :=
  instructions.foldl (fun size ix => size + 33 * (1 + ix.accountIndexes.length)) 0

/-- The buffer that `hashReferencedAccounts` hashes. -/
def referencedBuffer (remainingAccounts : List RemainingAccount) (instructions : List CompactInstructionArgs) :
    Outcome Bytes := do
  let accounts := remainingAccounts.map toChallengeAccount
  let buf ← instructions.foldlM (pushInstruction accounts) (alloc (referencedSize instructions))
  return buf.out

def hashReferencedAccounts (sha256 : Bytes → Bytes) (remainingAccounts : List RemainingAccount)
    (instructions : List CompactInstructionArgs) : Outcome Bytes := do
  let buf ← referencedBuffer remainingAccounts instructions
  return sha256 buf

/-! ## The hash -/

/-- The buffer that `hashExecuteChallenge` hashes. -/
def executeChallengePreimage (slotHash instructionsHash accountsHash : Bytes) : Outcome Bytes := do
  let preimage ← (alloc (executeChallengePrefix.length + 32 + 32 + 32)).set .rangeError executeChallengePrefix
  let preimage ← (preimage.skip executeChallengePrefix.length).set .rangeError slotHash
  let preimage ← (preimage.skip 32).set .rangeError instructionsHash
  let preimage ← (preimage.skip 32).set .rangeError accountsHash
  return preimage.out

def hashExecuteChallenge (sha256 : Bytes → Bytes) (slotHash : Bytes) (compactInstructions : List CompactInstructionArgs)
    (remainingAccounts : List RemainingAccount) : Outcome Bytes := do
  let packed ← packCompactInstructions compactInstructions
  let accountsHash ← hashReferencedAccounts sha256 remainingAccounts compactInstructions
  let preimage ← executeChallengePreimage slotHash (sha256 packed) accountsHash
  return sha256 preimage

/-! ## The instructions on both sides -/

/-- Every program's position is a byte. -/
def ByteIndexes (instructions : List CompactInstructionArgs) : Prop := ∀ ix ∈ instructions, ix.programIdIndex < 256

section Program

variable {instructions : List CompactInstructionArgs} {remaining : List RemainingAccount}

theorem encodeU16_ofNat {n : Nat} (h : n ≤ 0xffff) : Borsh.encodeU16 (UInt16.ofNat n) =
    [UInt8.ofNat (n &&& 0xff)] ++ [UInt8.ofNat ((n >>> 8) &&& 0xff)] := by
  have hmod : n % 2 ^ 16 = n := Nat.mod_eq_of_lt (by omega)
  have hlow : n &&& 0xff = n % 256 := Nat.and_two_pow_sub_one_eq_mod n 8
  have hhigh : (n >>> 8) &&& 0xff = n / 256 % 256 := by
    rw [Nat.shiftRight_eq_div_pow]
    exact Nat.and_two_pow_sub_one_eq_mod _ 8
  rw [hlow, hhigh, Borsh.encodeU16, UInt16.toNat_ofNat', hmod]
  rfl

/-- The lengths of an instruction that the packers accept. -/
def Packable (ix : CompactInstructionArgs) : Prop := ix.accountIndexes.length ≤ 255 ∧ ix.data.length ≤ 0xffff

/-- The bytes of an instruction. -/
def packedInstruction (ix : CompactInstructionArgs) : Bytes := packCompactInstruction ix.toCompact

theorem length_packedInstruction (ix : CompactInstructionArgs) :
    (packedInstruction ix).length = 1 + 1 + ix.accountIndexes.length + 2 + ix.data.length := by
  simp only [packedInstruction, packCompactInstruction, CompactInstructionArgs.toCompact, List.length_append,
    List.length_singleton, length_encodeU16]

theorem addSize_iff {size size' : Nat} {ix : CompactInstructionArgs} :
    addSize size ix = .ok size' ↔ Packable ix ∧ size' = size + (packedInstruction ix).length := by
  rw [length_packedInstruction]
  unfold addSize Packable
  split
  · next h =>
    simp only [throwText, reduceCtorEq, false_iff]
    omega
  · split
    · next h =>
      simp only [throwText, reduceCtorEq, false_iff]
      omega
    · simp only [Except.ok.injEq]
      omega

theorem sizes_iff {size size' : Nat} : instructions.foldlM addSize size = .ok size' ↔
    (∀ ix ∈ instructions, Packable ix) ∧ size' = size + (instructions.flatMap packedInstruction).length := by
  rw [foldlM_add_iff (P := Packable) (c := fun ix => (packedInstruction ix).length) fun _ _ _ _ => addSize_iff,
    List.length_flatMap]

/-- Writing an instruction writes its bytes. -/
theorem writeInstruction_filled {out : Writer} {size : Nat} {bytes : Bytes} {ix : CompactInstructionArgs}
    (hix : Packable ix) (h : Filled out size bytes) (hle : bytes.length + (packedInstruction ix).length ≤ size) :
    ∃ out', writeInstruction out ix = .ok out' ∧ Filled out' size (bytes ++ packedInstruction ix) := by
  rw [length_packedInstruction] at hle
  have h₁ := h.push (by omega) (UInt8.ofNat ix.programIdIndex)
  have h₂ := h₁.push (by rw [List.length_append, List.length_singleton]; omega) (UInt8.ofNat ix.accountIndexes.length)
  obtain ⟨out₃, hset₃, h₃⟩ := h₂.set ix.accountIndexes (by simp only [List.length_append, List.length_singleton]; omega)
    JsError.rangeError
  have h₄ := h₃.push (by simp only [List.length_append, List.length_singleton]; omega) (UInt8.ofNat (ix.data.length &&& 0xff))
  have h₅ := h₄.push (by simp only [List.length_append, List.length_singleton]; omega)
    (UInt8.ofNat ((ix.data.length >>> 8) &&& 0xff))
  obtain ⟨out₆, hset₆, h₆⟩ := h₅.set ix.data (by simp only [List.length_append, List.length_singleton]; omega)
    JsError.rangeError
  refine ⟨out₆.skip ix.data.length, ?_, ?_⟩
  · simp only [writeInstruction, hset₃, hset₆, bind, Except.bind, pure, Except.pure]
  · simp only [packedInstruction, packCompactInstruction, CompactInstructionArgs.toCompact, encodeU16_ofNat hix.2]
    simpa only [List.append_assoc] using h₆

/-- The buffer is exactly large enough. -/
theorem writeInstructions (hall : ∀ ix ∈ instructions, Packable ix) :
    ∃ out, instructions.foldlM writeInstruction ((alloc (1 + (instructions.flatMap packedInstruction).length)).push
        (UInt8.ofNat instructions.length)) = .ok out ∧
      out.out = [UInt8.ofNat instructions.length] ++ instructions.flatMap packedInstruction := by
  have hstart := (filled_alloc (1 + (instructions.flatMap packedInstruction).length)).push (by simp)
    (UInt8.ofNat instructions.length)
  obtain ⟨out, hrun, hout⟩ := Filled.foldlM (fun ix hix => writeInstruction_filled (hall ix hix)) hstart
    (by rw [List.nil_append, List.length_singleton])
  exact ⟨out, hrun, hout.full (by rw [List.nil_append, List.length_append, List.length_singleton])⟩

/-- **The first preimage.** -/
theorem packCompactInstructions_program {packed : Bytes} : packCompactInstructions instructions = .ok packed ↔
    PhygitalWallet.packCompactInstructions (instructions.map CompactInstructionArgs.toCompact) = .ok packed := by
  have hflat : (instructions.map CompactInstructionArgs.toCompact).flatMap packCompactInstruction =
      instructions.flatMap packedInstruction := List.flatMap_map ..
  have hprogram : (∀ c ∈ instructions.map CompactInstructionArgs.toCompact, checkPackable c = .ok ()) ↔
      ∀ ix ∈ instructions, Packable ix := by
    simp [checkPackable, Packable, CompactInstructionArgs.toCompact]
  rw [packCompactInstructions_eq_ok, hprogram, hflat, List.length_map]
  unfold packCompactInstructions
  split
  · next hlen =>
    simp only [throwText, reduceCtorEq, false_iff]
    omega
  · next hlen =>
    have hlen : instructions.length ≤ 255 := by omega
    simp only [outcome_bind_eq_ok, sizes_iff, hlen, true_and, outcome_pure_eq_ok]
    constructor
    · rintro ⟨size, ⟨hall, rfl⟩, out, hrun, rfl⟩
      obtain ⟨out', hrun', hout⟩ := writeInstructions hall
      obtain rfl := Except.ok.inj (hrun.symm.trans hrun')
      exact ⟨hall, hout⟩
    · rintro ⟨hall, rfl⟩
      obtain ⟨out, hrun, hout⟩ := writeInstructions hall
      exact ⟨_, ⟨hall, rfl⟩, out, hrun, hout⟩

/-! ## The accounts on both sides -/

/-- The account as the program receives it. -/
def RemainingAccount.info (a : RemainingAccount) : AccountInfo :=
  ⟨(toChallengeAccount a).address, (toChallengeAccount a).isSigner, (toChallengeAccount a).isWritable⟩

theorem privilegeByte_eq : ∀ isSigner isWritable : Bool,
    privilegeByte isSigner isWritable = accountPrivilegeByte isSigner isWritable := by
  decide

theorem getElem?_infos {i : Nat} : (remaining.map RemainingAccount.info)[i]? =
    (remaining.map toChallengeAccount)[i]?.map fun a => ⟨a.address, a.isSigner, a.isWritable⟩ := by
  rw [List.getElem?_map, List.getElem?_map, Option.map_map]
  rfl

theorem pushAccount_filled {buf : Writer} {size : Nat} {bytes : Bytes} (account : ChallengeAccount)
    (h : Filled buf size bytes) (hle : bytes.length + 33 ≤ size) : ∃ buf', pushAccount buf account = .ok buf' ∧
      Filled buf' size (bytes ++ AccountInfo.entry ⟨account.address, account.isSigner, account.isWritable⟩) := by
  have hkey := account.address.length_eq
  obtain ⟨buf', hset, h'⟩ := h.set account.address.bytes (by omega) JsError.rangeError
  have hpush := h'.push (by rw [List.length_append]; omega) (privilegeByte account.isSigner account.isWritable)
  refine ⟨_, by rw [pushAccount, hset]; rfl, ?_⟩
  rw [AccountInfo.entry, ← privilegeByte_eq, ← List.append_assoc]
  exact hpush

/-- An instruction's loop is the loop over the indexes that it names. -/
theorem pushInstruction_eq {accounts : List ChallengeAccount} {ix : CompactInstructionArgs} (h : ix.programIdIndex < 256)
    {buf buf' : Writer} : pushInstruction accounts buf ix = .ok buf' ↔
      (ix.toCompact.programIdIndex :: ix.toCompact.accountIndexes).foldlM (pushIndex accounts) buf = .ok buf' := by
  have hbyte : (UInt8.ofNat ix.programIdIndex).toNat = ix.programIdIndex := UInt8.toNat_ofNat_of_lt' h
  unfold pushInstruction
  simp only [CompactInstructionArgs.toCompact, List.foldlM_cons]
  rw [pushIndex, hbyte]
  cases accounts[ix.programIdIndex]? with
  | none => simp [throwText, bind, Except.bind]
  | some m => rfl

theorem pushInstructions_eq {accounts : List ChallengeAccount} (h : ByteIndexes instructions) {buf buf' : Writer} :
    instructions.foldlM (pushInstruction accounts) buf = .ok buf' ↔
      (referencedIndexes (instructions.map CompactInstructionArgs.toCompact)).foldlM (pushIndex accounts) buf = .ok buf' := by
  induction instructions generalizing buf with
  | nil => rfl
  | cons ix instructions ih =>
    have ih' := fun buf => @ih (fun ix' hix' => h ix' (List.mem_cons_of_mem _ hix')) buf
    rw [List.foldlM_cons, List.map_cons, referencedIndexes_cons, List.foldlM_append, outcome_bind_eq_ok,
      outcome_bind_eq_ok]
    simp only [pushInstruction_eq (h ix List.mem_cons_self), ih']

/-- The size is that of an entry for every index. -/
theorem referencedSize_eq : referencedSize instructions =
    33 * (referencedIndexes (instructions.map CompactInstructionArgs.toCompact)).length := by
  have hsum : ∀ (l : List CompactInstructionArgs) (n : Nat),
      l.foldl (fun size ix => size + 33 * (1 + ix.accountIndexes.length)) n =
        n + 33 * (referencedIndexes (l.map CompactInstructionArgs.toCompact)).length := by
    intro l
    induction l with
    | nil => simp [referencedIndexes]
    | cons ix l ih =>
      intro n
      have hone : (ix.toCompact.programIdIndex :: ix.toCompact.accountIndexes).length = 1 + ix.accountIndexes.length :=
        Nat.add_comm _ 1
      rw [List.foldl_cons, ih, List.map_cons, referencedIndexes_cons, List.length_append, hone]
      omega
  rw [referencedSize, hsum, Nat.zero_add]

/-- Where every index exists, the loop writes the entries. -/
theorem pushIndexes_filled {size : Nat} : ∀ {indexes : List UInt8} {ais : List AccountInfo} {buf : Writer} {bytes : Bytes},
    indexes.mapM (fun i => (remaining.map RemainingAccount.info)[i.toNat]?) = some ais → Filled buf size bytes →
    bytes.length + 33 * indexes.length ≤ size →
    ∃ buf', indexes.foldlM (pushIndex (remaining.map toChallengeAccount)) buf = .ok buf' ∧
      Filled buf' size (bytes ++ ais.flatMap AccountInfo.entry)
  | [], ais, buf, bytes, hais, h, _ => by
    cases hais
    exact ⟨buf, rfl, by simpa using h⟩
  | i :: indexes, ais, buf, bytes, hais, h, hle => by
    rw [List.length_cons] at hle
    rw [List.mapM_cons] at hais
    obtain ⟨ai, hai, hais⟩ := Option.bind_eq_some_iff.1 hais
    obtain ⟨rest, hrest, hais⟩ := Option.bind_eq_some_iff.1 hais
    cases hais
    rw [getElem?_infos, Option.map_eq_some_iff] at hai
    obtain ⟨account, haccount, rfl⟩ := hai
    obtain ⟨buf₁, hpush, h₁⟩ := pushAccount_filled account h (by omega)
    obtain ⟨buf₂, hrun, h₂⟩ := pushIndexes_filled hrest h₁ (by rw [List.length_append, length_entry]; omega)
    refine ⟨buf₂, ?_, by rw [List.flatMap_cons, ← List.append_assoc]; exact h₂⟩
    rw [List.foldlM_cons, pushIndex, haccount]
    simp only [hpush, bind, Except.bind]
    exact hrun

/-- The loop ends only where every index exists. -/
theorem pushIndexes_exist : ∀ {indexes : List UInt8} {buf buf' : Writer},
    indexes.foldlM (pushIndex (remaining.map toChallengeAccount)) buf = .ok buf' →
    ∃ ais, indexes.mapM (fun i => (remaining.map RemainingAccount.info)[i.toNat]?) = some ais
  | [], _, _, _ => ⟨[], rfl⟩
  | i :: indexes, buf, buf', h => by
    rw [List.foldlM_cons] at h
    obtain ⟨buf₁, hpush, h⟩ := outcome_bind_eq_ok.1 h
    obtain ⟨ais, hais⟩ := pushIndexes_exist h
    unfold pushIndex at hpush
    rw [List.mapM_cons, getElem?_infos]
    cases haccount : (remaining.map toChallengeAccount)[i.toNat]? with
    | none =>
      rw [haccount] at hpush
      cases hpush
    | some account => exact ⟨_, by rw [hais]; rfl⟩

/-- **The second preimage.** -/
theorem referencedBuffer_program (h : ByteIndexes instructions) {buf : Bytes} :
    referencedBuffer remaining instructions = .ok buf ↔ ∃ ais, referencedInfos (remaining.map RemainingAccount.info)
      (instructions.map CompactInstructionArgs.toCompact) = some ais ∧ buf = ais.flatMap AccountInfo.entry := by
  have hroom : ([] : Bytes).length + 33 * (referencedIndexes (instructions.map CompactInstructionArgs.toCompact)).length ≤
      referencedSize instructions := by
    rw [referencedSize_eq, List.length_nil, Nat.zero_add]
  have hfull : ∀ {ais}, referencedInfos (remaining.map RemainingAccount.info)
      (instructions.map CompactInstructionArgs.toCompact) = some ais →
      (ais.flatMap AccountInfo.entry).length = referencedSize instructions := by
    intro ais hais
    rw [referencedSize_eq, ← (getElem?_mapM hais).1, List.length_flatMap]
    simp [length_entry, Nat.mul_comm]
  simp only [referencedBuffer, outcome_bind_eq_ok, outcome_pure_eq_ok, pushInstructions_eq h]
  constructor
  · rintro ⟨out, hrun, rfl⟩
    obtain ⟨ais, hais⟩ := pushIndexes_exist hrun
    obtain ⟨out', hrun', hout⟩ := pushIndexes_filled hais (filled_alloc _) hroom
    obtain rfl := Except.ok.inj (hrun.symm.trans hrun')
    exact ⟨ais, hais, hout.full (hfull hais)⟩
  · rintro ⟨ais, hais, rfl⟩
    obtain ⟨out, hrun, hout⟩ := pushIndexes_filled hais (filled_alloc _) hroom
    exact ⟨out, hrun, hout.full (hfull hais)⟩

/-! ## The hash on both sides -/

/-- **The third preimage.** -/
theorem executeChallengePreimage_eq {slotHash instructionsHash accountsHash : Bytes} (hs : slotHash.length = 32)
    (hi : instructionsHash.length = 32) (ha : accountsHash.length = 32) :
    executeChallengePreimage slotHash instructionsHash accountsHash =
      .ok (challengePreimage slotHash instructionsHash accountsHash) := by
  have hp : executeChallengePrefix.length = 26 := rfl
  have hstart := filled_alloc (executeChallengePrefix.length + 32 + 32 + 32)
  obtain ⟨w₁, hset₁, h₁⟩ := hstart.set executeChallengePrefix (by rw [List.length_nil]; omega) JsError.rangeError
  obtain ⟨w₂, hset₂, h₂⟩ := h₁.set slotHash (by rw [List.length_append, List.length_nil]; omega)
    JsError.rangeError
  rw [hs] at h₂
  obtain ⟨w₃, hset₃, h₃⟩ := h₂.set instructionsHash
    (by rw [List.length_append, List.length_append, List.length_nil]; omega) JsError.rangeError
  rw [hi] at h₃
  obtain ⟨w₄, hset₄, h₄⟩ := h₃.set accountsHash
    (by rw [List.length_append, List.length_append, List.length_append, List.length_nil]; omega) JsError.rangeError
  have hfull := h₄.full (by simp only [List.length_append, List.length_nil]; omega)
  simp only [executeChallengePreimage, hset₁, hset₂, hset₃, hset₄, bind, Except.bind, pure, Except.pure]
  exact congrArg Except.ok hfull

/-- **Both sides hash alike**, given the same flags. -/
theorem hashExecuteChallenge_program {rt : Runtime} {slotHash messageHash : Bytes}
    (hlen : ∀ bytes, (rt.hash bytes).length = 32) (hs : slotHash.length = 32) (h : ByteIndexes instructions) :
    hashExecuteChallenge rt.hash slotHash instructions remaining = .ok messageHash ↔
      executeMessageHash rt slotHash (remaining.map RemainingAccount.info)
        (instructions.map CompactInstructionArgs.toCompact) = .ok messageHash := by
  simp only [executeMessageHash_iff, hashExecuteChallenge, hashReferencedAccounts, outcome_bind_eq_ok,
    outcome_pure_eq_ok, packCompactInstructions_program, referencedBuffer_program h]
  constructor
  · rintro ⟨packed, hpacked, _, ⟨_, ⟨ais, hais, rfl⟩, rfl⟩, _, hpre, rfl⟩
    rw [executeChallengePreimage_eq hs (hlen _) (hlen _)] at hpre
    obtain rfl := Except.ok.inj hpre
    exact ⟨packed, ais, hpacked, hais, rfl⟩
  · rintro ⟨packed, ais, hpacked, hais, rfl⟩
    exact ⟨packed, hpacked, _, ⟨_, ⟨ais, hais, rfl⟩, rfl⟩, _, executeChallengePreimage_eq hs (hlen _) (hlen _), rfl⟩

end Program

/-- A computation fails where it has no value. -/
theorem exists_error_iff {ε α : Type} {x : Except ε α} : (∃ e, x = .error e) ↔ ∀ a, x ≠ .ok a := by
  cases x <;> simp

/-- **The two implementations of the challenge agree.** The three preimages are the same: the packed instructions, the
bytes over the accounts, and the outer one; each step fails on one side exactly where it fails on the other; and so does
the whole, with one hash otherwise. -/
theorem challenges_agree {rt : Runtime} {slotHash : Bytes} (hlen : ∀ bytes, (rt.hash bytes).length = 32)
    (hs : slotHash.length = 32) {instructions : List CompactInstructionArgs} (h : ByteIndexes instructions)
    (remaining : List RemainingAccount) :
    let compacts := instructions.map CompactInstructionArgs.toCompact
    let infos := remaining.map RemainingAccount.info
    (∀ packed, packCompactInstructions instructions = .ok packed ↔
      PhygitalWallet.packCompactInstructions compacts = .ok packed) ∧
    (∀ buf, referencedBuffer remaining instructions = .ok buf ↔ compacts.foldlM (referencedAccounts infos) [] = .ok buf) ∧
    (∀ instructionsHash accountsHash : Bytes, instructionsHash.length = 32 → accountsHash.length = 32 →
      executeChallengePreimage slotHash instructionsHash accountsHash =
        .ok (executeChallengePrefix ++ slotHash ++ instructionsHash ++ accountsHash)) ∧
    (∀ messageHash, hashExecuteChallenge rt.hash slotHash instructions remaining = .ok messageHash ↔
      executeMessageHash rt slotHash infos compacts = .ok messageHash) ∧
    ((∃ e, packCompactInstructions instructions = .error e) ↔
      ∃ e, PhygitalWallet.packCompactInstructions compacts = .error e) ∧
    ((∃ e, hashReferencedAccounts rt.hash remaining instructions = .error e) ↔
      ∃ e, hashReferencedAccountsInfos rt infos compacts = .error e) ∧
    ((∃ e, hashExecuteChallenge rt.hash slotHash instructions remaining = .error e) ↔
      ∃ e, executeMessageHash rt slotHash infos compacts = .error e) := by
  intro compacts infos
  have hbuf : ∀ buf, referencedBuffer remaining instructions = .ok buf ↔
      compacts.foldlM (referencedAccounts infos) [] = .ok buf := by
    intro buf
    rw [referencedBuffer_program h, foldlM_referencedAccounts, foldlM_entries fun _ _ _ => pushReferenced_eq_ok]
    rfl
  have haccounts : ∀ accountsHash, hashReferencedAccounts rt.hash remaining instructions = .ok accountsHash ↔
      hashReferencedAccountsInfos rt infos compacts = .ok accountsHash := by
    intro accountsHash
    simp only [hashReferencedAccounts, hashReferencedAccountsInfos, outcome_bind_eq_ok, outcome_pure_eq_ok, hbuf]
  refine ⟨fun _ => packCompactInstructions_program, hbuf, fun _ _ => executeChallengePreimage_eq hs,
    fun _ => hashExecuteChallenge_program hlen hs h, ?_, ?_, ?_⟩
  · simp only [exists_error_iff, ne_eq, packCompactInstructions_program, compacts]
  · simp only [exists_error_iff, ne_eq, haccounts]
  · simp only [exists_error_iff, ne_eq, hashExecuteChallenge_program hlen hs h, compacts, infos]

theorem challenges_agree_transfer :
    hashExecuteChallenge Sha256.digest (List.replicate 32 4) [⟨0, [1, 2], [2, 0, 0, 0, 30, 0, 0, 0, 0, 0, 0, 0]⟩]
        [.address systemProgramId, .account ⟨.fill 9, .writable⟩, .account ⟨.fill 1, .writable⟩] =
      .ok (Sha256.digest (challengePreimage (List.replicate 32 4) (Sha256.digest transferPacked)
        (Sha256.digest (transferInfos.flatMap AccountInfo.entry)))) := by
  refine ((@challenges_agree shaRuntime _ Sha256.length_digest List.length_replicate _ ?_ _).2.2.2.1 _).2 ?_
  · intro ix hix
    rw [List.mem_singleton.1 hix]
    decide
  · decide +kernel

end PhygitalWallet.Client
