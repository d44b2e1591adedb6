import PhygitalWallet.Program.InstructionPolicy
import PhygitalWallet.Lib.Borsh

/-!
# Stored permissions (`decode_permissions`)

The policy tail of an authority account is the Borsh encoding of its permissions. The encoder is derived; the decoder is
written by hand: every collection is bounded, and a shared budget pays for the heap before it is allocated.

- `decodes_constraint`, `decodes_rule`, `decodes_permission`: the format each part of the decoder reads;
- `decodePermissions_iff`, `permission_codec_exact`: the decoder accepts exactly the encodings of the lists the
  validator accepts.
-/

namespace PhygitalWallet

open ByteCodec Borsh

/-! ## The derived encoders -/

/-- A key is its 32 bytes. -/
def encodePubkey (k : Pubkey) : Bytes := k.bytes

/-- The variants in the order of their declaration. -/
def NumericWidth.tag : NumericWidth → UInt8
  | .u8 => 0
  | .u16 => 1
  | .u32 => 2
  | .u64 => 3

/-- The variants in the order of their declaration. -/
def Comparison.tag : Comparison → UInt8
  | .equal => 0
  | .notEqual => 1
  | .lessThan => 2
  | .lessThanOrEqual => 3
  | .greaterThan => 4
  | .greaterThanOrEqual => 5

/-- The variants in the order of their declaration. -/
def DataPredicate.tag : DataPredicate → UInt8
  | .bytesEqual _ => 0
  | .unsigned _ _ _ => 1

/-- What follows the tag. -/
def DataPredicate.encodeFields : DataPredicate → Bytes
  | .bytesEqual bytes => encodeVec encodeU8 bytes
  | .unsigned width comparison value => [width.tag] ++ [comparison.tag] ++ encodeU64 value

/-- The fields of the two variants; those of the other variant have any value. -/
def DataPredicate.bytes : DataPredicate → Bytes
  | .bytesEqual bytes => bytes
  | _ => []

def DataPredicate.width : DataPredicate → NumericWidth
  | .unsigned width _ _ => width
  | _ => .u8

def DataPredicate.comparison : DataPredicate → Comparison
  | .unsigned _ comparison _ => comparison
  | _ => .equal

def DataPredicate.value : DataPredicate → UInt64
  | .unsigned _ _ value => value
  | _ => 0

/-- Derived: the fields in their order. -/
def DataConstraint.encode (c : DataConstraint) : Bytes :=
  encodeU16 c.offset ++ c.predicate.tag :: c.predicate.encodeFields

/-- The variants in the order of their declaration. -/
def AccountKeyConstraint.tag : AccountKeyConstraint → UInt8
  | .any => 0
  | .address _ => 1
  | .wallet => 2

/-- What follows the tag. -/
def AccountKeyConstraint.encodeFields : AccountKeyConstraint → Bytes
  | .address key => encodePubkey key
  | _ => []

/-- Derived: the tag and the fields of the variant. -/
def AccountKeyConstraint.encode (k : AccountKeyConstraint) : Bytes := k.tag :: k.encodeFields

/-- Derived: the fields in their order. -/
def AccountConstraint.encode (a : AccountConstraint) : Bytes :=
  encodeU8 a.index ++ a.key.encode ++ encodeOption encodePubkey a.owner ++ encodeOption encodeBool a.isSigner
    ++ encodeOption encodeBool a.isWritable ++ encodeVec DataConstraint.encode a.data

/-- Derived: the fields in their order. -/
def InstructionRule.encode (r : InstructionRule) : Bytes :=
  encodeVec encodeU8 r.selector ++ encodeOption encodeU16 r.dataLength ++ encodeOption encodeU8 r.accountCount
    ++ encodeVec AccountConstraint.encode r.accounts ++ encodeVec DataConstraint.encode r.arguments

/-- The variants in the order of their declaration. -/
def ProgramAccess.tag : ProgramAccess → UInt8
  | .denied => 0
  | .allInstructions => 1
  | .restricted _ => 2

/-- What follows the tag. -/
def ProgramAccess.encodeFields : ProgramAccess → Bytes
  | .restricted rules => encodeVec InstructionRule.encode rules
  | _ => []

/-- Derived: the fields in their order. -/
def ProgramPermission.encode (p : ProgramPermission) : Bytes :=
  encodePubkey p.programId ++ p.access.tag :: p.access.encodeFields

/-- `permissions.try_to_vec()`. -/
def encodePermissions (permissions : List ProgramPermission) : Bytes := encodeVec ProgramPermission.encode permissions

/-! ## The bounded decoder -/

/-- Every failure of the decoder is this one. -/
def malformed : Failure := .error .invalidAccountData

abbrev Reader := Decoder Failure

instance : Inhabited Pubkey := ⟨.fill 0⟩

/-- `value::<Pubkey>`. -/
def readPubkey : Reader Pubkey := do
  let bytes ← takeBytes malformed 32
  if h : bytes.length = 32 then pure ⟨bytes, h⟩ else throw malformed

/-- `value::<NumericWidth>`. -/
def readWidth : Reader NumericWidth := unitEnum malformed fun
  | 0 => some .u8
  | 1 => some .u16
  | 2 => some .u32
  | 3 => some .u64
  | _ => none

/-- `value::<Comparison>`. -/
def readComparison : Reader Comparison := unitEnum malformed fun
  | 0 => some .equal
  | 1 => some .notEqual
  | 2 => some .lessThan
  | 3 => some .lessThanOrEqual
  | 4 => some .greaterThan
  | 5 => some .greaterThanOrEqual
  | _ => none

/-- `value::<AccountKeyConstraint>`. -/
def readAccountKey : Reader AccountKeyConstraint := do
  let tag ← u8 malformed
  match tag with
  | 0 => pure .any
  | 1 => .address <$> readPubkey
  | 2 => pure .wallet
  | _ => throw malformed

/-- At most `MAX_MATCH_BYTES` bytes, each of which is paid for. -/
def bytes : Reader Bytes := list malformed maxMatchBytes 1 (u8 malformed)

/-- The predicate after its tag. -/
def readPredicate (tag : UInt8) : Reader DataPredicate :=
  match tag with
  | 0 => .bytesEqual <$> bytes
  | 1 => do
    let width ← readWidth
    let comparison ← readComparison
    let value ← u64 malformed
    pure (.unsigned width comparison value)
  | _ => throw malformed

/-- An offset and a predicate. -/
def constraint : Reader DataConstraint := do
  let offset ← u16 malformed
  let predicate ← u8 malformed >>= readPredicate
  pure { offset, predicate }

section Sizes

variable [HeapSizes]

/-- The closure that reads one account constraint. -/
def accountConstraint : Reader AccountConstraint := do
  let index ← u8 malformed
  let key ← readAccountKey
  let owner ← option malformed readPubkey
  let isSigner ← option malformed (bool malformed)
  let isWritable ← option malformed (bool malformed)
  let data ← list malformed maxRuleConstraints HeapSizes.dataConstraint constraint
  pure { index, key, owner, isSigner, isWritable, data }

/-- The closure that reads one rule. -/
def rule : Reader InstructionRule := do
  let selector ← bytes
  let dataLength ← option malformed (u16 malformed)
  let accountCount ← option malformed (u8 malformed)
  let accounts ← list malformed maxRuleConstraints HeapSizes.accountConstraint accountConstraint
  let arguments ← list malformed maxRuleConstraints HeapSizes.dataConstraint constraint
  pure { selector, dataLength, accountCount, accounts, arguments }

/-- The access after its tag. -/
def readAccess (tag : UInt8) : Reader ProgramAccess :=
  match tag with
  | 0 => pure .denied
  | 1 => pure .allInstructions
  | 2 => .restricted <$> list malformed maxInstructionRules HeapSizes.instructionRule rule
  | _ => throw malformed

/-- The closure that reads one permission. -/
def permission : Reader ProgramPermission := do
  let programId ← readPubkey
  let access ← u8 malformed >>= readAccess
  pure { programId, access }

/-- The input is short enough, is used up, and is a list that the validator accepts. -/
def decodePermissions (input : Bytes) : Result (List ProgramPermission) := do
  require (input.length ≤ maxPermissionBytes) .invalidAccountData
  let (permissions, rest) ←
    list malformed maxProgramPermissions HeapSizes.programPermission permission ⟨input, maxPermissionHeapBytes⟩
  require (rest.input = []) .invalidAccountData
  match validatePermissions permissions with
  | .ok () => return permissions
  | .error _ => err .invalidAccountData

end Sizes

/-! ## The formats the decoder reads -/

/-- 32 bytes are one key. -/
theorem decodes_readPubkey : Decodes readPubkey (Format.plain encodePubkey) := by
  have hk : ∀ bytes : Bytes, Decodes (if h : bytes.length = 32 then pure ⟨bytes, h⟩ else throw malformed : Reader Pubkey)
      ⟨fun _ => [], fun _ => 0, fun k => k.bytes = bytes⟩ := by
    intro bytes
    by_cases h : bytes.length = 32
    · rw [dif_pos h]
      refine (Decodes.pure _).congr (fun k => ?_) (fun _ _ => ⟨rfl, rfl⟩)
      exact ⟨fun hk => by rw [hk], fun hk => Pubkey.ext hk⟩
    · rw [dif_neg h]
      refine (Decodes.fail _).congr (fun k => ?_) (fun _ _ => ⟨rfl, rfl⟩)
      exact ⟨False.elim, fun hk => h (hk ▸ k.length_eq)⟩
  refine ((decodes_takeBytes _ 32).bind Pubkey.bytes hk fun _ _ _ h => h).congr (fun k => ?_) (fun k _ => ?_)
  · simp [Format.bytes, k.length_eq]
  · simp [Format.bytes, encodePubkey]

/-- The four tags of `NumericWidth`. -/
theorem decodes_readWidth : Decodes readWidth (Format.plain fun w => [w.tag]) := by
  apply decodes_unitEnum
  intro t w
  constructor
  · intro h
    split at h <;> cases h <;> rfl
  · rintro rfl
    cases w <;> rfl

/-- The six tags of `Comparison`. -/
theorem decodes_readComparison : Decodes readComparison (Format.plain fun c => [c.tag]) := by
  apply decodes_unitEnum
  intro t c
  constructor
  · intro h
    split at h <;> cases h <;> rfl
  · rintro rfl
    cases c <;> rfl

/-- The three tags of `AccountKeyConstraint`, one of them with a key. -/
theorem decodes_readAccountKey : Decodes readAccountKey (Format.plain AccountKeyConstraint.encode) := by
  refine decodes_variants malformed AccountKeyConstraint.tag
    (c := Format.plain AccountKeyConstraint.encodeFields) fun t => ?_
  split
  · refine (Decodes.pure _).congr (fun k => ?_) ?_
    · cases k <;> simp [AccountKeyConstraint.tag]
    · rintro (_ | _ | _) ⟨ht, -⟩ <;> first | exact ⟨rfl, rfl⟩ | cases ht
  · refine (decodes_readPubkey.map _ (fun k => match k with | .address key => key | _ => default)
      fun _ _ => rfl).congr (fun k => ?_) ?_
    · cases k <;> simp [AccountKeyConstraint.tag]
    · rintro (_ | _ | _) ⟨ht, -⟩ <;> first | exact ⟨rfl, rfl⟩ | cases ht
  · refine (Decodes.pure _).congr (fun k => ?_) ?_
    · cases k <;> simp [AccountKeyConstraint.tag]
    · rintro (_ | _ | _) ⟨ht, -⟩ <;> first | exact ⟨rfl, rfl⟩ | cases ht
  · next h₀ h₁ h₂ =>
    apply decodes_unknownTag
    rintro (_ | _ | _) rfl <;> contradiction

/-- The bounds the reader checks before the validator does. -/
def DataConstraint.Readable (c : DataConstraint) : Prop := c.matchBytes ≤ maxMatchBytes

/-- The bounds on one account constraint. -/
def AccountConstraint.Readable (a : AccountConstraint) : Prop :=
  a.data.length ≤ maxRuleConstraints ∧ ∀ d ∈ a.data, d.Readable

/-- The bounds on one rule. -/
def InstructionRule.Readable (r : InstructionRule) : Prop :=
  r.selector.length ≤ maxMatchBytes ∧ (r.accounts.length ≤ maxRuleConstraints ∧ ∀ a ∈ r.accounts, a.Readable) ∧
    (r.arguments.length ≤ maxRuleConstraints ∧ ∀ d ∈ r.arguments, d.Readable)

/-- The bounds on the rules of a restricted program. -/
def ProgramAccess.Readable : ProgramAccess → Prop
  | .restricted rules => rules.length ≤ maxInstructionRules ∧ ∀ r ∈ rules, r.Readable
  | _ => True

/-- The bytes to match, which cost their number. -/
theorem decodes_bytes :
    Decodes bytes ⟨encodeVec encodeU8, List.length, fun bs => bs.length ≤ maxMatchBytes⟩ := by
  refine (decodes_list malformed maxMatchBytes 1 (decodes_u8 malformed) ?_ (by decide)).congr (fun bs => ?_) (fun bs _ => ?_)
  · simp [encodeU8]
  · simp [Format.list]
  · simp [Format.list, Format.plain, encodeVec]

/-- The fields of the variant of each tag. -/
theorem decodes_readPredicate (t : UInt8) : Decodes (readPredicate t) ⟨DataPredicate.encodeFields,
    DataPredicate.matchBytes, fun p => p.tag = t ∧ p.matchBytes ≤ maxMatchBytes⟩ := by
  unfold readPredicate
  split
  · refine (decodes_bytes.map _ DataPredicate.bytes fun _ _ => rfl).congr
      (fun p => ?_) ?_
    · cases p <;> simp [DataPredicate.tag, DataPredicate.matchBytes, DataPredicate.bytes]
    · rintro (_ | _) ⟨ht, -⟩ <;> first | exact ⟨rfl, rfl⟩ | cases ht
  · refine (decodes_readWidth.bind DataPredicate.width
      (fun width => decodes_readComparison.bind DataPredicate.comparison
        (fun comparison => (decodes_u64 malformed).bind DataPredicate.value
          (fun value => Decodes.pure _) ?_) ?_) ?_).congr (fun p => ?_) ?_
    · rintro value p - rfl
      rfl
    · rintro comparison p - ⟨-, h⟩
      rw [h]
      rfl
    · rintro width p - ⟨-, -, h⟩
      rw [h]
      rfl
    · cases p <;> simp [DataPredicate.tag, DataPredicate.matchBytes, DataPredicate.width, DataPredicate.comparison,
        DataPredicate.value]
    · rintro (_ | _) ⟨ht, -⟩
      · cases ht
      · simp [DataPredicate.encodeFields, DataPredicate.matchBytes, DataPredicate.width, DataPredicate.comparison,
          DataPredicate.value]
  · next h₀ h₁ =>
    apply decodes_unknownTag malformed (c := ⟨_, _, _⟩)
    rintro (_ | _) rfl <;> contradiction

/-- One constraint costs the bytes it matches. -/
theorem decodes_constraint :
    Decodes constraint ⟨DataConstraint.encode, DataConstraint.matchBytes, DataConstraint.Readable⟩ := by
  have hp := decodes_variants malformed DataPredicate.tag decodes_readPredicate
    (c := ⟨DataPredicate.encodeFields, DataPredicate.matchBytes, fun p => p.matchBytes ≤ maxMatchBytes⟩)
  refine ((decodes_u16 malformed).bind DataConstraint.offset (fun _ =>
    hp.bind DataConstraint.predicate (fun _ => Decodes.pure _) ?_) ?_).congr (fun c => ?_) (fun c _ => ?_)
  · rintro predicate c - rfl
    rfl
  · rintro offset c - ⟨-, h⟩
    rw [h]
  · simp [DataConstraint.Readable, DataConstraint.matchBytes]
  · simp [DataConstraint.encode, DataConstraint.matchBytes]

/-- A constraint takes at least a byte, so a count bounds its list. -/
theorem constraint_ne_nil (c : DataConstraint) : c.encode ≠ [] := by simp [DataConstraint.encode]

/-- What the validator accepts, the reader does not refuse. -/
theorem DataConstraint.Valid.readable {c : DataConstraint} (h : c.Valid) : c.Readable := by
  obtain ⟨offset, bytes | ⟨width, comparison, value⟩⟩ := c
  · exact h.2
  · exact Nat.zero_le _

/-- A valid rule is within the bounds of the reader. -/
theorem InstructionRule.Valid.readable {r : InstructionRule} (h : r.Valid) : r.Readable :=
  ⟨h.1.2, ⟨h.2.1.1, fun a ha => ⟨(h.2.2.2.2 a ha).2.1, fun d hd => ((h.2.2.2.2 a ha).2.2.2 d hd).readable⟩⟩,
    ⟨h.2.1.2, fun d hd => (h.2.2.2.1 d hd).1.readable⟩⟩

/-- A valid permission is within the bounds of the reader. -/
theorem ProgramPermission.Valid.readable {p : ProgramPermission} (h : p.Valid) : p.access.Readable := by
  cases hp : p.access with
  | restricted rules => exact ⟨(h.2 rules hp).1.2, fun r hr => ((h.2 rules hp).2 r hr).readable⟩
  | _ => trivial

section Sizes

variable [HeapSizes]

/-- A counted list of constraints. -/
theorem decodes_constraints : Decodes (list malformed maxRuleConstraints HeapSizes.dataConstraint constraint)
    ⟨encodeVec DataConstraint.encode,
      fun cs => cs.length * HeapSizes.dataConstraint + (cs.map DataConstraint.matchBytes).sum,
      fun cs => cs.length ≤ maxRuleConstraints ∧ ∀ d ∈ cs, d.Readable⟩ :=
  decodes_list malformed maxRuleConstraints HeapSizes.dataConstraint decodes_constraint (fun c _ => constraint_ne_nil c) (by decide)

/-- One account constraint costs its list of constraints. -/
theorem decodes_accountConstraint :
    Decodes accountConstraint ⟨AccountConstraint.encode, AccountConstraint.heap, AccountConstraint.Readable⟩ := by
  have howner := decodes_option malformed decodes_readPubkey
  have hflag := decodes_option malformed (decodes_bool malformed)
  refine ((decodes_u8 malformed).bind AccountConstraint.index (fun _ =>
    decodes_readAccountKey.bind AccountConstraint.key (fun _ =>
    howner.bind AccountConstraint.owner (fun _ =>
    hflag.bind AccountConstraint.isSigner (fun _ =>
    hflag.bind AccountConstraint.isWritable (fun _ =>
    decodes_constraints.bind AccountConstraint.data (fun _ =>
    Decodes.pure _) ?_) ?_) ?_) ?_) ?_) ?_).congr (fun a => ?_) (fun a _ => ?_)
  · intro _ a _ h
    exact congrArg AccountConstraint.data h
  · intro _ a _ h
    exact congrArg AccountConstraint.isWritable h.2
  · intro _ a _ h
    exact congrArg AccountConstraint.isSigner h.2.2
  · intro _ a _ h
    exact congrArg AccountConstraint.owner h.2.2.2
  · intro _ a _ h
    exact congrArg AccountConstraint.key h.2.2.2.2
  · intro _ a _ h
    exact congrArg AccountConstraint.index h.2.2.2.2.2
  · simp [AccountConstraint.Readable, option_valid_plain]
  · simp [AccountConstraint.encode, AccountConstraint.heap, option_cost_plain, option_encode_plain]

/-- One rule costs its selector and its two lists. -/
theorem decodes_rule : Decodes rule ⟨InstructionRule.encode, InstructionRule.heap, InstructionRule.Readable⟩ := by
  have hlength := decodes_option malformed (decodes_u16 malformed)
  have hcount := decodes_option malformed (decodes_u8 malformed)
  have haccounts := decodes_list malformed maxRuleConstraints HeapSizes.accountConstraint
    decodes_accountConstraint (fun a _ => by simp [AccountConstraint.encode, encodeU8]) (by decide)
  refine (decodes_bytes.bind InstructionRule.selector (fun _ =>
    hlength.bind InstructionRule.dataLength (fun _ =>
    hcount.bind InstructionRule.accountCount (fun _ =>
    haccounts.bind InstructionRule.accounts (fun _ =>
    decodes_constraints.bind InstructionRule.arguments (fun _ =>
    Decodes.pure _) ?_) ?_) ?_) ?_) ?_).congr (fun r => ?_) (fun r _ => ?_)
  · intro _ r _ h
    exact congrArg InstructionRule.arguments h
  · intro _ r _ h
    exact congrArg InstructionRule.accounts h.2
  · intro _ r _ h
    exact congrArg InstructionRule.accountCount h.2.2
  · intro _ r _ h
    exact congrArg InstructionRule.dataLength h.2.2.2
  · intro _ r _ h
    exact congrArg InstructionRule.selector h.2.2.2.2
  · simp [Format.list, InstructionRule.Readable, option_valid_plain]
  · constructor
    · simp [Format.list, InstructionRule.encode, encodeVec, option_encode_plain]
    · simp only [Format.andThen_cost, Format.unit_cost, Format.list, InstructionRule.heap, option_cost_plain]
      omega

/-- The fields of the variant of each tag. -/
theorem decodes_readAccess (t : UInt8) : Decodes (readAccess t) ⟨ProgramAccess.encodeFields, ProgramAccess.heap,
    fun a => a.tag = t ∧ a.Readable⟩ := by
  unfold readAccess
  split
  · refine (Decodes.pure _).congr (fun a => ?_) ?_
    · cases a <;> simp [ProgramAccess.tag, ProgramAccess.Readable]
    · rintro (_ | _ | _) ⟨ht, -⟩ <;> first | exact ⟨rfl, rfl⟩ | cases ht
  · refine (Decodes.pure _).congr (fun a => ?_) ?_
    · cases a <;> simp [ProgramAccess.tag, ProgramAccess.Readable]
    · rintro (_ | _ | _) ⟨ht, -⟩ <;> first | exact ⟨rfl, rfl⟩ | cases ht
  · have hrules := decodes_list malformed maxInstructionRules HeapSizes.instructionRule
      decodes_rule (fun r _ => by simp [InstructionRule.encode, encodeVec, ByteSeq.toLE]) (by decide)
    refine (hrules.map _ (fun a => match a with | .restricted rules => rules | _ => []) fun _ _ => rfl).congr
      (fun a => ?_) ?_
    · cases a <;> simp [Format.list, ProgramAccess.tag, ProgramAccess.Readable]
    · rintro (_ | _ | _) ⟨ht, -⟩ <;> first | exact ⟨rfl, rfl⟩ | cases ht
  · next h₀ h₁ h₂ =>
    apply decodes_unknownTag malformed (c := ⟨_, _, _⟩)
    rintro (_ | _ | _) rfl <;> contradiction

/-- One permission costs its rules. -/
theorem decodes_permission : Decodes permission
    ⟨ProgramPermission.encode, fun p => p.access.heap, fun p => p.access.Readable⟩ := by
  have ha := decodes_variants malformed ProgramAccess.tag decodes_readAccess
    (c := ⟨ProgramAccess.encodeFields, ProgramAccess.heap, ProgramAccess.Readable⟩)
  refine (decodes_readPubkey.bind ProgramPermission.programId (fun _ =>
    ha.bind ProgramPermission.access (fun _ => Decodes.pure _) ?_) ?_).congr (fun p => ?_) (fun p _ => ?_)
  · intro _ p _ h
    exact congrArg ProgramPermission.access h
  · intro _ p _ h
    exact congrArg ProgramPermission.programId h.2
  · simp
  · simp [ProgramPermission.encode]

/-! ## Exactness -/

/-- The bounded decoder accepts exactly the encodings of the lists that the validator accepts. -/
theorem decodePermissions_iff (input : Bytes) (permissions : List ProgramPermission) :
    decodePermissions input = .ok permissions ↔
      (validatePermissions permissions = .ok () ∧ (encodePermissions permissions).length ≤ maxPermissionBytes) ∧
        input = encodePermissions permissions := by
  have hlist := decodes_list malformed maxProgramPermissions HeapSizes.programPermission
    decodes_permission (fun p _ => by simp [ProgramPermission.encode]) (by decide)
  simp only [decodePermissions, unit_bind_eq_ok, require_eq_ok]
  constructor
  · rintro ⟨hlen, h⟩
    obtain ⟨⟨ps, rest⟩, hread, h⟩ := bind_eq_ok.1 h
    simp only [unit_bind_eq_ok, require_eq_ok] at h
    obtain ⟨hrest, h⟩ := h
    obtain ⟨-, hi, -⟩ := (hlist _ _ _).1 hread
    have hbytes : input = encodePermissions ps := by simpa [hrest, Format.list, encodePermissions, encodeVec] using hi
    split at h
    · next hv =>
      cases h
      exact ⟨⟨hv, hbytes ▸ hlen⟩, hbytes⟩
    · cases h
  · rintro ⟨⟨hv, hlen⟩, rfl⟩
    have hvalid := validatePermissions_iff.1 hv
    refine ⟨hlen, bind_eq_ok.2 ⟨(permissions, ⟨[], maxPermissionHeapBytes - permissionsHeap permissions⟩), ?_, ?_⟩⟩
    · refine (hlist _ _ _).2 ⟨⟨hvalid.length_le, fun p hp => (hvalid.valid p hp).readable⟩, ?_, ?_⟩
      · simp [Format.list, encodePermissions, encodeVec]
      · have := hvalid.heap_le
        simp only [Format.list]
        unfold permissionsHeap at *
        omega
    · simp only [unit_bind_eq_ok, require_eq_ok]
      exact ⟨trivial, by rw [hv]; rfl⟩

/-- **Permission codec.** What `set_wallet_policy` accepts is read back; what the bounded decoder accepts is the encoding
of the list it returns, and that list is one `set_wallet_policy` accepts. -/
theorem permission_codec_exact :
    (∀ permissions : List ProgramPermission, validatePermissions permissions = .ok () →
      (encodePermissions permissions).length ≤ maxPermissionBytes →
      decodePermissions (encodePermissions permissions) = .ok permissions) ∧
    (∀ input (permissions : List ProgramPermission), decodePermissions input = .ok permissions →
      encodePermissions permissions = input ∧ validatePermissions permissions = .ok () ∧
        input.length ≤ maxPermissionBytes) := by
  constructor
  · intro permissions hvalid hlen
    exact (decodePermissions_iff _ _).2 ⟨⟨hvalid, hlen⟩, rfl⟩
  · intro input permissions h
    obtain ⟨⟨hvalid, hlen⟩, rfl⟩ := (decodePermissions_iff _ _).1 h
    exact ⟨rfl, hvalid, hlen⟩

end Sizes

end PhygitalWallet
