import PhygitalWallet.Program.Types
import PhygitalWallet.Lib.Loops

/-!
# Instruction permissions (`utils/instruction_policy.rs`)

The rule trees a policy stores, what `set_wallet_policy` accepts of them (`validatePermissions`), and the matcher that
runs before each direct CPI (`checkInstruction`). `size_of` of the four stored types is chosen by the compiler, so the
heap budget is stated over a `HeapSizes`.

`validatePermissions_iff` replaces the validator's loops by one predicate: the bounds, and the total heap cost.
-/

namespace PhygitalWallet

open ListLoop

def maxPermissionBytes : Nat := 4096
def maxPermissionHeapBytes : Nat := 8192
def maxProgramPermissions : Nat := 16
def maxInstructionRules : Nat := 16
def maxRuleConstraints : Nat := 16
def maxMatchBytes : Nat := 64

/-- `core::mem::size_of` of the stored types. -/
class HeapSizes where
  programPermission : Nat
  instructionRule : Nat
  accountConstraint : Nat
  dataConstraint : Nat

/-! ## Rule trees -/

inductive Comparison
  | equal | notEqual | lessThan | lessThanOrEqual | greaterThan | greaterThanOrEqual
deriving DecidableEq, Repr

inductive NumericWidth
  | u8 | u16 | u32 | u64
deriving DecidableEq, Repr

def NumericWidth.bytes : NumericWidth → Nat
  | .u8 => 1
  | .u16 => 2
  | .u32 => 4
  | .u64 => 8

inductive DataPredicate
  | bytesEqual (bytes : Bytes)
  | unsigned (width : NumericWidth) (comparison : Comparison) (value : UInt64)
deriving DecidableEq, Repr

structure DataConstraint where
  offset : UInt16
  predicate : DataPredicate
deriving DecidableEq, Repr

inductive AccountKeyConstraint
  | any
  | address (key : Pubkey)
  | wallet
deriving DecidableEq, Repr

structure AccountConstraint where
  index : UInt8
  key : AccountKeyConstraint
  owner : Option Pubkey
  isSigner : Option Bool
  isWritable : Option Bool
  data : List DataConstraint
deriving DecidableEq, Repr

structure InstructionRule where
  selector : Bytes
  dataLength : Option UInt16
  accountCount : Option UInt8
  accounts : List AccountConstraint
  arguments : List DataConstraint
deriving DecidableEq, Repr

inductive ProgramAccess
  | denied
  | allInstructions
  | restricted (rules : List InstructionRule)
deriving DecidableEq, Repr

structure ProgramPermission where
  programId : Pubkey
  access : ProgramAccess
deriving DecidableEq, Repr

/-! ## Validation -/

def DataConstraint.width (c : DataConstraint) : Nat :=
  match c.predicate with
  | .bytesEqual bytes => bytes.length
  | .unsigned width _ _ => width.bytes

def DataConstraint.validate (c : DataConstraint) : Result Unit :=
  match c.predicate with
  | .bytesEqual bytes => require (bytes ≠ [] ∧ bytes.length ≤ maxMatchBytes) .invalidPolicyArgs
  | .unsigned width _ value =>
    let bits := width.bytes * 8
    require (bits = 64 ∨ value.toNat < 2 ^ bits) .invalidPolicyArgs

/-- The bytes a `BytesEqual` predicate keeps on the heap. -/
def DataPredicate.matchBytes : DataPredicate → Nat
  | .bytesEqual bytes => bytes.length
  | .unsigned _ _ _ => 0

def DataConstraint.matchBytes (c : DataConstraint) : Nat := c.predicate.matchBytes

/-- One turn of the loop over `rule.arguments`. -/
def validateArgument (dataLength : Option UInt16) (heapBytes : Nat) (argument : DataConstraint) : Result Nat := do
  argument.validate
  requireIfSome dataLength (fun length => argument.offset.toNat + argument.width ≤ length.toNat) .invalidPolicyArgs
  return heapBytes + argument.matchBytes

/-- One turn of the loop over `account.data`. -/
def validateAccountData (heapBytes : Nat) (predicate : DataConstraint) : Result Nat := do
  predicate.validate
  return heapBytes + predicate.matchBytes

section Sizes

variable [HeapSizes]

/-- One turn of the loop over `rule.accounts`. -/
def validateAccount (accountCount : Option UInt8) (heapBytes : Nat) (account : AccountConstraint) : Result Nat := do
  requireIfSome accountCount (fun count => account.index < count) .invalidPolicyArgs
  require (account.data.length ≤ maxRuleConstraints) .invalidPolicyArgs
  require (account.data = [] ∨ account.owner.isSome) .invalidPolicyArgs
  account.data.foldlM validateAccountData (heapBytes + account.data.length * HeapSizes.dataConstraint)

/-- One turn of the loop over the rules of a restricted program. -/
def validateRule (heapBytes : Nat) (rule : InstructionRule) : Result Nat := do
  let heapBytes := heapBytes + (rule.selector.length + rule.accounts.length * HeapSizes.accountConstraint
    + rule.arguments.length * HeapSizes.dataConstraint)
  require (rule.selector ≠ [] ∧ rule.selector.length ≤ maxMatchBytes) .invalidPolicyArgs
  require (rule.accounts.length ≤ maxRuleConstraints ∧ rule.arguments.length ≤ maxRuleConstraints) .invalidPolicyArgs
  requireIfSome rule.dataLength (fun length => rule.selector.length ≤ length.toNat) .invalidPolicyArgs
  let heapBytes ← rule.arguments.foldlM (validateArgument rule.dataLength) heapBytes
  rule.accounts.foldlM (validateAccount rule.accountCount) heapBytes

/-- One turn of the loop over the permissions. -/
def validatePermission (permissions : List ProgramPermission) (heapBytes : Nat) (entry : ProgramPermission × Nat) :
    Result Nat := do
  let (permission, i) := entry
  -- System's real program ID is the all-zero pubkey and must be configurable.
  require (¬isDup ProgramPermission.programId permissions permission i = true) .invalidPolicyArgs
  require (permission.programId ≠ crateId ∧ permission.programId ≠ phygitalTokenId) .invalidPolicyArgs
  match permission.access with
  | .restricted rules => do
    require (rules ≠ [] ∧ rules.length ≤ maxInstructionRules) .invalidPolicyArgs
    rules.foldlM validateRule (heapBytes + rules.length * HeapSizes.instructionRule)
  | _ => return heapBytes

def validatePermissions (permissions : List ProgramPermission) : Result Unit := do
  require (permissions.length ≤ maxProgramPermissions) .invalidPolicyArgs
  let heapBytes ← permissions.zipIdx.foldlM (validatePermission permissions)
    (permissions.length * HeapSizes.programPermission)
  require (heapBytes ≤ maxPermissionHeapBytes) .invalidPolicyArgs

end Sizes

/-! ## Matching -/

def Comparison.holds (comparison : Comparison) (actual value : UInt64) : Bool :=
  match comparison with
  | .equal => actual = value
  | .notEqual => actual ≠ value
  | .lessThan => actual < value
  | .lessThanOrEqual => actual ≤ value
  | .greaterThan => value < actual
  | .greaterThanOrEqual => value ≤ actual

def DataConstraint.matches (c : DataConstraint) (data : Bytes) : Bool :=
  let start := c.offset.toNat
  match ByteSeq.getRange data start (start + c.width) with
  | none => false
  | some bytes =>
    match c.predicate with
    | .bytesEqual expected => bytes = expected
    | .unsigned _ comparison value =>
      let padded := bytes ++ List.replicate (8 - bytes.length) 0
      comparison.holds (UInt64.ofNat (ByteSeq.ofLE padded)) value

/-- `option.is_some_and(f)`. -/
def isSomeAnd {α : Type} (o : Option α) (f : α → Bool) : Bool :=
  match o with
  | some a => f a
  | none => false

/-- One turn of the loop over the account constraints: `false` where the source returns `false`. The borrow of the
account data cannot fail, since nothing holds one between CPIs. -/
def AccountConstraint.matches (c : AccountConstraint) (ix : CompactInstruction) (bank : Bank)
    (remaining : List AccountInfo) (wallet : Pubkey) : Bool :=
  match ix.accountIndexes[c.index.toNat]? with
  | none => false
  | some index =>
    match remaining[index.toNat]? with
    | none => false
    | some account =>
      let keyMatches := match c.key with
        | .any => true
        | .address key => account.key = key
        | .wallet => account.key = wallet
      if !keyMatches || isSomeAnd c.owner (fun owner => (bank account.key).owner ≠ owner)
          || isSomeAnd c.isSigner (fun signer => signer ≠ (account.isSigner || account.key = wallet))
          || isSomeAnd c.isWritable (fun writable => writable ≠ account.isWritable) then false
      else c.data.all fun d => d.matches (bank account.key).data

def InstructionRule.matches (rule : InstructionRule) (ix : CompactInstruction) (bank : Bank)
    (remaining : List AccountInfo) (wallet : Pubkey) : Bool :=
  if !rule.selector.isPrefixOf ix.data || isSomeAnd rule.dataLength (fun len => len.toNat ≠ ix.data.length)
      || isSomeAnd rule.accountCount (fun len => len.toNat ≠ ix.accountIndexes.length)
      || !rule.arguments.all (fun c => c.matches ix.data) then false
  else rule.accounts.all fun c => c.matches ix bank remaining wallet

/-- Run immediately before each CPI so account predicates see preceding CPI effects. -/
def checkInstruction (permissions : List ProgramPermission) (program : Pubkey) (ix : CompactInstruction) (bank : Bank)
    (remaining : List AccountInfo) (wallet : Pubkey) : Result Unit :=
  match (permissions.find? fun p => p.programId = program).map ProgramPermission.access with
  | some .denied => err .programNotAllowed
  | some .allInstructions => .ok ()
  | some (.restricted rules) =>
    require (rules.any (fun rule => rule.matches ix bank remaining wallet) = true) .instructionNotAllowed
  | none => require (isPolicyAllowedProgram program = true) .programNotAllowed

/-! ## What the validator accepts -/

def DataConstraint.Valid (c : DataConstraint) : Prop :=
  match c.predicate with
  | .bytesEqual bytes => bytes ≠ [] ∧ bytes.length ≤ maxMatchBytes
  | .unsigned width _ value => width.bytes * 8 = 64 ∨ value.toNat < 2 ^ (width.bytes * 8)

def AccountConstraint.Valid (accountCount : Option UInt8) (a : AccountConstraint) : Prop :=
  (∀ count, accountCount = some count → a.index < count) ∧ a.data.length ≤ maxRuleConstraints ∧
    (a.data = [] ∨ a.owner.isSome) ∧ ∀ d ∈ a.data, d.Valid

def InstructionRule.Valid (r : InstructionRule) : Prop :=
  (r.selector ≠ [] ∧ r.selector.length ≤ maxMatchBytes) ∧
    (r.accounts.length ≤ maxRuleConstraints ∧ r.arguments.length ≤ maxRuleConstraints) ∧
    (∀ length, r.dataLength = some length → r.selector.length ≤ length.toNat) ∧
    (∀ d ∈ r.arguments, d.Valid ∧ ∀ length, r.dataLength = some length → d.offset.toNat + d.width ≤ length.toNat) ∧
    ∀ a ∈ r.accounts, a.Valid r.accountCount

def ProgramPermission.Valid (p : ProgramPermission) : Prop :=
  (p.programId ≠ crateId ∧ p.programId ≠ phygitalTokenId) ∧
    ∀ rules, p.access = .restricted rules →
      (rules ≠ [] ∧ rules.length ≤ maxInstructionRules) ∧ ∀ r ∈ rules, r.Valid

theorem DataConstraint.validate_iff {c : DataConstraint} : c.validate = .ok () ↔ c.Valid := by
  unfold validate Valid
  split <;> simp

theorem validateArgument_iff (dataLength : Option UInt16) (n : Nat) (c : DataConstraint) (n' : Nat) :
    validateArgument dataLength n c = .ok n' ↔
      (c.Valid ∧ ∀ length, dataLength = some length → c.offset.toNat + c.width ≤ length.toNat) ∧
        n' = n + c.matchBytes := by
  simp only [validateArgument, unit_bind_eq_ok, requireIfSome_eq_ok, pure_eq_ok, DataConstraint.validate_iff, and_assoc,
    eq_comm (a := n')]

theorem validateAccountData_iff (n : Nat) (c : DataConstraint) (n' : Nat) :
    validateAccountData n c = .ok n' ↔ c.Valid ∧ n' = n + c.matchBytes := by
  simp only [validateAccountData, unit_bind_eq_ok, pure_eq_ok, DataConstraint.validate_iff, eq_comm (a := n')]

section Sizes

variable [HeapSizes]

/-- The heap an account constraint takes besides its own slot. -/
def AccountConstraint.heap (a : AccountConstraint) : Nat :=
  a.data.length * HeapSizes.dataConstraint + (a.data.map DataConstraint.matchBytes).sum

def InstructionRule.heap (r : InstructionRule) : Nat :=
  r.selector.length + r.accounts.length * HeapSizes.accountConstraint
    + r.arguments.length * HeapSizes.dataConstraint + (r.arguments.map DataConstraint.matchBytes).sum
    + (r.accounts.map AccountConstraint.heap).sum

def ProgramAccess.heap : ProgramAccess → Nat
  | .restricted rules => rules.length * HeapSizes.instructionRule + (rules.map InstructionRule.heap).sum
  | _ => 0

/-- The heap a decoded permission list takes. -/
def permissionsHeap (ps : List ProgramPermission) : Nat :=
  ps.length * HeapSizes.programPermission + (ps.map fun p => p.access.heap).sum

/-- The validator's accepted lists, without its loops. -/
structure ValidPermissions (ps : List ProgramPermission) : Prop where
  length_le : ps.length ≤ maxProgramPermissions
  distinct : (ps.map ProgramPermission.programId).Nodup
  valid : ∀ p ∈ ps, p.Valid
  heap_le : permissionsHeap ps ≤ maxPermissionHeapBytes

theorem validateAccount_iff (accountCount : Option UInt8) (n : Nat) (a : AccountConstraint) (n' : Nat) :
    validateAccount accountCount n a = .ok n' ↔ a.Valid accountCount ∧ n' = n + a.heap := by
  have hdata := foldlM_add_iff (l := a.data) (fun n c _ => validateAccountData_iff n c)
  simp only [validateAccount, AccountConstraint.Valid, AccountConstraint.heap, unit_bind_eq_ok, requireIfSome_eq_ok,
    require_eq_ok, hdata, and_assoc, Nat.add_assoc]

theorem validateRule_iff (n : Nat) (r : InstructionRule) (n' : Nat) :
    validateRule n r = .ok n' ↔ r.Valid ∧ n' = n + r.heap := by
  have hargs := foldlM_add_iff (l := r.arguments) (fun n c _ => validateArgument_iff r.dataLength n c)
  have haccs := foldlM_add_iff (l := r.accounts) (fun n a _ => validateAccount_iff r.accountCount n a)
  simp only [validateRule, InstructionRule.Valid, InstructionRule.heap, unit_bind_eq_ok, requireIfSome_eq_ok,
    require_eq_ok]
  simp only [bind_eq_ok, hargs, haccs]
  constructor
  · rintro ⟨hs, hl, hd, m, ⟨ha, rfl⟩, hc, rfl⟩
    exact ⟨⟨hs, hl, hd, ha, hc⟩, by omega⟩
  · rintro ⟨⟨hs, hl, hd, ha, hc⟩, rfl⟩
    exact ⟨hs, hl, hd, _, ⟨ha, rfl⟩, hc, by omega⟩

theorem validatePermission_iff (ps : List ProgramPermission) (n : Nat) (e : ProgramPermission × Nat) (n' : Nat) :
    validatePermission ps n e = .ok n' ↔
      (¬isDup ProgramPermission.programId ps e.1 e.2 = true ∧ e.1.Valid) ∧ n' = n + e.1.access.heap := by
  obtain ⟨p, i⟩ := e
  have hrules := fun rules => foldlM_add_iff (l := rules) (fun n r _ => validateRule_iff n r)
  simp only [validatePermission, ProgramPermission.Valid, unit_bind_eq_ok, require_eq_ok]
  cases hp : p.access with
  | denied => simp [ProgramAccess.heap, and_assoc, eq_comm (a := n')]
  | allInstructions => simp [ProgramAccess.heap, and_assoc, eq_comm (a := n')]
  | restricted rules =>
    simp only [unit_bind_eq_ok, require_eq_ok, hrules, ProgramAccess.heap, ProgramAccess.restricted.injEq, forall_eq',
      and_assoc, Nat.add_assoc]

/-- The validator accepts exactly the valid lists. -/
theorem validatePermissions_iff {ps : List ProgramPermission} :
    validatePermissions ps = .ok () ↔ ValidPermissions ps := by
  unfold validatePermissions
  have hloop := foldlM_add_iff (l := ps.zipIdx) (fun n e _ => validatePermission_iff ps n e)
  have hsum : (ps.zipIdx.map fun e => e.1.access.heap).sum = (ps.map fun p => p.access.heap).sum := by
    have h := List.map_map (f := Prod.fst) (g := fun p : ProgramPermission => p.access.heap) (l := ps.zipIdx)
    rw [List.zipIdx_map_fst] at h
    rw [h]
    rfl
  have hvalid : (∀ e ∈ ps.zipIdx, e.1.Valid) ↔ ∀ p ∈ ps, p.Valid := by
    have h := List.forall_mem_map (f := Prod.fst) (P := ProgramPermission.Valid) (l := ps.zipIdx)
    rw [List.zipIdx_map_fst] at h
    exact h.symm
  simp only [unit_bind_eq_ok, require_eq_ok]
  simp only [bind_eq_ok, hloop, require_eq_ok, hsum]
  constructor
  · rintro ⟨hl, n, ⟨h, rfl⟩, hh⟩
    exact ⟨hl, nodup_iff_not_isDup.1 fun e he => (h e he).1, hvalid.1 fun e he => (h e he).2, hh⟩
  · rintro ⟨hl, hd, hv, hh⟩
    exact ⟨hl, _, ⟨fun e he => ⟨nodup_iff_not_isDup.2 hd e he, hvalid.2 hv e he⟩, rfl⟩, hh⟩

end Sizes

end PhygitalWallet
