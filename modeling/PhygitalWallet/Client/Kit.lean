import PhygitalWallet.Lib.BaseText
import PhygitalWallet.Program.Types

/-!
# Instructions and messages as `@solana/kit` has them

- `AccountRole` with the operations on roles, `AccountMeta`, `Instruction`;
- `Message`, with the flags that every account has in the whole message (`Message.info`);
- `CompiledMessage`: what kit's decoder returns for the bytes of a message;
- `JsError`: what the JavaScript code throws.
-/

namespace PhygitalWallet

/-- `Secp256r1SigVerify1111111111111111111111111`. -/
def secp256r1ProgramId : Pubkey :=
  ⟨[6, 146, 13, 236, 47, 234, 113, 181, 183, 35, 129, 77, 116, 45, 169, 3,
    28, 131, 231, 95, 219, 121, 93, 86, 142, 117, 71, 128, 32, 0, 0, 0], rfl⟩

/-- `String(address)`. -/
def Pubkey.text (key : Pubkey) : String := BaseText.base58Of key.bytes

namespace Client

/-! ## Errors -/

/-- A piece of an error's text. -/
inductive ErrorPart
  | text (s : String)
  | address (key : Pubkey)
  | number (n : Int)
deriving DecidableEq, Repr

/-- A value in an error's details. -/
inductive ErrorDetail
  | address (key : Pubkey)
  | addresses (keys : List Pubkey)
  | number (n : Int)
deriving DecidableEq, Repr

/-- What `coded` builds. -/
structure CodedError where
  message : List ErrorPart
  code : String
  status : Option Nat
  details : Option (List (String × ErrorDetail))
  soft : Option Bool
deriving DecidableEq, Repr

/-- The errors of kit that the code here runs into. -/
inductive KitError
  | insufficientAccountMetas (actual expected : Nat)
  | failedToIdentifyInstruction
  | codec
deriving DecidableEq, Repr

inductive JsError
  | error (message : List ErrorPart)
  | rangeError
  | sqlConstraint
  | coded (e : CodedError)
  | kit (e : KitError)
deriving DecidableEq, Repr

abbrev Outcome := Except JsError

/-- `throw new Error(text)`. -/
def throwText {α : Type} (message : List ErrorPart) : Outcome α := .error (.error message)

/-- `throw coded(text, code)`. -/
def throwCoded {α : Type} (message : List ErrorPart) (code : String) : Outcome α :=
  .error (.coded { message, code, status := none, details := none, soft := none })

section Monad

variable {ε α β : Type}

theorem outcome_bind_eq_ok {x : Except ε α} {f : α → Except ε β} {b : β} :
    (x >>= f) = .ok b ↔ ∃ a, x = .ok a ∧ f a = .ok b := by
  cases x <;> simp [bind, Except.bind]

theorem outcome_map_eq_ok {x : Except ε α} {f : α → β} {b : β} : f <$> x = .ok b ↔ ∃ a, x = .ok a ∧ f a = b := by
  cases x <;> simp [Functor.map, Except.map]

theorem outcome_pure_eq_ok {a b : α} : (pure a : Except ε α) = .ok b ↔ a = b := by
  simp [pure, Except.pure]

end Monad

/-! ## Roles -/

inductive AccountRole
  | readonly | writable | readonlySigner | writableSigner
deriving DecidableEq, Repr

def isSignerRole : AccountRole → Bool
  | .readonlySigner | .writableSigner => true
  | _ => false

def isWritableRole : AccountRole → Bool
  | .writable | .writableSigner => true
  | _ => false

/-- The role with these flags. -/
def roleOf (isSigner isWritable : Bool) : AccountRole :=
  match isSigner, isWritable with
  | false, false => .readonly
  | false, true => .writable
  | true, false => .readonlySigner
  | true, true => .writableSigner

/-- The more permissive of each flag. -/
def mergeRoles (a b : AccountRole) : AccountRole :=
  roleOf (isSignerRole a || isSignerRole b) (isWritableRole a || isWritableRole b)

def downgradeRoleToNonSigner (role : AccountRole) : AccountRole := roleOf false (isWritableRole role)
def upgradeRoleToSigner (role : AccountRole) : AccountRole := roleOf true (isWritableRole role)
def upgradeRoleToWritable (role : AccountRole) : AccountRole := roleOf (isSignerRole role) true

@[simp] theorem isSignerRole_roleOf (s w : Bool) : isSignerRole (roleOf s w) = s := by
  cases s <;> cases w <;> rfl

@[simp] theorem isWritableRole_roleOf (s w : Bool) : isWritableRole (roleOf s w) = w := by
  cases s <;> cases w <;> rfl

@[simp] theorem roleOf_flags (role : AccountRole) : roleOf (isSignerRole role) (isWritableRole role) = role := by
  cases role <;> rfl

/-! ## Instructions and messages -/

structure AccountMeta where
  address : Pubkey
  role : AccountRole
deriving DecidableEq, Repr

/-- An instruction; kit leaves out empty accounts and data. -/
structure Instruction where
  programAddress : Pubkey
  accounts : Option (List AccountMeta)
  data : Option Bytes
deriving DecidableEq, Repr

/-- `instruction.accounts ?? []`. -/
def Instruction.metas (ix : Instruction) : List AccountMeta := ix.accounts.getD []

/-- What the code here reads of a transaction message. -/
structure Message where
  feePayer : Pubkey
  instructions : List Instruction
deriving DecidableEq, Repr

/-- Some meta of the message has the address and such a role. -/
def Message.anyMeta (message : Message) (address : Pubkey) (p : AccountRole → Bool) : Bool :=
  message.instructions.any fun ix => ix.metas.any fun m => m.address = address && p m.role

/-- The flags of an account in the compiled message: the fee payer is a writable signer, every other role is the union
of the roles in all instructions. -/
def Message.info (message : Message) (address : Pubkey) : AccountInfo where
  key := address
  isSigner := address = message.feePayer || message.anyMeta address isSignerRole
  isWritable := address = message.feePayer || message.anyMeta address isWritableRole

/-- The account list that the runtime gives an instruction of the message. -/
def Message.infos (message : Message) (ix : Instruction) : List AccountInfo :=
  ix.metas.map fun m => message.info m.address

theorem Message.anyMeta_eq_true {message : Message} {address : Pubkey} {p : AccountRole → Bool} :
    message.anyMeta address p = true ↔
      ∃ ix ∈ message.instructions, ∃ m ∈ ix.metas, m.address = address ∧ p m.role = true := by
  simp [Message.anyMeta]

/-- A decoded message: its addresses, the fee payer first, are indexed by one byte; a meta has the role of its address in
the whole message. -/
structure CompiledMessage where
  accountKeys : List Pubkey
  instructions : List Instruction
  length_le : accountKeys.length ≤ 256
  mem : ∀ ix ∈ instructions, ix.programAddress ∈ accountKeys ∧ ∀ m ∈ ix.metas, m.address ∈ accountKeys
  feePayer_role : ∀ ix ∈ instructions, ∀ m ∈ ix.metas, accountKeys.head? = some m.address → m.role = .writableSigner
  coherent : ∀ ix ∈ instructions, ∀ m ∈ ix.metas, ∀ ix' ∈ instructions, ∀ m' ∈ ix'.metas, m.address = m'.address →
    m.role = m'.role

/-- The accounts of an instruction as the runtime gives them, for a message that was compiled. -/
def Instruction.compiledInfos (ix : Instruction) : List AccountInfo :=
  ix.metas.map fun m => ⟨m.address, isSignerRole m.role, isWritableRole m.role⟩

end Client

end PhygitalWallet
