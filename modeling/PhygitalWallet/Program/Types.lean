import PhygitalWallet.Lib.Bytes

/-!
# The program's world: keys, errors, accounts, instructions

The data the on-chain program reads and writes, as the runtime hands it over. All `AccountInfo`s of one key share their
lamports, owner and data cells, so an `AccountInfo` is a key with its privilege flags and the cells are read from the
bank by key.

- `Pubkey`, `PhygitalError`, `Failure`, `Result`, with `require` and `okOr` for the `require!` and `ok_or_else` forms;
- `Account`, `Bank`, `AccountInfo`, `AccountMeta`, `Instruction`, `CompactInstruction`;
- the constants of `constants.rs`.
-/

namespace PhygitalWallet

export ByteSeq (Bytes)

/-- A 32-byte address. -/
structure Pubkey where
  bytes : Bytes
  length_eq : bytes.length = 32
deriving DecidableEq

instance : Repr Pubkey := ⟨fun k _ => repr k.bytes⟩

theorem Pubkey.ext {a b : Pubkey} (h : a.bytes = b.bytes) : a = b := by
  cases a; cases b; cases h; rfl

/-- The key that repeats one byte. -/
def Pubkey.fill (b : UInt8) : Pubkey := ⟨List.replicate 32 b, List.length_replicate⟩

/-! ## Errors -/

/-- `PhygitalError`, in declaration order. -/
inductive PhygitalError
  | tokenIsCurrentlyUnLocked | invalidSlotHash | invalidSysvarDataFormat | invalidAccountData
  | invalidAccountIndex | selfReentrancyNotAllowed | phygitalTokenCpiNotAllowed | walletOwnerMismatch
  | executeViaCpiNotAllowed | walletInvariantViolated | protectedAccountPrivilege | durableNonceNotAllowed
  | authorityMismatch | authorityTokenMismatch | invalidAuthority | authorityPayerMismatch
  | mintNotAllowed | spendLimitExceeded | invalidPolicyArgs | delegationNotAllowed
  | tokenAuthorityChanged | unsupportedPolicyVersion | programNotAllowed | unsupportedAuthorityVersion
  | instructionNotAllowed | accessoryDisabled
deriving DecidableEq, Repr

/-- Why an instruction fails: an error of the program, an error of the runtime, of Anchor or of a called program, or a
Rust panic. -/
inductive Failure
  | error (e : PhygitalError)
  | external (code : Nat)
  | panic
deriving DecidableEq, Repr

abbrev Result := Except Failure

/-- `err!(e)`. -/
def err {α : Type} (e : PhygitalError) : Result α := .error (.error e)

/-- `require!(c, e)`. -/
def require (c : Prop) [Decidable c] (e : PhygitalError) : Result Unit := if c then .ok () else err e

/-- `if let Some(a) = o { require!(p(a), e) }`. -/
def requireIfSome {α : Type} (o : Option α) (p : α → Prop) [DecidablePred p] (e : PhygitalError) : Result Unit :=
  match o with
  | some a => require (p a) e
  | none => .ok ()

/-- `o.ok_or_else(|| error!(e))`. -/
def okOr {α : Type} (o : Option α) (e : PhygitalError) : Result α :=
  match o with
  | some a => .ok a
  | none => err e

/-- An operation that panics where `o` is `none`. -/
def orPanic {α : Type} (o : Option α) : Result α :=
  match o with
  | some a => .ok a
  | none => .error .panic

section Monad

variable {α β : Type}

theorem bind_eq_ok {x : Result α} {f : α → Result β} {b : β} :
    (x >>= f) = .ok b ↔ ∃ a, x = .ok a ∧ f a = .ok b := by
  cases x <;> simp [bind, Except.bind]

@[simp] theorem ok_bind (a : α) (f : α → Result β) : (Except.ok a >>= f) = f a := rfl

@[simp] theorem error_bind (e : Failure) (f : α → Result β) : ((.error e : Result α) >>= f) = .error e := rfl

@[simp] theorem require_eq_ok {c : Prop} [Decidable c] {e : PhygitalError} {u : Unit} :
    require c e = .ok u ↔ c := by
  unfold require err
  split <;> simp_all

@[simp] theorem unit_bind_eq_ok {x : Result Unit} {f : Unit → Result β} {b : β} :
    (x >>= f) = .ok b ↔ x = .ok () ∧ f () = .ok b := by
  cases x <;> simp [bind, Except.bind]

@[simp] theorem requireIfSome_eq_ok {o : Option α} {p : α → Prop} [DecidablePred p] {e : PhygitalError} {u : Unit} :
    requireIfSome o p e = .ok u ↔ ∀ a, o = some a → p a := by
  cases o <;> simp [requireIfSome]

@[simp] theorem pure_eq_ok {a b : α} : (pure a : Result α) = .ok b ↔ a = b := by
  simp [pure, Except.pure]

@[simp] theorem map_eq_ok {f : α → β} {x : Result α} {b : β} : (f <$> x) = .ok b ↔ ∃ a, x = .ok a ∧ f a = b := by
  cases x <;> simp [Functor.map, Except.map]

theorem require_of {c : Prop} [Decidable c] (h : c) (e : PhygitalError) : require c e = .ok () := if_pos h

theorem require_of_not {c : Prop} [Decidable c] (h : ¬c) (e : PhygitalError) : require c e = err e := if_neg h

@[simp] theorem okOr_eq_ok {o : Option α} {e : PhygitalError} {a : α} : okOr o e = .ok a ↔ o = some a := by
  cases o <;> simp [okOr, err]

@[simp] theorem orPanic_eq_ok {o : Option α} {a : α} : orPanic o = .ok a ↔ o = some a := by
  cases o <;> simp [orPanic]

end Monad

/-! ## Constants -/

/-- `Fjbi9JrRAmSBdxQxbkcxYDp6JUwnLbFhU2GsieWQBLSg` (`crate::ID`). -/
def crateId : Pubkey :=
  ⟨[218, 237, 65, 199, 214, 113, 137, 11, 181, 49, 211, 133, 250, 192, 230, 10,
    246, 37, 137, 64, 162, 190, 141, 63, 167, 92, 158, 179, 168, 143, 238, 93], rfl⟩

/-- `DuPpckdjjgVAnYok2aTMAt264ZPBXqq3JSazJjCUzTJQ` (`phygital_token_client::PHYGITAL_TOKEN_ID`). -/
def phygitalTokenId : Pubkey :=
  ⟨[191, 184, 63, 186, 207, 212, 47, 69, 244, 102, 188, 32, 209, 253, 115, 162,
    171, 43, 35, 182, 85, 34, 77, 39, 116, 37, 118, 193, 117, 69, 147, 17], rfl⟩

/-- `TokenkegQfeZyiNwAJbNbGKPFXCWuBvf9Ss623VQ5DA`. -/
def splTokenProgramId : Pubkey :=
  ⟨[6, 221, 246, 225, 215, 101, 161, 147, 217, 203, 225, 70, 206, 235, 121, 172,
    28, 180, 133, 237, 95, 91, 55, 145, 58, 140, 245, 133, 126, 255, 0, 169], rfl⟩

/-- `TokenzQdBNbLqP5VEhdkAS6EPFLC1PHnBqCXEpPxuEb`. -/
def token2022ProgramId : Pubkey :=
  ⟨[6, 221, 246, 225, 238, 117, 143, 222, 24, 66, 93, 188, 228, 108, 205, 218,
    182, 26, 252, 77, 131, 185, 13, 39, 254, 189, 249, 40, 216, 161, 139, 252], rfl⟩

/-- `11111111111111111111111111111111`, which is also `Pubkey::default()`. -/
def systemProgramId : Pubkey :=
  ⟨[0, 0, 0, 0, 0, 0, 0, 0, 0, 0, 0, 0, 0, 0, 0, 0,
    0, 0, 0, 0, 0, 0, 0, 0, 0, 0, 0, 0, 0, 0, 0, 0], rfl⟩

/-- `ATokenGPvbdGVxr1b2hvZbsiqW5xWH25efTNsLJA8knL`. -/
def associatedTokenProgramId : Pubkey :=
  ⟨[140, 151, 37, 143, 78, 36, 137, 241, 187, 61, 16, 41, 20, 142, 13, 131,
    11, 90, 19, 153, 218, 255, 16, 132, 4, 142, 123, 216, 219, 233, 248, 89], rfl⟩

/-- `So11111111111111111111111111111111111111112`, the SPL Token wrapped-SOL mint. -/
def wsolMint : Pubkey :=
  ⟨[6, 155, 136, 87, 254, 171, 129, 132, 251, 104, 127, 99, 70, 24, 192, 53,
    218, 196, 57, 220, 26, 235, 59, 85, 152, 160, 240, 0, 0, 0, 0, 1], rfl⟩

/-- `9pan9bMn5HatX4EJdBwg9VgCa7Uz5HL8N1m5D3NdXejP`, the Token-2022 wrapped-SOL mint. -/
def wsolMint2022 : Pubkey :=
  ⟨[131, 13, 252, 159, 222, 95, 230, 184, 170, 124, 4, 164, 118, 233, 30, 138,
    198, 187, 38, 74, 173, 144, 250, 25, 201, 223, 73, 216, 92, 62, 91, 94], rfl⟩

/-- Baseline direct-CPI allow-list when no explicit permission overrides a program. -/
def isPolicyAllowedProgram (program : Pubkey) : Bool :=
  program = systemProgramId ∨ program = splTokenProgramId ∨ program = token2022ProgramId ∨
    program = associatedTokenProgramId

def isWsolMint (mint : Pubkey) : Bool := mint = wsolMint ∨ mint = wsolMint2022

/-- An account owned by either token program (classic SPL or Token-2022). -/
def isTokenProgram (owner : Pubkey) : Bool := owner = splTokenProgramId ∨ owner = token2022ProgramId

/-! ## Accounts and instructions -/

/-- The mutable cells of an account. -/
structure Account where
  lamports : UInt64
  owner : Pubkey
  data : Bytes
deriving DecidableEq, Repr

/-- The cells of every account the transaction can see. -/
abbrev Bank := Pubkey → Account

/-- An account as an instruction receives it; the flags are those of the whole message. -/
structure AccountInfo where
  key : Pubkey
  isSigner : Bool
  isWritable : Bool
deriving DecidableEq, Repr

/-- An account as a called program receives it. -/
structure AccountMeta where
  pubkey : Pubkey
  isSigner : Bool
  isWritable : Bool
deriving DecidableEq, Repr

structure Instruction where
  programId : Pubkey
  accounts : List AccountMeta
  data : Bytes
deriving DecidableEq, Repr

/-- An inner instruction whose program and accounts are indexes into the remaining accounts. -/
structure CompactInstruction where
  programIdIndex : UInt8
  accountIndexes : List UInt8
  data : Bytes
deriving DecidableEq, Repr

end PhygitalWallet
