import PhygitalWallet.Program.Policy

/-!
# What the token programs leave in their accounts (`utils/policy.rs`)

- `TokenLayout`: the layouts of both token programs and their bytes;
- `tokenAccountView_parts`: what the recogniser makes of data of the length of an account;
- `token_account_recogniser`: it recognises exactly the live token accounts, but for the multisigs whose keys pose as one.
-/

namespace PhygitalWallet

open ByteSeq

/-! ## Layouts -/

/-- A cleared option keeps the value that it had. -/
inductive COption (α : Type)
  | none (stale : α)
  | some (a : α)
deriving DecidableEq, Repr

def COption.pack {α : Type} (pack : α → Bytes) : COption α → Bytes
  | .none stale => [0, 0, 0, 0] ++ pack stale
  | .some a => [1, 0, 0, 0] ++ pack a

def COption.value {α : Type} : COption α → Option α
  | .none _ => Option.none
  | .some a => Option.some a

inductive AccountState
  | uninitialized | initialized | frozen
deriving DecidableEq, Repr

def AccountState.byte : AccountState → UInt8
  | .uninitialized => 0
  | .initialized => 1
  | .frozen => 2

structure SplAccount where
  mint : Pubkey
  owner : Pubkey
  amount : UInt64
  delegate : COption Pubkey
  state : AccountState
  isNative : COption UInt64
  delegatedAmount : UInt64
  closeAuthority : COption Pubkey
deriving DecidableEq, Repr

def packU64 (x : UInt64) : Bytes := toLE 8 x.toNat

def SplAccount.pack (a : SplAccount) : Bytes :=
  a.mint.bytes ++ a.owner.bytes ++ packU64 a.amount ++ a.delegate.pack Pubkey.bytes ++ [a.state.byte]
    ++ a.isNative.pack packU64 ++ packU64 a.delegatedAmount ++ a.closeAuthority.pack Pubkey.bytes

structure SplMint where
  mintAuthority : COption Pubkey
  supply : UInt64
  decimals : UInt8
  isInitialized : Bool
  freezeAuthority : COption Pubkey
deriving DecidableEq, Repr

def packBool (b : Bool) : UInt8 := if b then 1 else 0

def SplMint.pack (m : SplMint) : Bytes :=
  m.mintAuthority.pack Pubkey.bytes ++ packU64 m.supply ++ [m.decimals] ++ [packBool m.isInitialized]
    ++ m.freezeAuthority.pack Pubkey.bytes

def maxSigners : Nat := 11

structure SplMultisig where
  m : UInt8
  n : UInt8
  isInitialized : Bool
  signers : List Pubkey
  length_signers : signers.length = maxSigners
deriving DecidableEq, Repr

def SplMultisig.pack (s : SplMultisig) : Bytes := [s.m, s.n, packBool s.isInitialized] ++ s.signers.flatMap Pubkey.bytes

def multisigLen : Nat := 355
def t22AccountTypeMint : UInt8 := 1

/-- What a token program can leave in an account that it owns. -/
inductive TokenLayout
  /-- Allocated and not written. -/
  | allocated (length : Nat)
  | account (a : SplAccount)
  | extendedAccount (a : SplAccount) (extensions : Bytes) (h : tokenAccountLen + 1 + extensions.length ≠ multisigLen)
  | mint (m : SplMint)
  | extendedMint (m : SplMint) (extensions : Bytes)
  | multisig (s : SplMultisig)

namespace TokenLayout

def bytes : TokenLayout → Bytes
  | .allocated length => List.replicate length 0
  | .account a => a.pack
  | .extendedAccount a extensions _ => a.pack ++ t22AccountTypeAccount :: extensions
  | .mint m => m.pack
  | .extendedMint m extensions =>
    m.pack ++ List.replicate (tokenAccountLen - m.pack.length) 0 ++ t22AccountTypeMint :: extensions
  | .multisig s => s.pack

end TokenLayout

def SplAccount.isLive (a : SplAccount) : Bool := a.state ≠ .uninitialized

/-- The token account that the layout holds, initialised or frozen. -/
def TokenLayout.tokenAccount : TokenLayout → Option SplAccount
  | .account a => if a.isLive then some a else none
  | .extendedAccount a _ _ => if a.isLive then some a else none
  | _ => none

def SplAccount.view (a : SplAccount) : TokenAccountView where
  mint := a.mint
  owner := a.owner
  amount := a.amount
  delegate := a.delegate.value
  delegatedAmount := a.delegatedAmount
  closeAuthority := a.closeAuthority.value

/-- The keys put the state and the type of a token account where the recogniser looks. -/
def SplMultisig.Forged (s : SplMultisig) : Prop :=
  ((s.signers[3]?.bind (·.bytes[9]?)) = some 1 ∨ (s.signers[3]?.bind (·.bytes[9]?)) = some 2) ∧
    (s.signers[5]?.bind (·.bytes[2]?)) = some t22AccountTypeAccount

instance (s : SplMultisig) : Decidable s.Forged := inferInstanceAs (Decidable (_ ∧ _))

def TokenLayout.Forged : TokenLayout → Prop
  | .multisig s => s.Forged
  | _ => False

/-! ## Lengths -/

@[simp] theorem length_packU64 (x : UInt64) : (packU64 x).length = 8 := length_toLE 8 _

@[simp] theorem length_packKey (k : COption Pubkey) : (k.pack Pubkey.bytes).length = 36 := by
  cases k with
  | none stale => simp [COption.pack, stale.length_eq]
  | some a => simp [COption.pack, a.length_eq]

@[simp] theorem length_packNative (x : COption UInt64) : (x.pack packU64).length = 12 := by
  cases x <;> simp [COption.pack]

@[simp] theorem SplAccount.length_pack (a : SplAccount) : a.pack.length = tokenAccountLen := by
  simp [SplAccount.pack, a.mint.length_eq, a.owner.length_eq, tokenAccountLen]

@[simp] theorem SplMint.length_pack (m : SplMint) : m.pack.length = 82 := by
  simp [SplMint.pack]

theorem length_flatMap_bytes (keys : List Pubkey) : (keys.flatMap Pubkey.bytes).length = keys.length * 32 := by
  induction keys with
  | nil => rfl
  | cons k keys ih =>
    rw [List.flatMap_cons, List.length_append, k.length_eq, ih, List.length_cons]
    omega

@[simp] theorem SplMultisig.length_pack (s : SplMultisig) : s.pack.length = multisigLen := by
  rw [SplMultisig.pack, List.length_append, length_flatMap_bytes, s.length_signers]
  rfl

/-- A byte of a list of keys. -/
theorem getElem?_flatMap_bytes (keys : List Pubkey) (i j : Nat) (hj : j < 32) :
    (keys.flatMap Pubkey.bytes)[i * 32 + j]? = keys[i]?.bind (·.bytes[j]?) := by
  induction keys generalizing i with
  | nil => simp
  | cons k keys ih =>
    rw [List.flatMap_cons]
    cases i with
    | zero =>
      rw [List.getElem?_append_left (by rw [k.length_eq]; omega)]
      simp
    | succ i =>
      rw [List.getElem?_append_right (by rw [k.length_eq]; omega), k.length_eq,
        show (i + 1) * 32 + j - 32 = i * 32 + j by omega, ih]
      rfl

/-! ## The recogniser -/

theorem pubkeyOf_bytes (k : Pubkey) : pubkeyOf k.bytes = some k := dif_pos k.length_eq

theorem pubkeyOf_slice (data : Bytes) (a : Nat) (h : a + 32 ≤ data.length) : ∃ k, pubkeyOf (slice data a (a + 32)) = some k := by
  have hlen : (slice data a (a + 32)).length = 32 := by
    rw [length_slice h]
    omega
  exact ⟨⟨_, hlen⟩, dif_pos hlen⟩

theorem optionalKey_slice (data tag : Bytes) (a : Nat) (h : a + 32 ≤ data.length) :
    ∃ o, optionalKey tag (slice data a (a + 32)) = some o := by
  obtain ⟨k, hk⟩ := pubkeyOf_slice data a h
  unfold optionalKey
  split
  · exact ⟨some k, by rw [hk]; rfl⟩
  · exact ⟨none, rfl⟩

theorem optionalKey_pack (o : COption Pubkey) {tag body : Bytes} (h : tag ++ body = o.pack Pubkey.bytes)
    (htag : tag.length = 4) : optionalKey tag body = some o.value := by
  cases o with
  | none stale =>
    obtain ⟨rfl, rfl⟩ := List.append_inj h htag
    exact if_neg (by decide)
  | some k =>
    obtain ⟨rfl, rfl⟩ := List.append_inj h htag
    rw [optionalKey, if_pos rfl, pubkeyOf_bytes]
    rfl

theorem guard_bind {α : Type} {p : Prop} [Decidable p] (h : p) (x : Unit → Option α) : (guard p >>= x) = x () := by
  rw [guard, if_pos h]
  rfl

theorem guard_bind_none {α : Type} {p : Prop} [Decidable p] (h : ¬ p) (x : Unit → Option α) : (guard p >>= x) = none := by
  rw [guard, if_neg h]
  rfl

/-- What the recogniser checks. -/
def LooksLikeAccount (data : Bytes) : Prop :=
  tokenAccountLen ≤ data.length ∧ (tokenAccountLen < data.length → data[tokenAccountLen]? = some t22AccountTypeAccount) ∧
    (data[108]? = some 1 ∨ data[108]? = some 2)

/-- Data that fails a check is not recognised. -/
theorem tokenAccountView_eq_none {data : Bytes} (h : ¬ LooksLikeAccount data) : tokenAccountView data = none := by
  rw [tokenAccountView]
  by_cases hlen : tokenAccountLen ≤ data.length
  · rw [guard_bind hlen]
    by_cases htype : tokenAccountLen < data.length → data[tokenAccountLen]? = some t22AccountTypeAccount
    · rw [guard_bind htype]
      exact guard_bind_none (fun hstate => h ⟨hlen, htype, hstate⟩) _
    · exact guard_bind_none htype _
  · exact guard_bind_none hlen _

/-- Data that passes them has all its fields. -/
theorem tokenAccountView_fields {data : Bytes} (h : LooksLikeAccount data) :
    tokenAccountView data = (do
      let closeAuthority ← optionalKey (slice data 129 133) (slice data 133 165)
      let delegate ← optionalKey (slice data 72 76) (slice data 76 108)
      let mint ← pubkeyOf (slice data 0 32)
      let owner ← pubkeyOf (slice data 32 64)
      return { mint, owner, amount := u64Of (slice data 64 72), delegate, delegatedAmount := u64Of (slice data 121 129),
               closeAuthority }) := by
  rw [tokenAccountView, guard_bind h.1, guard_bind h.2.1, guard_bind h.2.2]

/-- **What is recognised**: the length, the type byte and the state byte decide. -/
theorem tokenAccountView_isSome {data : Bytes} : (tokenAccountView data).isSome = true ↔ LooksLikeAccount data := by
  constructor
  · intro h
    by_contra hnot
    rw [tokenAccountView_eq_none hnot] at h
    cases h
  · intro h
    have hlen : 165 ≤ data.length := h.1
    obtain ⟨closeAuthority, hclose⟩ := optionalKey_slice data (slice data 129 133) 133 hlen
    obtain ⟨delegate, hdelegate⟩ := optionalKey_slice data (slice data 72 76) 76 (by omega)
    obtain ⟨mint, hmint⟩ := pubkeyOf_slice data 0 (by omega)
    obtain ⟨owner, howner⟩ := pubkeyOf_slice data 32 (by omega)
    rw [tokenAccountView_fields h, hclose, hdelegate, hmint, howner]
    rfl

/-! ## The layouts -/

theorem AccountState.byte_live (state : AccountState) : (state.byte = 1 ∨ state.byte = 2) ↔ state ≠ .uninitialized := by
  cases state <;> decide

theorem u64Of_pack (x : UInt64) : u64Of (packU64 x) = x := by
  rw [u64Of, packU64, ofLE_toLE x.toNat_lt, UInt64.ofNat_toNat]

/-- The two parts of a packed key. -/
theorem packKey_parts (o : COption Pubkey) :
    ∃ tag body, o.pack Pubkey.bytes = tag ++ body ∧ tag.length = 4 ∧ body.length = 32 := by
  cases o with
  | none stale => exact ⟨_, _, rfl, rfl, stale.length_eq⟩
  | some k => exact ⟨_, _, rfl, rfl, k.length_eq⟩

section Account

variable (a : SplAccount) (rest : Bytes)

theorem getElem?_state : (a.pack ++ rest)[108]? = some a.state.byte := by
  have hpre : (a.mint.bytes ++ a.owner.bytes ++ packU64 a.amount ++ a.delegate.pack Pubkey.bytes).length = 108 := by
    simp [a.mint.length_eq, a.owner.length_eq]
  rw [SplAccount.pack]
  simp only [List.append_assoc]
  rw [← List.append_assoc, ← List.append_assoc, ← List.append_assoc, List.getElem?_append_right hpre.le, hpre]
  rfl

/-- **The fields of an account** that passes the checks. -/
theorem tokenAccountView_account (h : LooksLikeAccount (a.pack ++ rest)) :
    tokenAccountView (a.pack ++ rest) = some a.view := by
  obtain ⟨delegateTag, delegateBody, hdelegate, hdt, hdb⟩ := packKey_parts a.delegate
  obtain ⟨closeTag, closeBody, hclose, hct, hcb⟩ := packKey_parts a.closeAuthority
  have hmint := a.mint.length_eq
  have howner := a.owner.length_eq
  have hpack : a.pack ++ rest = a.mint.bytes ++ a.owner.bytes ++ packU64 a.amount ++ delegateTag ++ delegateBody
      ++ [a.state.byte] ++ a.isNative.pack packU64 ++ packU64 a.delegatedAmount ++ closeTag ++ closeBody ++ rest := by
    rw [SplAccount.pack, hdelegate, hclose]
    simp only [List.append_assoc]
  have hclose' : slice (a.pack ++ rest) 129 133 = closeTag ∧ slice (a.pack ++ rest) 133 165 = closeBody := by
    refine ⟨slice_eq (a.mint.bytes ++ a.owner.bytes ++ packU64 a.amount ++ delegateTag ++ delegateBody ++ [a.state.byte]
      ++ a.isNative.pack packU64 ++ packU64 a.delegatedAmount) (closeBody ++ rest) ?_ ?_ ?_,
      slice_eq (a.mint.bytes ++ a.owner.bytes ++ packU64 a.amount ++ delegateTag ++ delegateBody ++ [a.state.byte]
      ++ a.isNative.pack packU64 ++ packU64 a.delegatedAmount ++ closeTag) rest ?_ ?_ ?_⟩
    all_goals simp [hpack, hmint, howner, hdt, hdb, hct, hcb]
  have hdelegate' : slice (a.pack ++ rest) 72 76 = delegateTag ∧ slice (a.pack ++ rest) 76 108 = delegateBody := by
    refine ⟨slice_eq (a.mint.bytes ++ a.owner.bytes ++ packU64 a.amount) (delegateBody ++ [a.state.byte]
      ++ a.isNative.pack packU64 ++ packU64 a.delegatedAmount ++ closeTag ++ closeBody ++ rest) ?_ ?_ ?_,
      slice_eq (a.mint.bytes ++ a.owner.bytes ++ packU64 a.amount ++ delegateTag) ([a.state.byte]
      ++ a.isNative.pack packU64 ++ packU64 a.delegatedAmount ++ closeTag ++ closeBody ++ rest) ?_ ?_ ?_⟩
    all_goals simp [hpack, hmint, howner, hdt, hdb]
  have hkeys : slice (a.pack ++ rest) 0 32 = a.mint.bytes ∧ slice (a.pack ++ rest) 32 64 = a.owner.bytes := by
    refine ⟨slice_eq [] (a.owner.bytes ++ packU64 a.amount ++ delegateTag ++ delegateBody ++ [a.state.byte]
      ++ a.isNative.pack packU64 ++ packU64 a.delegatedAmount ++ closeTag ++ closeBody ++ rest) ?_ ?_ ?_,
      slice_eq a.mint.bytes (packU64 a.amount ++ delegateTag ++ delegateBody ++ [a.state.byte]
      ++ a.isNative.pack packU64 ++ packU64 a.delegatedAmount ++ closeTag ++ closeBody ++ rest) ?_ ?_ ?_⟩
    all_goals simp [hpack, hmint, howner]
  have hamounts : slice (a.pack ++ rest) 64 72 = packU64 a.amount ∧ slice (a.pack ++ rest) 121 129 = packU64 a.delegatedAmount := by
    refine ⟨slice_eq (a.mint.bytes ++ a.owner.bytes) (delegateTag ++ delegateBody ++ [a.state.byte]
      ++ a.isNative.pack packU64 ++ packU64 a.delegatedAmount ++ closeTag ++ closeBody ++ rest) ?_ ?_ ?_,
      slice_eq (a.mint.bytes ++ a.owner.bytes ++ packU64 a.amount ++ delegateTag ++ delegateBody ++ [a.state.byte]
      ++ a.isNative.pack packU64) (closeTag ++ closeBody ++ rest) ?_ ?_ ?_⟩
    all_goals simp [hpack, hmint, howner, hdt, hdb]
  rw [tokenAccountView_fields h, hclose'.1, hclose'.2, hdelegate'.1, hdelegate'.2, hkeys.1, hkeys.2, hamounts.1, hamounts.2,
    optionalKey_pack a.closeAuthority hclose.symm hct, optionalKey_pack a.delegate hdelegate.symm hdt, pubkeyOf_bytes,
    pubkeyOf_bytes, u64Of_pack, u64Of_pack]
  rfl

/-- The recogniser is right on an account with nothing behind it, or with its type byte. -/
theorem tokenAccountView_pack (hrest : rest = [] ∨ rest[0]? = some t22AccountTypeAccount) :
    tokenAccountView (a.pack ++ rest) = if a.isLive then some a.view else none := by
  have hlooks : LooksLikeAccount (a.pack ++ rest) ↔ a.isLive = true := by
    have hlen : (a.pack ++ rest).length = tokenAccountLen + rest.length := by rw [List.length_append, a.length_pack]
    have htype : tokenAccountLen < (a.pack ++ rest).length → (a.pack ++ rest)[tokenAccountLen]? = some t22AccountTypeAccount := by
      intro hlong
      rw [List.getElem?_append_right a.length_pack.le, a.length_pack, Nat.sub_self]
      rcases hrest with rfl | hrest
      · rw [hlen] at hlong
        exact absurd hlong (lt_irrefl _)
      · exact hrest
    rw [LooksLikeAccount, getElem?_state, Option.some.injEq, Option.some.injEq, a.state.byte_live, SplAccount.isLive,
      decide_eq_true_iff]
    exact ⟨fun h => h.2.2, fun h => ⟨by omega, htype, h⟩⟩
  by_cases hlive : a.isLive = true
  · rw [if_pos hlive, tokenAccountView_account a rest (hlooks.2 hlive)]
  · rw [if_neg hlive, tokenAccountView_eq_none (mt hlooks.1 hlive)]

end Account

/-- The bytes of a multisig where the recogniser looks. -/
theorem looksLikeAccount_multisig (s : SplMultisig) : LooksLikeAccount s.pack ↔ s.Forged := by
  have hbyte : ∀ i j, j < 32 → s.pack[i * 32 + j + 3]? = s.signers[i]?.bind (·.bytes[j]?) := by
    intro i j hj
    rw [SplMultisig.pack, List.getElem?_append_right (by simp), ← getElem?_flatMap_bytes s.signers i j hj]
    rfl
  have hstate : s.pack[108]? = s.signers[3]?.bind (·.bytes[9]?) := hbyte 3 9 (by decide)
  have htype : s.pack[tokenAccountLen]? = s.signers[5]?.bind (·.bytes[2]?) := hbyte 5 2 (by decide)
  rw [LooksLikeAccount, s.length_pack, hstate, htype, SplMultisig.Forged]
  have hlt : tokenAccountLen < multisigLen := by decide
  exact ⟨fun h => ⟨h.2.2, h.2.1 hlt⟩, fun h => ⟨hlt.le, fun _ => h.2, h.1⟩⟩

/-- **Token account recogniser**: the view is right on every layout except a multisig whose keys pose as an account. -/
theorem token_account_recogniser (layout : TokenLayout) :
    tokenAccountView layout.bytes = layout.tokenAccount.map SplAccount.view ↔ ¬ layout.Forged := by
  cases layout with
  | allocated length =>
    refine iff_of_true (tokenAccountView_eq_none fun h => ?_) id
    have hstate := h.2.2
    simp only [TokenLayout.bytes, List.getElem?_replicate] at hstate
    split at hstate <;> simp at hstate
  | account a =>
    refine iff_of_true ?_ id
    have hview := tokenAccountView_pack a [] (Or.inl rfl)
    rw [List.append_nil] at hview
    rw [TokenLayout.bytes, hview, TokenLayout.tokenAccount, apply_ite (Option.map SplAccount.view)]
    rfl
  | extendedAccount a extensions h =>
    refine iff_of_true ?_ id
    rw [TokenLayout.bytes, tokenAccountView_pack a _ (Or.inr rfl), TokenLayout.tokenAccount, apply_ite (Option.map SplAccount.view)]
    rfl
  | mint m =>
    refine iff_of_true (tokenAccountView_eq_none fun h => ?_) id
    have hlen := h.1
    rw [TokenLayout.bytes, m.length_pack] at hlen
    exact absurd hlen (by decide)
  | extendedMint m extensions =>
    refine iff_of_true (tokenAccountView_eq_none fun h => ?_) id
    have hpad : (m.pack ++ List.replicate (tokenAccountLen - m.pack.length) 0).length = tokenAccountLen := by
      rw [List.length_append, List.length_replicate, m.length_pack]
      rfl
    have htype := h.2.1
    rw [TokenLayout.bytes, List.getElem?_append_right hpad.le, List.length_append, hpad, Nat.sub_self] at htype
    exact absurd (htype (by simp)) (by simp [t22AccountTypeMint, t22AccountTypeAccount])
  | multisig s =>
    show tokenAccountView s.pack = none ↔ ¬ s.Forged
    rw [← looksLikeAccount_multisig, ← tokenAccountView_isSome, Bool.not_eq_true, Option.isSome_eq_false_iff,
      Option.isNone_iff_eq_none]

/-- Eleven keys of twos make a multisig that is metered as a token account. -/
theorem token_account_recogniser_multisig :
    tokenAccountView (TokenLayout.multisig ⟨1, 11, true, List.replicate 11 (.fill 2), rfl⟩).bytes =
        some ⟨⟨[1, 11, 1] ++ List.replicate 29 2, rfl⟩, .fill 2, 0x0202020202020202, none, 0x0202020202020202, none⟩ ∧
      (TokenLayout.multisig ⟨1, 11, true, List.replicate 11 (.fill 2), rfl⟩).tokenAccount = none := by
  decide +kernel

end PhygitalWallet
