import PhygitalWallet.Program.WalletPolicy
import PhygitalWallet.Program.Relayer
import PhygitalWallet.Lib.Runs

/-!
# The life of an authority account

What an authority account is for: it keeps a header and, while the policy is present, caps and permissions. `Stored` says
that an account keeps a `Life`, in the bytes that `Life.bytes` spells. Every handler is told as what it does to the life.

- `Stored.readHeader`, `Stored.read`, `Stored.readPolicy`: what the reads of `state.rs` return on a stored life;
- `setAuthority_stored`, `setWalletPolicy_stored`, `clearWalletPolicy_stored`, `executePolicied_stored`: the handlers.
-/

namespace PhygitalWallet

open ByteSeq Borsh ListLoop Runs

/-! ## Policies -/

/-- The caps and the permissions of an authority account. -/
structure Policy where
  sol : SpendCap
  mints : List MintCap
  permissions : List ProgramPermission
deriving DecidableEq, Repr

/-- The active empty policy. -/
def Policy.initial : Policy := ⟨.empty, [], []⟩

/-- A cap that was set, and is not overspent. -/
def SpendCap.Sound (c : SpendCap) : Prop := 0 < c.cap ∧ c.remaining ≤ c.cap

structure Policy.Sound [HeapSizes] (p : Policy) : Prop where
  sol : p.sol = .empty ∨ p.sol.Sound
  mints : ∀ m ∈ p.mints, m.mint ≠ systemProgramId ∧ isWsolMint m.mint = false ∧ m.cap.Sound
  distinct : (p.mints.map MintCap.mint).Nodup
  permissions : validatePermissions p.permissions = .ok () ∧
    (encodePermissions p.permissions).length ≤ maxPermissionBytes
  mints_length : p.mints.length < 2 ^ 32

/-- The same cap over the same window. -/
def SameLimit (c c' : SpendCap) : Prop := c'.cap = c.cap ∧ c'.windowSeconds = c.windowSeconds

/-- Only what is left of the caps, and when they were reset, may differ. -/
structure SameLimits (p p' : Policy) : Prop where
  sol : SameLimit p.sol p'.sol
  mints : List.Forall₂ (fun m m' => m'.mint = m.mint ∧ SameLimit m.cap m'.cap) p.mints p'.mints
  permissions : p'.permissions = p.permissions

/-- The cap that a save makes of the argument and the old cap. -/
def SavedCap (cap : UInt64) (windowSeconds now : Int64) (old : Option SpendCap) (new : SpendCap) : Prop :=
  ∃ fresh, newSpendCap cap windowSeconds now = .ok fresh ∧ new = preserveSpendCap fresh old

/-- The policy that a save makes of its arguments and the old policy. -/
structure Saved (args : WalletPolicyArgs) (now : Int64) (old : Option Policy) (new : Policy) : Prop where
  noSol : args.solCap = none → new.sol = .empty
  sol : ∀ s, args.solCap = some s →
    SavedCap s.cap s.windowSeconds now ((old.map Policy.sol).filter SpendCap.isActive) new.sol
  mints : List.Forall₂ (fun c m => m.mint = c.mint ∧ SavedCap c.cap c.windowSeconds now
    ((((old.map Policy.mints).getD []).find? fun o => o.mint = c.mint).map MintCap.cap) m.cap) args.mintCaps new.mints
  permissions : new.permissions = args.programPermissions

/-! ## Caps -/

theorem newSpendCap_ok {cap : UInt64} {windowSeconds now : Int64} {c : SpendCap}
    (h : newSpendCap cap windowSeconds now = .ok c) :
    0 < cap ∧ c.cap = cap ∧ c.remaining = cap ∧ c.windowSeconds = windowSeconds := by
  simp only [newSpendCap, bind_eq_ok, require_eq_ok, exists_const, pure_eq_ok] at h
  obtain ⟨⟨hpos, -⟩, _, -, rfl⟩ := h
  exact ⟨hpos, rfl, rfl, rfl⟩

theorem preserveSpendCap_cases (fresh : SpendCap) (old : Option SpendCap) :
    preserveSpendCap fresh old = fresh ∨ ∃ prev, old = some prev ∧ preserveSpendCap fresh old = prev ∧
      SameLimit fresh prev := by
  cases old with
  | none => exact Or.inl rfl
  | some prev =>
    by_cases hsame : prev.cap = fresh.cap ∧ prev.windowSeconds = fresh.windowSeconds
    · exact Or.inr ⟨prev, rfl, preserveSpendCap_same prev fresh hsame.1 hsame.2, hsame⟩
    · left
      rw [preserveSpendCap, if_neg hsame]

/-- A saved cap has the limit of the argument and is sound. -/
theorem SavedCap.sound {cap : UInt64} {windowSeconds now : Int64} {old : Option SpendCap} {new : SpendCap}
    (h : SavedCap cap windowSeconds now old new) (hold : ∀ c, old = some c → c.remaining ≤ c.cap) :
    new.Sound ∧ new.cap = cap ∧ new.windowSeconds = windowSeconds := by
  obtain ⟨fresh, hfresh, rfl⟩ := h
  obtain ⟨hpos, hcap, hrem, hwin⟩ := newSpendCap_ok hfresh
  rcases preserveSpendCap_cases fresh old with heq | ⟨prev, hprev, heq, hc, hw⟩
  · rw [heq]
    exact ⟨⟨by rw [hcap]; exact hpos, UInt64.le_of_eq (hrem.trans hcap.symm)⟩, hcap, hwin⟩
  · rw [heq]
    exact ⟨⟨by rw [hc, hcap]; exact hpos, hold prev hprev⟩, hc.trans hcap, hw.trans hwin⟩

theorem refill_ok {c c' : SpendCap} {now : Int64} (h : refill c now = .ok c') :
    SameLimit c c' ∧ (c.remaining ≤ c.cap → c'.remaining ≤ c'.cap) := by
  unfold refill at h
  split at h
  · simp only [bind_eq_ok] at h
    obtain ⟨elapsed, -, h⟩ := h
    split at h
    · simp only [bind_eq_ok, pure_eq_ok] at h
      obtain ⟨_, -, _, -, rfl⟩ := h
      exact ⟨⟨rfl, rfl⟩, fun _ => UInt64.le_refl _⟩
    · cases h
      exact ⟨⟨rfl, rfl⟩, id⟩
  · cases h
    exact ⟨⟨rfl, rfl⟩, id⟩

/-- A charge keeps the limit and does not raise what is left above it. -/
theorem chargeCap_ok {c c' : SpendCap} {amount : UInt64} {now : Int64} (h : chargeCap c amount now = .ok c') :
    SameLimit c c' ∧ (c.remaining ≤ c.cap → c'.remaining ≤ c'.cap) := by
  unfold chargeCap at h
  split at h
  · cases h
    exact ⟨⟨rfl, rfl⟩, id⟩
  · simp only [bind_eq_ok, require_eq_ok, exists_const, okOr_eq_ok, pure_eq_ok] at h
    obtain ⟨filled, hfill, hle, remaining, hsub, rfl⟩ := h
    obtain ⟨hsame, hrem⟩ := refill_ok hfill
    rw [checkedSubU64, if_pos hle] at hsub
    cases hsub
    refine ⟨hsame, fun hc => ?_⟩
    have hfilled := UInt64.le_iff_toNat_le.1 (hrem hc)
    apply UInt64.le_iff_toNat_le.2
    simp only [UInt64.toNat_sub_of_le _ _ hle]
    omega

theorem SpendCap.Sound.charge {c c' : SpendCap} {amount : UInt64} {now : Int64} (hs : c.Sound)
    (h : chargeCap c amount now = .ok c') : c'.Sound := by
  obtain ⟨⟨hcap, -⟩, hrem⟩ := chargeCap_ok h
  exact ⟨by rw [hcap]; exact hs.1, hrem hs.2⟩

theorem SameLimit.refl (c : SpendCap) : SameLimit c c := ⟨rfl, rfl⟩

theorem SameLimit.trans {a b c : SpendCap} (h₁ : SameLimit a b) (h₂ : SameLimit b c) : SameLimit a c :=
  ⟨h₂.1.trans h₁.1, h₂.2.trans h₁.2⟩

theorem SameLimits.refl (p : Policy) : SameLimits p p :=
  ⟨.refl _, List.forall₂_same.2 fun _ _ => ⟨rfl, .refl _⟩, rfl⟩

theorem SameLimits.trans {p q r : Policy} (h₁ : SameLimits p q) (h₂ : SameLimits q r) : SameLimits p r := by
  refine ⟨h₁.sol.trans h₂.sol, ?_, h₂.permissions.trans h₁.permissions⟩
  have hlen := h₁.mints.length_eq.trans h₂.mints.length_eq
  refine List.forall₂_iff_get.2 ⟨hlen, fun i hi hi' => ?_⟩
  have hq : i < q.mints.length := by rw [← h₁.mints.length_eq]; exact hi
  obtain ⟨hm₁, hc₁⟩ := (List.forall₂_iff_get.1 h₁.mints).2 i hi hq
  obtain ⟨hm₂, hc₂⟩ := (List.forall₂_iff_get.1 h₂.mints).2 i hq hi'
  exact ⟨hm₂.trans hm₁, hc₁.trans hc₂⟩

/-! ## What the save makes of its arguments -/

theorem saveSolCap_ok {solCap : Option SolCapArg} {old : Option SpendCap} {now : Int64} {sol : SpendCap}
    (h : saveSolCap solCap old now = .ok sol) : (solCap = none → sol = .empty) ∧
      ∀ s, solCap = some s → SavedCap s.cap s.windowSeconds now (old.filter SpendCap.isActive) sol := by
  cases solCap with
  | none =>
    cases h
    exact ⟨fun _ => rfl, fun s hs => by cases hs⟩
  | some s =>
    simp only [saveSolCap, bind_eq_ok, pure_eq_ok] at h
    obtain ⟨fresh, hfresh, rfl⟩ := h
    refine ⟨fun hs => (by cases hs), fun s' hs => ?_⟩
    cases hs
    exact ⟨fresh, hfresh, rfl⟩

theorem saveMintCap_ok {oldMints : List MintCap} {now : Int64} {c : MintCapArg} {m : MintCap}
    (h : saveMintCap oldMints now c = .ok m) : m.mint = c.mint ∧
      SavedCap c.cap c.windowSeconds now ((oldMints.find? fun o => o.mint = c.mint).map MintCap.cap) m.cap := by
  simp only [saveMintCap, bind_eq_ok, pure_eq_ok] at h
  obtain ⟨fresh, hfresh, rfl⟩ := h
  exact ⟨rfl, fresh, hfresh, rfl⟩

/-- The arguments that the loop over the mint caps accepts. -/
theorem checkMintCaps_iff {mintCaps : List MintCapArg} :
    mintCaps.zipIdx.foldlM (fun _ entry => checkMintCap mintCaps entry) () = .ok () ↔
      (∀ c ∈ mintCaps, c.mint ≠ systemProgramId ∧ isWsolMint c.mint = false) ∧ (mintCaps.map MintCapArg.mint).Nodup := by
  rw [foldlM_unit_iff (P := fun e => (e.1.mint ≠ systemProgramId ∧ isWsolMint e.1.mint = false) ∧
    ¬isDup MintCapArg.mint mintCaps e.1 e.2 = true) fun e _ => by simp [checkMintCap], ← nodup_iff_not_isDup]
  constructor
  · intro h
    refine ⟨fun c hc => ?_, fun e he => (h e he).2⟩
    obtain ⟨i, hi⟩ := List.getElem?_of_mem hc
    exact (h (c, i) (List.mk_mem_zipIdx_iff_getElem?.2 hi)).1
  · rintro ⟨hm, hd⟩ e he
    exact ⟨hm e.1 (List.fst_mem_of_mem_zipIdx he), hd e he⟩

/-! ## The bank -/

/-- What the program relies on: the System program creates only accounts that do not exist yet and moves lamports only,
no other program writes to an account of this one, and a CPI writes only where it may. -/
structure Runtime.Lawful (rt : Runtime) : Prop where
  createAccount : ∀ payer key space before after, rt.createAccount payer key space before = .ok after →
    (before key).owner ≠ crateId ∧ (after key).owner = crateId ∧ (after key).data = List.replicate space 0
  transfer : ∀ source destination lamports before after, rt.transfer source destination lamports before = .ok after →
    ∀ k, (after k).owner = (before k).owner ∧ (after k).data = (before k).data
  transfer_returns : ∀ source destination lamports bank, rt.transfer source destination lamports bank ≠ .error .panic
  verify : ∀ token args message before after, rt.verify token args message before = .ok after →
    ∀ k, (before k).owner = crateId → (after k).owner = crateId ∧ (after k).data = (before k).data
  invokeSigned : rt.WritesOnlyWritable

section Bank

variable {rt : Runtime} {key : Pubkey} {bank bank' : Bank}

@[simp] theorem setData_self (data : Bytes) : setData bank key data key = { bank key with data } :=
  Function.update_self _ _ _

@[simp] theorem setLamports_owner (other : Pubkey) (lamports : UInt64) (k : Pubkey) :
    (setLamports bank other lamports k).owner = (bank k).owner := by
  unfold setLamports
  by_cases hk : k = other
  · subst hk
    simp
  · simp [Function.update_of_ne hk]

@[simp] theorem setLamports_data (other : Pubkey) (lamports : UInt64) (k : Pubkey) :
    (setLamports bank other lamports k).data = (bank k).data := by
  unfold setLamports
  by_cases hk : k = other
  · subst hk
    simp
  · simp [Function.update_of_ne hk]

theorem topUpRent_bytes (hrt : rt.Lawful) {payer : Pubkey} {minimum : UInt64}
    (h : topUpRent rt bank payer key minimum = .ok bank') (k : Pubkey) :
    (bank' k).owner = (bank k).owner ∧ (bank' k).data = (bank k).data := by
  unfold topUpRent at h
  simp only at h
  split at h
  · exact hrt.transfer _ _ _ _ _ h k
  · cases h
    exact ⟨rfl, rfl⟩

theorem refundRent_bytes {receiver : Pubkey} {minimum : UInt64} (h : refundRent bank key receiver minimum = .ok bank')
    (k : Pubkey) : (bank' k).owner = (bank k).owner ∧ (bank' k).data = (bank k).data := by
  simp only [refundRent, bind_eq_ok, pure_eq_ok] at h
  obtain ⟨_, -, _, -, rfl⟩ := h
  simp

/-- A resize to at least the empty policy keeps the header. -/
theorem resize_head {header : AuthorityHeader} {rest data : Bytes} {newLen : Nat} (hle : baseLen ≤ newLen)
    (h : resize (headBytes header ++ rest) newLen = .ok data) :
    (∃ rest', data = headBytes header ++ rest') ∧ data.length = newLen ∧ newLen ≤ maxPermittedDataLength := by
  simp only [resize, bind_eq_ok, anchorRequire_eq_ok, exists_const, pure_eq_ok] at h
  obtain ⟨⟨-, hmax⟩, rfl⟩ := h
  have hhead : (headBytes header).length ≤ newLen := by
    rw [length_headBytes]
    exact le_trans (by decide) hle
  rw [List.take_append, List.take_of_length_le hhead, List.append_assoc]
  refine ⟨⟨_, rfl⟩, ?_, hmax⟩
  · simp only [List.length_append, List.length_take, List.length_replicate]
    omega

/-- The account between the resize and the write: the header, and the new length. -/
structure Resized (account : Account) (header : AuthorityHeader) (newLen : Nat) : Prop where
  owner : account.owner = crateId
  head : ∃ rest, account.data = headBytes header ++ rest
  length_eq : account.data.length = newLen
  length_le : newLen ≤ maxPermittedDataLength

/-- The length that a save asks for fits its policy, and bounds the number of caps. -/
theorem Resized.write {account : Account} {header : AuthorityHeader} (sol : SpendCap) {mints : List MintCap}
    {permissions : Bytes} (h : Resized account header (baseLen + mints.length * mintCapSize + (permissions.length - 4)))
    (hfour : 4 ≤ permissions.length) (version : UInt8) :
    ∃ data, setPolicyVersion account.data version = .ok data ∧ mints.length < 2 ^ 32 ∧
      writePolicy data sol mints permissions =
        .ok (policyBytes (headBytes { header with policyVersion := version }) sol mints permissions) := by
  obtain ⟨rest, hdata⟩ := h.head
  have hlen := h.length_eq
  have hmax := h.length_le
  have hbase : baseLen = mintsOffset + 4 := rfl
  have hcount : mints.length < 2 ^ 32 := by
    unfold maxPermittedDataLength mintCapSize at hmax
    omega
  refine ⟨_, by rw [hdata]; exact setPolicyVersion_layout header rest version, hcount, ?_⟩
  refine writePolicy_layout (length_headBytes _) ?_ hcount
  rw [hdata] at hlen
  simp only [List.length_append, length_headBytes] at hlen ⊢
  omega

theorem withMintCount_ok {n m : Nat} (h : withMintCount n = .ok m) : m = baseLen + n * mintCapSize := by
  rw [withMintCount, okOr_eq_ok] at h
  obtain ⟨bytes, hbytes, hm⟩ := Option.bind_eq_some_iff.1 h
  rw [checkedUsize_eq_some hm, checkedUsize_eq_some hbytes]

end Bank

theorem four_le_encodePermissions (permissions : List ProgramPermission) : 4 ≤ (encodePermissions permissions).length := by
  simp [encodePermissions, encodeVec]

/-! ## The account -/

section Sizes

variable [HeapSizes]

/-- What an authority account keeps. -/
structure Life where
  header : AuthorityHeader
  policy : Option Policy

/-- The policy bytes of an account. -/
def Life.bytes (l : Life) : Bytes :=
  match l.policy with
  | some p => policyBytes (headBytes l.header) p.sol p.mints (encodePermissions p.permissions)
  | none => policyBytes (headBytes l.header) .empty [] [0, 0, 0, 0]

/-- The header of an account with or without a policy. -/
def AuthorityHeader.withPolicy (h : AuthorityHeader) (policyPresent : Bool) : AuthorityHeader :=
  { h with policyVersion := if policyPresent then walletPolicyVersion else 0 }

/-- The account keeps this life. -/
structure Stored (account : Account) (l : Life) : Prop where
  owner : account.owner = crateId
  data : account.data = l.bytes
  version : l.header.version = authorityVersion
  policyVersion : l.header.policyVersion = if l.policy.isSome then walletPolicyVersion else 0
  sound : ∀ p, l.policy = some p → p.Sound
  length_le : account.data.length ≤ maxPermittedDataLength

section Reads

variable {account : Account} {l : Life} {p : Policy}

theorem Stored.layout (h : Stored account l) (hp : l.policy = some p) :
    PolicyLayout account.data (headBytes l.header) p.sol p.mints (encodePermissions p.permissions) :=
  ⟨by rw [h.data, Life.bytes, hp], length_headBytes _, (h.sound p hp).mints_length, four_le_encodePermissions _⟩

/-- The bytes start with the header, and leave room for an empty policy. -/
theorem Stored.head (h : Stored account l) : ∃ rest, account.data = headBytes l.header ++ rest ∧ 44 ≤ rest.length := by
  cases hp : l.policy with
  | none =>
    refine ⟨List.replicate 44 0, ?_, by simp⟩
    rw [h.data, Life.bytes, hp]
    exact policyBytes_empty _
  | some p =>
    have hl := h.layout hp
    refine ⟨_, hl.eq.trans policyBytes_eq_append, ?_⟩
    have := four_le_encodePermissions p.permissions
    simp only [policyBytes, List.nil_append, List.length_append, length_encodeSpendCap, length_toLE, List.length_cons,
      List.length_nil, spendCapSize]
    omega

theorem Stored.readHeader (h : Stored account l) : readHeader account.data = .ok l.header := by
  obtain ⟨rest, hdata, -⟩ := h.head
  exact readHeader_iff.2 ⟨⟨rest, hdata⟩, h.version⟩

/-- **What `read` reports.** -/
theorem Stored.read (h : Stored account l) : Authority.read account.data = .ok (l.header, l.policy.isSome) := by
  have hpv := h.policyVersion
  cases hp : l.policy with
  | none =>
    rw [hp] at hpv
    rw [h.data, Life.bytes, hp]
    exact Authority.read_absent h.version hpv
  | some p =>
    rw [hp] at hpv
    exact Authority.read_present (h.layout hp) h.version hpv

/-- **What `read_policy` returns.** -/
theorem Stored.readPolicy (h : Stored account l) (hp : l.policy = some p) :
    readPolicy account.data = .ok (p.sol, p.mints, p.permissions) :=
  readPolicy_iff.2 ⟨_, _, h.layout hp, (decodePermissions_iff _ _).2 ⟨(h.sound p hp).permissions, rfl⟩⟩

theorem Stored.length_present (h : Stored account l) (hp : l.policy = some p) :
    account.data.length = baseLen + p.mints.length * mintCapSize + ((encodePermissions p.permissions).length - 4) := by
  have hlen := (h.layout hp).length_eq
  have := four_le_encodePermissions p.permissions
  have hbase : baseLen = mintsOffset + 4 := rfl
  omega

theorem Stored.bytes_absent (h : Stored account l) (hp : l.policy = none) :
    account.data = headBytes l.header ++ List.replicate 44 0 := by
  rw [h.data, Life.bytes, hp]
  exact policyBytes_empty _

/-- The caps that a save starts from. -/
theorem Stored.storedCaps (h : Stored account l) : storedCaps account.data =
    .ok (l.policy.map Policy.sol, (l.policy.map Policy.mints).getD []) := by
  rw [PhygitalWallet.storedCaps, h.read]
  cases hp : l.policy with
  | none => rfl
  | some p =>
    simp only [ok_bind, Option.isSome_some, if_true, h.readPolicy hp]
    rfl

end Reads

/-! ## The handlers -/

variable {rt : Runtime} {key : Pubkey} {bank bank' : Bank} {l : Life}

/-- A saved policy is sound. -/
theorem Saved.sound {args : WalletPolicyArgs} {now : Int64} {old : Option Policy} {new : Policy}
    (h : Saved args now old new) (hold : ∀ p, old = some p → p.Sound)
    (hmints : ∀ c ∈ args.mintCaps, c.mint ≠ systemProgramId ∧ isWsolMint c.mint = false)
    (hdistinct : (args.mintCaps.map MintCapArg.mint).Nodup)
    (hpermissions : validatePermissions args.programPermissions = .ok () ∧
      (encodePermissions args.programPermissions).length ≤ maxPermissionBytes)
    (hlength : new.mints.length < 2 ^ 32) : new.Sound := by
  have hkeys : args.mintCaps.map MintCapArg.mint = new.mints.map MintCap.mint := by
    refine List.forall₂_eq_eq_eq ▸ List.forall₂_map_left_iff.2 (List.forall₂_map_right_iff.2 ?_)
    exact h.mints.imp fun c m hm => hm.1.symm
  refine ⟨?_, fun m hm => ?_, hkeys ▸ hdistinct, by rw [h.permissions]; exact hpermissions, hlength⟩
  · cases hs : args.solCap with
    | none => exact Or.inl (h.noSol hs)
    | some s =>
      refine Or.inr ((h.sol s hs).sound fun c hc => ?_).1
      obtain ⟨hc, hactive⟩ := Option.filter_eq_some_iff.1 hc
      obtain ⟨p, hp, rfl⟩ := Option.map_eq_some_iff.1 hc
      rcases (hold p hp).sol with hempty | hsound
      · rw [hempty]
        decide
      · exact hsound.2
  · obtain ⟨i, hi⟩ := List.getElem?_of_mem hm
    obtain ⟨hlt, rfl⟩ := List.getElem?_eq_some_iff.1 hi
    have hlt' : i < args.mintCaps.length := by rw [h.mints.length_eq]; exact hlt
    obtain ⟨hmint, hcap⟩ := (List.forall₂_iff_get.1 h.mints).2 i hlt' hlt
    obtain ⟨hdefault, hwsol⟩ := hmints _ (List.getElem_mem hlt')
    simp only [List.get_eq_getElem] at hmint hcap
    rw [hmint]
    refine ⟨hdefault, hwsol, (hcap.sound fun c hc => ?_).1⟩
    obtain ⟨o, ho, rfl⟩ := Option.map_eq_some_iff.1 hc
    cases hold' : old with
    | none =>
      rw [hold'] at ho
      cases ho
    | some p =>
      rw [hold'] at ho
      exact ((hold p hold').mints o (List.mem_of_find?_eq_some ho)).2.2.2

/-- `set_authority` starts a life with the active empty policy. -/
theorem setAuthority_stored (hrt : rt.Lawful) {accounts : SetAuthority} {authority : Pubkey}
    {args : Secp256r1VerifyArgs} {slotNumber : UInt64}
    (h : setAuthority rt accounts authority args slotNumber bank = .ok bank') :
    (bank accounts.authorityAccount.key).owner ≠ crateId ∧
      Stored (bank' accounts.authorityAccount.key) ⟨accounts.header rt authority, some .initial⟩ := by
  simp only [setAuthority, bind_eq_ok, pure_eq_ok] at h
  obtain ⟨created, hvalidate, _, -, _, -, slotHash, -, verified, hverify, data, hexit, rfl⟩ := h
  obtain ⟨hnew, howner, hzero⟩ : (bank accounts.authorityAccount.key).owner ≠ crateId ∧
      (created accounts.authorityAccount.key).owner = crateId ∧
      (created accounts.authorityAccount.key).data = List.replicate baseLen 0 := by
    simp only [SetAuthority.validate, bind_eq_ok, pure_eq_ok] at hvalidate
    obtain ⟨_, -, _, -, _, -, _, -, b, hcreate, _, -, _, -, _, -, _, -, _, -, _, -, _, -, _, -, _, -, _, -, rfl⟩ := hvalidate
    exact hrt.createAccount _ _ _ _ _ hcreate
  obtain ⟨hvo, hvd⟩ := hrt.verify _ _ _ _ _ hverify _ howner
  have hbytes : serializeAuthority (accounts.header rt authority) .empty 0 [] [] =
      policyBytes (headBytes (accounts.header rt authority)) .empty [] (encodePermissions []) := by
    have hpad : encodeU32 0 = [0, 0, 0, 0] := by decide
    simp only [serializeAuthority, policyBytes, headBytes, hpad, encodeVec, List.append_assoc]
  have hlen : (serializeAuthority (accounts.header rt authority) .empty 0 [] []).length = baseLen := by
    rw [hbytes, policyBytes_eq_append, List.length_append, length_headBytes]
    rfl
  have hdata : data = serializeAuthority (accounts.header rt authority) .empty 0 [] [] := by
    simp only [exitAccount, bind_eq_ok, anchorRequire_eq_ok, exists_const, pure_eq_ok] at hexit
    obtain ⟨-, rfl⟩ := hexit
    rw [hvd, hzero, hlen, List.drop_of_length_le (by simp), List.append_nil]
  refine ⟨hnew, by simp [hvo], ?_, rfl, rfl, ?_, ?_⟩
  · rw [setData_self, hdata, hbytes]
    rfl
  · intro p hp
    cases hp
    refine ⟨Or.inl rfl, by simp [Policy.initial], by simp [Policy.initial], ⟨?_, ?_⟩, by simp [Policy.initial]⟩
    · simp [Policy.initial, validatePermissions, require_of, pure, Except.pure]
    · simp [Policy.initial, encodePermissions, encodeVec, maxPermissionBytes]
  · rw [setData_self, hdata, hlen]
    decide

/-- The rent and the length are settled before the write. -/
theorem resized_of_save (hrt : rt.Lawful) (hs : Stored (bank key) l) {payer receiver : Pubkey} {newLen : Nat}
    (hle : baseLen ≤ newLen) {minimum : UInt64} {bank₁ bank₂ bank₃ : Bank}
    (htop : topUpRent rt bank payer key minimum = .ok bank₁)
    (hresize : resizeIfChanged bank₁ key newLen (bank key).data.length = .ok bank₂)
    (hrefund : refundIfShrunk bank₂ key receiver minimum newLen (bank key).data.length = .ok bank₃) :
    Resized (bank₃ key) l.header newLen := by
  obtain ⟨ho₁, hd₁⟩ := topUpRent_bytes hrt htop key
  obtain ⟨rest, hdata, -⟩ := hs.head
  have h₂ : Resized (bank₂ key) l.header newLen := by
    unfold resizeIfChanged at hresize
    by_cases hne : newLen ≠ (bank key).data.length
    · rw [if_pos hne, map_eq_ok] at hresize
      obtain ⟨data, hdata₂, rfl⟩ := hresize
      rw [hd₁, hdata] at hdata₂
      obtain ⟨hhead, hlen, hmax⟩ := resize_head hle hdata₂
      rw [setData_self]
      exact ⟨ho₁.trans hs.owner, hhead, hlen, hmax⟩
    · rw [if_neg hne] at hresize
      cases hresize
      have hsame : newLen = (bank key).data.length := not_not.1 hne
      exact ⟨ho₁.trans hs.owner, ⟨rest, hd₁.trans hdata⟩, by rw [hd₁, hsame], by rw [hsame]; exact hs.length_le⟩
  unfold refundIfShrunk at hrefund
  split at hrefund
  · obtain ⟨ho₃, hd₃⟩ := refundRent_bytes hrefund key
    exact ⟨ho₃.trans h₂.owner, by rw [hd₃]; exact h₂.head, by rw [hd₃]; exact h₂.length_eq, h₂.length_le⟩
  · cases hrefund
    exact h₂

/-- `set_wallet_policy` replaces the policy by the saved one. -/
theorem setWalletPolicy_stored (hrt : rt.Lawful) {accounts : SetWalletPolicy} {args : WalletPolicyArgs}
    (hs : Stored (bank accounts.authorityAccount.key) l) (h : setWalletPolicy rt accounts args bank = .ok bank') :
    ∃ p, Saved args rt.unixTimestamp l.policy p ∧
      Stored (bank' accounts.authorityAccount.key) ⟨l.header.withPolicy true, some p⟩ := by
  simp only [setWalletPolicy, bind_eq_ok, require_eq_ok, pure_eq_ok, okOr_eq_ok] at h
  obtain ⟨_, -, _, -, _, -, _, hmints, _, hpermissions, _, hpermLen, header, -, ⟨oldSol, oldMints⟩, hold, sol, hsol,
    mints, hmintCaps, capsLen, hcapsLen, extra, hextra, newLen, hnewLen, bank₁, htop, bank₂, hresize, bank₃, hrefund,
    data₁, hversion, data₂, hwrite, rfl⟩ := h
  rw [hs.storedCaps] at hold
  cases hold
  obtain ⟨hmintOk, hdistinct⟩ := checkMintCaps_iff.1 hmints
  have hsaved : Saved args rt.unixTimestamp l.policy ⟨sol, mints, args.programPermissions⟩ :=
    ⟨(saveSolCap_ok hsol).1, (saveSolCap_ok hsol).2, (forall₂_of_mapM hmintCaps).imp fun c m hm => saveMintCap_ok hm, rfl⟩
  have hfour := four_le_encodePermissions args.programPermissions
  have hlen : newLen = baseLen + mints.length * mintCapSize + ((encodePermissions args.programPermissions).length - 4) := by
    rw [subUsize, if_pos hfour] at hextra
    cases hextra
    rw [checkedUsize_eq_some hnewLen, withMintCount_ok hcapsLen]
  have hresized := resized_of_save hrt hs (by omega) htop hresize hrefund
  rw [hlen] at hresized
  obtain ⟨data, hdata, hcount, hwritten⟩ := hresized.write sol hfour walletPolicyVersion
  rw [hdata] at hversion
  cases hversion
  rw [hwritten] at hwrite
  cases hwrite
  have hsound : Policy.Sound ⟨sol, mints, args.programPermissions⟩ :=
    hsaved.sound hs.sound hmintOk hdistinct ⟨hpermissions, hpermLen⟩ hcount
  refine ⟨_, hsaved, ?_⟩
  rw [setData_self]
  refine ⟨hresized.owner, rfl, hs.version, rfl, fun p hp => (by cases hp; exact hsound), ?_⟩
  have hl : PolicyLayout (policyBytes (headBytes { l.header with policyVersion := walletPolicyVersion }) sol mints
      (encodePermissions args.programPermissions)) _ sol mints _ := ⟨rfl, length_headBytes _, hcount, hfour⟩
  have hmax := hresized.length_le
  have hbase : baseLen = mintsOffset + 4 := rfl
  simp only [hl.length_eq]
  omega

/-- `clear_wallet_policy` needs a policy and removes it. -/
theorem clearWalletPolicy_stored {accounts : ClearWalletPolicy} (hs : Stored (bank accounts.authorityAccount.key) l)
    (h : clearWalletPolicy rt accounts bank = .ok bank') : l.policy ≠ none ∧
      Stored (bank' accounts.authorityAccount.key) ⟨l.header.withPolicy false, none⟩ := by
  simp only [clearWalletPolicy, bind_eq_ok, require_eq_ok, pure_eq_ok, okOr_eq_ok] at h
  obtain ⟨_, -, _, -, _, -, header, hauth, _, habsent, refund, -, balance, -, data₀, hresize, data₁, hversion, data₂,
    hwrite, rfl⟩ := h
  have hheader : header = l.header := by
    simp only [authorizeAuthoritySigner, assertCanonicalAuthorityPda, readAuthorityHeader, bind_eq_ok, pure_eq_ok] at hauth
    obtain ⟨_, ⟨_, ⟨_, -, hread⟩, _, -, rfl⟩, _, -, rfl⟩ := hauth
    exact Except.ok.inj (hread.symm.trans hs.readHeader)
  obtain ⟨rest, hdata, -⟩ := hs.head
  rw [hdata] at hresize
  obtain ⟨hhead, hlen, hmax⟩ := resize_head le_rfl hresize
  have hresized : Resized ⟨0, crateId, data₀⟩ l.header
      (baseLen + ([] : List MintCap).length * mintCapSize + (([0, 0, 0, 0] : Bytes).length - 4)) :=
    ⟨rfl, hhead, hlen, hmax⟩
  obtain ⟨data, hdata', -, hwritten⟩ := hresized.write .empty le_rfl 0
  rw [hdata'] at hversion
  cases hversion
  rw [hwritten] at hwrite
  cases hwrite
  constructor
  · intro hnone
    refine habsent ⟨?_, ?_, ?_⟩
    · rw [hheader, hs.policyVersion, hnone]
      rfl
    · rw [hs.bytes_absent hnone, List.length_append, length_headBytes, List.length_replicate]
      rfl
    · rw [hs.bytes_absent hnone, sliceFrom, ← length_headBytes l.header, List.drop_left]
      rfl
  · refine ⟨by simp [hs.owner], by simp only [setLamports_data, setData_self]; rfl, hs.version, rfl,
      fun p hp => (by cases hp), ?_⟩
    simp only [setLamports_data, setData_self, policyBytes_empty, List.length_append, length_headBytes,
      List.length_replicate]
    decide

/-- What the charges make of a policy. -/
theorem charged_sound {p : Policy} {spent : Nat → UInt64} {solSpent : UInt64} {limits : Bool} {now : Int64}
    {sol' : SpendCap} {mints' : List MintCap} (hp : p.Sound) (hsol : ChargedSol now solSpent limits p.sol sol')
    (hmints : ChargedCaps now spent p.mints mints') :
    SameLimits p ⟨sol', mints', p.permissions⟩ ∧ Policy.Sound ⟨sol', mints', p.permissions⟩ := by
  have hsol' : SameLimit p.sol sol' ∧ (sol' = .empty ∨ sol'.Sound) := by
    rcases hsol with ⟨hactive, hc⟩ | ⟨-, rfl, -⟩
    · refine ⟨(chargeCap_ok hc).1, Or.inr ?_⟩
      rcases hp.sol with hempty | hsound
      · rw [hempty] at hactive
        cases hactive
      · exact hsound.charge hc
    · exact ⟨.refl _, hp.sol⟩
  have hcaps : List.Forall₂ (fun m m' => m'.mint = m.mint ∧ ∃ amount, chargeCap m.cap amount now = .ok m'.cap)
      p.mints mints' := by
    refine List.forall₂_iff_get.2 ⟨hmints.length_eq.symm, fun i hi hi' => ?_⟩
    obtain ⟨cap, hcap, hget⟩ := hmints.charged i p.mints[i] (List.getElem?_eq_getElem hi)
    rw [List.getElem?_eq_getElem hi', Option.some.injEq] at hget
    simp only [List.get_eq_getElem, hget]
    exact ⟨trivial, spent i, hcap⟩
  have hkeys : mints'.map MintCap.mint = p.mints.map MintCap.mint := by
    refine List.forall₂_eq_eq_eq ▸ List.forall₂_map_left_iff.2 (List.forall₂_map_right_iff.2 ?_)
    exact (hcaps.imp fun m m' hm => hm.1.symm).flip.imp fun m' m hm => hm.symm
  refine ⟨⟨hsol'.1, hcaps.imp fun m m' ⟨hm, amount, hc⟩ => ⟨hm, (chargeCap_ok hc).1⟩, rfl⟩,
    hsol'.2, fun m' hm' => ?_, hkeys ▸ hp.distinct, hp.permissions, by rw [hmints.length_eq]; exact hp.mints_length⟩
  obtain ⟨i, hi⟩ := List.getElem?_of_mem hm'
  obtain ⟨hlt, rfl⟩ := List.getElem?_eq_some_iff.1 hi
  have hlt' : i < p.mints.length := by rw [← hmints.length_eq]; exact hlt
  obtain ⟨hmint, amount, hc⟩ := (List.forall₂_iff_get.1 hcaps).2 i hlt' hlt
  obtain ⟨hdefault, hwsol, hsound⟩ := hp.mints _ (List.getElem_mem hlt')
  simp only [List.get_eq_getElem] at hmint hc
  rw [hmint]
  exact ⟨hdefault, hwsol, hsound.charge hc⟩

/-- A policied execute changes what is left of the caps, and nothing else of the account. -/
theorem executePolicied_stored (hrt : rt.Lawful) {token wallet : Pubkey} {walletBump : UInt8}
    {remaining : List AccountInfo} {compacts : List CompactInstruction} {x : Executed} (hs : Stored (bank key) l)
    (h : executePolicied rt token wallet key walletBump l.policy.isSome remaining compacts bank = .ok x) :
    ∃ policy, Stored (x.bank key) ⟨l.header, policy⟩ ∧ Option.Rel SameLimits l.policy policy := by
  cases hp : l.policy with
  | none =>
    rw [hp] at h
    simp only [executePolicied, Option.isSome_none, Bool.false_eq_true, if_false, bind_eq_ok, pure_eq_ok] at h
    obtain ⟨after, hcpis, rfl⟩ := h
    have hsame : after key = bank key := executeCompactInstructions_frame hrt.invokeSigned hcpis (Or.inr (by simp))
    refine ⟨none, ?_, .none⟩
    obtain ⟨header, policy⟩ := l
    cases hp
    simp only [hsame]
    exact hs
  | some p =>
    rw [hp] at h
    obtain ⟨sol, mints, permissions, after, charges, data, hread, hcpis, hmeasure, happly, rfl⟩ := executePolicied_ok h
    have hsame : after key = bank key := executeCompactInstructions_frame hrt.invokeSigned hcpis (Or.inr (by simp))
    rw [hs.readPolicy hp] at hread
    cases hread
    have hm := measureDeltas_ok hmeasure
    have hlimits : p.sol.isActive = true → limitsActive p.sol p.mints = true := fun h => by simp [limitsActive, h]
    have hl := hs.layout hp
    rw [hsame] at happly
    obtain ⟨sol', mints', hsol, hmints, rfl⟩ := (applyCharges_iff (readPolicyMut_iff.2 ⟨_, _, hl⟩) rfl hlimits hm.slots_lt
      hm.slots_nodup).1 happly
    obtain ⟨hlim, hsound⟩ := charged_sound (hs.sound p hp) hsol hmints
    have hl' : PolicyLayout (storePolicyMut (bank key).data sol' mints') _ sol' mints' _ :=
      storePolicyMut_layout hl hmints.length_eq
    refine ⟨some ⟨sol', mints', p.permissions⟩, ?_, .some hlim⟩
    simp only [setData_self, hsame]
    refine ⟨hs.owner, hl'.eq, hs.version, ?_, fun q hq => by cases hq; exact hsound, ?_⟩
    · rw [hs.policyVersion, hp]
      rfl
    · simp only [hl'.length_eq, hmints.length_eq]
      rw [← hl.length_eq]
      exact hs.length_le

end Sizes

end PhygitalWallet
