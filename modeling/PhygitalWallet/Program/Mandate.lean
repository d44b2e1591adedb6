import PhygitalWallet.Program.Issued
import PhygitalWallet.Program.SpendRun
import PhygitalWallet.Program.RentRun

/-!
# Who decides about a wallet

The passkey of a token appoints an authority. From then on the authority alone sets and clears the limits and resigns, and
the authority and the passkey spend. `Entitled` says so without accounts and bytes.

- `Entitled`, `mandate_history`: the abstract machine, and where a mandate comes from;
- `Attests`: what a call shows for the deed that it is;
- `WalletStep.permitted`: one call;
- `who_decides`: every run of the program is one of the abstract machine.
-/

namespace PhygitalWallet

open ByteSeq Runs

/-! ## Mandates -/

/-- The limits of a policy, without what was charged. -/
structure Limits where
  sol : Option (UInt64 × Int64)
  mints : List (Pubkey × UInt64 × Int64)
  permissions : List ProgramPermission
deriving DecidableEq, Repr

/-- An active policy without limits. -/
def Limits.unlimited : Limits := ⟨none, [], []⟩

/-- What an authority account stands for. -/
structure Mandate where
  token : Pubkey
  authority : Pubkey
  limits : Option Limits
deriving DecidableEq, Repr

inductive Actor
  | passkey (token : Pubkey)
  | authority (key : Pubkey)
deriving DecidableEq, Repr

inductive Deed
  | appoint (authority : Pubkey)
  | limit (limits : Limits)
  | unlimit
  | spend (cpis : List Instruction)
  | resign
deriving DecidableEq, Repr

/-- The limits that a deed leaves, where it is about them. -/
def limitsLeft : Option (Actor × Deed) → Option (Option Limits)
  | some (_, .appoint _) => some (some .unlimited)
  | some (_, .limit limits) => some (some limits)
  | some (_, .unlimit) => some none
  | some (_, .spend _) | some (_, .resign) | none => none

/-- Who may do what; `none` is what happens elsewhere. -/
inductive Entitled : Option (Actor × Deed) → Option Mandate → Option Mandate → Prop
  | idle {m : Option Mandate} : Entitled none m m
  | appoint {token authority : Pubkey} :
      Entitled (some (.passkey token, .appoint authority)) none (some ⟨token, authority, some .unlimited⟩)
  | limit {m : Mandate} {actor : Actor} {limits : Limits} (hactor : actor = .authority m.authority) :
      Entitled (some (actor, .limit limits)) (some m) (some { m with limits := some limits })
  | unlimit {m : Mandate} {actor : Actor} (hactor : actor = .authority m.authority) :
      Entitled (some (actor, .unlimit)) (some m) (some { m with limits := none })
  | spend {m : Mandate} {actor : Actor} {cpis : List Instruction}
      (hactor : actor = .passkey m.token ∨ actor = .authority m.authority) :
      Entitled (some (actor, .spend cpis)) (some m) (some m)
  | resign {m : Mandate} {actor : Actor} (hactor : actor = .authority m.authority) :
      Entitled (some (actor, .resign)) (some m) none

/-- A deed under a mandate that goes on. -/
def Mandate.Admits (m : Mandate) : Actor × Deed → Prop
  | (actor, .spend _) => actor = .passkey m.token ∨ actor = .authority m.authority
  | (actor, .limit _) | (actor, .unlimit) => actor = .authority m.authority
  | (_, .appoint _) | (_, .resign) => False

/-- **Where a mandate comes from.** The passkey appointed the authority, which has not resigned; since then the authority
set the limits, and it or the passkey spent; and the limits are those set last. -/
theorem mandate_history {ls : List (Option (Actor × Deed))} {m : Mandate} (hrun : Run Entitled none ls (some m)) :
    (∃ pre post, ls = pre ++ some (.passkey m.token, .appoint m.authority) :: post ∧
      ∀ d ∈ post, ∀ act, d = some act → m.Admits act) ∧
    lastMatch limitsLeft ls = some m.limits := by
  have hall : ∀ ls m', Run Entitled none ls m' → ∀ m, m' = some m →
      (∃ pre post, ls = pre ++ some (.passkey m.token, .appoint m.authority) :: post ∧
        ∀ d ∈ post, ∀ act, d = some act → m.Admits act) ∧
      lastMatch limitsLeft ls = some m.limits := by
    intro ls m' hrun
    induction hrun with
    | nil => rintro m ⟨⟩
    | @snoc ls m₁ d m₂ _ hstep ih =>
      -- the earlier deeds were done under the same token and authority
      have hkeep : ∀ (m m' : Mandate) d, m₁ = some m → m'.token = m.token → m'.authority = m.authority →
          (∀ act, d = some act → m'.Admits act) →
          ∃ pre post, ls ++ [d] = pre ++ some (.passkey m'.token, .appoint m'.authority) :: post ∧
            ∀ d ∈ post, ∀ act, d = some act → m'.Admits act := by
        intro m m' d hm htoken hauthority hd
        obtain ⟨⟨pre, post, rfl, hpost⟩, -⟩ := ih m hm
        refine ⟨pre, post ++ [d], by rw [htoken, hauthority, List.append_assoc, List.cons_append], fun d' hd' act hact => ?_⟩
        rcases List.mem_append.1 hd' with hd' | hd'
        · have hadmits := hpost d' hd' act hact
          obtain ⟨actor, deed⟩ := act
          unfold Mandate.Admits at hadmits ⊢
          rw [htoken, hauthority]
          exact hadmits
        · rw [List.mem_singleton.1 hd'] at hact
          exact hd act hact
      intro m hm
      subst hm
      cases hstep with
      | idle => exact ⟨hkeep m m _ rfl rfl rfl (by simp), by rw [lastMatch_snoc_none rfl]; exact (ih m rfl).2⟩
      | appoint => exact ⟨⟨ls, [], rfl, by simp⟩, lastMatch_snoc_some (p := limitsLeft) rfl ls⟩
      | @limit m₁ _ _ hactor =>
        exact ⟨hkeep m₁ _ _ rfl rfl rfl (by rintro _ ⟨⟩; exact hactor), lastMatch_snoc_some (p := limitsLeft) rfl ls⟩
      | @unlimit m₁ _ hactor =>
        exact ⟨hkeep m₁ _ _ rfl rfl rfl (by rintro _ ⟨⟩; exact hactor), lastMatch_snoc_some (p := limitsLeft) rfl ls⟩
      | spend hactor =>
        refine ⟨hkeep m m _ rfl rfl rfl (by rintro _ ⟨⟩; exact hactor), ?_⟩
        rw [lastMatch_snoc_none rfl]
        exact (ih m rfl).2
  exact hall _ _ hrun m rfl

/-! ## Calls -/

/-- A call of the program. -/
inductive WalletCall
  | rent (call : RentCall)
  | execute (call : ExecuteCall)
deriving DecidableEq, Repr

def ExecuteHandler.key : ExecuteHandler → Pubkey
  | .execute accounts _ _ => accounts.authorityAccount.key
  | .executeWithAuthority accounts | .executeWithAuthorityUsingPolicies accounts => accounts.authorityAccount.key

/-- The authority account of a call. -/
def WalletCall.key : WalletCall → Pubkey
  | .rent call => call.key
  | .execute call => call.handler.key

section Sizes

variable [HeapSizes]

def WalletCall.run (rt : Runtime) (call : WalletCall) (bank : Bank) : Result Bank :=
  match call with
  | .rent call => call.run rt bank
  | .execute call => Executed.bank <$> call.run rt bank

/-- A call on the account at `key`, or what leaves the account alone. -/
inductive WalletStep (key : Pubkey) : Option (Runtime × WalletCall) → Bank → Bank → Prop
  | call {rt : Runtime} {call : WalletCall} {bank bank' : Bank} (hrt : rt.Lawful) (hkey : call.key = key)
      (h : call.run rt bank = .ok bank') : WalletStep key (some (rt, call)) bank bank'
  | elsewhere {bank bank' : Bank} (h : (bank' key).owner = (bank key).owner ∧ (bank' key).data = (bank key).data) :
      WalletStep key none bank bank'

end Sizes

/-- The limits that a save asks for. -/
def WalletPolicyArgs.limits (args : WalletPolicyArgs) : Limits where
  sol := args.solCap.map fun c => (c.cap, c.windowSeconds)
  mints := args.mintCaps.map fun c => (c.mint, c.cap, c.windowSeconds)
  permissions := args.programPermissions

/-- What a call shows for the deed that it is: the `Verify` of the passkey over a challenge that names the deed, or the
signature of the authority. -/
inductive Attests : Option (Runtime × WalletCall) → Option (Actor × Deed) → Prop
  | elsewhere : Attests none none
  | appoint {rt : Runtime} {accounts : SetAuthority} {authority : Pubkey} {args : Secp256r1VerifyArgs} {slotNumber : UInt64}
      {data slotHash : Bytes} {before after : Bank} (hslot : fetchSlotHash data slotNumber = .ok slotHash)
      (hverify : rt.verify accounts.phygitalToken.key args
        (buildSetAuthorityChallenge rt slotHash accounts.phygitalToken.key authority) before = .ok after) :
      Attests (some (rt, .rent (.setAuthority accounts authority args slotNumber)))
        (some (.passkey accounts.phygitalToken.key, .appoint authority))
  | limit {rt : Runtime} {accounts : SetWalletPolicy} {args : WalletPolicyArgs}
      (hsigner : accounts.authority.isSigner = true) :
      Attests (some (rt, .rent (.setWalletPolicy accounts args)))
        (some (.authority accounts.authority.key, .limit args.limits))
  | unlimit {rt : Runtime} {accounts : ClearWalletPolicy} (hsigner : accounts.authority.isSigner = true) :
      Attests (some (rt, .rent (.clearWalletPolicy accounts))) (some (.authority accounts.authority.key, .unlimit))
  | resign {rt : Runtime} {accounts : ClearAuthority} (hsigner : accounts.authority.isSigner = true) :
      Attests (some (rt, .rent (.clearAuthority accounts))) (some (.authority accounts.authority.key, .resign))
  | tap {rt : Runtime} {accounts : Execute} {args : Secp256r1VerifyArgs} {slotNumber : UInt64}
      {remaining : List AccountInfo} {compacts : List CompactInstruction} {data slotHash message : Bytes} {before after : Bank}
      {cpis : List Instruction} (hslot : fetchSlotHash data slotNumber = .ok slotHash)
      (hmessage : executeMessageHash rt slotHash remaining compacts = .ok message)
      (hverify : rt.verify accounts.phygitalToken.key args message before = .ok after)
      (hcpis : resolvedInstructions accounts.wallet.key remaining compacts = some cpis) :
      Attests (some (rt, .execute ⟨.execute accounts args slotNumber, remaining, compacts⟩))
        (some (.passkey accounts.phygitalToken.key, .spend cpis))
  | signed {rt : Runtime} {accounts : ExecuteWithAuthority} {handler : ExecuteHandler} {remaining : List AccountInfo}
      {compacts : List CompactInstruction} {cpis : List Instruction}
      (hhandler : handler = .executeWithAuthority accounts ∨ handler = .executeWithAuthorityUsingPolicies accounts)
      (hsigner : accounts.authority.isSigner = true)
      (hcpis : resolvedInstructions accounts.wallet.key remaining compacts = some cpis) :
      Attests (some (rt, .execute ⟨handler, remaining, compacts⟩))
        (some (.authority accounts.authority.key, .spend cpis))

/-! ## What an account stands for -/

def SpendCap.limit (c : SpendCap) : UInt64 × Int64 := (c.cap, c.windowSeconds)

def Policy.limits (p : Policy) : Limits where
  sol := if p.sol.isActive then some p.sol.limit else none
  mints := p.mints.map fun m => (m.mint, m.cap.limit)
  permissions := p.permissions

theorem SameLimit.limit_eq {c c' : SpendCap} (h : SameLimit c c') : c'.limit = c.limit := Prod.ext h.1 h.2

theorem SameLimits.limits_eq {p p' : Policy} (h : SameLimits p p') : p'.limits = p.limits := by
  have hactive : p'.sol.isActive = p.sol.isActive := by simp only [SpendCap.isActive, h.sol.1]
  have hmints : p'.mints.map (fun m => (m.mint, m.cap.limit)) = p.mints.map fun m => (m.mint, m.cap.limit) := by
    refine List.forall₂_eq_eq_eq ▸ List.forall₂_map_left_iff.2 (List.forall₂_map_right_iff.2 (List.Forall₂.flip ?_))
    exact h.mints.imp fun m m' hm => Prod.ext hm.1 hm.2.limit_eq
  simp only [Policy.limits, hactive, h.sol.limit_eq, hmints, h.permissions]

theorem limits_map_eq {o o' : Option Policy} (h : Option.Rel SameLimits o o') :
    o'.map Policy.limits = o.map Policy.limits := by
  cases h with
  | none => rfl
  | some h => exact congrArg some h.limits_eq

/-- A save leaves the limits that were asked for. -/
theorem Saved.limits_eq {args : WalletPolicyArgs} {now : Int64} {old : Option Policy} {p : Policy}
    (h : Saved args now old p) : p.limits = args.limits := by
  have hsol : (if p.sol.isActive then some p.sol.limit else none) = args.solCap.map fun c => (c.cap, c.windowSeconds) := by
    cases hs : args.solCap with
    | none => rw [h.noSol hs]; rfl
    | some s =>
      have hsaved := h.sol s hs
      obtain ⟨-, hcap, hwindow⟩ := hsaved.limit
      rw [if_pos hsaved.isActive, SpendCap.limit, hcap, hwindow]
      rfl
  have hmints : args.mintCaps.map (fun c => (c.mint, c.cap, c.windowSeconds)) =
      p.mints.map fun m => (m.mint, m.cap.limit) := by
    refine List.forall₂_eq_eq_eq ▸ List.forall₂_map_left_iff.2 (List.forall₂_map_right_iff.2 ?_)
    refine h.mints.imp fun c m hm => ?_
    obtain ⟨-, hcap, hwindow⟩ := hm.2.limit
    exact Prod.ext hm.1.symm (Prod.ext hcap.symm hwindow.symm)
  rw [Policy.limits, WalletPolicyArgs.limits, hsol, ← hmints, h.permissions]

section Sizes

variable [HeapSizes]

/-- The account stands for the mandate; without one there is no account of this program, and no data at its address. -/
def StandsFor : Option Mandate → Account → Prop
  | none, account => account.owner ≠ crateId ∧ account.data = []
  | some m, account => ∃ l, Stored account l ∧
      m = ⟨l.header.phygitalToken, l.header.authority, l.policy.map Policy.limits⟩

section Guards

variable {rt : Runtime} {bank bank' : Bank} {l : Life} {m : Option Mandate} {key : Pubkey} {account : Account}

theorem StandsFor.stored (h : StandsFor m account) (howner : account.owner = crateId) :
    ∃ l, Stored account l ∧ m = some ⟨l.header.phygitalToken, l.header.authority, l.policy.map Policy.limits⟩ := by
  cases m with
  | none => exact absurd howner h.1
  | some m =>
    obtain ⟨l, hs, rfl⟩ := h
    exact ⟨l, hs, rfl⟩

theorem Stored.readAuthorityHeader (hs : Stored account l) : readAuthorityHeader account = .ok l.header := by
  rw [PhygitalWallet.readAuthorityHeader, require_of hs.owner, ok_bind, hs.readHeader]

theorem Stored.authorized (hs : Stored account l) {signer programId : Pubkey} {header : AuthorityHeader}
    (h : authorizeAuthoritySigner rt key account signer programId = .ok header) :
    header = l.header ∧ l.header.authority = signer := by
  simp only [authorizeAuthoritySigner, assertCanonicalAuthorityPda, hs.readAuthorityHeader, ok_bind, bind_eq_ok,
    require_eq_ok, pure_eq_ok] at h
  obtain ⟨_, ⟨_, -, rfl⟩, _, hsigner, rfl⟩ := h
  exact ⟨rfl, hsigner⟩

omit [HeapSizes] in
/-- Without data there is nothing to read. -/
theorem read_nil : Authority.read [] = .error (.error .invalidAccountData) := rfl

end Guards

/-! ## One call -/

/-- The call is a deed that the mandate permits, and the account stands for what it leaves. -/
def Decided (call : Option (Runtime × WalletCall)) (m : Option Mandate) (account : Account) : Prop :=
  ∃ d m', Attests call d ∧ Entitled d m m' ∧ StandsFor m' account

section Calls

variable {rt : Runtime} {bank bank' : Bank} {m : Option Mandate} {key : Pubkey}

theorem setAuthority_decided (hrt : rt.Lawful) {accounts : SetAuthority} {authority : Pubkey} {args : Secp256r1VerifyArgs}
    {slotNumber : UInt64} (hm : StandsFor m (bank accounts.authorityAccount.key))
    (h : setAuthority rt accounts authority args slotNumber bank = .ok bank') :
    Decided (some (rt, .rent (.setAuthority accounts authority args slotNumber))) m
      (bank' accounts.authorityAccount.key) := by
  obtain ⟨hnew, hs⟩ := setAuthority_stored hrt h
  have hnone : m = none := by
    cases m with
    | none => rfl
    | some m =>
      obtain ⟨l, hl, -⟩ := hm
      exact absurd hl.owner hnew
  subst hnone
  simp only [setAuthority, bind_eq_ok] at h
  obtain ⟨created, -, _, -, _, -, slotHash, hslot, verified, hverify, -⟩ := h
  exact ⟨_, _, .appoint hslot hverify, .appoint, _, hs, rfl⟩

theorem setWalletPolicy_decided (hrt : rt.Lawful) {accounts : SetWalletPolicy} {args : WalletPolicyArgs}
    (hm : StandsFor m (bank accounts.authorityAccount.key)) (h : setWalletPolicy rt accounts args bank = .ok bank') :
    Decided (some (rt, .rent (.setWalletPolicy accounts args))) m (bank' accounts.authorityAccount.key) := by
  obtain ⟨l, hl, rfl⟩ := hm.stored (setWalletPolicy_owner h)
  obtain ⟨p, hsaved, hs⟩ := setWalletPolicy_stored hrt hl h
  simp only [setWalletPolicy, SetWalletPolicy.validate, bind_eq_ok, anchorRequire_eq_ok] at h
  obtain ⟨_, ⟨_, hsigner, -⟩, _, -, _, -, _, -, _, -, _, -, header, hauth, -⟩ := h
  obtain ⟨-, hauthority⟩ := hl.authorized hauth
  refine ⟨_, _, .limit hsigner, .limit (by rw [hauthority]), _, hs, ?_⟩
  simp [AuthorityHeader.withPolicy, hsaved.limits_eq]

theorem clearWalletPolicy_decided {accounts : ClearWalletPolicy} (hm : StandsFor m (bank accounts.authorityAccount.key))
    (h : clearWalletPolicy rt accounts bank = .ok bank') :
    Decided (some (rt, .rent (.clearWalletPolicy accounts))) m (bank' accounts.authorityAccount.key) := by
  obtain ⟨l, hl, rfl⟩ := hm.stored (clearWalletPolicy_owner h)
  obtain ⟨-, hs⟩ := clearWalletPolicy_stored hl h
  simp only [clearWalletPolicy, ClearWalletPolicy.validate, bind_eq_ok, anchorRequire_eq_ok] at h
  obtain ⟨_, ⟨_, hsigner, -⟩, _, -, _, -, header, hauth, -⟩ := h
  obtain ⟨-, hauthority⟩ := hl.authorized hauth
  exact ⟨_, _, .unlimit hsigner, .unlimit (by rw [hauthority]), _, hs, rfl⟩

theorem clearAuthority_decided {accounts : ClearAuthority} (hm : StandsFor m (bank accounts.authorityAccount.key))
    (h : clearAuthority rt accounts bank = .ok bank') :
    Decided (some (rt, .rent (.clearAuthority accounts))) m (bank' accounts.authorityAccount.key) := by
  have hgone : (bank' accounts.authorityAccount.key).owner ≠ crateId ∧ (bank' accounts.authorityAccount.key).data = [] := by
    rw [clearAuthority_cleared h]
    refine ⟨by decide, ?_⟩
    simp only [clearAuthority, bind_eq_ok, pure_eq_ok] at h
    obtain ⟨_, -, _, -, _, -, _, -, _, -, rfl⟩ := h
    rw [Function.update_self]
  simp only [clearAuthority, ClearAuthority.validate, bind_eq_ok, anchorRequire_eq_ok] at h
  obtain ⟨_, ⟨_, hsigner, -⟩, _, -, _, -, header, hauth, -⟩ := h
  obtain ⟨l, hl, rfl⟩ := hm.stored (authorizeAuthoritySigner_owner hauth)
  obtain ⟨-, hauthority⟩ := hl.authorized hauth
  exact ⟨_, _, .resign hsigner, .resign (by rw [hauthority]), hgone⟩

/-- What an execute leaves stands for the same mandate. -/
theorem standsFor_charged {account : Account} {l : Life} {policy : Option Policy} (hs : Stored account ⟨l.header, policy⟩)
    (hrel : Option.Rel SameLimits l.policy policy) :
    StandsFor (some ⟨l.header.phygitalToken, l.header.authority, l.policy.map Policy.limits⟩) account :=
  ⟨_, hs, by rw [limits_map_eq hrel]⟩

theorem execute_decided (hrt : rt.Lawful) {accounts : Execute} {remaining : List AccountInfo}
    {compacts : List CompactInstruction} {args : Secp256r1VerifyArgs} {slotNumber : UInt64} {x : Executed}
    (hm : StandsFor m (bank accounts.authorityAccount.key))
    (h : execute rt accounts remaining compacts args slotNumber bank = .ok x) :
    Decided (some (rt, .execute ⟨.execute accounts args slotNumber, remaining, compacts⟩)) m
      (x.bank accounts.authorityAccount.key) := by
  obtain ⟨l, hl, rfl⟩ := hm.stored (execute_owner h)
  obtain ⟨policy, hs, hrel⟩ := execute_stored hrt hl h
  have hcpis := execute_issued h
  simp only [execute, verifyExecute, bind_eq_ok] at h
  obtain ⟨_, ⟨_, -, _, -, ⟨header, present⟩, hread, _, -, _, htoken, slotHash, hslot, message, hmessage, verified, hverify,
    -⟩, -⟩ := h
  obtain ⟨rfl, -⟩ := hl.read_eq hread
  rw [require_eq_ok] at htoken
  rw [← htoken] at hverify
  have hattests : Attests _ _ := .tap hslot hmessage (htoken ▸ hverify) hcpis
  exact ⟨_, _, hattests, .spend (.inl (by rw [htoken])), standsFor_charged hs hrel⟩

theorem executeWithAuthority_decided (hrt : rt.Lawful) {accounts : ExecuteWithAuthority} {remaining : List AccountInfo}
    {compacts : List CompactInstruction} {x : Executed} (hm : StandsFor m (bank accounts.authorityAccount.key))
    (h : executeWithAuthority rt accounts remaining compacts bank = .ok x) :
    Decided (some (rt, .execute ⟨.executeWithAuthority accounts, remaining, compacts⟩)) m
      (x.bank accounts.authorityAccount.key) := by
  obtain ⟨l, hl, rfl⟩ := hm.stored (executeWithAuthority_owner h)
  have hs := executeWithAuthority_stored hrt hl h
  have hcpis := @run_issued _ rt ⟨.executeWithAuthority accounts, remaining, compacts⟩ bank x h
  simp only [executeWithAuthority, ExecuteWithAuthority.validate, bind_eq_ok, anchorRequire_eq_ok] at h
  obtain ⟨_, ⟨_, hsigner, -⟩, _, -, _, -, header, hauth, -⟩ := h
  obtain ⟨-, hauthority⟩ := hl.authorized hauth
  exact ⟨_, _, .signed (.inl rfl) hsigner hcpis, .spend (.inr (by rw [hauthority])), _, hs, rfl⟩

theorem executeWithAuthorityUsingPolicies_decided (hrt : rt.Lawful) {accounts : ExecuteWithAuthority}
    {remaining : List AccountInfo} {compacts : List CompactInstruction} {x : Executed}
    (hm : StandsFor m (bank accounts.authorityAccount.key))
    (h : executeWithAuthorityUsingPolicies rt accounts remaining compacts bank = .ok x) :
    Decided (some (rt, .execute ⟨.executeWithAuthorityUsingPolicies accounts, remaining, compacts⟩)) m
      (x.bank accounts.authorityAccount.key) := by
  have hcpis := @run_issued _ rt ⟨.executeWithAuthorityUsingPolicies accounts, remaining, compacts⟩ bank x h
  have hstored := fun l (hl : Stored (bank accounts.authorityAccount.key) l) =>
    executeWithAuthorityUsingPolicies_stored hrt hl h
  simp only [executeWithAuthorityUsingPolicies, ExecuteWithAuthority.validate, bind_eq_ok, anchorRequire_eq_ok,
    require_eq_ok] at h
  obtain ⟨_, ⟨_, hsigner, -⟩, _, -, _, -, ⟨header, present⟩, hread, _, -, _, hauthority, -⟩ := h
  cases m with
  | none =>
    -- there is nothing to read at the address
    rw [hm.2, read_nil] at hread
    cases hread
  | some m =>
    obtain ⟨l, hl, rfl⟩ := hm
    obtain ⟨policy, hs, hrel⟩ := hstored l hl
    obtain ⟨rfl, -⟩ := hl.read_eq hread
    exact ⟨_, _, .signed (.inr rfl) hsigner hcpis, .spend (.inr (by rw [hauthority])), standsFor_charged hs hrel⟩

/-- **One call** is a deed that the mandate permits. -/
theorem WalletStep.decided {call : Option (Runtime × WalletCall)} (hm : StandsFor m (bank key))
    (hstep : WalletStep key call bank bank') : Decided call m (bank' key) := by
  cases hstep with
  | elsewhere hsame =>
    refine ⟨none, m, .elsewhere, .idle, ?_⟩
    cases m with
    | none => exact ⟨hsame.1 ▸ hm.1, hsame.2.trans hm.2⟩
    | some m =>
      obtain ⟨l, hl, rfl⟩ := hm
      exact ⟨l, hl.congr hsame.1 hsame.2, rfl⟩
  | @call rt call _ _ hrt hkey h =>
    subst hkey
    cases call with
    | rent call =>
      cases call with
      | setAuthority accounts authority args slotNumber => exact setAuthority_decided hrt hm h
      | setWalletPolicy accounts args => exact setWalletPolicy_decided hrt hm h
      | clearWalletPolicy accounts => exact clearWalletPolicy_decided hm h
      | clearAuthority accounts => exact clearAuthority_decided hm h
    | execute call =>
      obtain ⟨handler, remaining, compacts⟩ := call
      obtain ⟨x, hx, rfl⟩ := map_eq_ok.1 h
      cases handler with
      | execute accounts args slotNumber => exact execute_decided hrt hm hx
      | executeWithAuthority accounts => exact executeWithAuthority_decided hrt hm hx
      | executeWithAuthorityUsingPolicies accounts => exact executeWithAuthorityUsingPolicies_decided hrt hm hx

end Calls

/-! ## Every run -/

/-- Every run is a run of deeds. -/
theorem walletRun_decided {key : Pubkey} {bank₀ bank : Bank} {calls : List (Option (Runtime × WalletCall))}
    (hnew : (bank₀ key).owner ≠ crateId ∧ (bank₀ key).data = []) (hrun : Run (WalletStep key) bank₀ calls bank) :
    ∃ deeds m, List.Forall₂ Attests calls deeds ∧ Run Entitled none deeds m ∧ StandsFor m (bank key) := by
  have hstart : StandsFor none (bank₀ key) := hnew
  have hsim : ∀ call b b' m, StandsFor m (b key) → WalletStep key call b b' → Decided call m (b' key) :=
    fun _ _ _ _ hm hstep => hstep.decided hm
  exact Run.simulates (R := fun m (bank : Bank) => StandsFor m (bank key)) hstart hsim hrun

/-- **Who decides about a wallet.** Every run of the program on an authority account, from before it was created, is a run
of deeds that the mandates permit, each call attesting its deed; and the account that is left stands for the mandate that
is left, whose authority the passkey of its token appointed and which has not resigned since. -/
theorem who_decides {key : Pubkey} {bank₀ bank : Bank} {calls : List (Option (Runtime × WalletCall))}
    (hnew : (bank₀ key).owner ≠ crateId ∧ (bank₀ key).data = []) (hrun : Run (WalletStep key) bank₀ calls bank) :
    ∃ deeds m, List.Forall₂ Attests calls deeds ∧ Run Entitled none deeds m ∧ StandsFor m (bank key) ∧
      ∀ m', m = some m' →
        (∃ pre post, deeds = pre ++ some (.passkey m'.token, .appoint m'.authority) :: post ∧
          ∀ d ∈ post, ∀ act, d = some act → m'.Admits act) ∧
        lastMatch limitsLeft deeds = some m'.limits := by
  obtain ⟨deeds, m, hattests, hentitled, hstands⟩ := walletRun_decided hnew hrun
  refine ⟨deeds, m, hattests, hentitled, hstands, ?_⟩
  rintro m' rfl
  exact mandate_history hentitled

end Sizes

/-! ## An authority that is appointed and limits the wallet -/

theorem who_decides_limited : ∃ bank deeds, Run (@WalletStep targetHeapSizes (.fill 7)) lifecycleBank
      [some (lifecycleRuntime, .rent (.setAuthority lifecycleSetAuthority (.fill 6) ⟨0, 0, []⟩ 3)),
        some (lifecycleRuntime, .rent (.setWalletPolicy lifecycleSetWalletPolicy lifecyclePolicy))] bank ∧
    Run Entitled none deeds (some ⟨.fill 8, .fill 6, some lifecyclePolicy.limits⟩) := by
  let _ := targetHeapSizes
  let created := setAuthority lifecycleRuntime lifecycleSetAuthority (.fill 6) ⟨0, 0, []⟩ 3 lifecycleBank
  let saved := setWalletPolicy lifecycleRuntime lifecycleSetWalletPolicy lifecyclePolicy (bankOf created)
  have hcreated : created = .ok (bankOf created) := eq_ok_bankOf (by decide +kernel)
  have hsaved : saved = .ok (bankOf saved) := eq_ok_bankOf (by decide +kernel)
  have hheader : (readHeader (bankOf saved (.fill 7)).data).map (fun h => (h.phygitalToken, h.authority)) =
      .ok (.fill 8, .fill 6) := by decide +kernel
  have hpolicy : (readPolicy (bankOf saved (.fill 7)).data).map (fun r => Policy.limits ⟨r.1, r.2.1, r.2.2⟩) =
      .ok lifecyclePolicy.limits := by decide +kernel
  have hread : (Authority.read (bankOf saved (.fill 7)).data).map Prod.snd = .ok true := by decide +kernel
  have howner : (bankOf saved (.fill 7)).owner = crateId := by decide +kernel
  have hrun : Run (WalletStep (.fill 7)) lifecycleBank
      [some (lifecycleRuntime, .rent (.setAuthority lifecycleSetAuthority (.fill 6) ⟨0, 0, []⟩ 3)),
        some (lifecycleRuntime, .rent (.setWalletPolicy lifecycleSetWalletPolicy lifecyclePolicy))] (bankOf saved) :=
    .snoc (.snoc .nil (.call lifecycleRuntime_lawful rfl hcreated)) (.call lifecycleRuntime_lawful rfl hsaved)
  obtain ⟨deeds, m, -, hentitled, hstands, -⟩ := who_decides (by decide +kernel) hrun
  obtain ⟨l, hl, rfl⟩ := hstands.stored howner
  rw [hl.readHeader] at hheader
  rw [hl.read] at hread
  cases hp : l.policy with
  | none => simp [hp, Except.map] at hread
  | some p =>
    rw [hl.readPolicy hp] at hpolicy
    refine ⟨_, deeds, hrun, ?_⟩
    simp only [Except.map, Except.ok.injEq, Prod.mk.injEq] at hheader hpolicy
    rw [hp, Option.map_some, hpolicy, hheader.1, hheader.2] at hentitled
    exact hentitled

end PhygitalWallet
