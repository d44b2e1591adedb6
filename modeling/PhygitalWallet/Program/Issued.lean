import PhygitalWallet.Program.Binding
import PhygitalWallet.Program.Entry

/-!
# The CPIs of a call

What each execute handler has handed to `invoke_signed` when it returns, with or without an error.

- `issued_at`: every CPI is what one compact instruction stands for, in order;
- `issued_execute`: an execute that a tap authorizes issues nothing before its `Verify`;
- `run_issued`: a call that is accepted has issued all of them.
-/

namespace PhygitalWallet

/-- The checks of `execute_with_authority` before its CPIs. -/
def authorizeExecute (rt : Runtime) (accounts : ExecuteWithAuthority) (bank : Bank) : Result AuthorityHeader := do
  accounts.validate rt false bank
  requireTopLevel rt
  rejectDurableNonce rt (bank accounts.instructionsSysvar.key).data
  let header ← authorizeAuthoritySigner rt accounts.authorityAccount.key (bank accounts.authorityAccount.key)
    accounts.authority.key crateId
  require (header.phygitalToken = accounts.phygitalToken.key) .authorityTokenMismatch
  return header

/-- The checks of `execute_with_authority_using_policies` before the snapshot. -/
def authorizePolicied (rt : Runtime) (accounts : ExecuteWithAuthority) (bank : Bank) : Result (AuthorityHeader × Bool) := do
  accounts.validate rt true bank
  requireTopLevel rt
  rejectDurableNonce rt (bank accounts.instructionsSysvar.key).data
  let (header, policyPresent) ← Authority.read (bank accounts.authorityAccount.key).data
  requireCanonicalAuthorityAddress rt accounts.authorityAccount.key header crateId
  require (header.authority = accounts.authority.key) .authorityMismatch
  require (header.phygitalToken = accounts.phygitalToken.key) .authorityTokenMismatch
  return (header, policyPresent)

/-- The wallet that signs the CPIs of a call. -/
def ExecuteHandler.walletKey : ExecuteHandler → Pubkey
  | .execute accounts _ _ => accounts.wallet.key
  | .executeWithAuthority accounts | .executeWithAuthorityUsingPolicies accounts => accounts.wallet.key

section Sizes

variable [HeapSizes]

/-- What a call has handed to `invoke_signed`. -/
def ExecuteCall.issued (rt : Runtime) (call : ExecuteCall) (bank : Bank) : List Instruction :=
  match call.handler with
  | .execute accounts args slotNumber =>
    executeIssued rt accounts call.remaining call.compactInstructions args slotNumber bank
  | .executeWithAuthority accounts =>
    match authorizeExecute rt accounts bank with
    | .ok header => policiedIssued rt accounts.phygitalToken.key accounts.wallet.key accounts.authorityAccount.key
        header.walletBump false call.remaining call.compactInstructions bank
    | .error _ => []
  | .executeWithAuthorityUsingPolicies accounts =>
    match authorizePolicied rt accounts bank with
    | .ok (header, policyPresent) => policiedIssued rt accounts.phygitalToken.key accounts.wallet.key
        accounts.authorityAccount.key header.walletBump policyPresent call.remaining call.compactInstructions bank
    | .error _ => []

theorem policiedIssued_at {rt : Runtime} {token wallet authorityAccount : Pubkey} {walletBump : UInt8}
    {policyPresent : Bool} {remaining : List AccountInfo} {compacts : List CompactInstruction} {bank : Bank} {j : Nat}
    {cpi : Instruction} (h : (policiedIssued rt token wallet authorityAccount walletBump policyPresent remaining compacts
      bank)[j]? = some cpi) :
    ∃ compact, compacts[j]? = some compact ∧ builtInstruction wallet remaining compact = some cpi := by
  have hat : ∀ permissions, ((issueCompactInstructions rt crateId wallet walletBump token [token, authorityAccount]
      remaining compacts permissions bank).issued.map Prod.snd)[j]? = some cpi →
      ∃ compact, compacts[j]? = some compact ∧ builtInstruction wallet remaining compact = some cpi := by
    intro permissions hissued
    rw [List.getElem?_map, Option.map_eq_some_iff] at hissued
    obtain ⟨⟨b, _⟩, hissued, rfl⟩ := hissued
    obtain ⟨-, compact, hcompact, hprep⟩ := gate_issued compacts bank hissued
    exact ⟨compact, hcompact, (prepareInstruction_iff.1 hprep).1⟩
  unfold policiedIssued at h
  dsimp only at h
  split at h
  · split at h
    · exact hat _ h
    · cases h
  · exact hat _ h

/-- **The CPIs of a call**, in order. -/
theorem issued_at {rt : Runtime} {call : ExecuteCall} {bank : Bank} {j : Nat} {cpi : Instruction}
    (h : (call.issued rt bank)[j]? = some cpi) : ∃ compact, call.compactInstructions[j]? = some compact ∧
      builtInstruction call.handler.walletKey call.remaining compact = some cpi := by
  unfold ExecuteCall.issued at h
  cases hhandler : call.handler with
  | execute accounts args slotNumber =>
    simp only [hhandler, executeIssued] at h
    split at h
    · exact policiedIssued_at h
    · cases h
  | executeWithAuthority accounts =>
    simp only [hhandler] at h
    split at h
    · exact policiedIssued_at h
    · cases h
  | executeWithAuthorityUsingPolicies accounts =>
    simp only [hhandler] at h
    split at h
    · exact policiedIssued_at h
    · cases h

/-- A tap is verified before anything is issued. -/
theorem issued_execute {rt : Runtime} {call : ExecuteCall} {bank : Bank} {accounts : Execute} {args : Secp256r1VerifyArgs}
    {slotNumber : UInt64} (hhandler : call.handler = .execute accounts args slotNumber) {j : Nat} {cpi : Instruction}
    (h : (call.issued rt bank)[j]? = some cpi) :
    ∃ messageHash after, rt.verify accounts.phygitalToken.key args messageHash bank = .ok after := by
  unfold ExecuteCall.issued executeIssued at h
  rw [hhandler] at h
  dsimp only at h
  split at h
  · next hverify =>
    obtain ⟨messageHash, -, hafter⟩ := messageHashOf_eq_ok hverify
    exact ⟨messageHash, _, hafter⟩
  · cases h

/-- **An accepted call** has issued what all of its compact instructions stand for. -/
theorem run_issued {rt : Runtime} {call : ExecuteCall} {bank : Bank} {executed : Executed}
    (h : call.run rt bank = .ok executed) :
    resolvedInstructions call.handler.walletKey call.remaining call.compactInstructions = some (call.issued rt bank) := by
  unfold ExecuteCall.run at h
  unfold ExecuteCall.issued
  cases hhandler : call.handler with
  | execute accounts args slotNumber =>
    simp only [hhandler] at h ⊢
    exact execute_issued h
  | executeWithAuthority accounts =>
    simp only [hhandler] at h ⊢
    simp only [executeWithAuthority, bind_eq_ok] at h
    obtain ⟨_, hvalid, _, htop, _, hnonce, header, hheader, _, htoken, after, hcpis, -⟩ := h
    have hauth : authorizeExecute rt accounts bank = .ok header := by
      simp only [authorizeExecute, hvalid, htop, hnonce, hheader, htoken, ok_bind]
      rfl
    rw [hauth]
    exact executeCompactInstructions_issued hcpis
  | executeWithAuthorityUsingPolicies accounts =>
    simp only [hhandler] at h ⊢
    simp only [executeWithAuthorityUsingPolicies, bind_eq_ok] at h
    obtain ⟨_, hvalid, _, htop, _, hnonce, ⟨header, policyPresent⟩, hread, _, hcanonical, _, hauthority, _, htoken, hrun⟩ := h
    have hauth : authorizePolicied rt accounts bank = .ok (header, policyPresent) := by
      simp only [authorizePolicied, hvalid, htop, hnonce, hread, hcanonical, hauthority, htoken, ok_bind]
      rfl
    rw [hauth]
    exact policiedIssued_eq hrun

end Sizes

end PhygitalWallet
