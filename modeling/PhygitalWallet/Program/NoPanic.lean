import PhygitalWallet.Program.Lifecycle

/-!
# The owner's handlers do not panic

Every slice of `state.rs`, and the one subtraction of `set_wallet_policy`, panics when it is out of range. On a stored
account none is: the reads check the length first, and the writes come after a resize to the length they fill.

- `setWalletPolicy_noPanic`, `clearWalletPolicy_noPanic`, `chargePolicyDeltas_noPanic`.
-/

namespace PhygitalWallet

open ByteSeq Borsh ListLoop

/-! ## Rules -/

/-- The operation ends with a value or an error. -/
def NoPanic {α : Type} (x : Result α) : Prop := x ≠ .error .panic

section Rules

variable {α β : Type}

/-- A value is no panic. -/
theorem NoPanic.ok (a : α) : NoPanic (.ok a : Result α) := fun h => by cases h

/-- A value is no panic. -/
theorem NoPanic.pure (a : α) : NoPanic (pure a : Result α) := fun h => by cases h

/-- What ends with a value does not panic. -/
theorem NoPanic.of_eq_ok {x : Result α} {a : α} (h : x = .ok a) : NoPanic x := by
  rw [h]
  exact .ok a

/-- A sequence does not panic where neither part does; the second part may use how the first ended. -/
theorem NoPanic.bind {x : Result α} {f : α → Result β} (hx : NoPanic x) (hf : ∀ a, x = .ok a → NoPanic (f a)) :
    NoPanic (x >>= f) := by
  cases x with
  | error e => exact fun h => hx (congrArg _ (Except.error.inj h))
  | ok a => exact hf a rfl

/-- Mapping a value panics nowhere new. -/
theorem NoPanic.map {x : Result α} {f : α → β} (hx : NoPanic x) : NoPanic (f <$> x) := by
  cases x with
  | error e => exact fun h => hx (congrArg _ (Except.error.inj h))
  | ok a => exact .ok _

/-- `require!` ends with an error. -/
theorem NoPanic.require (c : Prop) [Decidable c] (e : PhygitalError) : NoPanic (require c e) := by
  unfold PhygitalWallet.require
  split
  · exact .ok _
  · exact fun h => by cases h

/-- A constraint of Anchor ends with an error. -/
theorem NoPanic.anchorRequire (c : Prop) [Decidable c] (code : Nat) : NoPanic (anchorRequire c code) := by
  unfold PhygitalWallet.anchorRequire
  split
  · exact .ok _
  · exact fun h => by cases h

/-- A check of an optional field ends with an error. -/
theorem NoPanic.requireIfSome (o : Option α) (p : α → Prop) [DecidablePred p] (e : PhygitalError) :
    NoPanic (requireIfSome o p e) := by
  cases o with
  | none => exact .ok _
  | some a => exact .require _ e

/-- `ok_or` ends with an error. -/
theorem NoPanic.okOr (o : Option α) (e : PhygitalError) : NoPanic (okOr o e) := by
  cases o with
  | none => exact fun h => by cases h
  | some a => exact .ok a

/-- A loop does not panic where its body does not. -/
theorem NoPanic.foldlM {f : β → α → Result β} {l : List α} (h : ∀ b, ∀ a ∈ l, NoPanic (f b a)) (b : β) :
    NoPanic (l.foldlM f b) := by
  induction l generalizing b with
  | nil => exact .pure b
  | cons a l ih =>
    rw [List.foldlM_cons]
    exact (h b a List.mem_cons_self).bind fun c _ => ih (fun b x hx => h b x (List.mem_cons_of_mem _ hx)) c

/-- A mapped list does not panic where no item does. -/
theorem NoPanic.mapM {f : α → Result β} {l : List α} (h : ∀ a ∈ l, NoPanic (f a)) : NoPanic (l.mapM f) := by
  induction l with
  | nil => exact .pure []
  | cons a l ih =>
    rw [List.mapM_cons]
    exact (h a List.mem_cons_self).bind fun b _ =>
      (ih fun x hx => h x (List.mem_cons_of_mem _ hx)).bind fun bs _ => .pure _

/-- A range inside the data. -/
theorem NoPanic.rangeOf {data : Bytes} {a b : Nat} (hab : a ≤ b) (hb : b ≤ data.length) : NoPanic (rangeOf data a b) :=
  .of_eq_ok (orPanic_eq_ok.2 (getRange_of_le hab hb))

end Rules

/-! ## The guards -/

/-- The length is checked before the discriminator and the header are sliced. -/
theorem readHeaderMut_noPanic (data : Bytes) : NoPanic (readHeaderMut data) := by
  refine (NoPanic.require _ _).bind fun u hlen => ?_
  rw [require_eq_ok] at hlen
  have htag : discriminatorLen ≤ data.length := le_trans (by decide) hlen
  refine (NoPanic.rangeOf (Nat.zero_le _) htag).bind fun tag _ => ?_
  refine (NoPanic.require _ _).bind fun _ _ => ?_
  exact (NoPanic.rangeOf (by decide) hlen).bind fun bytes _ => .okOr _ _

/-- The header is read after the owner of the account is checked. -/
theorem readAuthorityHeader_noPanic (account : Account) : NoPanic (readAuthorityHeader account) :=
  (NoPanic.require _ _).bind fun _ _ => (readHeaderMut_noPanic _).bind fun _ _ =>
    (NoPanic.require _ _).bind fun _ _ => .pure _

/-- The constraints that the handlers of the owner share. -/
theorem validateOwnerAccounts_noPanic (rt : Runtime) (token receiver authorityAccount : AccountInfo) (bank : Bank) :
    NoPanic (validateOwnerAccounts rt token receiver authorityAccount bank) :=
  (NoPanic.anchorRequire _ _).bind fun _ _ => (NoPanic.require _ _).bind fun _ _ =>
  (readAuthorityHeader_noPanic _).bind fun _ _ => (NoPanic.require _ _).bind fun _ _ =>
  (NoPanic.require _ _).bind fun _ _ => (NoPanic.anchorRequire _ _).bind fun _ _ =>
  (NoPanic.anchorRequire _ _).bind fun _ _ => .anchorRequire _ _

/-- The instructions sysvar is read with a checked slice. -/
theorem rejectDurableNonce_noPanic (rt : Runtime) (sysvar : Bytes) : NoPanic (rejectDurableNonce rt sysvar) :=
  (NoPanic.okOr _ _).bind fun _ _ => .require _ _

/-- The header, the address and the signer are checked. -/
theorem authorizeAuthoritySigner_noPanic (rt : Runtime) (key : Pubkey) (account : Account) (signer programId : Pubkey) :
    NoPanic (authorizeAuthoritySigner rt key account signer programId) := by
  have hcanonical : ∀ header, NoPanic (requireCanonicalAuthorityAddress rt key header programId) := fun header =>
    (NoPanic.okOr _ _).bind fun _ _ => .require _ _
  refine ((readAuthorityHeader_noPanic _).bind fun _ _ => (hcanonical _).bind fun _ _ => .pure _).bind fun _ _ => ?_
  exact (NoPanic.require _ _).bind fun _ _ => .pure _

/-- The validator slices nothing. -/
theorem validatePermissions_noPanic [HeapSizes] (permissions : List ProgramPermission) :
    NoPanic (validatePermissions permissions) := by
  have hconstraint : ∀ c : DataConstraint, NoPanic c.validate := by
    intro c
    unfold DataConstraint.validate
    split <;> exact .require _ _
  have haccount : ∀ count n a, NoPanic (validateAccount count n a) := fun count n a =>
    (NoPanic.requireIfSome _ _ _).bind fun _ _ => (NoPanic.require _ _).bind fun _ _ =>
    (NoPanic.require _ _).bind fun _ _ => .foldlM (fun _ c _ => (hconstraint c).bind fun _ _ => .pure _) _
  have hrule : ∀ n r, NoPanic (validateRule n r) := fun n r =>
    (NoPanic.require _ _).bind fun _ _ => (NoPanic.require _ _).bind fun _ _ =>
    (NoPanic.requireIfSome _ _ _).bind fun _ _ =>
    (NoPanic.foldlM (fun _ c _ => (hconstraint c).bind fun _ _ => (NoPanic.requireIfSome _ _ _).bind fun _ _ => .pure _)
      _).bind fun _ _ => .foldlM (fun _ a _ => haccount _ _ a) _
  have hpermission : ∀ n e, NoPanic (validatePermission permissions n e) := by
    rintro n ⟨p, i⟩
    refine (NoPanic.require _ _).bind fun _ _ => (NoPanic.require _ _).bind fun _ _ => ?_
    split
    · exact (NoPanic.require _ _).bind fun _ _ => .foldlM (fun _ r _ => hrule _ r) _
    · exact .pure _
  exact (NoPanic.require _ _).bind fun _ _ => (NoPanic.foldlM (fun _ e _ => hpermission _ e) _).bind fun _ _ =>
    .require _ _

/-- The alignment to the window is checked arithmetic. -/
theorem newSpendCap_noPanic (cap : UInt64) (windowSeconds now : Int64) : NoPanic (newSpendCap cap windowSeconds now) := by
  refine (NoPanic.require _ _).bind fun _ _ => NoPanic.bind ?_ fun _ _ => .pure _
  unfold alignToWindow
  split
  · exact .pure _
  · exact (NoPanic.okOr _ _).bind fun _ _ => .okOr _ _

/-- The refill and the charge are checked arithmetic. -/
theorem chargeCap_noPanic (cap : SpendCap) (amount : UInt64) (now : Int64) : NoPanic (chargeCap cap amount now) := by
  have hrefill : NoPanic (refill cap now) := by
    unfold refill
    split
    · refine (NoPanic.okOr _ _).bind fun _ _ => ?_
      split
      · exact (NoPanic.okOr _ _).bind fun _ _ => (NoPanic.okOr _ _).bind fun _ _ => .pure _
      · exact .pure _
    · exact .pure _
  unfold chargeCap
  split
  · exact .pure _
  · exact hrefill.bind fun _ _ => (NoPanic.require _ _).bind fun _ _ => (NoPanic.okOr _ _).bind fun _ _ => .pure _

/-! ## The handlers -/

section Handlers

variable [HeapSizes] {rt : Runtime} {bank : Bank} {l : Life}

/-- **Saving a policy** on a stored account: the write fills exactly the length it was resized to. -/
theorem setWalletPolicy_noPanic (hrt : rt.Lawful) {accounts : SetWalletPolicy} (args : WalletPolicyArgs)
    (hs : Stored (bank accounts.authorityAccount.key) l) : NoPanic (setWalletPolicy rt accounts args bank) := by
  have hfour := four_le_encodePermissions args.programPermissions
  have hvalidate : NoPanic (accounts.validate rt bank) :=
    (NoPanic.anchorRequire _ _).bind fun _ _ => (NoPanic.anchorRequire _ _).bind fun _ _ =>
    (NoPanic.anchorRequire _ _).bind fun _ _ => (NoPanic.anchorRequire _ _).bind fun _ _ =>
    (NoPanic.anchorRequire _ _).bind fun _ _ => (validateOwnerAccounts_noPanic _ _ _ _ _).bind fun _ _ =>
    .anchorRequire _ _
  refine hvalidate.bind fun _ _ => (NoPanic.require _ _).bind fun _ _ => (rejectDurableNonce_noPanic _ _).bind fun _ _ => ?_
  refine (NoPanic.foldlM (fun _ e _ => (NoPanic.require _ _).bind fun _ _ => .require _ _) _).bind fun _ _ => ?_
  refine (validatePermissions_noPanic _).bind fun _ _ => (NoPanic.require _ _).bind fun _ _ => ?_
  refine (authorizeAuthoritySigner_noPanic _ _ _ _ _).bind fun _ _ => (NoPanic.of_eq_ok hs.storedCaps).bind fun old _ => ?_
  obtain ⟨oldSol, oldMints⟩ := old
  refine NoPanic.bind ?_ fun sol _ => NoPanic.bind ?_ fun mints _ => (NoPanic.okOr _ _).bind fun capsLen hcapsLen => ?_
  · unfold saveSolCap
    split
    · exact (newSpendCap_noPanic _ _ _).bind fun _ _ => .pure _
    · exact .pure _
  · exact .mapM fun c _ => (newSpendCap_noPanic _ _ _).bind fun _ _ => .pure _
  refine (NoPanic.of_eq_ok (if_pos hfour)).bind fun extra hextra => (NoPanic.okOr _ _).bind fun newLen hnewLen => ?_
  refine NoPanic.bind ?_ fun bank₁ htop => NoPanic.bind ?_ fun bank₂ hresize => NoPanic.bind ?_ fun bank₃ hrefund => ?_
  · unfold topUpRent
    simp only
    split
    · exact hrt.transfer_returns _ _ _ _
    · exact .ok _
  · unfold resizeIfChanged
    split
    · exact ((NoPanic.anchorRequire _ _).bind fun _ _ => .pure _).map
    · exact .ok _
  · unfold refundIfShrunk
    split
    · exact (NoPanic.okOr _ _).bind fun _ _ => (NoPanic.okOr _ _).bind fun _ _ => .pure _
    · exact .ok _
  -- the write is as long as the account
  rw [okOr_eq_ok] at hnewLen
  have hlen : newLen = baseLen + mints.length * mintCapSize + ((encodePermissions args.programPermissions).length - 4) := by
    rw [if_pos hfour] at hextra
    cases hextra
    rw [checkedUsize_eq_some hnewLen, withMintCount_ok hcapsLen]
  have hresized := resized_of_save hrt hs (by omega) htop hresize hrefund
  rw [hlen] at hresized
  obtain ⟨data, hdata, -, hwrite⟩ := hresized.write sol hfour walletPolicyVersion
  rw [hdata, ok_bind, hwrite]
  exact .pure _

/-- **Clearing a policy** on a stored account: what is left is as long as the header and an empty policy. -/
theorem clearWalletPolicy_noPanic {accounts : ClearWalletPolicy}
    (hs : Stored (bank accounts.authorityAccount.key) l) : NoPanic (clearWalletPolicy rt accounts bank) := by
  have hvalidate : NoPanic (accounts.validate rt bank) :=
    (NoPanic.anchorRequire _ _).bind fun _ _ => (validateOwnerAccounts_noPanic _ _ _ _ _).bind fun _ _ =>
    .anchorRequire _ _
  refine hvalidate.bind fun _ _ => (NoPanic.require _ _).bind fun _ _ => (rejectDurableNonce_noPanic _ _).bind fun _ _ => ?_
  refine (authorizeAuthoritySigner_noPanic _ _ _ _ _).bind fun _ _ => (NoPanic.require _ _).bind fun _ _ => ?_
  refine (NoPanic.okOr _ _).bind fun _ _ => (NoPanic.okOr _ _).bind fun _ _ => ?_
  refine ((NoPanic.anchorRequire _ _).bind fun _ _ => .pure _).bind fun data₀ hresize => ?_
  obtain ⟨rest, hdata, -⟩ := hs.head
  rw [hdata] at hresize
  obtain ⟨hhead, hlen, hmax⟩ := resize_head le_rfl hresize
  have hresized : Resized ⟨0, crateId, data₀⟩ l.header
      (baseLen + ([] : List MintCap).length * mintCapSize + (([0, 0, 0, 0] : Bytes).length - 4)) :=
    ⟨rfl, hhead, hlen, hmax⟩
  obtain ⟨data, hversion, -, hwrite⟩ := hresized.write .empty le_rfl 0
  rw [hversion, ok_bind, hwrite]
  exact .pure _

/-- A charge after a snapshot of the same account. -/
theorem chargePolicyDeltas_noPanic {policyData : Bytes} {wallet : Pubkey} {before after : Bank}
    {remaining : List AccountInfo} {snapshot : PolicySnapshot} {now : Int64}
    (hsnap : checkPolicyAndSnapshot policyData wallet before remaining = .ok snapshot) :
    NoPanic (chargePolicyDeltas policyData wallet after remaining snapshot now) := by
  obtain ⟨sol, mints, permissions, hread, rfl⟩ := checkPolicyAndSnapshot_ok hsnap
  refine NoPanic.bind ?_ fun charges _ => ?_
  · intro h
    rcases measureDeltas_error h with (hf | hf) | ⟨hf | hf, -⟩ <;> cases hf
  · refine (NoPanic.of_eq_ok (readPolicyMut_of_readPolicy hread)).bind fun caps _ => ?_
    refine NoPanic.bind ?_ fun _ _ => NoPanic.bind ?_ fun _ _ => .pure _
    · unfold chargeSolCap
      split
      · exact (NoPanic.require _ _).bind fun _ _ => chargeCap_noPanic _ _ _
      · exact .pure _
    · exact .foldlM (fun _ e _ => (NoPanic.okOr _ _).bind fun _ _ => (chargeCap_noPanic _ _ _).bind fun _ _ => .pure _) _

end Handlers

end PhygitalWallet
