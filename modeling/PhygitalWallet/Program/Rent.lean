import PhygitalWallet.Lib.Balances
import PhygitalWallet.Program.AuthorityRun

/-!
# The rent of an authority account

Saving and clearing move lamports between the payer, the authority account and the receiver of the rent.

- `topUpRent_moves`, `refundIfShrunk_moves`: the two halves of a save;
- `setWalletPolicy_moves`, `clearWalletPolicy_moves`, `clearAuthority_moves`: the handlers, as moves of lamports;
- `rent_settled`: no lamports are made or lost, and the account is left with the minimum of its size.
-/

namespace PhygitalWallet

open ByteSeq Borsh Balances

/-! ## Lamports -/

def balances (bank : Bank) : Pubkey → ℕ := fun k => (bank k).lamports.toNat

/-- The System program's transfer moves lamports, and changes no data. -/
structure Runtime.MovesLamports (rt : Runtime) : Prop where
  transfer : ∀ source destination lamports before after, rt.transfer source destination lamports before = .ok after →
    Moves lamports.toNat source destination (balances before) (balances after)
  transfer_data : ∀ source destination lamports before after, rt.transfer source destination lamports before = .ok after →
    ∀ k, (after k).data = (before k).data

section Bank

variable {rt : Runtime} {bank bank' : Bank} {payer key receiver : Pubkey} {minimum : UInt64}

@[simp] theorem balances_setData (data : Bytes) : balances (setData bank key data) = balances bank := by
  funext k
  simp only [balances, setData, Function.update_apply]
  split
  · next h => rw [h]
  · rfl

theorem balances_setLamports (lamports : UInt64) (k : Pubkey) :
    balances (setLamports bank key lamports) k = if k = key then lamports.toNat else balances bank k := by
  simp only [balances, setLamports, Function.update_apply]
  split <;> rfl

/-- Two accounts are given new lamports, and together hold what they held. -/
theorem moves_setLamports {left new : UInt64} {n : ℕ} (hne : key ≠ receiver)
    (hkey : left.toNat + n = balances bank key) (hnew : new.toNat = balances bank receiver + n) :
    Moves n key receiver (balances bank) (balances (setLamports (setLamports bank key left) receiver new)) := by
  refine ⟨?_, fun k => ?_⟩
  · omega
  · rw [balances_setLamports, balances_setLamports]
    by_cases hr : k = receiver
    · subst hr
      rw [if_pos rfl, if_neg (Ne.symm hne), if_pos rfl]
      exact hnew
    · rw [if_neg hr, if_neg hr]
      by_cases hk : k = key
      · subst hk
        rw [if_pos rfl, if_pos rfl]
        exact hkey
      · rw [if_neg hk, if_neg hk]

theorem checkedSubU64_ok {a b c : UInt64} (h : checkedSubU64 a b = some c) : b.toNat + c.toNat = a.toNat := by
  unfold checkedSubU64 at h
  split at h
  · next hle =>
    cases h
    rw [UInt64.toNat_sub_of_le a b hle]
    have : b.toNat ≤ a.toNat := hle
    omega
  · cases h

theorem checkedAddU64_ok {a b c : UInt64} (h : checkedAddU64 a b = some c) : c.toNat = a.toNat + b.toNat := by
  unfold checkedAddU64 at h
  split at h
  · next hlt =>
    cases h
    rw [UInt64.toNat_add, Nat.mod_eq_of_lt hlt]
  · cases h

/-! ## The halves of a save -/

/-- The payer pays what is missing. -/
theorem topUpRent_moves (hrt : rt.MovesLamports) (h : topUpRent rt bank payer key minimum = .ok bank') :
    Moves (minimum.toNat - (bank key).lamports.toNat) payer key (balances bank) (balances bank') ∧
      ∀ k, (bank' k).data = (bank k).data := by
  unfold topUpRent at h
  rw [← toNat_saturatingSub]
  simp only at h
  split at h
  · exact ⟨hrt.transfer _ _ _ _ _ h, hrt.transfer_data _ _ _ _ _ h⟩
  · next hzero =>
    cases h
    have hnone : (saturatingSub minimum (bank key).lamports).toNat = 0 :=
      Nat.eq_zero_of_not_pos hzero
    rw [hnone]
    exact ⟨moves_zero _ _ _, fun _ => rfl⟩

theorem refundRent_moves (hne : key ≠ receiver) (h : refundRent bank key receiver minimum = .ok bank') :
    (∃ n, Moves n key receiver (balances bank) (balances bank')) ∧ balances bank' key = minimum.toNat := by
  simp only [refundRent, bind_eq_ok, okOr_eq_ok, pure_eq_ok] at h
  obtain ⟨refund, hsub, balance, hadd, rfl⟩ := h
  refine ⟨⟨_, moves_setLamports hne (checkedSubU64_ok hsub) (checkedAddU64_ok hadd)⟩, ?_⟩
  rw [balances_setLamports, if_neg hne, balances_setLamports, if_pos rfl]

/-- An account that shrinks gives back what is above the minimum. -/
theorem refundIfShrunk_moves {newLen oldLen : Nat} (hne : key ≠ receiver)
    (h : refundIfShrunk bank key receiver minimum newLen oldLen = .ok bank') :
    ∃ n, Moves n key receiver (balances bank) (balances bank') ∧ (newLen < oldLen → balances bank' key = minimum.toNat) ∧
      (¬newLen < oldLen → n = 0) := by
  unfold refundIfShrunk at h
  split at h
  · next hlt =>
    obtain ⟨⟨n, hmoves⟩, hkey⟩ := refundRent_moves hne h
    exact ⟨n, hmoves, fun _ => hkey, fun hno => absurd hlt hno⟩
  · next hno =>
    cases h
    exact ⟨0, moves_zero _ _ _, fun hlt => absurd hlt hno, fun _ => rfl⟩

/-! ## Sizes -/

theorem length_resize {data data' : Bytes} {newLen : Nat} (h : resize data newLen = .ok data') : data'.length = newLen := by
  simp only [resize, bind_eq_ok, pure_eq_ok] at h
  obtain ⟨_, -, rfl⟩ := h
  simp only [List.length_append, List.length_take, List.length_replicate]
  omega

theorem length_resizeIfChanged {newLen : Nat}
    (h : resizeIfChanged bank key newLen (bank key).data.length = .ok bank') :
    (bank' key).data.length = newLen ∧ balances bank' = balances bank := by
  unfold resizeIfChanged at h
  split at h
  · obtain ⟨data, hdata, rfl⟩ := map_eq_ok.1 h
    rw [setData_self]
    exact ⟨length_resize hdata, balances_setData data⟩
  · next hsame =>
    cases h
    exact ⟨(not_not.1 hsame).symm, rfl⟩

theorem length_setPolicyVersion {data data' : Bytes} {version : UInt8} (h : setPolicyVersion data version = .ok data') :
    data'.length = data.length := by
  simp only [setPolicyVersion, bind_eq_ok, pure_eq_ok] at h
  obtain ⟨header, hread, rfl⟩ := h
  obtain ⟨rest, rfl⟩ := readHeaderMut_iff.1 hread
  have hsize : discriminatorLen + headerSize = solCapOffset := by decide
  simp only [List.length_append, List.length_take, List.length_drop, length_headBytes, length_encodeHeader]
  omega

theorem length_writePolicy {data data' permissions : Bytes} {sol : SpendCap} {mints : List MintCap}
    (h : writePolicy data sol mints permissions = .ok data') : data'.length = data.length := by
  simp only [writePolicy, overwrite, bind_eq_ok, orPanic_eq_ok] at h
  obtain ⟨data₁, h₁, data₂, h₂, data₃, h₃, data₄, h₄, h₅⟩ := h
  have hlen := length_copyInto h₁
  have hlen₂ := length_copyInto h₂
  have hlen₃ := length_copyInto h₃
  have hlen₄ := length_copyInto h₄
  have hlen₅ := length_copyInto h₅
  omega

theorem refundIfShrunk_data {newLen oldLen : Nat} (h : refundIfShrunk bank key receiver minimum newLen oldLen = .ok bank')
    (k : Pubkey) : (bank' k).data = (bank k).data := by
  unfold refundIfShrunk at h
  split at h
  · exact (refundRent_bytes h k).2
  · cases h
    rfl

end Bank

/-! ## The handlers -/

section Handlers

variable {rt : Runtime} {bank bank' : Bank}

/-- The receiver of the rent is not the account. -/
theorem validateOwnerAccounts_ne {token receiver account : AccountInfo} {u : Unit}
    (h : validateOwnerAccounts rt token receiver account bank = .ok u) : account.key ≠ receiver.key := by
  simp only [validateOwnerAccounts, bind_eq_ok, require_eq_ok, exists_const] at h
  obtain ⟨_, -, hne, -⟩ := h
  exact Ne.symm hne

/-- The account is an address that the program derives. -/
theorem authorizeAuthoritySigner_derived {key signer : Pubkey} {account : Account} {header : AuthorityHeader}
    (h : authorizeAuthoritySigner rt key account signer crateId = .ok header) :
    ∃ seeds, rt.createProgramAddress seeds crateId = some key := by
  simp only [authorizeAuthoritySigner, assertCanonicalAuthorityPda, requireCanonicalAuthorityAddress, bind_eq_ok,
    require_eq_ok, okOr_eq_ok, pure_eq_ok, exists_const] at h
  obtain ⟨_, ⟨_, -, ⟨canonical, hcanonical, rfl⟩, rfl⟩, -, rfl⟩ := h
  exact ⟨_, hcanonical⟩

/-- What a save moves: the payer pays what is missing, then a shrunk account pays back. -/
structure SaveMoves (rt : Runtime) (payer key receiver : Pubkey) (bank bank' : Bank) : Prop where
  ne : key ≠ receiver
  derived : ∃ seeds, rt.createProgramAddress seeds crateId = some key
  moves : ∃ mid n,
    Moves ((rt.minimumBalance (bank' key).data.length).toNat - (bank key).lamports.toNat) payer key (balances bank) mid ∧
    Moves n key receiver mid (balances bank') ∧
    ((bank' key).data.length < (bank key).data.length →
      balances bank' key = (rt.minimumBalance (bank' key).data.length).toNat) ∧
    (¬(bank' key).data.length < (bank key).data.length → n = 0)

theorem setWalletPolicy_moves [HeapSizes] (hrt : rt.MovesLamports) {accounts : SetWalletPolicy} {args : WalletPolicyArgs}
    (h : setWalletPolicy rt accounts args bank = .ok bank') :
    SaveMoves rt accounts.payer.key accounts.authorityAccount.key accounts.rentReceiver.key bank bank' := by
  simp only [setWalletPolicy, bind_eq_ok, require_eq_ok, pure_eq_ok, okOr_eq_ok] at h
  obtain ⟨_, hvalid, _, -, _, -, _, -, _, -, _, -, header, hauth, ⟨oldSol, oldMints⟩, -, sol, -, mints, -, capsLen, -, extra,
    -, newLen, -, bank₁, htop, bank₂, hresize, bank₃, hrefund, data₁, hversion, data₂, hwrite, rfl⟩ := h
  simp only [SetWalletPolicy.validate, bind_eq_ok] at hvalid
  obtain ⟨_, -, _, -, _, -, _, -, _, -, _, hvalid, -⟩ := hvalid
  have hne := validateOwnerAccounts_ne hvalid
  obtain ⟨hpaid, hdata⟩ := topUpRent_moves hrt htop
  rw [← hdata] at hresize
  obtain ⟨hlen, hsame⟩ := length_resizeIfChanged hresize
  rw [← hsame] at hpaid
  obtain ⟨n, hback, hshrunk, hkept⟩ := refundIfShrunk_moves hne hrefund
  have hbytes : (bank₃ accounts.authorityAccount.key).data = (bank₂ accounts.authorityAccount.key).data :=
    refundIfShrunk_data hrefund _
  have hnew : (setData bank₃ accounts.authorityAccount.key data₂ accounts.authorityAccount.key).data.length = newLen := by
    rw [setData_self, length_writePolicy hwrite, length_setPolicyVersion hversion, hbytes, hlen]
  refine ⟨hne, authorizeAuthoritySigner_derived hauth, balances bank₂, n, ?_⟩
  rw [hnew, balances_setData]
  exact ⟨hpaid, hback, hshrunk, hkept⟩

/-- What a clear moves: all above the minimum goes back. -/
structure ClearMoves (key receiver : Pubkey) (left : ℕ) (bank bank' : Bank) : Prop where
  ne : key ≠ receiver
  moves : ∃ n, Moves n key receiver (balances bank) (balances bank')
  left : balances bank' key = left

theorem clearWalletPolicy_moves {accounts : ClearWalletPolicy} (h : clearWalletPolicy rt accounts bank = .ok bank') :
    ClearMoves accounts.authorityAccount.key accounts.rentReceiver.key
        (rt.minimumBalance (bank' accounts.authorityAccount.key).data.length).toNat bank bank' := by
  simp only [clearWalletPolicy, bind_eq_ok, require_eq_ok, pure_eq_ok, okOr_eq_ok] at h
  obtain ⟨_, hvalid, _, -, _, -, header, -, _, -, refund, hsub, balance, hadd, data₀, hresize, data₁, hversion, data₂, hwrite,
    rfl⟩ := h
  simp only [ClearWalletPolicy.validate, bind_eq_ok] at hvalid
  obtain ⟨_, -, _, hvalid, -⟩ := hvalid
  have hne := validateOwnerAccounts_ne hvalid
  have hnew : data₂.length = baseLen := by
    rw [length_writePolicy hwrite, length_setPolicyVersion hversion, length_resize hresize]
  have hmoves := @moves_setLamports (setData bank accounts.authorityAccount.key data₂) _ _ (rt.minimumBalance baseLen) balance
    refund.toNat hne (by rw [balances_setData]; exact checkedSubU64_ok hsub) (by rw [balances_setData]; exact checkedAddU64_ok hadd)
  rw [balances_setData] at hmoves
  refine ⟨hne, ⟨_, hmoves⟩, ?_⟩
  rw [balances_setLamports, if_neg hne, balances_setLamports, if_pos rfl]
  simp only [setLamports_data, setData_self, hnew]

theorem clearAuthority_moves {accounts : ClearAuthority} (h : clearAuthority rt accounts bank = .ok bank') :
    ClearMoves accounts.authorityAccount.key accounts.rentReceiver.key 0 bank bank' := by
  simp only [clearAuthority, bind_eq_ok, pure_eq_ok, okOr_eq_ok] at h
  obtain ⟨_, hvalid, _, -, _, -, header, -, balance, hadd, rfl⟩ := h
  simp only [ClearAuthority.validate, bind_eq_ok] at hvalid
  obtain ⟨_, -, _, hvalid, -⟩ := hvalid
  have hne := validateOwnerAccounts_ne hvalid
  have hsame : ∀ b : Bank, balances (Function.update b accounts.authorityAccount.key
      { b accounts.authorityAccount.key with owner := systemProgramId, data := [] }) = balances b := by
    intro b
    funext k
    simp only [balances, Function.update_apply]
    split
    · next hk => rw [hk]
    · rfl
  have hall : (0 : UInt64).toNat + balances bank accounts.authorityAccount.key = balances bank accounts.authorityAccount.key :=
    Nat.zero_add _
  refine ⟨hne, ⟨balances bank accounts.authorityAccount.key, ?_⟩, ?_⟩
  · rw [hsame]
    exact moves_setLamports hne hall (checkedAddU64_ok hadd)
  · rw [hsame, balances_setLamports, if_neg hne, balances_setLamports, if_pos rfl]
    rfl

/-! ## What is settled -/

/-- What a save leaves of the lamports `f`, where the account needs `rent`. -/
structure SavedRent (payer key receiver : Pubkey) (rent : ℕ) (shrunk : Prop) (f g : Pubkey → ℕ) : Prop where
  total : ∑ k ∈ {payer, key, receiver}, g k = ∑ k ∈ {payer, key, receiver}, f k
  enough : rent ≤ g key
  exact : shrunk → g key = rent
  paid : payer ≠ receiver → g payer + (rent - f key) = f payer
  received : f receiver ≤ g receiver + if receiver = payer then rent - f key else 0

/-- What a clear leaves of them, whoever is called the payer. -/
structure ClearedRent (key receiver : Pubkey) (rent : ℕ) (f g : Pubkey → ℕ) : Prop where
  total : ∀ payer, ∑ k ∈ {payer, key, receiver}, g k = ∑ k ∈ {payer, key, receiver}, f k
  exact : g key = rent
  received : f receiver ≤ g receiver

theorem SaveMoves.settled {payer key receiver : Pubkey} (h : SaveMoves rt payer key receiver bank bank')
    (hpayer : ∀ seeds, rt.createProgramAddress seeds crateId ≠ some payer) :
    SavedRent payer key receiver (rt.minimumBalance (bank' key).data.length).toNat
      ((bank' key).data.length < (bank key).data.length) (balances bank) (balances bank') := by
  obtain ⟨hne, ⟨seeds, hseeds⟩, mid, n, hpaid, hback, hshrunk, hkept⟩ := h
  have hpk : payer ≠ key := by
    rintro rfl
    exact hpayer seeds hseeds
  have hkey : mid key = balances bank key + _ := hpaid.target hpk
  have hpaidBy : mid payer + _ = balances bank payer := hpaid.source hpk
  have hleft : balances bank' key + n = mid key := hback.source hne
  have hmin : (bank key).lamports.toNat = balances bank key := rfl
  refine ⟨?_, ?_, hshrunk, fun hpr => ?_, ?_⟩
  · rw [hback.sum (by simp) (by simp), hpaid.sum (by simp) (by simp)]
  · by_cases hlt : (bank' key).data.length < (bank key).data.length
    · exact le_of_eq (hshrunk hlt).symm
    · have hzero := hkept hlt
      omega
  · have hsame : balances bank' payer = mid payer := hback.other hpk hpr
    omega
  · have hgain : balances bank' receiver = mid receiver + n := hback.target hne
    have hbalance := hpaid.balance receiver
    rw [if_neg (Ne.symm hne)] at hbalance
    simp only [hmin] at hbalance
    omega

theorem ClearMoves.settled {key receiver : Pubkey} {left : ℕ} (h : ClearMoves key receiver left bank bank') :
    ClearedRent key receiver left (balances bank) (balances bank') := by
  obtain ⟨hne, ⟨n, hmoves⟩, hleft⟩ := h
  refine ⟨fun payer => hmoves.sum (by simp) (by simp), hleft, hmoves.le_of_ne (Ne.symm hne)⟩

end Handlers

/-- **Rent.** A save, a clear of the policy and a clear of the authority neither make nor lose lamports; a save leaves the
account the minimum of its new size, exactly where it shrank, at the payer's cost of what was missing; a clear of the policy
leaves exactly the minimum. The payer is no address that the program derives, since it signs the transaction. -/
theorem rent_settled [HeapSizes] {rt : Runtime} (hrt : rt.MovesLamports) (bank bank' : Bank) :
    (∀ (accounts : SetWalletPolicy) (args : WalletPolicyArgs), setWalletPolicy rt accounts args bank = .ok bank' →
      (∀ seeds, rt.createProgramAddress seeds crateId ≠ some accounts.payer.key) →
      SavedRent accounts.payer.key accounts.authorityAccount.key accounts.rentReceiver.key
        (rt.minimumBalance (bank' accounts.authorityAccount.key).data.length).toNat
        ((bank' accounts.authorityAccount.key).data.length < (bank accounts.authorityAccount.key).data.length)
        (balances bank) (balances bank')) ∧
    (∀ accounts : ClearWalletPolicy, clearWalletPolicy rt accounts bank = .ok bank' →
      ClearedRent accounts.authorityAccount.key accounts.rentReceiver.key
        (rt.minimumBalance (bank' accounts.authorityAccount.key).data.length).toNat (balances bank) (balances bank')) ∧
    ∀ accounts : ClearAuthority, clearAuthority rt accounts bank = .ok bank' →
      ClearedRent accounts.authorityAccount.key accounts.rentReceiver.key 0 (balances bank) (balances bank') := by
  refine ⟨fun accounts args h hpayer => ?_, fun accounts h => ?_, fun accounts h => ?_⟩
  · exact (setWalletPolicy_moves hrt h).settled hpayer
  · exact (clearWalletPolicy_moves h).settled
  · exact (clearAuthority_moves h).settled

/-! ## A sponsored save -/

/-- The System program's transfer, from an account without data. -/
def transferLamports (source destination : Pubkey) (lamports : UInt64) (bank : Bank) : Result Bank :=
  if (bank source).data = [] ∧ lamports ≤ (bank source).lamports then
    let paid := setLamports bank source ((bank source).lamports - lamports)
    match checkedAddU64 (paid destination).lamports lamports with
    | some balance => .ok (setLamports paid destination balance)
    | none => .error (.external 2)
  else .error (.external 1)

/-- `lifecycleRuntime` with this transfer. -/
def rentRuntime : Runtime := { lifecycleRuntime with transfer := transferLamports }

theorem rentRuntime_moves : rentRuntime.MovesLamports where
  transfer := by
    intro source destination lamports before after h
    change transferLamports source destination lamports before = .ok after at h
    unfold transferLamports at h
    split at h
    · next hcan =>
      simp only at h
      split at h
      · next balance hadd =>
        cases h
        have hle : lamports.toNat ≤ balances before source := hcan.2
        have hadd' : balance.toNat = balances (setLamports before source _) destination + lamports.toNat :=
          checkedAddU64_ok hadd
        refine ⟨hle, fun k => ?_⟩
        rw [balances_setLamports] at hadd' ⊢
        rw [balances_setLamports]
        have hsub : ((before source).lamports - lamports).toNat + lamports.toNat = balances before source := by
          rw [UInt64.toNat_sub_of_le _ _ hcan.2]
          exact Nat.sub_add_cancel hle
        by_cases hd : k = destination
        · subst hd
          rw [if_pos rfl, if_pos rfl]
          by_cases hs : k = source
          · subst hs
            rw [if_pos rfl] at hadd' ⊢
            omega
          · rw [if_neg hs] at hadd' ⊢
            omega
        · rw [if_neg hd, if_neg hd]
          by_cases hs : k = source
          · subst hs
            rw [if_pos rfl, if_pos rfl]
            omega
          · rw [if_neg hs, if_neg hs]
      · cases h
    · cases h
  transfer_data := by
    intro source destination lamports before after h k
    change transferLamports source destination lamports before = .ok after at h
    unfold transferLamports at h
    split at h
    · simp only at h
      split at h
      · cases h
        simp
      · cases h
    · cases h

/-- `lifecycleBank` with a sponsor. -/
def sponsorBank : Bank := fun k => if k = .fill 4 then ⟨1000, systemProgramId, []⟩ else lifecycleBank k

/-- The sponsor pays, the creator of the account is the receiver. -/
def sponsoredSave : SetWalletPolicy := { lifecycleSetWalletPolicy with payer := ⟨.fill 4, true, true⟩ }

/-- The sponsor pays for what the account grows by. -/
theorem rent_settled_sponsored : ∃ bank bank', @setWalletPolicy targetHeapSizes rentRuntime sponsoredSave lifecyclePolicy bank =
      .ok bank' ∧ balances bank' (.fill 4) + 64 = balances bank (.fill 4) ∧
    SavedRent (.fill 4) (.fill 7) (.fill 5) (rentRuntime.minimumBalance (bank' (.fill 7)).data.length).toNat
      ((bank' (.fill 7)).data.length < (bank (.fill 7)).data.length) (balances bank) (balances bank') := by
  let _ := targetHeapSizes
  let created := setAuthority rentRuntime lifecycleSetAuthority (.fill 6) ⟨0, 0, []⟩ 3 sponsorBank
  let saved := setWalletPolicy rentRuntime sponsoredSave lifecyclePolicy (bankOf created)
  have hsaved : saved = .ok (bankOf saved) := eq_ok_bankOf (by decide +kernel)
  have hpaid : balances (bankOf saved) (.fill 4) + 64 = balances (bankOf created) (.fill 4) := by decide +kernel
  have hpayer : ∀ seeds, rentRuntime.createProgramAddress seeds crateId ≠ some sponsoredSave.payer.key := by
    have hne : (Pubkey.fill 7) ≠ .fill 4 := by decide +kernel
    exact fun _ h => hne (Option.some.inj h)
  exact ⟨_, _, hsaved, hpaid, (rent_settled rentRuntime_moves _ _).1 sponsoredSave lifecyclePolicy hsaved hpayer⟩

end PhygitalWallet
