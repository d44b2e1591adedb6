import PhygitalWallet.Lib.Sha256
import PhygitalWallet.Program.Challenge

/-!
# The challenge binds the CPIs

Two executes of one wallet that the same message hash admits issue the same CPIs, whatever else their lists of remaining
accounts hold.

- `resolvedInstructions_congr`: the bytes that the hash covers determine the CPIs;
- `execute_issued`: an accepted execute issues exactly the CPIs that its instructions stand for;
- `challenge_binding`: one message hash, one list of CPIs.
-/

namespace PhygitalWallet

open ByteSeq (Bytes)

/-- The CPIs that compact instructions stand for, where their indexes exist. -/
def resolvedInstructions (wallet : Pubkey) (remaining : List AccountInfo) (compacts : List CompactInstruction) :
    Option (List Instruction) :=
  compacts.mapM (builtInstruction wallet remaining)

/-! ## The bytes determine the CPIs -/

section Resolve

variable {r₁ r₂ : List AccountInfo} {compacts : List CompactInstruction}

/-- Two lists with the same named accounts agree at the named indexes. -/
theorem sameReferenced_of_infos {ais : List AccountInfo} (h₁ : referencedInfos r₁ compacts = some ais)
    (h₂ : referencedInfos r₂ compacts = some ais) : SameReferenced compacts r₁ r₂ := by
  intro i hi
  obtain ⟨n, hn⟩ := List.getElem?_of_mem hi
  have hget₁ := (ListLoop.getElem?_mapM h₁).2 n
  have hget₂ := (ListLoop.getElem?_mapM h₂).2 n
  rw [hn, Option.bind_some] at hget₁ hget₂
  exact hget₁.symm.trans hget₂

theorem builtInstruction_congr (wallet : Pubkey) {compact : CompactInstruction} (h : SameAt compact r₁ r₂) :
    builtInstruction wallet r₁ compact = builtInstruction wallet r₂ compact := by
  have hres : resolveAccounts r₁ compact.accountIndexes = resolveAccounts r₂ compact.accountIndexes :=
    ListLoop.mapM_congr fun i hi => h i (List.mem_cons_of_mem _ hi)
  rw [builtInstruction, builtInstruction, h _ List.mem_cons_self, hres]

theorem resolvedInstructions_congr (wallet : Pubkey) (h : SameReferenced compacts r₁ r₂) :
    resolvedInstructions wallet r₁ compacts = resolvedInstructions wallet r₂ compacts :=
  ListLoop.mapM_congr fun _ hc => builtInstruction_congr wallet (h.at hc)

/-- The packed instructions and the bytes over the accounts determine the CPIs. -/
theorem resolvedInstructions_inj (wallet : Pubkey) {compacts' : List CompactInstruction} {packed : Bytes}
    {as bs : List AccountInfo} (hp : packCompactInstructions compacts = .ok packed)
    (hp' : packCompactInstructions compacts' = .ok packed) (has : referencedInfos r₁ compacts = some as)
    (hbs : referencedInfos r₂ compacts' = some bs)
    (h : as.flatMap AccountInfo.entry = bs.flatMap AccountInfo.entry) :
    resolvedInstructions wallet r₁ compacts = resolvedInstructions wallet r₂ compacts' := by
  obtain rfl := packCompactInstructions_inj hp hp'
  obtain rfl := entries_inj h
  exact resolvedInstructions_congr wallet (sameReferenced_of_infos has hbs)

end Resolve

/-! ## The CPIs of an accepted execute -/

/-- A loop that ends well has issued what every instruction stands for. -/
theorem issueInstructions_issued {rt : Runtime} {seeds : List Bytes}
    {prepare : Bank → CompactInstruction → Result Instruction} {built : CompactInstruction → Option Instruction}
    (hbuilt : ∀ bank compact ix, prepare bank compact = .ok ix → built compact = some ix) :
    ∀ {compacts : List CompactInstruction} {bank after : Bank},
      (issueInstructions rt seeds prepare bank compacts).result = .ok after →
      compacts.mapM built = some ((issueInstructions rt seeds prepare bank compacts).issued.map Prod.snd)
  | [], _, _, _ => rfl
  | compact :: rest, bank, after, h => by
    rw [issueInstructions] at h ⊢
    cases hprep : prepare bank compact with
    | error e =>
      rw [hprep] at h
      cases h
    | ok ix =>
      simp only [hprep] at h ⊢
      cases hcpi : rt.invokeSigned ix seeds bank with
      | error e =>
        rw [hcpi] at h
        cases h
      | ok bank' =>
        simp only [hcpi] at h ⊢
        rw [List.mapM_cons, hbuilt _ _ _ hprep, issueInstructions_issued hbuilt h]
        rfl

theorem executeCompactInstructions_issued {rt : Runtime} {programId wallet token : Pubkey} {walletBump : UInt8}
    {protectedAccounts : List Pubkey} {remaining : List AccountInfo} {compacts : List CompactInstruction}
    {permissions : Option (List ProgramPermission)} {bank after : Bank}
    (h : executeCompactInstructions rt programId wallet walletBump token protectedAccounts remaining compacts permissions
      bank = .ok after) :
    resolvedInstructions wallet remaining compacts = some ((issueCompactInstructions rt programId wallet walletBump token
      protectedAccounts remaining compacts permissions bank).issued.map Prod.snd) := by
  obtain ⟨bank', hrun, -⟩ := bind_eq_ok.1 h
  refine issueInstructions_issued ?_ hrun
  intro b compact ix hprep
  exact (prepareInstruction_iff.1 hprep).1

section Sizes

variable [HeapSizes]

/-- What `execute` has handed to `invoke_signed` between the snapshot and the charge. -/
def policiedIssued (rt : Runtime) (token wallet authorityAccount : Pubkey) (walletBump : UInt8) (policyPresent : Bool)
    (remaining : List AccountInfo) (compactInstructions : List CompactInstruction) (bank : Bank) : List Instruction :=
  let issued := fun permissions => (issueCompactInstructions rt crateId wallet walletBump token [token, authorityAccount]
    remaining compactInstructions permissions bank).issued.map Prod.snd
  if policyPresent then
    match checkPolicyAndSnapshot (bank authorityAccount).data wallet bank remaining with
    | .ok snapshot => issued (some snapshot.programPermissions)
    | .error _ => []
  else issued none

/-- What `execute` has handed to `invoke_signed`. -/
def executeIssued (rt : Runtime) (accounts : Execute) (remaining : List AccountInfo)
    (compactInstructions : List CompactInstruction) (secp256r1VerifyArgs : Secp256r1VerifyArgs) (slotNumber : UInt64)
    (bank : Bank) : List Instruction :=
  match verifyExecute rt accounts remaining compactInstructions secp256r1VerifyArgs slotNumber bank with
  | .ok (header, policyPresent, bank) => policiedIssued rt accounts.phygitalToken.key accounts.wallet.key
      accounts.authorityAccount.key header.walletBump policyPresent remaining compactInstructions bank
  | .error _ => []

theorem policiedIssued_eq {rt : Runtime} {token wallet authorityAccount : Pubkey} {walletBump : UInt8}
    {policyPresent : Bool} {remaining : List AccountInfo} {compacts : List CompactInstruction} {bank : Bank}
    {executed : Executed} (h : executePolicied rt token wallet authorityAccount walletBump policyPresent remaining compacts
      bank = .ok executed) :
    resolvedInstructions wallet remaining compacts =
      some (policiedIssued rt token wallet authorityAccount walletBump policyPresent remaining compacts bank) := by
  unfold executePolicied at h
  unfold policiedIssued
  cases policyPresent with
  | true =>
    rw [if_pos rfl] at h ⊢
    obtain ⟨snapshot, hsnap, h⟩ := bind_eq_ok.1 h
    obtain ⟨after, hcpis, -⟩ := bind_eq_ok.1 h
    rw [hsnap]
    exact executeCompactInstructions_issued hcpis
  | false =>
    rw [if_neg Bool.false_ne_true] at h ⊢
    obtain ⟨after, hcpis, -⟩ := bind_eq_ok.1 h
    exact executeCompactInstructions_issued hcpis

/-- An accepted execute issues exactly what its instructions stand for. -/
theorem execute_issued {rt : Runtime} {accounts : Execute} {remaining : List AccountInfo}
    {compacts : List CompactInstruction} {args : Secp256r1VerifyArgs} {slotNumber : UInt64} {bank : Bank}
    {executed : Executed} (h : execute rt accounts remaining compacts args slotNumber bank = .ok executed) :
    resolvedInstructions accounts.wallet.key remaining compacts =
      some (executeIssued rt accounts remaining compacts args slotNumber bank) := by
  obtain ⟨⟨header, policyPresent, before⟩, hverify, hrun⟩ := bind_eq_ok.1 h
  unfold executeIssued
  rw [hverify]
  exact policiedIssued_eq hrun

end Sizes

/-- The `message_hash` that `execute` hands to `Verify`. -/
def messageHashOf (rt : Runtime) (accounts : Execute) (remaining : List AccountInfo)
    (compactInstructions : List CompactInstruction) (slotNumber : UInt64) (bank : Bank) : Result Bytes := do
  let slotHash ← fetchSlotHash (bank accounts.slotHashes.key).data slotNumber
  executeMessageHash rt slotHash remaining compactInstructions

theorem messageHashOf_eq_ok {rt : Runtime} {accounts : Execute} {remaining : List AccountInfo}
    {compacts : List CompactInstruction} {args : Secp256r1VerifyArgs} {slotNumber : UInt64} {bank : Bank}
    {verified : AuthorityHeader × Bool × Bank}
    (h : verifyExecute rt accounts remaining compacts args slotNumber bank = .ok verified) :
    ∃ messageHash, messageHashOf rt accounts remaining compacts slotNumber bank = .ok messageHash ∧
      rt.verify accounts.phygitalToken.key args messageHash bank = .ok verified.2.2 := by
  simp only [verifyExecute, bind_eq_ok, pure_eq_ok] at h
  obtain ⟨_, -, _, -, _, -, _, -, _, -, slotHash, hslot, messageHash, hmessage, after, hverify, rfl⟩ := h
  exact ⟨messageHash, by rw [messageHashOf, hslot, ok_bind, hmessage], hverify⟩

theorem messageHashOf_slot {rt : Runtime} {accounts : Execute} {remaining : List AccountInfo}
    {compacts : List CompactInstruction} {slotNumber : UInt64} {bank : Bank} {slotHash : Bytes}
    (h : fetchSlotHash (bank accounts.slotHashes.key).data slotNumber = .ok slotHash) :
    messageHashOf rt accounts remaining compacts slotNumber bank = executeMessageHash rt slotHash remaining compacts := by
  rw [messageHashOf, h, ok_bind]

section Sizes

variable [HeapSizes]

/-- **One message hash, one list of CPIs.** Packing is injective on the lists that it accepts; the packed bytes and the
bytes over the accounts determine the CPIs; and two accepted executes of one wallet, for one slot hash and with one message
hash, issue the same CPIs: programs, account keys in order with their flags, and data. The hash function gives 32 bytes
and has no collision among what the two executes hash. -/
theorem challenge_binding {rt₁ rt₂ : Runtime} {accounts₁ accounts₂ : Execute} {r₁ r₂ : List AccountInfo}
    {compacts₁ compacts₂ : List CompactInstruction} {args₁ args₂ : Secp256r1VerifyArgs} {slotNumber₁ slotNumber₂ : UInt64}
    {bank₁ bank₂ : Bank} {x₁ x₂ : Executed} {slotHash : Bytes} (hrt : rt₂.hash = rt₁.hash)
    (hlen : ∀ bytes, (rt₁.hash bytes).length = 32)
    (hcol : Set.InjOn rt₁.hash (hashed rt₁.hash slotHash r₁ compacts₁ ∪ hashed rt₁.hash slotHash r₂ compacts₂))
    (h₁ : execute rt₁ accounts₁ r₁ compacts₁ args₁ slotNumber₁ bank₁ = .ok x₁)
    (h₂ : execute rt₂ accounts₂ r₂ compacts₂ args₂ slotNumber₂ bank₂ = .ok x₂)
    (hwallet : accounts₁.wallet.key = accounts₂.wallet.key)
    (hslot₁ : fetchSlotHash (bank₁ accounts₁.slotHashes.key).data slotNumber₁ = .ok slotHash)
    (hslot₂ : fetchSlotHash (bank₂ accounts₂.slotHashes.key).data slotNumber₂ = .ok slotHash)
    (hmessage : messageHashOf rt₁ accounts₁ r₁ compacts₁ slotNumber₁ bank₁ =
      messageHashOf rt₂ accounts₂ r₂ compacts₂ slotNumber₂ bank₂) :
    (∀ as bs packed, packCompactInstructions as = .ok packed → packCompactInstructions bs = .ok packed → as = bs) ∧
    (∀ (wallet : Pubkey) (r r' : List AccountInfo) (cs cs' : List CompactInstruction) packed ais ais',
      packCompactInstructions cs = .ok packed → packCompactInstructions cs' = .ok packed →
      referencedInfos r cs = some ais → referencedInfos r' cs' = some ais' →
      ais.flatMap AccountInfo.entry = ais'.flatMap AccountInfo.entry →
      resolvedInstructions wallet r cs = resolvedInstructions wallet r' cs') ∧
    executeIssued rt₁ accounts₁ r₁ compacts₁ args₁ slotNumber₁ bank₁ =
      executeIssued rt₂ accounts₂ r₂ compacts₂ args₂ slotNumber₂ bank₂ := by
  refine ⟨fun _ _ _ => packCompactInstructions_inj, fun wallet _ _ _ _ _ _ _ => resolvedInstructions_inj wallet, ?_⟩
  obtain ⟨verified, hverify, -⟩ := bind_eq_ok.1 h₁
  obtain ⟨messageHash, hm₁, -⟩ := messageHashOf_eq_ok hverify
  have hm₂ := hmessage.symm.trans hm₁
  rw [messageHashOf_slot hslot₁] at hm₁
  rw [messageHashOf_slot hslot₂] at hm₂
  obtain ⟨packed, as, -, has, -⟩ := executeMessageHash_iff.1 hm₁
  obtain ⟨rfl, hinfos⟩ := executeMessageHash_inj hrt hlen hcol hm₁ hm₂
  have hissued₁ := execute_issued h₁
  have hissued₂ := execute_issued h₂
  rw [← hwallet, ← resolvedInstructions_congr _ (sameReferenced_of_infos has (hinfos ▸ has)), hissued₁] at hissued₂
  exact Option.some.inj hissued₂

end Sizes

/-! ## An example -/

theorem hashed_eq {hash : Bytes → Bytes} {slotHash packed : Bytes} {remaining ais : List AccountInfo}
    {compacts : List CompactInstruction} (hp : packCompactInstructions compacts = .ok packed)
    (ha : referencedInfos remaining compacts = some ais) : hashed hash slotHash remaining compacts =
      {packed, ais.flatMap AccountInfo.entry, challengePreimage slotHash (hash packed) (hash (ais.flatMap AccountInfo.entry))} := by
  ext bytes
  simp only [hashed, hp, ha, Set.mem_ofPred_eq, Except.ok.injEq, Option.some.injEq, Set.mem_insert_iff,
    Set.mem_singleton_iff]
  constructor
  · rintro ⟨_, _, rfl, rfl, h⟩
    exact h
  · intro h
    exact ⟨_, _, rfl, rfl, h⟩

/-- A function is injective on three values that it maps to three. -/
theorem injOn_triple {f : Bytes → Bytes} {a b c : Bytes} (hab : f a ≠ f b) (hac : f a ≠ f c) (hbc : f b ≠ f c) :
    Set.InjOn f {a, b, c} := by
  rintro x (rfl | rfl | rfl) y (rfl | rfl | rfl) h
  · rfl
  · exact absurd h hab
  · exact absurd h hac
  · exact absurd h.symm hab
  · rfl
  · exact absurd h hbc
  · exact absurd h.symm hac
  · exact absurd h.symm hbc
  · rfl

/-- `transferRuntime` with SHA-256. -/
def shaRuntime : Runtime := { transferRuntime with hash := Sha256.digest }

/-- The accounts that the transfer names. -/
def transferInfos : List AccountInfo := [⟨systemProgramId, false, false⟩, ⟨.fill 9, false, true⟩, ⟨.fill 1, false, true⟩]

/-- The transfer, packed. -/
def transferPacked : Bytes := [1, 0, 2, 1, 2, 12, 0, 2, 0, 0, 0, 30, 0, 0, 0, 0, 0, 0, 0]

theorem sha_injOn : Set.InjOn shaRuntime.hash
    (hashed shaRuntime.hash (List.replicate 32 4) (transferRemaining []) [transferInstruction] ∪
      hashed shaRuntime.hash (List.replicate 32 4) (transferRemaining [⟨.fill 2, false, false⟩]) [transferInstruction]) := by
  rw [@hashed_eq _ _ transferPacked _ transferInfos _ (by decide +kernel) (by decide +kernel),
    @hashed_eq _ _ transferPacked _ transferInfos _ (by decide +kernel) (by decide +kernel), Set.union_self]
  exact injOn_triple (by decide +kernel) (by decide +kernel) (by decide +kernel)

theorem challenge_binding_transfer :
    @executeIssued targetHeapSizes shaRuntime transferAccounts (transferRemaining []) [transferInstruction] ⟨0, 0, []⟩ 3
      transferBank =
    @executeIssued targetHeapSizes shaRuntime transferAccounts (transferRemaining [⟨.fill 2, false, false⟩])
      [transferInstruction] ⟨0, 0, []⟩ 3 transferBank := by
  let _ := targetHeapSizes
  have hrun : ∀ extra ∈ [[], [⟨.fill 2, false, false⟩]], (execute shaRuntime transferAccounts (transferRemaining extra)
      [transferInstruction] ⟨0, 0, []⟩ 3 transferBank).map Executed.charges = .ok (some ⟨30, []⟩) := by decide +kernel
  obtain ⟨x₁, hx₁, -⟩ := exists_of_map_eq_ok (hrun [] (by simp))
  obtain ⟨x₂, hx₂, -⟩ := exists_of_map_eq_ok (hrun [⟨.fill 2, false, false⟩] (by simp))
  exact (challenge_binding rfl Sha256.length_digest sha_injOn hx₁ hx₂ rfl (by decide +kernel) (by decide +kernel)
    (by decide +kernel)).2.2

end PhygitalWallet
