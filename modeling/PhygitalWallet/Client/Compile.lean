import PhygitalWallet.Client.Kit
import PhygitalWallet.Lib.Loops

/-!
# Compact instructions on the client (`wallet/compile.ts`)

Kit instructions become compact instructions over one list of remaining accounts, without duplicates. The loop is told
twice: as the source has it, over the list and a map from addresses to positions, and as what it amounts to: the addresses
in order of their first occurrence, each with the union of its roles.

- `Merged`: what the list of remaining accounts is after a list of insertions;
- `LoopState.step`, `compileWalletInstructions_ok`: what the loop returns.
-/

namespace PhygitalWallet.Client

open ListLoop

/-! ## The loop -/

/-- A compact instruction before it is encoded; the program's position is a JavaScript number. -/
structure CompactInstructionArgs where
  programIdIndex : Nat
  accountIndexes : Bytes
  data : Bytes
deriving DecidableEq, Repr

/-- `DENIED_PROGRAMS`. -/
def deniedPrograms : List Pubkey := [crateId, phygitalTokenId]

/-- The list after an insertion, and the position of the address; `findIdx?` is the map `indexByAddress`. -/
def getOrInsertRemainingAccount (remainingAccounts : List AccountMeta) (account : AccountMeta) : List AccountMeta × Nat :=
  match remainingAccounts.findIdx? (fun m => m.address = account.address) with
  | some existing =>
    (remainingAccounts.modify existing fun current => { current with role := mergeRoles current.role account.role },
      existing)
  | none => (remainingAccounts ++ [account], remainingAccounts.length)

def downgradeWalletSignerRole (account : AccountMeta) (walletPda : Pubkey) : AccountMeta :=
  if account.address ≠ walletPda ∨ isSignerRole account.role = false then account
  else { account with role := downgradeRoleToNonSigner account.role }

/-- One turn of the map that elevates. -/
def elevateMeta (writableAddresses signerAddresses : List Pubkey) (account : AccountMeta) : AccountMeta :=
  let role := if signerAddresses.contains account.address then upgradeRoleToSigner account.role else account.role
  { account with role := if writableAddresses.contains account.address then upgradeRoleToWritable role else role }

def elevateRemainingForExecuteChallenge (remainingAccounts : List AccountMeta)
    (writableAddresses signerAddresses : List Pubkey) : List AccountMeta :=
  remainingAccounts.map (elevateMeta writableAddresses signerAddresses)

/-- The loop over the accounts of one instruction. -/
def insertAccounts (walletPda : Pubkey) : List AccountMeta → List AccountMeta → List AccountMeta × List Nat
  | remainingAccounts, [] => (remainingAccounts, [])
  | remainingAccounts, account :: accounts =>
    let (remainingAccounts, index) :=
      getOrInsertRemainingAccount remainingAccounts (downgradeWalletSignerRole account walletPda)
    let (remainingAccounts, indexes) := insertAccounts walletPda remainingAccounts accounts
    (remainingAccounts, index :: indexes)

/-- One turn of the loop over the instructions; `Uint8Array.from` keeps the low byte of a position. -/
def compileInstruction (walletPda : Pubkey) (state : List AccountMeta × List CompactInstructionArgs)
    (instruction : Instruction) : Outcome (List AccountMeta × List CompactInstructionArgs) :=
  let program := instruction.programAddress
  if deniedPrograms.contains program then
    throwText [.text "Inner CPI to ", .address program, .text " is not allowed for wallet execute"]
  else
    let (remainingAccounts, programIndex) := getOrInsertRemainingAccount state.1 ⟨program, .readonly⟩
    let (remainingAccounts, indexes) := insertAccounts walletPda remainingAccounts instruction.metas
    .ok (remainingAccounts, state.2 ++
      [{ programIdIndex := programIndex, accountIndexes := indexes.map UInt8.ofNat, data := instruction.data.getD [] }])

structure CompiledInstructions where
  remainingAccounts : List AccountMeta
  compactInstructions : List CompactInstructionArgs
deriving DecidableEq, Repr

def compileWalletInstructions (instructions : List Instruction) (walletPda : Pubkey) : Outcome CompiledInstructions :=
  if instructions.isEmpty then throwText [.text "At least one inner instruction is required"]
  else do
    let (remainingAccounts, compactInstructions) ← instructions.foldlM (compileInstruction walletPda) ([], [])
    return { remainingAccounts := elevateRemainingForExecuteChallenge remainingAccounts [walletPda] [],
             compactInstructions }

/-! ## Insertions -/

/-- The addresses of the list. -/
def addresses (metas : List AccountMeta) : List Pubkey := metas.map AccountMeta.address

/-- Some meta of the list has the address and such a role. -/
def anyRole (metas : List AccountMeta) (address : Pubkey) (p : AccountRole → Bool) : Bool :=
  metas.any fun m => m.address = address && p m.role

/-- A property of roles that a merge has when one of the merged roles has it. -/
def Joined (p : AccountRole → Bool) : Prop := ∀ a b, p (mergeRoles a b) = (p a || p b)

theorem joined_isSignerRole : Joined isSignerRole := fun _ _ => isSignerRole_roleOf _ _

theorem joined_isWritableRole : Joined isWritableRole := fun _ _ => isWritableRole_roleOf _ _

/-- What the list is after these insertions. -/
structure Merged (inserted remaining : List AccountMeta) : Prop where
  addresses_eq : addresses remaining = pushAll [] (addresses inserted)
  role_eq : ∀ m ∈ remaining, ∀ p, Joined p → p m.role = anyRole inserted m.address p

section Insertions

variable {inserted remaining : List AccountMeta} {account : AccountMeta}

theorem Merged.nil : Merged [] [] := ⟨rfl, by simp⟩

theorem Merged.nodup (h : Merged inserted remaining) : (addresses remaining).Nodup := by
  rw [h.addresses_eq]
  exact nodup_pushAll List.nodup_nil _

theorem Merged.mem_addresses (h : Merged inserted remaining) {a : Pubkey} :
    a ∈ addresses remaining ↔ a ∈ addresses inserted := by
  rw [h.addresses_eq, mem_pushAll]
  simp

theorem anyRole_concat {p : AccountRole → Bool} {a : Pubkey} : anyRole (inserted ++ [account]) a p =
    (anyRole inserted a p || (account.address = a && p account.role)) := by
  simp [anyRole]

theorem anyRole_of_not_mem {p : AccountRole → Bool} {a : Pubkey} (h : a ∉ addresses inserted) :
    anyRole inserted a p = false := by
  rw [Bool.eq_false_iff]
  intro hany
  obtain ⟨m, hm, hp⟩ := List.any_eq_true.1 hany
  simp only [Bool.and_eq_true, decide_eq_true_eq] at hp
  exact h (hp.1 ▸ List.mem_map_of_mem hm)

/-- The map finds an address where it stands. -/
theorem findIdx?_address {a : Pubkey} : remaining.findIdx? (fun m => m.address = a) =
    if a ∈ addresses remaining then some ((addresses remaining).idxOf a) else none := by
  induction remaining with
  | nil => rfl
  | cons m remaining ih =>
    rw [List.findIdx?_cons, ih]
    by_cases h : m.address = a
    · simp [addresses, h]
    · have hmem : a ∈ addresses (m :: remaining) ↔ a ∈ addresses remaining := by
        rw [addresses, List.map_cons, List.mem_cons, addresses]
        exact or_iff_right (Ne.symm h)
      have hidx : (addresses (m :: remaining)).idxOf a = (addresses remaining).idxOf a + 1 :=
        List.idxOf_cons_ne _ h
      rw [hidx]
      simp only [h, hmem, decide_false, Bool.false_eq_true, if_false]
      split <;> rfl

theorem getOrInsert_of_mem (h : account.address ∈ addresses remaining) :
    getOrInsertRemainingAccount remaining account =
      (remaining.modify ((addresses remaining).idxOf account.address) fun current =>
        { current with role := mergeRoles current.role account.role }, (addresses remaining).idxOf account.address) := by
  rw [getOrInsertRemainingAccount, findIdx?_address, if_pos h]

theorem getOrInsert_of_not_mem (h : account.address ∉ addresses remaining) :
    getOrInsertRemainingAccount remaining account = (remaining ++ [account], remaining.length) := by
  rw [getOrInsertRemainingAccount, findIdx?_address, if_neg h]

/-- The addresses after an insertion. -/
theorem addresses_getOrInsert : addresses (getOrInsertRemainingAccount remaining account).1 =
    pushNew (addresses remaining) account.address := by
  by_cases h : account.address ∈ addresses remaining
  · rw [getOrInsert_of_mem h, pushNew, if_pos h]
    apply List.ext_getElem
    · simp [addresses]
    · intro i hi hi'
      simp only [addresses, List.getElem_map, List.getElem_modify]
      split <;> rfl
  · rw [getOrInsert_of_not_mem h, pushNew, if_neg h]
    simp [addresses]

/-- The position of an insertion. -/
theorem index_getOrInsert : (getOrInsertRemainingAccount remaining account).2 =
    (pushNew (addresses remaining) account.address).idxOf account.address := by
  by_cases h : account.address ∈ addresses remaining
  · rw [getOrInsert_of_mem h, pushNew, if_pos h]
  · rw [getOrInsert_of_not_mem h, pushNew, if_neg h, List.idxOf_append_of_notMem h]
    simp [addresses]

/-- An account after an insertion: the one that was there, merged when it is the one inserted, or the new one. -/
theorem mem_getOrInsert (hnd : (addresses remaining).Nodup) {m : AccountMeta}
    (hm : m ∈ (getOrInsertRemainingAccount remaining account).1) :
    (m ∈ remaining ∧ m.address ≠ account.address) ∨
      (∃ current ∈ remaining, current.address = account.address ∧
        m = { current with role := mergeRoles current.role account.role }) ∨
      (m = account ∧ account.address ∉ addresses remaining) := by
  by_cases h : account.address ∈ addresses remaining
  · rw [getOrInsert_of_mem h] at hm
    obtain ⟨i, hi⟩ := List.getElem?_of_mem hm
    rw [List.getElem?_modify] at hi
    obtain ⟨current, hcurrent, hmod⟩ := Option.map_eq_some_iff.1 hi
    obtain ⟨hlt, rfl⟩ := List.getElem?_eq_some_iff.1 hcurrent
    have hmem : remaining[i] ∈ remaining := List.getElem_mem hlt
    have hlt' : i < (addresses remaining).length := by simpa [addresses] using hlt
    have hat : (addresses remaining)[i] = remaining[i].address := by simp [addresses]
    by_cases heq : (addresses remaining).idxOf account.address = i
    · rw [if_pos heq] at hmod
      refine Or.inr (Or.inl ⟨remaining[i], hmem, ?_, hmod.symm⟩)
      subst heq
      rw [← hat]
      exact List.getElem_idxOf hlt'
    · rw [if_neg heq] at hmod
      subst hmod
      refine Or.inl ⟨hmem, fun haddress => heq ?_⟩
      rw [← haddress, ← hat]
      exact hnd.idxOf_getElem i hlt'
  · rw [getOrInsert_of_not_mem h] at hm
    rcases List.mem_append.1 hm with hm | hm
    · exact Or.inl ⟨hm, fun heq => h (heq ▸ List.mem_map_of_mem hm)⟩
    · exact Or.inr (Or.inr ⟨List.mem_singleton.1 hm, h⟩)

/-- **One insertion.** -/
theorem Merged.insert (h : Merged inserted remaining) (account : AccountMeta) :
    Merged (inserted ++ [account]) (getOrInsertRemainingAccount remaining account).1 := by
  refine ⟨?_, fun m hm p hp => ?_⟩
  · rw [addresses_getOrInsert, h.addresses_eq, addresses, addresses, List.map_append, pushAll_append]
    rfl
  · rw [anyRole_concat]
    rcases mem_getOrInsert h.nodup hm with ⟨hm, hne⟩ | ⟨current, hcurrent, haddress, rfl⟩ | ⟨rfl, hnew⟩
    · rw [h.role_eq m hm p hp]
      simp [Ne.symm hne]
    · rw [hp, h.role_eq current hcurrent p hp]
      simp [haddress]
    · rw [anyRole_of_not_mem fun hin => hnew (h.mem_addresses.2 hin)]
      simp

end Insertions

/-! ## What the loop returns -/

/-- The addresses of an instruction, in the order of the loop. -/
def instructionKeys (ix : Instruction) : List Pubkey := ix.programAddress :: addresses ix.metas

/-- The insertions that an instruction makes. -/
def insertedMetas (walletPda : Pubkey) (ix : Instruction) : List AccountMeta :=
  ⟨ix.programAddress, .readonly⟩ :: ix.metas.map fun m => downgradeWalletSignerRole m walletPda

/-- An instruction over these addresses. -/
def compactOf (keys : List Pubkey) (ix : Instruction) : CompactInstructionArgs where
  programIdIndex := keys.idxOf ix.programAddress
  accountIndexes := ix.metas.map fun m => UInt8.ofNat (keys.idxOf m.address)
  data := ix.data.getD []

@[simp] theorem downgrade_address (account : AccountMeta) (walletPda : Pubkey) :
    (downgradeWalletSignerRole account walletPda).address = account.address := by
  unfold downgradeWalletSignerRole
  split <;> rfl

@[simp] theorem elevateMeta_address (writableAddresses signerAddresses : List Pubkey) (account : AccountMeta) :
    (elevateMeta writableAddresses signerAddresses account).address = account.address := rfl

theorem addresses_elevate (metas : List AccountMeta) (writableAddresses signerAddresses : List Pubkey) :
    addresses (elevateRemainingForExecuteChallenge metas writableAddresses signerAddresses) = addresses metas := by
  simp [addresses, elevateRemainingForExecuteChallenge]

theorem addresses_insertedMetas (walletPda : Pubkey) (ix : Instruction) :
    addresses (insertedMetas walletPda ix) = instructionKeys ix := by
  simp [addresses, insertedMetas, instructionKeys]

/-- More addresses at the end change nothing for an instruction that is there. -/
theorem compactOf_of_prefix {keys keys' : List Pubkey} (h : keys <+: keys') {ix : Instruction}
    (hix : ∀ a ∈ instructionKeys ix, a ∈ keys) : compactOf keys' ix = compactOf keys ix := by
  have hprogram := idxOf_extend h (hix ix.programAddress List.mem_cons_self)
  have haccounts : ix.metas.map (fun m => UInt8.ofNat (keys'.idxOf m.address)) =
      ix.metas.map (fun m => UInt8.ofNat (keys.idxOf m.address)) := by
    refine List.map_congr_left fun m hm => ?_
    rw [idxOf_extend h (hix m.address (List.mem_cons_of_mem _ (List.mem_map_of_mem hm)))]
  rw [compactOf, compactOf, hprogram, haccounts]

section Loop

variable {walletPda : Pubkey}

/-- The loop over the accounts of one instruction. -/
theorem Merged.insertAccounts {inserted remaining : List AccountMeta} (h : Merged inserted remaining)
    (accounts : List AccountMeta) :
    Merged (inserted ++ accounts.map fun m => downgradeWalletSignerRole m walletPda)
      (Client.insertAccounts walletPda remaining accounts).1 ∧
    addresses (Client.insertAccounts walletPda remaining accounts).1 =
      pushAll (addresses remaining) (addresses accounts) ∧
    (Client.insertAccounts walletPda remaining accounts).2 = accounts.map fun m =>
      (addresses (Client.insertAccounts walletPda remaining accounts).1).idxOf m.address := by
  induction accounts generalizing inserted remaining with
  | nil => exact ⟨by simpa [Client.insertAccounts] using h, rfl, rfl⟩
  | cons account accounts ih =>
    obtain ⟨hmerged, haddr, hindexes⟩ := ih (h.insert (downgradeWalletSignerRole account walletPda))
    have haddr' : addresses (Client.insertAccounts walletPda
        (getOrInsertRemainingAccount remaining (downgradeWalletSignerRole account walletPda)).1 accounts).1 =
        pushAll (addresses remaining) (addresses (account :: accounts)) := by
      rw [haddr, addresses_getOrInsert, downgrade_address]
      rfl
    refine ⟨by simpa [Client.insertAccounts] using hmerged, haddr', ?_⟩
    -- the first account is found where it was inserted
    have hfirst : (getOrInsertRemainingAccount remaining (downgradeWalletSignerRole account walletPda)).2 =
        (pushAll (addresses remaining) (addresses (account :: accounts))).idxOf account.address := by
      rw [index_getOrInsert, downgrade_address]
      exact (idxOf_extend (prefix_pushAll _ _) (mem_pushNew.2 (Or.inr rfl))).symm
    rw [List.map_cons]
    simp only [Client.insertAccounts, haddr', ← hfirst]
    rw [hindexes, haddr']

/-- What the loop over the instructions has built. -/
structure LoopState (walletPda : Pubkey) (done : List Instruction) (state : List AccountMeta × List CompactInstructionArgs) :
    Prop where
  merged : Merged (done.flatMap (insertedMetas walletPda)) state.1
  compacts : state.2 = done.map (compactOf (addresses state.1))
  allowed : ∀ ix ∈ done, ix.programAddress ∉ deniedPrograms

theorem LoopState.mem {done : List Instruction} {state : List AccountMeta × List CompactInstructionArgs}
    (h : LoopState walletPda done state) {a : Pubkey} :
    a ∈ addresses state.1 ↔ ∃ ix ∈ done, a ∈ instructionKeys ix := by
  rw [h.merged.mem_addresses, addresses, List.map_flatMap, List.mem_flatMap]
  simp only [← addresses_insertedMetas walletPda]
  rfl

theorem compileInstruction_of_allowed {state : List AccountMeta × List CompactInstructionArgs} {ix : Instruction}
    (h : ix.programAddress ∉ deniedPrograms) :
    let program := getOrInsertRemainingAccount state.1 ⟨ix.programAddress, .readonly⟩
    let accounts := insertAccounts walletPda program.1 ix.metas
    compileInstruction walletPda state ix =
      .ok (accounts.1, state.2 ++ [⟨program.2, accounts.2.map UInt8.ofNat, ix.data.getD []⟩]) := by
  have hdenied : ¬deniedPrograms.contains ix.programAddress = true := by simpa using h
  exact if_neg hdenied

/-- **One instruction.** -/
theorem LoopState.step {done : List Instruction} {state state' : List AccountMeta × List CompactInstructionArgs}
    {ix : Instruction} (h : LoopState walletPda done state) (hstep : compileInstruction walletPda state ix = .ok state') :
    LoopState walletPda (done ++ [ix]) state' := by
  by_cases hdenied : ix.programAddress ∈ deniedPrograms
  · have hcontains : deniedPrograms.contains ix.programAddress = true := by simpa using hdenied
    rw [compileInstruction, if_pos hcontains] at hstep
    cases hstep
  · rw [compileInstruction_of_allowed hdenied] at hstep
    obtain rfl := Except.ok.inj hstep
    have hprogram := h.merged.insert ⟨ix.programAddress, .readonly⟩
    obtain ⟨hmerged, haddr, hindexes⟩ := @Merged.insertAccounts walletPda _ _ hprogram ix.metas
    have hkeys : addresses (insertAccounts walletPda
        (getOrInsertRemainingAccount state.1 ⟨ix.programAddress, .readonly⟩).1 ix.metas).1 =
        pushAll (addresses state.1) (instructionKeys ix) := by
      rw [haddr, addresses_getOrInsert]
      rfl
    have hindex : (getOrInsertRemainingAccount state.1 ⟨ix.programAddress, .readonly⟩).2 =
        (pushAll (addresses state.1) (instructionKeys ix)).idxOf ix.programAddress := by
      rw [index_getOrInsert]
      exact (idxOf_extend (prefix_pushAll _ _) (mem_pushNew.2 (Or.inr rfl))).symm
    refine ⟨?_, ?_, ?_⟩
    · have hinserted : (done ++ [ix]).flatMap (insertedMetas walletPda) =
          done.flatMap (insertedMetas walletPda) ++ [⟨ix.programAddress, .readonly⟩] ++
            ix.metas.map fun m => downgradeWalletSignerRole m walletPda := by
        simp [insertedMetas]
      rw [hinserted]
      exact hmerged
    · have hold : done.map (compactOf (pushAll (addresses state.1) (instructionKeys ix))) =
          done.map (compactOf (addresses state.1)) :=
        List.map_congr_left fun ix' hix' =>
          compactOf_of_prefix (prefix_pushAll _ _) fun a ha => h.mem.2 ⟨ix', hix', ha⟩
      simp only [hkeys, List.map_append, hold, ← h.compacts, List.map_cons, List.map_nil]
      rw [hindexes, hkeys, hindex]
      simp [compactOf]
    · intro ix' hix'
      rcases List.mem_append.1 hix' with hix' | hix'
      · exact h.allowed ix' hix'
      · rw [List.mem_singleton.1 hix']
        exact hdenied

/-- The whole loop. -/
theorem LoopState.loop {done rest : List Instruction} {state state' : List AccountMeta × List CompactInstructionArgs}
    (h : LoopState walletPda done state) (hloop : rest.foldlM (compileInstruction walletPda) state = .ok state') :
    LoopState walletPda (done ++ rest) state' := by
  induction rest generalizing done state with
  | nil =>
    cases hloop
    rwa [List.append_nil]
  | cons ix rest ih =>
    rw [List.foldlM_cons, outcome_bind_eq_ok] at hloop
    obtain ⟨next, hstep, hrest⟩ := hloop
    have hdone := ih (h.step hstep) hrest
    rwa [List.append_assoc] at hdone

/-- **What the compiler returns**: every address once, in the order of first occurrence, every role the union of the roles
inserted for it, and every position the position of its address. -/
theorem compileWalletInstructions_ok {instructions : List Instruction} {compiled : CompiledInstructions}
    (h : compileWalletInstructions instructions walletPda = .ok compiled) :
    instructions ≠ [] ∧ ∃ remaining, Merged (instructions.flatMap (insertedMetas walletPda)) remaining ∧
      compiled.remainingAccounts = elevateRemainingForExecuteChallenge remaining [walletPda] [] ∧
      compiled.compactInstructions = instructions.map (compactOf (addresses remaining)) ∧
      ∀ ix ∈ instructions, ix.programAddress ∉ deniedPrograms := by
  unfold compileWalletInstructions at h
  by_cases hempty : instructions.isEmpty = true
  · rw [if_pos hempty] at h
    cases h
  · rw [if_neg hempty] at h
    obtain ⟨⟨remaining, compacts⟩, hloop, hret⟩ := outcome_bind_eq_ok.1 h
    cases hret
    have hstate : LoopState walletPda instructions (remaining, compacts) :=
      LoopState.loop (show LoopState _ [] ([], []) from ⟨.nil, rfl, by simp⟩) hloop
    exact ⟨by simpa using hempty, remaining, hstate.merged, rfl, hstate.compacts, hstate.allowed⟩

end Loop

end PhygitalWallet.Client
