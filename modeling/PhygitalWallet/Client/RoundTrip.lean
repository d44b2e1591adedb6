import PhygitalWallet.Client.Wrap

/-!
# Compile and resolve (`wallet/compile.ts`, `utils/compact.rs`)

What the client compiles, the program resolves again: `resolvedInstructions` of the program over the remaining accounts and
the compact instructions of `compileWalletInstructions` gives the original instructions back.

- `compileWalletInstructions_total`: the only error is a denied program;
- `position_mem`: every position is that of its address;
- `compile_resolve`: the round trip, with the roles on both sides.
-/

namespace PhygitalWallet.Client

open ListLoop

/-- The remaining account as the program receives it. -/
def AccountMeta.info (m : AccountMeta) : AccountInfo := RemainingAccount.info (.account m)

/-- The error of a denied program. -/
def deniedError (program : Pubkey) : Outcome CompiledInstructions :=
  throwText [.text "Inner CPI to ", .address program, .text " is not allowed for wallet execute"]

/-- A CPI carries out an instruction: its program, its accounts, its data, and at least its privileges. -/
structure CarriesOut (ix : Instruction) (cpi : PhygitalWallet.Instruction) : Prop where
  program : cpi.programId = ix.programAddress
  accounts : cpi.accounts.map PhygitalWallet.AccountMeta.pubkey = addresses ix.metas
  data : cpi.data = ix.data.getD []
  grants : List.Forall₂ (fun m account => (isSignerRole m.role = true → account.isSigner = true) ∧
    (isWritableRole m.role = true → account.isWritable = true)) ix.metas cpi.accounts

/-- What is compiled resolves to what there was. -/
structure RoundTrip (walletPda : Pubkey) (instructions : List Instruction) (compiled : CompiledInstructions) : Prop where
  allowed : ∀ ix ∈ instructions, ix.programAddress ∉ deniedPrograms
  nodup : (addresses compiled.remainingAccounts).Nodup
  bytes : ByteIndexes compiled.compactInstructions
  resolved : ∃ cpis, resolvedInstructions walletPda (compiled.remainingAccounts.map AccountMeta.info)
    (compiled.compactInstructions.map CompactInstructionArgs.toCompact) = some cpis ∧
      List.Forall₂ CarriesOut instructions cpis
  wallet : ∀ m ∈ compiled.remainingAccounts, m.address = walletPda → isSignerRole m.role = false
  asked : ∀ m ∈ compiled.remainingAccounts, m.address ≠ walletPda →
    (isSignerRole m.role = true → NamedAs instructions m.address isSignerRole) ∧
    (isWritableRole m.role = true → NamedAs instructions m.address isWritableRole)

/-! ## The only error -/

theorem compileLoop_total {walletPda : Pubkey} : ∀ {instructions : List Instruction}
    {state : List AccountMeta × List CompactInstructionArgs},
    (∃ ix ∈ instructions, ix.programAddress ∈ deniedPrograms ∧ instructions.foldlM (compileInstruction walletPda) state =
      throwText [.text "Inner CPI to ", .address ix.programAddress, .text " is not allowed for wallet execute"]) ∨
      ∃ state', instructions.foldlM (compileInstruction walletPda) state = .ok state'
  | [], state => Or.inr ⟨state, rfl⟩
  | ix :: instructions, state => by
    rw [List.foldlM_cons]
    by_cases hdenied : ix.programAddress ∈ deniedPrograms
    · refine Or.inl ⟨ix, List.mem_cons_self, hdenied, ?_⟩
      have hcontains : deniedPrograms.contains ix.programAddress = true := by simpa using hdenied
      rw [compileInstruction, if_pos hcontains]
      rfl
    · rw [compileInstruction_of_allowed hdenied]
      rcases @compileLoop_total walletPda instructions (_, _) with ⟨ix', hix', h⟩ | ⟨state', h⟩
      · exact Or.inl ⟨ix', List.mem_cons_of_mem _ hix', h.1, h.2⟩
      · exact Or.inr ⟨state', h⟩

/-- **The compiler throws for a denied program or returns.** -/
theorem compileWalletInstructions_total {walletPda : Pubkey} {instructions : List Instruction} (h : instructions ≠ []) :
    (∃ ix ∈ instructions, ix.programAddress ∈ deniedPrograms ∧
      compileWalletInstructions instructions walletPda = deniedError ix.programAddress) ∨
    ∃ compiled, compileWalletInstructions instructions walletPda = .ok compiled := by
  have hempty : ¬instructions.isEmpty = true := by simpa using h
  unfold compileWalletInstructions
  rw [if_neg hempty]
  rcases @compileLoop_total walletPda instructions ([], []) with ⟨ix, hix, hdenied, hloop⟩ | ⟨state, hloop⟩
  · refine Or.inl ⟨ix, hix, hdenied, ?_⟩
    rw [hloop]
    rfl
  · obtain ⟨remainingAccounts, compactInstructions⟩ := state
    refine Or.inr ⟨⟨elevateRemainingForExecuteChallenge remainingAccounts [walletPda] [], compactInstructions⟩, ?_⟩
    rw [hloop]
    rfl

/-! ## Positions -/

/-- The account at the position of an address. -/
theorem position_mem {metas : List AccountMeta} {a : Pubkey} (h : a ∈ addresses metas) :
    ∃ m ∈ metas, m.address = a ∧ metas[(addresses metas).idxOf a]? = some m := by
  have hlt := List.idxOf_lt_length_iff.2 h
  have hlt' : (addresses metas).idxOf a < metas.length := by simpa [addresses] using hlt
  refine ⟨metas[(addresses metas).idxOf a], List.getElem_mem hlt', ?_, List.getElem?_eq_getElem hlt'⟩
  calc metas[(addresses metas).idxOf a].address = (addresses metas)[(addresses metas).idxOf a] :=
        (List.getElem_map AccountMeta.address).symm
    _ = a := List.getElem_idxOf hlt

/-- As many positions as distinct addresses. -/
theorem length_addresses {metas : List AccountMeta} {keys : List Pubkey} (hnd : (addresses metas).Nodup)
    (hmem : ∀ a, a ∈ addresses metas → a ∈ keys) : (addresses metas).length ≤ keys.toFinset.card := by
  rw [← List.toFinset_card_of_nodup hnd]
  refine Finset.card_le_card fun a ha => ?_
  rw [List.mem_toFinset] at ha ⊢
  exact hmem a ha

/-! ## The roles -/

section Compiled

variable {walletPda : Pubkey} {instructions : List Instruction} {compiled : CompiledInstructions}

/-- The roles of the remaining accounts, before those of the outer instruction. -/
theorem mem_compiled (h : compileWalletInstructions instructions walletPda = .ok compiled) {m : AccountMeta}
    (hm : m ∈ compiled.remainingAccounts) :
    (isSignerRole m.role = true ↔ m.address ≠ walletPda ∧ NamedAs instructions m.address isSignerRole) ∧
    (isWritableRole m.role = true ↔ m.address = walletPda ∨ NamedAs instructions m.address isWritableRole) := by
  obtain ⟨-, remaining, hmerged, hremaining, -, -⟩ := compileWalletInstructions_ok h
  rw [hremaining, elevateRemainingForExecuteChallenge] at hm
  obtain ⟨m₀, hm₀, rfl⟩ := List.mem_map.1 hm
  simp only [elevateMeta_address, isSignerRole_elevateMeta, isWritableRole_elevateMeta,
    hmerged.role_eq m₀ hm₀ _ joined_isSignerRole, hmerged.role_eq m₀ hm₀ _ joined_isWritableRole, Bool.or_eq_true,
    anyRole_inserted_signer, anyRole_inserted_writable, List.contains_iff_mem, List.mem_cons, List.not_mem_nil, or_false]
  exact ⟨trivial, or_comm⟩

/-- A meta of an instruction, and the account that it resolves to. -/
theorem grants_of_named (h : compileWalletInstructions instructions walletPda = .ok compiled) {ix : Instruction}
    (hix : ix ∈ instructions) {m : AccountMeta} (hm : m ∈ ix.metas) {account : AccountMeta}
    (haccount : account ∈ compiled.remainingAccounts) (haddress : account.address = m.address) :
    (isSignerRole m.role = true → (metaOf walletPda account.info).isSigner = true) ∧
    (isWritableRole m.role = true → (metaOf walletPda account.info).isWritable = true) := by
  obtain ⟨hsigner, hwritable⟩ := mem_compiled h haccount
  constructor
  · intro hrole
    show (isSignerRole account.role || decide (account.address = walletPda)) = true
    by_cases hwallet : account.address = walletPda
    · rw [decide_eq_true hwallet, Bool.or_true]
    · rw [hsigner.2 ⟨hwallet, ix, hix, m, hm, haddress.symm, hrole⟩, Bool.true_or]
  · intro hrole
    exact hwritable.2 (Or.inr ⟨ix, hix, m, hm, haddress.symm, hrole⟩)

/-! ## The round trip -/

/-- An address is found at its position, which fits in a byte. -/
theorem lookup_position {remaining : List AccountMeta} (hlen : (addresses remaining).length ≤ 256) {a : Pubkey}
    (h : a ∈ addresses remaining) : ∃ m ∈ remaining, m.address = a ∧
      (remaining.map AccountMeta.info)[(UInt8.ofNat ((addresses remaining).idxOf a)).toNat]? = some m.info := by
  have hlt := List.idxOf_lt_length_iff.2 h
  obtain ⟨m, hm, haddress, hget⟩ := position_mem h
  refine ⟨m, hm, haddress, ?_⟩
  rw [UInt8.toNat_ofNat_of_lt' (show _ < 256 by omega), List.getElem?_map, hget]
  rfl

/-- The accounts at the positions of an instruction. -/
theorem resolveAccounts_positions {remaining : List AccountMeta} (hlen : (addresses remaining).length ≤ 256) :
    ∀ {metas : List AccountMeta}, (∀ m ∈ metas, m.address ∈ addresses remaining) → ∃ accounts : List AccountMeta,
      resolveAccounts (remaining.map AccountMeta.info)
        (metas.map fun m => UInt8.ofNat ((addresses remaining).idxOf m.address)) = some (accounts.map AccountMeta.info) ∧
      addresses accounts = addresses metas ∧
      List.Forall₂ (fun m account => account ∈ remaining ∧ account.address = m.address) metas accounts
  | [], _ => ⟨[], rfl, rfl, .nil⟩
  | m :: metas, h => by
    obtain ⟨accounts, hresolve, haddresses, hall⟩ :=
      resolveAccounts_positions hlen fun m' hm' => h m' (List.mem_cons_of_mem _ hm')
    obtain ⟨account, haccount, haddress, hget⟩ := lookup_position hlen (h m List.mem_cons_self)
    refine ⟨account :: accounts, ?_, ?_, .cons ⟨haccount, haddress⟩ hall⟩
    · unfold resolveAccounts at hresolve ⊢
      rw [List.map_cons, List.mapM_cons, hget, hresolve]
      rfl
    · unfold addresses at haddresses ⊢
      rw [List.map_cons, List.map_cons, haddresses, haddress]

/-- One instruction is resolved. -/
theorem resolve_compactOf (h : compileWalletInstructions instructions walletPda = .ok compiled)
    (hkeys : ∀ ix ∈ instructions, ∀ a ∈ instructionKeys ix, a ∈ addresses compiled.remainingAccounts)
    (hlen : (addresses compiled.remainingAccounts).length ≤ 256) {ix : Instruction} (hix : ix ∈ instructions) :
    ∃ cpi, builtInstruction walletPda (compiled.remainingAccounts.map AccountMeta.info)
      (compactOf (addresses compiled.remainingAccounts) ix).toCompact = some cpi ∧ CarriesOut ix cpi := by
  obtain ⟨program, -, hprogram, hgetProgram⟩ := lookup_position hlen (hkeys ix hix _ List.mem_cons_self)
  obtain ⟨accounts, hresolve, haddresses, hall⟩ := resolveAccounts_positions hlen fun m hm =>
    hkeys ix hix m.address (List.mem_cons_of_mem _ (List.mem_map_of_mem hm))
  refine ⟨⟨program.info.key, (accounts.map AccountMeta.info).map (metaOf walletPda), ix.data.getD []⟩, ?_, ?_⟩
  · unfold builtInstruction
    simp only [CompactInstructionArgs.toCompact, compactOf]
    rw [hgetProgram, hresolve]
    rfl
  · refine ⟨hprogram, ?_, rfl, ?_⟩
    · rw [List.map_map, List.map_map, ← haddresses]
      rfl
    · rw [List.map_map, List.forall₂_map_right_iff]
      have hmem := (List.forall₂_and_left (p := fun m => m ∈ ix.metas) _ _).2 ⟨fun _ hm => hm, hall⟩
      exact hmem.imp fun m account hm => grants_of_named h hix hm.1 hm.2.1 hm.2.2

/-- The instructions are resolved one by one. -/
theorem resolve_all {walletPda : Pubkey} {infos : List AccountInfo} {keys : List Pubkey} :
    ∀ {instructions : List Instruction}, (∀ ix ∈ instructions, ∃ cpi,
      builtInstruction walletPda infos (compactOf keys ix).toCompact = some cpi ∧ CarriesOut ix cpi) →
    ∃ cpis, resolvedInstructions walletPda infos ((instructions.map (compactOf keys)).map CompactInstructionArgs.toCompact) =
      some cpis ∧ List.Forall₂ CarriesOut instructions cpis
  | [], _ => ⟨[], rfl, .nil⟩
  | ix :: instructions, h => by
    obtain ⟨cpi, hcpi, hcarries⟩ := h ix List.mem_cons_self
    obtain ⟨cpis, hcpis, hall⟩ := resolve_all fun ix' hix' => h ix' (List.mem_cons_of_mem _ hix')
    refine ⟨cpi :: cpis, ?_, .cons hcarries hall⟩
    unfold resolvedInstructions at hcpis ⊢
    rw [List.map_cons, List.map_cons, List.mapM_cons, hcpi, hcpis]
    rfl

/-- What the compiler returns resolves to what there was. -/
theorem roundTrip_of_ok (hcount : (instructions.flatMap instructionKeys).toFinset.card ≤ 256)
    (h : compileWalletInstructions instructions walletPda = .ok compiled) : RoundTrip walletPda instructions compiled := by
  obtain ⟨-, remaining, hmerged, hremaining, hcompacts, hallowed⟩ := compileWalletInstructions_ok h
  have haddresses : addresses compiled.remainingAccounts = addresses remaining := by rw [hremaining, addresses_elevate]
  have hmem : ∀ a, a ∈ addresses compiled.remainingAccounts ↔ a ∈ instructions.flatMap instructionKeys := by
    intro a
    have hinserted : (fun ix => (insertedMetas walletPda ix).map AccountMeta.address) = instructionKeys :=
      funext (addresses_insertedMetas walletPda)
    rw [haddresses, hmerged.mem_addresses, addresses, List.map_flatMap, hinserted]
  have hnd : (addresses compiled.remainingAccounts).Nodup := haddresses ▸ hmerged.nodup
  have hlen := (length_addresses hnd fun a ha => (hmem a).1 ha).trans hcount
  have hkeys : ∀ ix ∈ instructions, ∀ a ∈ instructionKeys ix, a ∈ addresses compiled.remainingAccounts :=
    fun ix hix a ha => (hmem a).2 (List.mem_flatMap.2 ⟨ix, hix, ha⟩)
  rw [← haddresses] at hcompacts
  refine ⟨hallowed, hnd, ?_, ?_, ?_, ?_⟩
  · intro compact hcompact
    rw [hcompacts] at hcompact
    obtain ⟨ix, hix, rfl⟩ := List.mem_map.1 hcompact
    have hlt := List.idxOf_lt_length_iff.2 (hkeys ix hix _ List.mem_cons_self)
    show (addresses compiled.remainingAccounts).idxOf ix.programAddress < 256
    omega
  · rw [hcompacts]
    exact resolve_all fun ix hix => resolve_compactOf h hkeys hlen hix
  · intro m hm hwallet
    rw [Bool.eq_false_iff]
    intro hrole
    exact ((mem_compiled h hm).1.1 hrole).1 hwallet
  · intro m hm hwallet
    obtain ⟨hsigner, hwritable⟩ := mem_compiled h hm
    exact ⟨fun hrole => (hsigner.1 hrole).2, fun hrole => (hwritable.1 hrole).resolve_left hwallet⟩

end Compiled

/-- **Compile and resolve.** For every list of instructions over at most 256 addresses, the compiler throws for a denied
program, or what it returns resolves to the same programs, accounts and data, with at least the privileges that were asked
for and, on other accounts than the wallet, no more. -/
theorem compile_resolve (instructions : List Instruction) (walletPda : Pubkey) (hnonempty : instructions ≠ [])
    (hcount : (instructions.flatMap instructionKeys).toFinset.card ≤ 256) :
    (∃ ix ∈ instructions, ix.programAddress ∈ deniedPrograms ∧
      compileWalletInstructions instructions walletPda = deniedError ix.programAddress) ∨
    ∃ compiled, compileWalletInstructions instructions walletPda = .ok compiled ∧
      RoundTrip walletPda instructions compiled := by
  rcases compileWalletInstructions_total hnonempty with hdenied | ⟨compiled, hcompiled⟩
  · exact Or.inl hdenied
  · exact Or.inr ⟨compiled, hcompiled, roundTrip_of_ok hcount hcompiled⟩

/-- Two instructions that share the wallet and a program. -/
theorem compile_resolve_shared : ∃ compiled, compileWalletInstructions
      [⟨.fill 5, some [⟨.fill 9, .writableSigner⟩, ⟨.fill 6, .writable⟩], some [1]⟩,
        ⟨.fill 6, some [⟨.fill 5, .readonly⟩, ⟨.fill 9, .readonly⟩], none⟩] (.fill 9) = .ok compiled ∧
    compiled.remainingAccounts.length = 3 ∧ RoundTrip (.fill 9)
      [⟨.fill 5, some [⟨.fill 9, .writableSigner⟩, ⟨.fill 6, .writable⟩], some [1]⟩,
        ⟨.fill 6, some [⟨.fill 5, .readonly⟩, ⟨.fill 9, .readonly⟩], none⟩] compiled := by
  have hlen : (fun compiled => compiled.remainingAccounts.length) <$> compileWalletInstructions
      [⟨.fill 5, some [⟨.fill 9, .writableSigner⟩, ⟨.fill 6, .writable⟩], some [1]⟩,
        ⟨.fill 6, some [⟨.fill 5, .readonly⟩, ⟨.fill 9, .readonly⟩], none⟩] (.fill 9) = .ok 3 := by decide +kernel
  obtain ⟨compiled, hcompiled, hthree⟩ := outcome_map_eq_ok.1 hlen
  rcases compile_resolve [⟨.fill 5, some [⟨.fill 9, .writableSigner⟩, ⟨.fill 6, .writable⟩], some [1]⟩,
      ⟨.fill 6, some [⟨.fill 5, .readonly⟩, ⟨.fill 9, .readonly⟩], none⟩] (.fill 9) (by simp) (by decide +kernel)
    with ⟨ix, -, -, herror⟩ | ⟨compiled', hcompiled', htrip⟩
  · rw [herror] at hcompiled
    cases hcompiled
  · obtain rfl := Except.ok.inj (hcompiled.symm.trans hcompiled')
    exact ⟨compiled, hcompiled, hthree, htrip⟩

end PhygitalWallet.Client
