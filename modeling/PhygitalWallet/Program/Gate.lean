import PhygitalWallet.Program.Compact

/-!
# The permission gate is the CPIs issued

A rule is matched on compact indexes, before the CPI is built from the same indexes with flags of its own. The relation
`Permitted` reads an instruction the way the called program will see it: its program, its metas in order, its data, and
the accounts as they are at that moment.

- `InstructionRule.matches_iff`: the matcher on indexes is the relation on the instruction built;
- `prepareInstruction_iff`: a CPI is built exactly when its indexes resolve and the gate admits it;
- `gate_issued`, `gate_stops`: what is issued, and why the loop stops.
-/

namespace PhygitalWallet

open ByteSeq

/-! ## The relation on instructions -/

/-- The comparison on numbers. -/
def Comparison.Holds : Comparison → Nat → Nat → Prop
  | .equal, a, b => a = b
  | .notEqual, a, b => a ≠ b
  | .lessThan, a, b => a < b
  | .lessThanOrEqual, a, b => a ≤ b
  | .greaterThan, a, b => b < a
  | .greaterThanOrEqual, a, b => b ≤ a

/-- The field at an offset. -/
def FieldAt (data : Bytes) (offset : Nat) (field : Bytes) : Prop :=
  ∃ pre post, data = pre ++ field ++ post ∧ pre.length = offset

def DataConstraint.Holds (c : DataConstraint) (data : Bytes) : Prop :=
  match c.predicate with
  | .bytesEqual expected => FieldAt data c.offset.toNat expected
  | .unsigned width comparison value => ∃ field, FieldAt data c.offset.toNat field ∧ field.length = width.bytes ∧
      comparison.Holds (ofLE field) value.toNat

def AccountKeyConstraint.Holds (wallet key : Pubkey) : AccountKeyConstraint → Prop
  | .any => True
  | .address k => key = k
  | .wallet => key = wallet

def AccountConstraint.Holds (c : AccountConstraint) (wallet : Pubkey) (bank : Bank) (metas : List AccountMeta) : Prop :=
  ∃ m, metas[c.index.toNat]? = some m ∧ c.key.Holds wallet m.pubkey ∧
    (∀ owner, c.owner = some owner → (bank m.pubkey).owner = owner) ∧
    (∀ signer, c.isSigner = some signer → m.isSigner = signer) ∧
    (∀ writable, c.isWritable = some writable → m.isWritable = writable) ∧
    ∀ d ∈ c.data, d.Holds (bank m.pubkey).data

def InstructionRule.Holds (r : InstructionRule) (wallet : Pubkey) (bank : Bank) (ix : Instruction) : Prop :=
  r.selector <+: ix.data ∧ (∀ n, r.dataLength = some n → ix.data.length = n.toNat) ∧
    (∀ n, r.accountCount = some n → ix.accounts.length = n.toNat) ∧
    (∀ d ∈ r.arguments, d.Holds ix.data) ∧ ∀ c ∈ r.accounts, c.Holds wallet bank ix.accounts

/-- The entry for the program decides; without one, the four baseline programs are allowed. -/
def Permitted (permissions : List ProgramPermission) (wallet : Pubkey) (bank : Bank) (ix : Instruction) : Prop :=
  match (permissions.find? fun p => p.programId = ix.programId).map ProgramPermission.access with
  | some .denied => False
  | some .allInstructions => True
  | some (.restricted rules) => ∃ r ∈ rules, r.Holds wallet bank ix
  | none => ix.programId = systemProgramId ∨ ix.programId = splTokenProgramId ∨ ix.programId = token2022ProgramId ∨
      ix.programId = associatedTokenProgramId

/-! ## The matcher on bytes -/

theorem fieldAt_iff {data field : Bytes} {offset : Nat} :
    FieldAt data offset field ↔ getRange data offset (offset + field.length) = some field := by
  constructor
  · rintro ⟨pre, post, h, rfl⟩
    exact getRange_eq pre post h rfl rfl
  · intro h
    obtain ⟨-, hle, hs⟩ := getRange_eq_some h
    have hcut : data = _ ++ slice data offset _ ++ _ := eq_slice (Nat.le_add_right offset field.length)
    rw [hs] at hcut
    exact ⟨_, _, hcut, by rw [List.length_take]; omega⟩

theorem ofLE_append_zeros (bs : Bytes) (n : Nat) : ofLE (bs ++ List.replicate n 0) = ofLE bs := by
  induction bs with
  | nil =>
    induction n with
    | zero => rfl
    | succ n ih =>
      rw [List.nil_append] at ih ⊢
      simp [List.replicate_succ, ofLE, ih]
  | cons b bs ih => rw [List.cons_append, ofLE, ih, ofLE]

theorem NumericWidth.bytes_le (w : NumericWidth) : w.bytes ≤ 8 := by cases w <;> decide

theorem Comparison.holds_iff (c : Comparison) (a b : UInt64) : c.holds a b = true ↔ c.Holds a.toNat b.toNat := by
  cases c <;> simp [Comparison.holds, Comparison.Holds, UInt64.lt_iff_toNat_lt, UInt64.le_iff_toNat_le,
    ← UInt64.toNat_inj]

theorem DataConstraint.matches_iff (c : DataConstraint) (data : Bytes) : c.matches data = true ↔ c.Holds data := by
  obtain ⟨offset, expected | ⟨width, comparison, value⟩⟩ := c
  · simp only [DataConstraint.Holds, fieldAt_iff, DataConstraint.matches, DataConstraint.width]
    cases getRange data offset.toNat (offset.toNat + expected.length) with
    | none => simp
    | some bytes => simp
  · simp only [DataConstraint.Holds, DataConstraint.matches, DataConstraint.width]
    cases hr : getRange data offset.toNat (offset.toNat + width.bytes) with
    | none =>
      simp only [Bool.false_eq_true, false_iff]
      rintro ⟨field, hf, hlen, -⟩
      rw [fieldAt_iff, hlen, hr] at hf
      cases hf
    | some bytes =>
      obtain ⟨-, hle, hs⟩ := getRange_eq_some hr
      have hlen : bytes.length = width.bytes := by
        rw [← hs, length_slice hle]
        omega
      have hval : (UInt64.ofNat (ofLE (bytes ++ List.replicate (8 - bytes.length) 0))).toNat = ofLE bytes := by
        rw [ofLE_append_zeros, UInt64.toNat_ofNat']
        have hlt := ofLE_lt bytes
        have hpow : 256 ^ bytes.length ≤ 256 ^ 8 := Nat.pow_le_pow_right (by decide) (hlen ▸ width.bytes_le)
        exact Nat.mod_eq_of_lt (by omega)
      simp only [Comparison.holds_iff, hval]
      constructor
      · exact fun h => ⟨bytes, fieldAt_iff.2 (hlen ▸ hr), hlen, h⟩
      · rintro ⟨field, hf, hflen, h⟩
        rw [fieldAt_iff, hflen, hr] at hf
        cases hf
        exact h

/-! ## The matcher on accounts -/

/-- The meta that an account becomes. -/
def metaOf (wallet : Pubkey) (ai : AccountInfo) : AccountMeta :=
  { pubkey := ai.key, isSigner := ai.isSigner || ai.key = wallet, isWritable := ai.isWritable }

/-- The accounts at the indexes, where they all exist. -/
def resolveAccounts (remaining : List AccountInfo) (indexes : List UInt8) : Option (List AccountInfo) :=
  indexes.mapM fun i => remaining[i.toNat]?

theorem ite_false_eq_true {c e : Bool} : (if c = true then false else e) = true ↔ c = false ∧ e = true := by
  cases c <;> simp

theorem isSomeAnd_eq_false {α : Type} {o : Option α} {f : α → Bool} :
    isSomeAnd o f = false ↔ ∀ a, o = some a → f a = false := by
  cases o <;> simp [isSomeAnd]

variable {wallet : Pubkey} {bank : Bank} {remaining : List AccountInfo} {compact : CompactInstruction}
  {ais : List AccountInfo}

theorem AccountConstraint.matches_iff (c : AccountConstraint)
    (hres : resolveAccounts remaining compact.accountIndexes = some ais) :
    c.matches compact bank remaining wallet = true ↔ c.Holds wallet bank (ais.map (metaOf wallet)) := by
  obtain ⟨-, hget⟩ := ListLoop.getElem?_mapM hres
  have hmeta : (ais.map (metaOf wallet))[c.index.toNat]? =
      ((compact.accountIndexes[c.index.toNat]?).bind fun i => remaining[i.toNat]?).map (metaOf wallet) := by
    rw [List.getElem?_map, hget]
  unfold AccountConstraint.matches AccountConstraint.Holds
  rw [hmeta]
  cases hi : compact.accountIndexes[c.index.toNat]? with
  | none => simp
  | some index =>
    cases ha : remaining[index.toNat]? with
    | none => simp [ha]
    | some account =>
      have hkey : (match c.key with
          | .any => true
          | .address key => decide (account.key = key)
          | .wallet => decide (account.key = wallet)) = true ↔ c.key.Holds wallet account.key := by
        cases c.key <;> simp [AccountKeyConstraint.Holds]
      simp only [Option.bind_some, ha, Option.map_some, Option.some.injEq, exists_eq_left', ite_false_eq_true,
        Bool.or_eq_false_iff, isSomeAnd_eq_false, Bool.not_eq_false', decide_eq_false_iff_not, ne_eq,
        Decidable.not_not, List.all_eq_true, DataConstraint.matches_iff, and_assoc, metaOf,
        eq_comm (a := account.isWritable)]
      refine and_congr hkey (and_congr Iff.rfl (and_congr ?_ Iff.rfl))
      exact forall₂_congr fun signer _ => eq_comm

theorem InstructionRule.matches_iff (program : Pubkey) (r : InstructionRule)
    (hres : resolveAccounts remaining compact.accountIndexes = some ais) :
    r.matches compact bank remaining wallet = true ↔
      r.Holds wallet bank ⟨program, ais.map (metaOf wallet), compact.data⟩ := by
  obtain ⟨hlen, -⟩ := ListLoop.getElem?_mapM hres
  simp only [InstructionRule.matches, InstructionRule.Holds, ite_false_eq_true, Bool.or_eq_false_iff,
    Bool.not_eq_false', List.isPrefixOf_iff_prefix, isSomeAnd_eq_false, decide_eq_false_iff_not, ne_eq,
    Decidable.not_not, List.all_eq_true, DataConstraint.matches_iff, AccountConstraint.matches_iff _ hres,
    List.length_map, hlen, and_assoc]
  refine and_congr Iff.rfl (and_congr ?_ (and_congr ?_ Iff.rfl))
  · exact forall₂_congr fun n _ => eq_comm
  · exact forall₂_congr fun n _ => eq_comm

/-- The gate is the relation. -/
theorem checkInstruction_iff {permissions : List ProgramPermission} {program : Pubkey}
    (hres : resolveAccounts remaining compact.accountIndexes = some ais) :
    checkInstruction permissions program compact bank remaining wallet = .ok () ↔
      Permitted permissions wallet bank ⟨program, ais.map (metaOf wallet), compact.data⟩ := by
  unfold checkInstruction Permitted
  cases hfind : (permissions.find? fun p => p.programId = program).map ProgramPermission.access with
  | none => simp [isPolicyAllowedProgram]
  | some access =>
    cases access with
    | denied => simp [err]
    | allInstructions => simp
    | restricted rules =>
      simp only [require_eq_ok, List.any_eq_true, InstructionRule.matches_iff program _ hres]

/-! ## One CPI -/

/-- The instruction that a compact instruction stands for, where its indexes exist. -/
def builtInstruction (wallet : Pubkey) (remaining : List AccountInfo) (compact : CompactInstruction) :
    Option Instruction := do
  let program ← remaining[compact.programIdIndex.toNat]?
  let accounts ← resolveAccounts remaining compact.accountIndexes
  return { programId := program.key, accounts := accounts.map (metaOf wallet), data := compact.data }

theorem mem_resolveAccounts {indexes : List UInt8} {ais : List AccountInfo}
    (h : resolveAccounts remaining indexes = some ais) {ai : AccountInfo} :
    ai ∈ ais ↔ ∃ index ∈ indexes, remaining[index.toNat]? = some ai := by
  obtain ⟨-, hget⟩ := ListLoop.getElem?_mapM h
  constructor
  · intro hai
    obtain ⟨j, hj⟩ := List.getElem?_of_mem hai
    rw [hget] at hj
    obtain ⟨index, hindex, hj⟩ := Option.bind_eq_some_iff.1 hj
    exact ⟨index, List.mem_of_getElem? hindex, hj⟩
  · rintro ⟨index, hindex, hai⟩
    obtain ⟨j, hj⟩ := List.getElem?_of_mem hindex
    have hj' : ais[j]? = some ai := by
      rw [hget, hj]
      exact hai
    exact List.mem_of_getElem? hj'

/-- The metas of a CPI are the accounts that the compact instruction names. -/
theorem mem_builtInstruction {compact : CompactInstruction} {ix : Instruction}
    (h : builtInstruction wallet remaining compact = some ix) {m : AccountMeta} :
    m ∈ ix.accounts ↔ ∃ index ∈ compact.accountIndexes, ∃ ai, remaining[index.toNat]? = some ai ∧ metaOf wallet ai = m := by
  obtain ⟨program, -, h⟩ := Option.bind_eq_some_iff.1 h
  obtain ⟨ais, hres, hix⟩ := Option.bind_eq_some_iff.1 h
  cases hix
  rw [List.mem_map]
  constructor
  · rintro ⟨ai, hai, rfl⟩
    obtain ⟨index, hindex, hget⟩ := (mem_resolveAccounts hres).1 hai
    exact ⟨index, hindex, ai, hget, rfl⟩
  · rintro ⟨index, hindex, ai, hget, rfl⟩
    exact ⟨ai, (mem_resolveAccounts hres).2 ⟨index, hindex, hget⟩, rfl⟩

/-- The rules on every CPI besides the protected keys. -/
structure Admitted (programId wallet : Pubkey) (programPermissions : Option (List ProgramPermission)) (bank : Bank)
    (ix : Instruction) : Prop where
  not_self : ix.programId ≠ programId
  not_phygitalToken : ix.programId ≠ phygitalTokenId
  permitted : ∀ permissions, programPermissions = some permissions → Permitted permissions wallet bank ix

/-- The protected accounts of a list of accounts are passed without privilege. -/
def Unprivileged (protectedAccounts : List Pubkey) (ais : List AccountInfo) : Prop :=
  ∀ ai ∈ ais, ai.key ∈ protectedAccounts → ai.isSigner = false ∧ ai.isWritable = false

variable {programId : Pubkey} {protectedAccounts : List Pubkey} {programPermissions : Option (List ProgramPermission)}

theorem pushMeta_iff {metas metas' : List AccountMeta} {index : UInt8} :
    pushMeta wallet protectedAccounts remaining metas index = .ok metas' ↔
      ∃ ai, remaining[index.toNat]? = some ai ∧
        (ai.key ∈ protectedAccounts → ai.isSigner = false ∧ ai.isWritable = false) ∧
        metas' = metas ++ [metaOf wallet ai] := by
  simp only [pushMeta, bind_eq_ok, okOr_eq_ok]
  refine exists_congr fun ai => and_congr Iff.rfl ?_
  by_cases hp : ai.key ∈ protectedAccounts
  · have hany : protectedAccounts.any (fun k => decide (ai.key = k)) = true := by simpa using hp
    simp [hany, hp, metaOf, eq_comm (a := metas')]
  · have hany : ¬protectedAccounts.any (fun k => decide (ai.key = k)) = true := by simpa using hp
    simp [hany, hp, metaOf, eq_comm (a := metas')]

/-- The loop over the account indexes. -/
theorem pushMetas_iff {metas metas' : List AccountMeta} {indexes : List UInt8} :
    indexes.foldlM (pushMeta wallet protectedAccounts remaining) metas = .ok metas' ↔
      ∃ ais, resolveAccounts remaining indexes = some ais ∧ Unprivileged protectedAccounts ais ∧
        metas' = metas ++ ais.map (metaOf wallet) := by
  induction indexes generalizing metas with
  | nil => simp [resolveAccounts, Unprivileged, eq_comm (a := metas')]
  | cons index indexes ih =>
    have hcons : ∀ ais, resolveAccounts remaining (index :: indexes) = some ais ↔ ∃ ai rest,
        remaining[index.toNat]? = some ai ∧ resolveAccounts remaining indexes = some rest ∧ ai :: rest = ais := by
      intro ais
      simp [resolveAccounts, List.mapM_cons, Option.bind_eq_some_iff]
    simp only [List.foldlM_cons, bind_eq_ok, pushMeta_iff, ih, hcons]
    constructor
    · rintro ⟨_, ⟨ai, hai, hp, rfl⟩, rest, hrest, hu, rfl⟩
      exact ⟨_, ⟨ai, rest, hai, hrest, rfl⟩, List.forall_mem_cons.2 ⟨hp, hu⟩, by simp⟩
    · rintro ⟨_, ⟨ai, rest, hai, hrest, rfl⟩, hu, rfl⟩
      obtain ⟨hp, hu⟩ := List.forall_mem_cons.1 hu
      exact ⟨_, ⟨ai, hai, hp, rfl⟩, rest, hrest, hu, by simp⟩

/-- A CPI is built exactly when its indexes exist, the gate admits it, and its protected accounts are unprivileged. -/
theorem prepareInstruction_iff {ix : Instruction} :
    prepareInstruction programId wallet protectedAccounts remaining programPermissions bank compact = .ok ix ↔
      builtInstruction wallet remaining compact = some ix ∧ Admitted programId wallet programPermissions bank ix ∧
        ∀ ais, resolveAccounts remaining compact.accountIndexes = some ais → Unprivileged protectedAccounts ais := by
  simp only [prepareInstruction, builtInstruction, bind_eq_ok, okOr_eq_ok, require_eq_ok, pushMetas_iff, exists_const,
    pure_eq_ok, List.nil_append]
  constructor
  · rintro ⟨program, hprogram, hself, htoken, ⟨⟩, hgate, _, ⟨ais, hres, hu, rfl⟩, rfl⟩
    refine ⟨by simp [hprogram, hres], ⟨hself, htoken, ?_⟩, fun ais' hres' => ?_⟩
    · rintro permissions rfl
      exact (checkInstruction_iff hres).1 hgate
    · obtain rfl : ais = ais' := Option.some.inj (hres.symm.trans hres')
      exact hu
  · rintro ⟨hbuilt, hadm, hu⟩
    obtain ⟨program, hprogram, hbuilt⟩ := Option.bind_eq_some_iff.1 hbuilt
    obtain ⟨ais, hres, hbuilt⟩ := Option.bind_eq_some_iff.1 hbuilt
    cases hbuilt
    refine ⟨program, hprogram, hadm.not_self, hadm.not_phygitalToken, (), ?_, _, ⟨ais, hres, hu ais hres, rfl⟩, rfl⟩
    cases programPermissions with
    | none => rfl
    | some permissions => exact (checkInstruction_iff hres).2 (hadm.permitted permissions rfl)

theorem resolveAccounts_eq_none {indexes : List UInt8} :
    resolveAccounts remaining indexes = none ↔ ∃ i ∈ indexes, remaining.length ≤ i.toNat := by
  induction indexes with
  | nil => simp [resolveAccounts]
  | cons index indexes ih =>
    rw [List.exists_mem_cons_iff, ← ih, ← List.getElem?_eq_none_iff]
    unfold resolveAccounts
    rw [List.mapM_cons]
    cases remaining[index.toNat]? with
    | none => simp
    | some ai =>
      cases indexes.mapM fun i => remaining[i.toNat]? with
      | none => simp
      | some ais => simp

/-- A compact instruction stands for none exactly when an index is out of range. -/
theorem builtInstruction_eq_none :
    builtInstruction wallet remaining compact = none ↔
      ∃ i ∈ compact.programIdIndex :: compact.accountIndexes, remaining.length ≤ i.toNat := by
  rw [List.exists_mem_cons_iff, ← resolveAccounts_eq_none, ← List.getElem?_eq_none_iff]
  unfold builtInstruction
  cases remaining[compact.programIdIndex.toNat]? with
  | none => simp
  | some program =>
    cases resolveAccounts remaining compact.accountIndexes with
    | none => simp
    | some ais => simp

/-- The metas of the protected accounts of a CPI that was built. -/
theorem protected_metas (hu : Unprivileged protectedAccounts ais) :
    ∀ m ∈ ais.map (metaOf wallet), m.pubkey ∈ protectedAccounts →
      m.isWritable = false ∧ (m.isSigner = true → m.pubkey = wallet) := by
  intro m hm hp
  obtain ⟨ai, hai, rfl⟩ := List.mem_map.1 hm
  obtain ⟨hs, hw⟩ := hu ai hai hp
  refine ⟨hw, fun h => ?_⟩
  simpa [metaOf, hs] using h

/-- A privileged account shows in its meta. -/
theorem privileged_meta (wallet : Pubkey) (hu : ¬Unprivileged protectedAccounts ais) :
    ∃ m ∈ ais.map (metaOf wallet), m.pubkey ∈ protectedAccounts ∧ (m.isSigner = true ∨ m.isWritable = true) := by
  unfold Unprivileged at hu
  push Not at hu
  obtain ⟨ai, hai, hp, h⟩ := hu
  refine ⟨metaOf wallet ai, List.mem_map_of_mem hai, hp, ?_⟩
  cases hs : ai.isSigner with
  | true => exact Or.inl (by simp [metaOf, hs])
  | false => exact Or.inr (by simpa [metaOf] using h hs)

/-! ## The loop -/

section Loop

variable {rt : Runtime} {seeds : List Bytes} {prepare : Bank → CompactInstruction → Result Instruction}

/-- The bank after the last CPI, or its error. -/
def bankAfter (rt : Runtime) (seeds : List Bytes) (bank : Bank) (issued : List (Bank × Instruction)) : Result Bank :=
  match issued.getLast? with
  | none => .ok bank
  | some (b, ix) => rt.invokeSigned ix seeds b

theorem bankAfter_cons {bank' : Bank} {ix : Instruction} (hok : rt.invokeSigned ix seeds bank = .ok bank')
    (issued : List (Bank × Instruction)) :
    bankAfter rt seeds bank ((bank, ix) :: issued) = bankAfter rt seeds bank' issued := by
  cases issued with
  | nil => exact hok
  | cons e issued =>
    rw [bankAfter, bankAfter, List.getLast?_cons_cons, List.getLast?_cons]

/-- **What is issued.** The CPIs are those of the compact instructions, in order, each prepared in the bank that the
previous one left. -/
theorem gate_issued (compacts : List CompactInstruction) (bank : Bank) {i : Nat} {b : Bank} {ix : Instruction}
    (h : (issueInstructions rt seeds prepare bank compacts).issued[i]? = some (b, ix)) :
    bankAfter rt seeds bank ((issueInstructions rt seeds prepare bank compacts).issued.take i) = .ok b ∧
      ∃ compact, compacts[i]? = some compact ∧ prepare b compact = .ok ix := by
  induction compacts generalizing bank i with
  | nil => simp [issueInstructions] at h
  | cons compact rest ih =>
    rw [issueInstructions] at h ⊢
    cases hprep : prepare bank compact with
    | error e => simp [hprep] at h
    | ok built =>
      simp only [hprep] at h ⊢
      cases hcpi : rt.invokeSigned built seeds bank with
      | error e =>
        simp only [hcpi] at h ⊢
        cases i with
        | zero =>
          cases h
          exact ⟨rfl, compact, rfl, hprep⟩
        | succ i => simp at h
      | ok bank' =>
        simp only [hcpi] at h ⊢
        cases i with
        | zero =>
          cases h
          exact ⟨rfl, compact, rfl, hprep⟩
        | succ i =>
          rw [List.take_succ_cons, bankAfter_cons hcpi]
          exact ih bank' h

/-- **Why the loop stops.** The last CPI failed, or the next one was not prepared. -/
theorem gate_stops (compacts : List CompactInstruction) (bank : Bank) {e : Failure}
    (h : (issueInstructions rt seeds prepare bank compacts).result = .error e) :
    bankAfter rt seeds bank (issueInstructions rt seeds prepare bank compacts).issued = .error e ∨
      ∃ b compact, bankAfter rt seeds bank (issueInstructions rt seeds prepare bank compacts).issued = .ok b ∧
        compacts[(issueInstructions rt seeds prepare bank compacts).issued.length]? = some compact ∧
        prepare b compact = .error e := by
  induction compacts generalizing bank with
  | nil => cases h
  | cons compact rest ih =>
    rw [issueInstructions] at h ⊢
    cases hprep : prepare bank compact with
    | error e' =>
      simp only [hprep] at h ⊢
      cases h
      exact Or.inr ⟨bank, compact, rfl, rfl, hprep⟩
    | ok built =>
      simp only [hprep] at h ⊢
      cases hcpi : rt.invokeSigned built seeds bank with
      | error e' =>
        simp only [hcpi] at h ⊢
        cases h
        exact Or.inl hcpi
      | ok bank' =>
        simp only [hcpi] at h ⊢
        rw [bankAfter_cons hcpi]
        exact ih bank' h

end Loop

/-- A runtime whose CPIs change nothing. -/
def idleRuntime : Runtime where
  hash := fun bytes => bytes
  createProgramAddress := fun _ _ => none
  findProgramAddress := fun _ programId => (programId, 255)
  phygitalTokenDiscriminator := List.replicate 8 0
  controlledType := 0
  verify := fun _ _ _ bank => .ok bank
  invokeSigned := fun _ _ bank => .ok bank
  createAccount := fun _ _ _ _ => .error (.external 0)
  transfer := fun _ _ _ _ => .error (.external 0)
  firstInstruction := fun _ => none
  stackHeight := 1
  executable := fun _ => true
  unixTimestamp := 0
  minimumBalance := fun _ => 0

/-- The wallet signs every CPI that names it, a protected key as well. -/
theorem protected_wallet_signs :
    ∃ b ix m, (b, ix) ∈ (issueCompactInstructions idleRuntime crateId (.fill 9) 255 (.fill 8) [.fill 9]
        [⟨systemProgramId, false, false⟩, ⟨.fill 9, false, false⟩] [⟨0, [1], []⟩] (some [])
        (fun _ => ⟨0, systemProgramId, []⟩)).issued ∧
      m ∈ ix.accounts ∧ m.pubkey ∈ [Pubkey.fill 9] ∧ m.isSigner = true := by
  refine ⟨fun _ => ⟨0, systemProgramId, []⟩, ⟨systemProgramId, [⟨.fill 9, true, false⟩], []⟩, ⟨.fill 9, true, false⟩, ?_,
    List.mem_singleton_self _, List.mem_singleton_self _, rfl⟩
  exact List.mem_singleton.2 rfl

/-- **The permission gate is the CPIs issued.** Every CPI satisfies the permission relation as the called program will
see it, targets neither this program nor phygital-token, and passes no protected account as writable, nor as signer
unless it is the wallet. The loop stops before a CPI only when an index does not exist or the CPI breaks one of these. -/
theorem permission_gate (rt : Runtime) (programId wallet : Pubkey) (walletBump : UInt8) (phygitalTokenKey : Pubkey)
    (protectedAccounts : List Pubkey) (remaining : List AccountInfo) (compacts : List CompactInstruction)
    (programPermissions : Option (List ProgramPermission)) (bank : Bank) :
    let seeds := [programWalletSeed, phygitalTokenKey.bytes, [walletBump]]
    let run := issueCompactInstructions rt programId wallet walletBump phygitalTokenKey protectedAccounts remaining
      compacts programPermissions bank
    (∀ (i : Nat) b ix, run.issued[i]? = some (b, ix) →
      bankAfter rt seeds bank (run.issued.take i) = .ok b ∧
      (∃ compact, compacts[i]? = some compact ∧ builtInstruction wallet remaining compact = some ix) ∧
      Admitted programId wallet programPermissions b ix ∧
      ∀ m ∈ ix.accounts, m.pubkey ∈ protectedAccounts →
        m.isWritable = false ∧ (m.isSigner = true → m.pubkey = wallet)) ∧
    (∀ e, run.result = .error e → bankAfter rt seeds bank run.issued = .error e ∨
      ∃ b compact, bankAfter rt seeds bank run.issued = .ok b ∧ compacts[run.issued.length]? = some compact ∧
        ((∃ i ∈ compact.programIdIndex :: compact.accountIndexes, remaining.length ≤ i.toNat) ∨
          ∃ ix, builtInstruction wallet remaining compact = some ix ∧
            (¬Admitted programId wallet programPermissions b ix ∨
              ∃ m ∈ ix.accounts, m.pubkey ∈ protectedAccounts ∧ (m.isSigner = true ∨ m.isWritable = true)))) := by
  constructor
  · intro i b ix h
    obtain ⟨hbank, compact, hcompact, hprep⟩ := gate_issued compacts bank h
    obtain ⟨hbuilt, hadm, hu⟩ := prepareInstruction_iff.1 hprep
    refine ⟨hbank, ⟨compact, hcompact, hbuilt⟩, hadm, ?_⟩
    obtain ⟨program, -, hrest⟩ := Option.bind_eq_some_iff.1 hbuilt
    obtain ⟨ais, hres, hix⟩ := Option.bind_eq_some_iff.1 hrest
    cases hix
    exact protected_metas (hu ais hres)
  · intro e h
    rcases gate_stops compacts bank h with hlast | ⟨b, compact, hb, hcompact, hprep⟩
    · exact Or.inl hlast
    · refine Or.inr ⟨b, compact, hb, hcompact, ?_⟩
      cases hbuilt : builtInstruction wallet remaining compact with
      | none => exact Or.inl (builtInstruction_eq_none.1 hbuilt)
      | some ix =>
        refine Or.inr ⟨ix, rfl, ?_⟩
        by_contra hno
        push Not at hno
        obtain ⟨hadm, hmetas⟩ := hno
        obtain ⟨program, -, hrest⟩ := Option.bind_eq_some_iff.1 hbuilt
        obtain ⟨ais, hres, hix⟩ := Option.bind_eq_some_iff.1 hrest
        have hu : Unprivileged protectedAccounts ais := by
          by_contra hu
          obtain ⟨m, hm, hp, hpriv⟩ := privileged_meta wallet hu
          cases hix
          obtain ⟨hs, hw⟩ := hmetas m hm hp
          exact hpriv.elim hs hw
        have hok := prepareInstruction_iff.2 ⟨hbuilt, hadm, fun ais' hres' => by
          obtain rfl : ais = ais' := Option.some.inj (hres.symm.trans hres')
          exact hu⟩
        rw [hok] at hprep
        cases hprep

end PhygitalWallet
