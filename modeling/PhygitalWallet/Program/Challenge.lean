import PhygitalWallet.Program.Relayer

/-!
# What the challenge covers

The hash of an execute covers the packed instructions and, for every index that they name, the key and the flags of the
account there.

- `executeMessageHash_iff`: the hash, in terms of the accounts that are named;
- `entries_inj`, `packCompactInstructions_inj`: the bytes determine the accounts, and the instructions;
- `executeMessageHash_inj`: without a collision, one message hash is one list of instructions and one of accounts.
-/

namespace PhygitalWallet

open ByteSeq (Bytes)

/-- What the hash covers of one account. -/
def AccountInfo.entry (ai : AccountInfo) : Bytes := ai.key.bytes ++ [accountPrivilegeByte ai.isSigner ai.isWritable]

/-- The accounts at the named indexes. -/
def referencedInfos (remaining : List AccountInfo) (compacts : List CompactInstruction) : Option (List AccountInfo) :=
  (referencedIndexes compacts).mapM fun i => remaining[i.toNat]?

/-- What the outer hash covers. -/
def challengePreimage (slotHash instructionsHash accountsHash : Bytes) : Bytes :=
  executeChallengePrefix ++ slotHash ++ instructionsHash ++ accountsHash

/-! ## The loop over the indexes -/

section Loop

variable {remaining : List AccountInfo} {compacts : List CompactInstruction}

/-- A loop over indexes that appends the entry of each. -/
theorem foldlM_entries {ε : Type} {f : Bytes → UInt8 → Except ε Bytes}
    (hf : ∀ buf i out, f buf i = .ok out ↔ ∃ ai, remaining[i.toNat]? = some ai ∧ out = buf ++ ai.entry)
    {indexes : List UInt8} {buf out : Bytes} : indexes.foldlM f buf = .ok out ↔
      ∃ ais, indexes.mapM (fun i => remaining[i.toNat]?) = some ais ∧ out = buf ++ ais.flatMap AccountInfo.entry := by
  induction indexes generalizing buf with
  | nil => simp [eq_comm, pure, Except.pure]
  | cons i indexes ih =>
    rw [List.foldlM_cons, List.mapM_cons]
    constructor
    · intro h
      cases hi : f buf i with
      | error e =>
        rw [hi] at h
        cases h
      | ok next =>
        obtain ⟨ai, hai, rfl⟩ := (hf _ _ _).1 hi
        rw [hi] at h
        obtain ⟨ais, hais, rfl⟩ := ih.1 h
        exact ⟨ai :: ais, by simp [hai, hais], by simp⟩
    · rintro ⟨ais, hais, rfl⟩
      obtain ⟨ai, hai, hais⟩ := Option.bind_eq_some_iff.1 hais
      obtain ⟨rest, hrest, hais⟩ := Option.bind_eq_some_iff.1 hais
      cases hais
      rw [(hf _ _ _).2 ⟨ai, hai, rfl⟩]
      exact ih.2 ⟨rest, hrest, by simp⟩

/-- One turn of the program's loop. -/
def pushReferenced (remaining : List AccountInfo) (parts : Bytes) (i : UInt8) : Result Bytes := do
  let part ← referencedAccount remaining i
  return parts ++ part

theorem pushReferenced_eq_ok {parts out : Bytes} {i : UInt8} : pushReferenced remaining parts i = .ok out ↔
    ∃ ai, remaining[i.toNat]? = some ai ∧ out = parts ++ ai.entry := by
  simp only [pushReferenced, referencedAccount, bind_eq_ok, okOr_eq_ok, pure_eq_ok]
  constructor
  · rintro ⟨_, ⟨ai, hai, rfl⟩, rfl⟩
    exact ⟨ai, hai, rfl⟩
  · rintro ⟨ai, hai, rfl⟩
    exact ⟨_, ⟨ai, hai, rfl⟩, rfl⟩

theorem referencedIndexes_cons (compact : CompactInstruction) (compacts : List CompactInstruction) :
    referencedIndexes (compact :: compacts) =
      (compact.programIdIndex :: compact.accountIndexes) ++ referencedIndexes compacts := by
  simp [referencedIndexes]

/-- The loop over the instructions is the loop over the indexes that they name. -/
theorem foldlM_referencedAccounts {parts : Bytes} : compacts.foldlM (referencedAccounts remaining) parts =
    (referencedIndexes compacts).foldlM (pushReferenced remaining) parts := by
  induction compacts generalizing parts with
  | nil => rfl
  | cons compact compacts ih =>
    rw [List.foldlM_cons, referencedIndexes_cons, List.foldlM_append]
    exact bind_congr fun parts => ih

/-- **The message hash.** -/
theorem executeMessageHash_iff {rt : Runtime} {slotHash messageHash : Bytes} :
    executeMessageHash rt slotHash remaining compacts = .ok messageHash ↔
      ∃ packed ais, packCompactInstructions compacts = .ok packed ∧ referencedInfos remaining compacts = some ais ∧
        messageHash = rt.hash (challengePreimage slotHash (rt.hash packed) (rt.hash (ais.flatMap AccountInfo.entry))) := by
  simp only [executeMessageHash, hashCompactInstructions, hashReferencedAccountsInfos, hashExecuteChallenge,
    foldlM_referencedAccounts, bind_eq_ok, pure_eq_ok, foldlM_entries fun _ _ _ => pushReferenced_eq_ok,
    List.nil_append]
  constructor
  · rintro ⟨_, ⟨packed, hpacked, rfl⟩, _, ⟨_, ⟨ais, hais, rfl⟩, rfl⟩, rfl⟩
    exact ⟨packed, ais, hpacked, hais, rfl⟩
  · rintro ⟨packed, ais, hpacked, hais, rfl⟩
    exact ⟨_, ⟨packed, hpacked, rfl⟩, _, ⟨_, ⟨ais, hais, rfl⟩, rfl⟩, rfl⟩

end Loop

/-! ## The bytes determine the accounts -/

theorem accountPrivilegeByte_inj {s w s' w' : Bool} (h : accountPrivilegeByte s w = accountPrivilegeByte s' w') :
    s = s' ∧ w = w' := by
  revert h
  cases s <;> cases w <;> cases s' <;> cases w' <;> decide

theorem length_entry (ai : AccountInfo) : ai.entry.length = 33 := by
  simp [AccountInfo.entry, ai.key.length_eq]

theorem entry_inj {a b : AccountInfo} (h : a.entry = b.entry) : a = b := by
  obtain ⟨hkey, hflags⟩ := List.append_inj h (a.key.length_eq.trans b.key.length_eq.symm)
  obtain ⟨hs, hw⟩ := accountPrivilegeByte_inj (List.head_eq_of_cons_eq hflags)
  cases a
  cases b
  cases Pubkey.ext hkey
  cases hs
  cases hw
  rfl

/-- Entries have one length, so their concatenation is cut in one way. -/
theorem entries_inj {as bs : List AccountInfo} (h : as.flatMap AccountInfo.entry = bs.flatMap AccountInfo.entry) :
    as = bs := by
  induction as generalizing bs with
  | nil =>
    cases bs with
    | nil => rfl
    | cons b bs =>
      have hlen := congrArg List.length h
      simp [length_entry] at hlen
      omega
  | cons a as ih =>
    cases bs with
    | nil =>
      have hlen := congrArg List.length h
      simp [length_entry] at hlen
    | cons b bs =>
      rw [List.flatMap_cons, List.flatMap_cons] at h
      obtain ⟨hab, hrest⟩ := List.append_inj h ((length_entry a).trans (length_entry b).symm)
      rw [entry_inj hab, ih hrest]

/-! ## The bytes determine the instructions -/

theorem length_encodeU16 (n : UInt16) : (Borsh.encodeU16 n).length = 2 := ByteSeq.length_toLE 2 n.toNat

/-- The narrowing casts of the packer keep a length that passed the checks. -/
theorem packCompactInstruction_inj {a b : CompactInstruction} (ha : checkPackable a = .ok ()) (hb : checkPackable b = .ok ())
    {r s : Bytes} (h : packCompactInstruction a ++ r = packCompactInstruction b ++ s) : a = b ∧ r = s := by
  obtain ⟨pa, ia, da⟩ := a
  obtain ⟨pb, ib, db⟩ := b
  simp only [checkPackable, unit_bind_eq_ok, require_eq_ok] at ha hb
  simp only [packCompactInstruction, List.append_assoc, List.cons_append, List.nil_append, List.cons.injEq] at h
  obtain ⟨rfl, hcount, hindexes⟩ := h
  have hcount : ia.length = ib.length := by
    have hn := congrArg UInt8.toNat hcount
    rw [UInt8.toNat_ofNat', UInt8.toNat_ofNat'] at hn
    omega
  obtain ⟨rfl, hdata⟩ := List.append_inj hindexes hcount
  obtain ⟨hwidth, htail⟩ := List.append_inj hdata ((length_encodeU16 _).trans (length_encodeU16 _).symm)
  have hlen : da.length = db.length := by
    have hn := ByteSeq.toLE_inj (UInt16.toNat_lt _) (UInt16.toNat_lt _) hwidth
    rw [UInt16.toNat_ofNat', UInt16.toNat_ofNat'] at hn
    omega
  obtain ⟨rfl, rfl⟩ := List.append_inj htail hlen
  exact ⟨rfl, rfl⟩

theorem packed_inj : ∀ {as bs : List CompactInstruction}, (∀ a ∈ as, checkPackable a = .ok ()) →
    (∀ b ∈ bs, checkPackable b = .ok ()) → as.length = bs.length →
    as.flatMap packCompactInstruction = bs.flatMap packCompactInstruction → as = bs
  | [], [], _, _, _, _ => rfl
  | a :: as, b :: bs, ha, hb, hlen, h => by
    rw [List.flatMap_cons, List.flatMap_cons] at h
    obtain ⟨rfl, hrest⟩ := packCompactInstruction_inj (ha a List.mem_cons_self) (hb b List.mem_cons_self) h
    have ih := packed_inj (fun a' h' => ha a' (List.mem_cons_of_mem _ h')) (fun b' h' => hb b' (List.mem_cons_of_mem _ h'))
      (Nat.succ.inj hlen) hrest
    rw [ih]

theorem packCompactInstructions_eq_ok {compacts : List CompactInstruction} {packed : Bytes} :
    packCompactInstructions compacts = .ok packed ↔ compacts.length ≤ 255 ∧ (∀ c ∈ compacts, checkPackable c = .ok ()) ∧
      packed = [UInt8.ofNat compacts.length] ++ compacts.flatMap packCompactInstruction := by
  have hloop : compacts.foldlM (fun _ ix => checkPackable ix) () = .ok () ↔ ∀ c ∈ compacts, checkPackable c = .ok () :=
    ListLoop.foldlM_unit_iff fun _ _ => Iff.rfl
  simp only [packCompactInstructions, unit_bind_eq_ok, require_eq_ok, hloop, pure_eq_ok, eq_comm (a := packed)]

/-- **Packing is injective** on the lists that it accepts. -/
theorem packCompactInstructions_inj {as bs : List CompactInstruction} {packed : Bytes}
    (ha : packCompactInstructions as = .ok packed) (hb : packCompactInstructions bs = .ok packed) : as = bs := by
  obtain ⟨hla, hca, rfl⟩ := packCompactInstructions_eq_ok.1 ha
  obtain ⟨hlb, hcb, h⟩ := packCompactInstructions_eq_ok.1 hb
  obtain ⟨hcount, h⟩ := List.cons.inj h
  have hlen : as.length = bs.length := by
    have hn := congrArg UInt8.toNat hcount
    rw [UInt8.toNat_ofNat', UInt8.toNat_ofNat'] at hn
    omega
  exact packed_inj hca hcb hlen h

/-! ## One hash, one list -/

/-- What one message hash hashes: the packed instructions, the accounts, and both hashes together. -/
def hashed (hash : Bytes → Bytes) (slotHash : Bytes) (remaining : List AccountInfo) (compacts : List CompactInstruction) :
    Set Bytes :=
  { bytes | ∃ packed ais, packCompactInstructions compacts = .ok packed ∧ referencedInfos remaining compacts = some ais ∧
    (bytes = packed ∨ bytes = ais.flatMap AccountInfo.entry ∨
      bytes = challengePreimage slotHash (hash packed) (hash (ais.flatMap AccountInfo.entry))) }

/-- **One hash, one list.** Two executes with one message hash carry the same instructions, and their accounts agree where
the instructions look, unless the hash function has a collision among what it was given. -/
theorem executeMessageHash_inj {rt₁ rt₂ : Runtime} {slotHash messageHash : Bytes} {r₁ r₂ : List AccountInfo}
    {compacts₁ compacts₂ : List CompactInstruction} (hrt : rt₂.hash = rt₁.hash)
    (hlen : ∀ bytes, (rt₁.hash bytes).length = 32)
    (hcol : Set.InjOn rt₁.hash (hashed rt₁.hash slotHash r₁ compacts₁ ∪ hashed rt₁.hash slotHash r₂ compacts₂))
    (h₁ : executeMessageHash rt₁ slotHash r₁ compacts₁ = .ok messageHash)
    (h₂ : executeMessageHash rt₂ slotHash r₂ compacts₂ = .ok messageHash) :
    compacts₁ = compacts₂ ∧ referencedInfos r₁ compacts₁ = referencedInfos r₂ compacts₂ := by
  obtain ⟨packed₁, as, hpacked₁, has, rfl⟩ := executeMessageHash_iff.1 h₁
  obtain ⟨packed₂, bs, hpacked₂, hbs, heq⟩ := executeMessageHash_iff.1 h₂
  rw [hrt] at heq
  have houter := hcol (Or.inl ⟨packed₁, as, hpacked₁, has, Or.inr (Or.inr rfl)⟩)
    (Or.inr ⟨packed₂, bs, hpacked₂, hbs, Or.inr (Or.inr rfl)⟩) heq
  simp only [challengePreimage, List.append_assoc] at houter
  obtain ⟨hpack, hacc⟩ := List.append_inj (List.append_cancel_left (List.append_cancel_left houter))
    ((hlen _).trans (hlen _).symm)
  have hpacked := hcol (Or.inl ⟨packed₁, as, hpacked₁, has, Or.inl rfl⟩) (Or.inr ⟨packed₂, bs, hpacked₂, hbs, Or.inl rfl⟩)
    hpack
  have hinner := hcol (Or.inl ⟨packed₁, as, hpacked₁, has, Or.inr (Or.inl rfl)⟩)
    (Or.inr ⟨packed₂, bs, hpacked₂, hbs, Or.inr (Or.inl rfl)⟩) hacc
  rw [has, hbs, entries_inj hinner]
  exact ⟨packCompactInstructions_inj hpacked₁ (hpacked ▸ hpacked₂), rfl⟩

end PhygitalWallet
