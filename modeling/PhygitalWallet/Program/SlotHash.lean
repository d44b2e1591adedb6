import PhygitalWallet.Lib.Bisection
import PhygitalWallet.Program.Access

/-!
# The slot lookup (`utils/slot_hash.rs`)

The search of `fetch_slot_hash` is a bisection of the entries, which are read from the raw bytes of the sysvar.

- `readSlot_eq_some`: which entries can be read;
- `searchSlot_search`: the loop of the source is a run of the bisection, with as much fuel as it has entries;
- `slot_lookup`: what the lookup returns.
-/

namespace PhygitalWallet

open ByteSeq Bisection

/-- The slot of an entry. -/
def slotAt (data : Bytes) (i : Nat) : UInt64 := u64Of (slice data (8 + i * entryLen) (8 + i * entryLen + 8))

/-- The hash of an entry. -/
def hashAt (data : Bytes) (i : Nat) : Bytes := slice data (8 + i * entryLen + 8) (8 + i * entryLen + 40)

/-- The slot of an entry that lies within the data, with its hash. -/
def readSlot (data : Bytes) (i : Nat) : Option Nat := do
  let bytes ← getRange data (8 + i * entryLen) (8 + i * entryLen + 8)
  let _ ← getRange data (8 + i * entryLen + 8) (8 + i * entryLen + 40)
  return (u64Of bytes).toNat

/-- What the lookup makes of the outcome of its search. -/
def lookupResult (data : Bytes) (out : Option Nat) : Result Bytes := okOr (out.map (hashAt data)) .invalidSlotHash

section Entries

variable {data : Bytes} {slotNumber : UInt64} {count : Nat}

theorem rangeOf_eq {a b : Nat} (hab : a ≤ b) (hb : b ≤ data.length) : rangeOf data a b = .ok (slice data a b) :=
  orPanic_eq_ok.2 (getRange_of_le hab hb)

/-- **An entry can be read** exactly when it lies within the data. -/
theorem readSlot_eq_some {i slot : Nat} :
    readSlot data i = some slot ↔ 8 + i * entryLen + entryLen ≤ data.length ∧ (slotAt data i).toNat = slot := by
  unfold readSlot slotAt
  constructor
  · intro h
    obtain ⟨bytes, hslot, h⟩ := Option.bind_eq_some_iff.1 h
    obtain ⟨hash, hhash, h⟩ := Option.bind_eq_some_iff.1 h
    obtain ⟨-, -, rfl⟩ := getRange_eq_some hslot
    obtain ⟨-, hle, -⟩ := getRange_eq_some hhash
    exact ⟨by unfold entryLen at hle ⊢; omega, Option.some.inj h⟩
  · rintro ⟨hle, rfl⟩
    unfold entryLen at hle ⊢
    rw [getRange_of_le (by omega) (by omega), getRange_of_le (by omega) (by omega)]
    rfl

theorem readSlot_of_lt (hfits : 8 + count * entryLen ≤ data.length) {i : Nat} (hi : i < count) :
    readSlot data i = some (slotAt data i).toNat := by
  refine readSlot_eq_some.2 ⟨?_, rfl⟩
  unfold entryLen at hfits ⊢
  omega

/-- One turn of the loop reads the slot in the middle. -/
theorem searchSlot_succ {fuel left right : Nat} (h : left < right)
    (hle : 8 + mid left right * entryLen + entryLen ≤ data.length) :
    searchSlot data slotNumber (fuel + 1) left right =
      if slotAt data (mid left right) = slotNumber then .ok (hashAt data (mid left right))
      else if slotNumber < slotAt data (mid left right) then
        searchSlot data slotNumber fuel (mid left right + 1) right
      else searchSlot data slotNumber fuel left (mid left right) := by
  have hslot : rangeOf data (8 + mid left right * entryLen) (8 + mid left right * entryLen + 8) =
      .ok (slice data (8 + mid left right * entryLen) (8 + mid left right * entryLen + 8)) := by
    apply rangeOf_eq <;> unfold entryLen at * <;> omega
  have hhash : rangeOf data (8 + mid left right * entryLen + 8) (8 + mid left right * entryLen + 40) =
      .ok (hashAt data (mid left right)) := by
    apply rangeOf_eq <;> unfold entryLen at * <;> omega
  unfold mid at hslot hhash
  rw [searchSlot, if_pos h]
  simp only [hslot, hhash, ok_bind]
  rfl

/-- **The loop of the source is a run of the bisection.** One turn of fuel is enough for each entry of the window. -/
theorem searchSlot_search {left right : Nat} {out : Option Nat}
    (h : Search (readSlot data) slotNumber.toNat left right out) {fuel : Nat} (hfuel : right - left ≤ fuel) :
    searchSlot data slotNumber fuel left right = lookupResult data out := by
  induction h generalizing fuel with
  | @missing left =>
    cases fuel with
    | zero => rfl
    | succ fuel => simp [searchSlot, lookupResult, okOr]
  | @found left right h hread =>
    obtain ⟨fuel, rfl⟩ : ∃ n, fuel = n + 1 := ⟨fuel - 1, by omega⟩
    obtain ⟨hle, hslot⟩ := readSlot_eq_some.1 hread
    rw [searchSlot_succ h hle, if_pos (UInt64.toNat_inj.1 hslot)]
    rfl
  | @behind left right entry out h hread hlt rest ih =>
    obtain ⟨fuel, rfl⟩ : ∃ n, fuel = n + 1 := ⟨fuel - 1, by omega⟩
    obtain ⟨hle, rfl⟩ := readSlot_eq_some.1 hread
    have hmid := mid_bounds h
    rw [searchSlot_succ h hle, if_neg fun heq => hlt.ne' (congrArg UInt64.toNat heq),
      if_pos (UInt64.lt_iff_toNat_lt.2 hlt)]
    exact ih (by omega)
  | @before left right entry out h hread hlt rest ih =>
    obtain ⟨fuel, rfl⟩ : ∃ n, fuel = n + 1 := ⟨fuel - 1, by omega⟩
    obtain ⟨hle, rfl⟩ := readSlot_eq_some.1 hread
    have hmid := mid_bounds h
    rw [searchSlot_succ h hle, if_neg fun heq => hlt.ne (congrArg UInt64.toNat heq),
      if_neg fun hgt => lt_asymm hlt (UInt64.lt_iff_toNat_lt.1 hgt)]
    exact ih (by omega)

/-- Before its search the lookup checks the count, which the entries of the data bound. -/
theorem fetchSlotHash_eq (hlen : data.length < 2 ^ 64) (hfits : 8 + ofLE (slice data 0 8) * entryLen ≤ data.length)
    (hpos : 0 < ofLE (slice data 0 8)) :
    fetchSlotHash data slotNumber = searchSlot data slotNumber (ofLE (slice data 0 8)) 0 (ofLE (slice data 0 8)) := by
  have hcount : rangeOf data 0 8 = .ok (slice data 0 8) := rangeOf_eq (by omega) (by omega)
  have hend : checkedEnd (ofLE (slice data 0 8)) = .ok (8 + ofLE (slice data 0 8) * entryLen) := by
    rcases checkedEnd_cases (ofLE (slice data 0 8)) with hend | hend
    · exact hend
    · omega
  have height : 8 ≤ data.length := by omega
  unfold fetchSlotHash
  simp only [require_of height, hcount, ok_bind, require_of hpos, hend, require_of hfits]

theorem fetchSlotHash_empty (hlen : 8 ≤ data.length) (hzero : ofLE (slice data 0 8) = 0) :
    fetchSlotHash data slotNumber = err .invalidSysvarDataFormat := by
  have hcount : rangeOf data 0 8 = .ok (slice data 0 8) := rangeOf_eq (by omega) hlen
  have hpos : ¬0 < ofLE (slice data 0 8) := by omega
  unfold fetchSlotHash
  simp only [require_of hlen, hcount, ok_bind, require_of_not hpos]
  rfl

/-- **The slot lookup.** For entries in strictly descending order of their slots the hash of the slot is returned, and
an error where no entry has it. The search is a run of the bisection, which ends, and each entry that it reads lies
within the data. -/
theorem slot_lookup (hlen : data.length < 2 ^ 64) (hcount : count = ofLE (slice data 0 8))
    (hfits : 8 + count * entryLen ≤ data.length)
    (hsorted : ∀ i j, i < j → j < count → slotAt data j < slotAt data i) :
    (∀ i < count, slotAt data i = slotNumber → fetchSlotHash data slotNumber = .ok (hashAt data i)) ∧
    ((∀ i < count, slotAt data i ≠ slotNumber) →
      fetchSlotHash data slotNumber =
        err (if count = 0 then .invalidSysvarDataFormat else .invalidSlotHash)) ∧
    ∃ out, Search (readSlot data) slotNumber.toNat 0 count out ∧
      (0 < count → fetchSlotHash data slotNumber = lookupResult data out) := by
  have hread : ∀ i < count, readSlot data i = some (slotAt data i).toNat := fun i hi => readSlot_of_lt hfits hi
  obtain ⟨out, hout⟩ := Search.total slotNumber.toNat (fun i hi => ⟨_, hread i hi⟩) (Nat.zero_le count)
  have hfound : ∀ i, out = some i ↔ i < count ∧ slotAt data i = slotNumber := by
    intro i
    rw [hout.eq_some_iff]
    · constructor
      · rintro ⟨-, hi, hslot⟩
        exact ⟨hi, UInt64.toNat_inj.1 (Option.some.inj ((hread i hi).symm.trans hslot))⟩
      · rintro ⟨hi, rfl⟩
        exact ⟨Nat.zero_le i, hi, hread i hi⟩
    · intro i j a b hij hj ha hb
      obtain rfl := Option.some.inj ((hread i (by omega)).symm.trans ha)
      obtain rfl := Option.some.inj ((hread j hj).symm.trans hb)
      exact UInt64.lt_iff_toNat_lt.1 (hsorted i j hij hj)
  have hresult : 0 < count → fetchSlotHash data slotNumber = lookupResult data out := by
    intro hpos
    subst hcount
    rw [fetchSlotHash_eq hlen hfits hpos]
    exact searchSlot_search hout (by omega)
  refine ⟨?_, ?_, out, hout, hresult⟩
  · intro i hi hslot
    rw [hresult (by omega), (hfound i).2 ⟨hi, hslot⟩]
    rfl
  · intro habsent
    split
    · next hzero => exact fetchSlotHash_empty (by omega) (hcount ▸ hzero)
    · next hpos =>
      have hnone : out = none := by
        rw [Option.eq_none_iff_forall_ne_some]
        intro i hi
        obtain ⟨hlt, hslot⟩ := (hfound i).1 hi
        exact habsent i hlt hslot
      rw [hresult (by omega), hnone]
      rfl

end Entries

/-- Two entries, of the slots 7 and 5: the slot 6 was skipped. -/
def skippedSlot : Bytes :=
  toLE 8 2 ++ toLE 8 7 ++ List.replicate 32 1 ++ toLE 8 5 ++ List.replicate 32 2

theorem skippedSlot_sorted : ∀ i j, i < j → j < 2 → slotAt skippedSlot j < slotAt skippedSlot i := by
  intro i j hij hj
  obtain ⟨rfl, rfl⟩ : i = 0 ∧ j = 1 := by omega
  decide +kernel

theorem slot_lookup_skipped : fetchSlotHash skippedSlot 5 = .ok (List.replicate 32 2) ∧
    fetchSlotHash skippedSlot 6 = err .invalidSlotHash := by
  have hcount : 2 = ofLE (slice skippedSlot 0 8) := by decide +kernel
  have habsent : ∀ i < 2, slotAt skippedSlot i ≠ 6 := by decide +kernel
  exact ⟨(slot_lookup (by decide) hcount (by decide) skippedSlot_sorted).1 1 (by decide) (by decide +kernel),
    (slot_lookup (by decide) hcount (by decide) skippedSlot_sorted).2.1 habsent⟩

end PhygitalWallet
