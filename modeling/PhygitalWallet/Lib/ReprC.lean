import PhygitalWallet.Lib.Bytes

/-!
# The memory of a `repr(C)` struct

- `ReprC.place`: the fields one after another, each at the next multiple of its alignment;
- `ReprC.memory`: the whole struct, its size a multiple of its alignment;
- `memory_packed`: without gaps the memory is the fields' bytes.
-/

namespace ReprC

open ByteSeq

structure Field where
  align : Nat
  bytes : Bytes

/-- The next multiple of `a`. -/
def alignUp (n a : Nat) : Nat := (n + a - 1) / a * a

/-- The bytes up to the next multiple of `a`. -/
def gap (n a : Nat) : Bytes := List.replicate (alignUp n a - n) 0

/-- The fields from an offset on. -/
def place (offset : Nat) : List Field → Bytes
  | [] => []
  | f :: fields => gap offset f.align ++ f.bytes ++ place (alignUp offset f.align + f.bytes.length) fields

/-- The alignment of a struct is the largest of its fields'. -/
def align (fields : List Field) : Nat := fields.foldr (fun f a => max f.align a) 1

def memory (fields : List Field) : Bytes := place 0 fields ++ gap (place 0 fields).length (align fields)

/-- Every field starts at a multiple of its alignment. -/
def Packed (offset : Nat) : List Field → Prop
  | [] => True
  | f :: fields => f.align ∣ offset ∧ Packed (offset + f.bytes.length) fields

theorem alignUp_of_dvd {n a : Nat} (h : a ∣ n) : alignUp n a = n := by
  obtain ⟨k, rfl⟩ := h
  rcases Nat.eq_zero_or_pos a with rfl | ha
  · simp [alignUp]
  · rw [alignUp, Nat.add_sub_assoc ha, Nat.mul_add_div ha, Nat.div_eq_of_lt (Nat.sub_lt ha Nat.one_pos), Nat.add_zero,
      Nat.mul_comm]

theorem gap_of_dvd {n a : Nat} (h : a ∣ n) : gap n a = [] := by
  rw [gap, alignUp_of_dvd h, Nat.sub_self, List.replicate_zero]

theorem place_packed {offset : Nat} {fields : List Field} (h : Packed offset fields) :
    place offset fields = fields.flatMap Field.bytes := by
  induction fields generalizing offset with
  | nil => rfl
  | cons f fields ih =>
    obtain ⟨hdvd, hrest⟩ := h
    rw [place, gap_of_dvd hdvd, alignUp_of_dvd hdvd, ih hrest, List.nil_append, List.flatMap_cons]

/-- **A struct without gaps** is the concatenation of its fields. -/
theorem memory_packed {fields : List Field} (h : Packed 0 fields)
    (hsize : align fields ∣ (fields.flatMap Field.bytes).length) : memory fields = fields.flatMap Field.bytes := by
  rw [memory, place_packed h, gap_of_dvd hsize, List.append_nil]

end ReprC
