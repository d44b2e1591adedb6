import PhygitalWallet.Lib.Bytes

/-!
# Writing into a buffer of a fixed size

A byte array of a size computed beforehand, and the offset of the next write.

- `Writer.push`: one element; a write past the end is ignored;
- `Writer.set`, `Writer.skip`: a block, which must fit, and the advance of the offset;
- `Filled`: the buffer is what was written so far, and zeros (`Filled.push`, `Filled.set`, `Filled.foldlM`, `Filled.full`).
-/

namespace ByteBuffer

open ByteSeq (Bytes)

variable {ε : Type}

structure Writer where
  out : Bytes
  offset : Nat
deriving DecidableEq, Repr

/-- `new Uint8Array(size)`, before the first write. -/
def alloc (size : Nat) : Writer := ⟨List.replicate size 0, 0⟩

/-- `out[offset++] = value`. -/
def Writer.push (w : Writer) (value : UInt8) : Writer := ⟨w.out.set w.offset value, w.offset + 1⟩

/-- `out.set(bytes, offset)`. -/
def Writer.set (e : ε) (w : Writer) (bytes : Bytes) : Except ε Writer :=
  if w.out.length < w.offset + bytes.length then .error e
  else .ok { w with out := w.out.take w.offset ++ bytes ++ w.out.drop (w.offset + bytes.length) }

/-- `offset += n`. -/
def Writer.skip (w : Writer) (n : Nat) : Writer := { w with offset := w.offset + n }

/-- The bytes written so far, then zeros up to the size. -/
structure Filled (w : Writer) (size : Nat) (bytes : Bytes) : Prop where
  le : bytes.length ≤ size
  out : w.out = bytes ++ List.replicate (size - bytes.length) 0
  offset : w.offset = bytes.length

variable {w : Writer} {size : Nat} {bytes : Bytes}

theorem filled_alloc (size : Nat) : Filled (alloc size) size [] := ⟨Nat.zero_le size, rfl, rfl⟩

theorem Filled.length_out (h : Filled w size bytes) : w.out.length = size := by
  have := h.le
  simp only [h.out, List.length_append, List.length_replicate]
  omega

theorem Filled.push (h : Filled w size bytes) (hlt : bytes.length < size) (value : UInt8) :
    Filled (w.push value) size (bytes ++ [value]) := by
  obtain ⟨k, hk⟩ : ∃ k, size - bytes.length = k + 1 := ⟨size - bytes.length - 1, by omega⟩
  refine ⟨by rw [List.length_append]; exact hlt, ?_, by simp [Writer.push, h.offset]⟩
  have hrest : size - (bytes ++ [value]).length = k := by
    simp only [List.length_append, List.length_singleton]
    omega
  rw [Writer.push, h.out, h.offset, hk, hrest, List.set_append_right _ _ (Nat.le_refl _), Nat.sub_self,
    List.replicate_succ, List.set_cons_zero, List.append_assoc, List.singleton_append]

/-- A block that fits is written. -/
theorem Filled.set (h : Filled w size bytes) (block : Bytes) (hle : bytes.length + block.length ≤ size) (e : ε) :
    ∃ w', w.set e block = .ok w' ∧ Filled (w'.skip block.length) size (bytes ++ block) := by
  have hfit : ¬w.out.length < w.offset + block.length := by
    rw [h.length_out, h.offset]
    omega
  refine ⟨_, if_neg hfit, by simpa using hle, ?_, by simp [Writer.skip, h.offset]⟩
  have hdrop : size - bytes.length - block.length = size - (bytes ++ block).length := by
    rw [List.length_append]
    omega
  simp only [Writer.skip, h.out, h.offset]
  rw [List.take_left, ← List.drop_drop, List.drop_left, List.drop_replicate, hdrop]

theorem Filled.full (h : Filled w size bytes) (hfull : bytes.length = size) : w.out = bytes := by
  rw [h.out, hfull, Nat.sub_self, List.replicate_zero, List.append_nil]

/-- A loop that writes each item's bytes. -/
theorem Filled.foldlM {α : Type} {f : Writer → α → Except ε Writer} {g : α → Bytes} :
    ∀ {items : List α} {w : Writer} {bytes : Bytes}, (∀ a ∈ items, ∀ {w : Writer} {bytes : Bytes}, Filled w size bytes →
        bytes.length + (g a).length ≤ size → ∃ w', f w a = .ok w' ∧ Filled w' size (bytes ++ g a)) →
      Filled w size bytes → bytes.length + (items.flatMap g).length ≤ size →
      ∃ w', items.foldlM f w = .ok w' ∧ Filled w' size (bytes ++ items.flatMap g)
  | [], w, bytes, _, h, _ => ⟨w, rfl, by simpa using h⟩
  | a :: items, w, bytes, hf, h, hle => by
    rw [List.flatMap_cons, List.length_append] at hle
    obtain ⟨w₁, hw₁, h₁⟩ := hf a List.mem_cons_self h (by omega)
    obtain ⟨w₂, hw₂, h₂⟩ := Filled.foldlM (fun b hb => hf b (List.mem_cons_of_mem _ hb)) h₁
      (by rw [List.length_append]; omega)
    refine ⟨w₂, ?_, by rw [List.flatMap_cons, ← List.append_assoc]; exact h₂⟩
    rw [List.foldlM_cons, hw₁]
    exact hw₂

end ByteBuffer
