import PhygitalWallet.Lib.Codec

/-!
# Borsh

The primitive encodings and their readers, as formats of `ByteCodec`.

- integers are little-endian, `bool` and the tag of an `Option` are `0` or `1`, a `Vec` is a `u32` count and its items,
  an enum is its variant's index and the variant's fields;
- `decodes_u16`, `decodes_u64`, `decodes_bool`, `decodes_option`, `decodes_variants`, `decodes_vec`: what each reader
  accepts.
-/

namespace Borsh

open ByteSeq ByteCodec

variable {ε α : Type}

/-! ## Encoders -/

/-- An integer, little-endian. -/
def encodeU8 (x : UInt8) : Bytes := [x]
def encodeU16 (x : UInt16) : Bytes := toLE 2 x.toNat
def encodeU32 (x : UInt32) : Bytes := toLE 4 x.toNat
def encodeU64 (x : UInt64) : Bytes := toLE 8 x.toNat
/-- The tag of a `bool`. -/
def boolTag (b : Bool) : UInt8 := if b then 1 else 0
/-- Two's complement. -/
def encodeI64 (x : Int64) : Bytes := encodeU64 x.toUInt64
def encodeBool (b : Bool) : Bytes := [boolTag b]

/-- A tag, and the value where there is one. -/
def encodeOption (encode : α → Bytes) : Option α → Bytes
  | none => [0]
  | some a => 1 :: encode a

/-- The count, and the items one after another. -/
def encodeVec (encode : α → Bytes) (as : List α) : Bytes := toLE 4 as.length ++ as.flatMap encode

/-! ## Integers -/

/-- The readers; `e` is thrown where the input ends too early. -/
def u8 (e : ε) : Decoder ε UInt8 := byte e
def u16 (e : ε) : Decoder ε UInt16 := UInt16.ofNat <$> takeLE e 2
def u32 (e : ε) : Decoder ε UInt32 := UInt32.ofNat <$> takeLE e 4
def u64 (e : ε) : Decoder ε UInt64 := UInt64.ofNat <$> takeLE e 8

/-- One byte is one `u8`. -/
theorem decodes_u8 (e : ε) : Decodes (u8 e) (Format.plain encodeU8) := decodes_byte e

/-- A fixed-width integer type, read from `w` little-endian bytes. -/
theorem decodes_uint (e : ε) {w : Nat} {ofNat : Nat → α} {toNat : α → Nat} (hlt : ∀ a, toNat a < 256 ^ w)
    (hto : ∀ n, n < 256 ^ w → toNat (ofNat n) = n) (hof : ∀ a, ofNat (toNat a) = a) :
    Decodes (ofNat <$> takeLE e w) (Format.plain fun a => toLE w (toNat a)) := by
  refine ((decodes_takeLE e w).map ofNat toNat hto).congr (fun a => ?_) (fun a _ => ⟨rfl, rfl⟩)
  simp [Format.le, Format.plain, hlt a, hof a]

/-- Two bytes are one `u16`. -/
theorem decodes_u16 (e : ε) : Decodes (u16 e) (Format.plain encodeU16) :=
  decodes_uint e (fun a => a.toNat_lt) (fun _ hn => UInt16.toNat_ofNat_of_lt' hn) (fun a => a.ofNat_toNat)

/-- Four bytes are one `u32`. -/
theorem decodes_u32 (e : ε) : Decodes (u32 e) (Format.plain encodeU32) :=
  decodes_uint e (fun a => a.toNat_lt) (fun _ hn => UInt32.toNat_ofNat_of_lt' hn) (fun a => a.ofNat_toNat)

/-- Eight bytes are one `u64`. -/
theorem decodes_u64 (e : ε) : Decodes (u64 e) (Format.plain encodeU64) :=
  decodes_uint e (fun a => a.toNat_lt) (fun _ hn => UInt64.toNat_ofNat_of_lt' hn) (fun a => a.ofNat_toNat)

/-- The bits of a `u64`. -/
def i64 (e : ε) : Decoder ε Int64 := UInt64.toInt64 <$> u64 e

/-- Eight bytes are one `i64`, in two's complement. -/
theorem decodes_i64 (e : ε) : Decodes (i64 e) (Format.plain encodeI64) := by
  refine ((decodes_u64 e).map UInt64.toInt64 Int64.toUInt64 fun _ _ => rfl).congr (fun a => ?_) (fun _ _ => ⟨rfl, rfl⟩)
  simp

/-! ## Enums, options and booleans -/

/-- **Enums.** A tag byte chooses the reader of the rest; reader `t` returns the values of tag `t` and no others. -/
theorem decodes_variants (e : ε) {f : UInt8 → Decoder ε α} {c : Format α} (tagOf : α → UInt8)
    (hf : ∀ t, Decodes (f t) ⟨c.encode, c.cost, fun a => tagOf a = t ∧ c.valid a⟩) :
    Decodes (u8 e >>= f) ⟨fun a => tagOf a :: c.encode a, c.cost, c.valid⟩ := by
  refine ((decodes_u8 e).bind tagOf hf fun t a _ h => h.1).congr (fun a => ?_) (fun a _ => ?_)
  · simp [Format.andThen, Format.plain]
  · simp [Format.andThen, Format.plain, encodeU8]

/-- The reader of a tag that no variant has. -/
theorem decodes_unknownTag (e : ε) {c : Format α} {tagOf : α → UInt8} {t : UInt8} (ht : ∀ a, tagOf a ≠ t) :
    Decodes (throw e : Decoder ε α) ⟨c.encode, c.cost, fun a => tagOf a = t ∧ c.valid a⟩ :=
  (Decodes.fail e).congr (fun a => ⟨False.elim, fun h => ht a h.1⟩) (fun a h => absurd h.1 (ht a))

/-- An enum without fields. -/
def unitEnum (e : ε) (ofTag : UInt8 → Option α) : Decoder ε α := tagged e ofTag

/-- An enum without fields is its tag. -/
theorem decodes_unitEnum (e : ε) {ofTag : UInt8 → Option α} {toTag : α → UInt8}
    (h : ∀ t a, ofTag t = some a ↔ toTag a = t) : Decodes (unitEnum e ofTag) (Format.plain fun a => [toTag a]) :=
  decodes_tagged e h

/-- Any tag but `0` and `1` is refused. -/
def bool (e : ε) : Decoder ε Bool :=
  unitEnum e fun t => if t = 0 then some false else if t = 1 then some true else none

/-- A `bool` is its tag. -/
theorem decodes_bool (e : ε) : Decodes (bool e) (Format.plain encodeBool) := by
  apply decodes_unitEnum e
  intro t b
  by_cases h₀ : t = 0
  · cases b <;> simp [h₀, boolTag]
  · by_cases h₁ : t = 1
    · cases b <;> simp [h₁, boolTag]
    · have h₀' : 0 ≠ t := Ne.symm h₀
      have h₁' : 1 ≠ t := Ne.symm h₁
      cases b <;> simp [h₀, h₁, h₀', h₁', boolTag]

/-- The tag of an option. -/
def optionTag (o : Option α) : UInt8 :=
  match o with
  | none => 0
  | some _ => 1

/-- Any tag but `0` and `1` is refused. -/
def option (e : ε) (d : Decoder ε α) : Decoder ε (Option α) := do
  let tag ← u8 e
  match tag with
  | 0 => pure none
  | 1 => some <$> d
  | _ => throw e

/-- An option of values of a format. -/
def Format.option (c : Format α) : Format (Option α) where
  encode := encodeOption c.encode
  cost o := o.elim 0 c.cost
  valid o := ∀ a, o = some a → c.valid a

/-- An option costs nothing when its values cost nothing. -/
theorem option_cost_plain {encode : α → Bytes} (o : Option α) : (Format.option (Format.plain encode)).cost o = 0 := by
  cases o <;> rfl

/-- An option of plain values is valid. -/
theorem option_valid_plain {encode : α → Bytes} (o : Option α) : (Format.option (Format.plain encode)).valid o :=
  fun _ _ => trivial

/-- An option of plain values is encoded by their encoder. -/
theorem option_encode_plain {encode : α → Bytes} (o : Option α) :
    (Format.option (Format.plain encode)).encode o = encodeOption encode o := rfl

/-- **Options.** The reader accepts `0`, or `1` and what the reader of the values accepts. -/
theorem decodes_option (e : ε) {d : Decoder ε α} {c : Format α} [Inhabited α] (h : Decodes d c) :
    Decodes (option e d) (Format.option c) := by
  refine (decodes_variants e optionTag (c := ⟨fun o => o.elim [] c.encode, fun o => o.elim 0 c.cost,
    fun o => ∀ a, o = some a → c.valid a⟩) fun t => ?_).congr (fun _ => Iff.rfl) ?_
  · split
    · refine (Decodes.pure none).congr (fun o => ?_) ?_
      · cases o <;> simp [Format.unit, optionTag]
      · rintro (_ | a) ⟨ht, -⟩
        · exact ⟨rfl, rfl⟩
        · cases ht
    · refine (h.map some (fun o => o.getD default) fun _ _ => rfl).congr (fun o => ?_) ?_
      · cases o <;> simp [optionTag]
      · rintro (_ | a) ⟨ht, -⟩
        · cases ht
        · exact ⟨rfl, rfl⟩
    · next h₀ h₁ =>
      apply decodes_unknownTag e
      rintro (_ | a) rfl
      · exact h₀ rfl
      · exact h₁ rfl
  · rintro (_ | a) _
    · exact ⟨rfl, rfl⟩
    · exact ⟨rfl, rfl⟩

/-! ## Vectors -/

/-- A `Vec` of any length that its count can spell. -/
def vec (e : ε) (item : Decoder ε α) : Decoder ε (List α) := list e (2 ^ 32 - 1) 0 item

/-- A list of values of a format. -/
def Format.vec (c : Format α) : Format (List α) where
  encode := encodeVec c.encode
  cost as := (as.map c.cost).sum
  valid as := as.length < 2 ^ 32 ∧ ∀ a ∈ as, c.valid a

/-- **Vectors.** The reader accepts a count and as many values, none of which is empty. -/
theorem decodes_vec (e : ε) {item : Decoder ε α} {c : Format α} (h : Decodes item c)
    (hc : ∀ a, c.valid a → c.encode a ≠ []) : Decodes (vec e item) (Format.vec c) := by
  refine (decodes_list e (2 ^ 32 - 1) 0 h hc (by decide)).congr (fun as => ?_) (fun as _ => ?_)
  · have hlt : as.length ≤ 2 ^ 32 - 1 ↔ as.length < 2 ^ 32 := by omega
    simp only [Format.list, Format.vec, hlt]
  · simp [Format.list, Format.vec, encodeVec]

/-- A `Vec<u8>`. -/
theorem decodes_vec_u8 (e : ε) :
    Decodes (vec e (u8 e)) ⟨encodeVec encodeU8, fun _ => 0, fun bs => bs.length < 2 ^ 32⟩ := by
  refine (decodes_vec e (decodes_u8 e) fun b _ => by simp [encodeU8]).congr (fun bs => ?_) (fun bs _ => ⟨rfl, ?_⟩)
  · simp [Format.vec]
  · simp [Format.vec, Format.plain, List.map_const']

end Borsh
