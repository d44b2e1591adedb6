import PhygitalWallet.Lib.Bytes

/-!
# Bounded decoders

A `Decoder ε` reads a value off the front of the input and may spend from a budget (`Cursor`). `Decodes d c` says what
`d` accepts in one equivalence: from a cursor, `d` returns `a` and the next cursor exactly when `a` is valid, the input
is the encoding of `a` followed by the rest, and the budget is the cost of `a` more than what is left. Read forwards it
is the round trip, read backwards it says that nothing else is accepted.

The rules build the format of a decoder from the formats of its parts: `Decodes.pure`, `Decodes.bind`, `Decodes.fail`,
`Decodes.guard`, `decodes_byte`, `decodes_takeLE`, `decodes_takeBytes`, `decodes_tagged`, `decodes_repeat`,
`decodes_list`. `runAll` runs a decoder over a whole byte string (`runAll_eq`).
-/

namespace ByteCodec

open ByteSeq

/-- What is left to read, and what is left to spend. -/
structure Cursor where
  input : Bytes
  budget : Nat

/-- A reader that can fail with an `ε`. -/
abbrev Decoder (ε α : Type) := StateT Cursor (Except ε) α

/-- A format: how a value is written, what it costs to read, which values are allowed. -/
structure Format (α : Type) where
  encode : α → Bytes
  cost : α → Nat
  valid : α → Prop

variable {ε α β : Type}

/-- The decoder reads exactly the format. -/
def Decodes (d : Decoder ε α) (c : Format α) : Prop :=
  ∀ s a s', d s = .ok (a, s') ↔ c.valid a ∧ s.input = c.encode a ++ s'.input ∧ s.budget = c.cost a + s'.budget

/-- Formats may be changed on values that are not allowed. -/
theorem Decodes.congr {d : Decoder ε α} {c c' : Format α} (h : Decodes d c) (hv : ∀ a, c.valid a ↔ c'.valid a)
    (he : ∀ a, c'.valid a → c.encode a = c'.encode a ∧ c.cost a = c'.cost a) : Decodes d c' := by
  intro s a s'
  rw [h s a s', hv a]
  constructor
  · rintro ⟨ha, hi, hb⟩
    exact ⟨ha, by rw [← (he a ha).1]; exact hi, by rw [← (he a ha).2]; exact hb⟩
  · rintro ⟨ha, hi, hb⟩
    exact ⟨ha, by rw [(he a ha).1]; exact hi, by rw [(he a ha).2]; exact hb⟩

/-- Two decoders of one format accept the same, whatever their errors. -/
theorem Decodes.transfer {ε' : Type} {d : Decoder ε α} {d' : Decoder ε' α} {c : Format α} (h : Decodes d c)
    (h' : Decodes d' c) {s s' : Cursor} {a : α} (hd : d s = .ok (a, s')) : d' s = .ok (a, s') :=
  (h' s a s').2 ((h s a s').1 hd)

/-! ## Sequencing -/

theorem bind_eq_ok {d : Decoder ε α} {f : α → Decoder ε β} {s s' : Cursor} {b : β} :
    (d >>= f) s = .ok (b, s') ↔ ∃ a s₁, d s = .ok (a, s₁) ∧ f a s₁ = .ok (b, s') := by
  show (d s >>= fun p => f p.1 p.2) = .ok (b, s') ↔ _
  cases h : d s with
  | error e => simp [bind, Except.bind]
  | ok p =>
    obtain ⟨a, s₁⟩ := p
    simp [bind, Except.bind]

/-- One value, no bytes. -/
def Format.unit (a : α) : Format α := ⟨fun _ => [], fun _ => 0, fun b => b = a⟩

theorem Decodes.pure (a : α) : Decodes (Pure.pure a : Decoder ε α) (Format.unit a) := by
  intro s b s'
  show Except.ok (a, s) = .ok (b, s') ↔ _
  simp only [Except.ok.injEq, Prod.mk.injEq, Format.unit, List.nil_append, Nat.zero_add]
  constructor
  · rintro ⟨rfl, rfl⟩
    exact ⟨rfl, rfl, rfl⟩
  · rintro ⟨rfl, hi, hb⟩
    cases s; cases s'
    exact ⟨rfl, by simp_all⟩

/-- The format of no value. -/
def Format.none : Format α := ⟨fun _ => [], fun _ => 0, fun _ => False⟩

theorem Decodes.fail (e : ε) : Decodes (throw e : Decoder ε α) Format.none := by
  intro s b s'
  show Except.error e = .ok (b, s') ↔ _
  simp [Format.none]

/-- First `p b`, then the rest of `b`. -/
def Format.andThen (x : Format α) (p : β → α) (y : α → Format β) : Format β where
  encode b := x.encode (p b) ++ (y (p b)).encode b
  cost b := x.cost (p b) + (y (p b)).cost b
  valid b := x.valid (p b) ∧ (y (p b)).valid b

section Fields

variable {x : Format α} {p : β → α} {y : α → Format β} {b : β}

@[simp] theorem Format.andThen_encode :
    (x.andThen p y).encode b = x.encode (p b) ++ (y (p b)).encode b := rfl

@[simp] theorem Format.andThen_cost : (x.andThen p y).cost b = x.cost (p b) + (y (p b)).cost b := rfl

@[simp] theorem Format.andThen_valid : (x.andThen p y).valid b ↔ x.valid (p b) ∧ (y (p b)).valid b := Iff.rfl

@[simp] theorem Format.unit_encode {a : β} : (Format.unit a).encode b = [] := rfl

@[simp] theorem Format.unit_cost {a : β} : (Format.unit a).cost b = 0 := rfl

@[simp] theorem Format.unit_valid {a : β} : (Format.unit a).valid b ↔ b = a := Iff.rfl

end Fields

/-- **Sequencing.** The continuation must only return values whose first part is the one already read. -/
theorem Decodes.bind {d : Decoder ε α} {f : α → Decoder ε β} {x : Format α} {y : α → Format β} (p : β → α)
    (hd : Decodes d x) (hf : ∀ a, Decodes (f a) (y a)) (hp : ∀ a b, x.valid a → (y a).valid b → p b = a) :
    Decodes (d >>= f) (x.andThen p y) := by
  intro s b s'
  rw [bind_eq_ok]
  constructor
  · rintro ⟨a, s₁, h₁, h₂⟩
    obtain ⟨hv, hi, hb⟩ := (hd _ _ _).1 h₁
    obtain ⟨hv', hi', hb'⟩ := (hf a _ _ _).1 h₂
    obtain rfl := hp a b hv hv'
    exact ⟨⟨hv, hv'⟩, by rw [hi, hi']; simp [Format.andThen], by rw [hb, hb']; simp [Format.andThen]; omega⟩
  · rintro ⟨⟨hv, hv'⟩, hi, hb⟩
    refine ⟨p b, ⟨(y (p b)).encode b ++ s'.input, (y (p b)).cost b + s'.budget⟩, ?_, ?_⟩
    · exact (hd _ _ _).2 ⟨hv, by rw [hi]; simp [Format.andThen], by rw [hb]; simp [Format.andThen]; omega⟩
    · exact (hf _ _ _ _).2 ⟨hv', rfl, rfl⟩

/-- Every value of the type, at no cost. -/
def Format.plain (encode : α → Bytes) : Format α := ⟨encode, fun _ => 0, fun _ => True⟩

@[simp] theorem Format.plain_encode {encode : α → Bytes} {a : α} : (Format.plain encode).encode a = encode a := rfl

@[simp] theorem Format.plain_cost {encode : α → Bytes} {a : α} : (Format.plain encode).cost a = 0 := rfl

@[simp] theorem Format.plain_valid {encode : α → Bytes} {a : α} : (Format.plain encode).valid a ↔ True := Iff.rfl

/-- A check that does not depend on the cursor. -/
theorem Decodes.guard {d : Decoder ε α} {c : Format α} {P : Prop} [Decidable P] {e : ε} (h : P → Decodes d c) :
    Decodes (if P then d else throw e) ⟨c.encode, c.cost, fun a => P ∧ c.valid a⟩ := by
  by_cases hP : P
  · rw [if_pos hP]
    exact (h hP).congr (fun a => by simp [hP]) (fun _ _ => ⟨rfl, rfl⟩)
  · rw [if_neg hP]
    exact (Decodes.fail e).congr (fun a => by simp [hP, Format.none]) (fun _ h => absurd h.1 hP)

/-- Reading through a function that is injective on the allowed values. -/
theorem Decodes.map {d : Decoder ε α} {c : Format α} (f : α → β) (g : β → α) (hgf : ∀ a, c.valid a → g (f a) = a)
    (h : Decodes d c) : Decodes (f <$> d) ⟨fun b => c.encode (g b), fun b => c.cost (g b),
      fun b => c.valid (g b) ∧ f (g b) = b⟩ := by
  rw [map_eq_pure_bind]
  refine (h.bind g (fun a => Decodes.pure (f a)) ?_).congr ?_ ?_
  · rintro a b ha rfl
    exact hgf a ha
  · intro b
    simp [Format.andThen, Format.unit, eq_comm]
  · intro b _
    simp [Format.andThen, Format.unit]

/-! ## Primitive values -/

/-- One byte. -/
def byte (e : ε) : Decoder ε UInt8 := fun s =>
  match s.input with
  | [] => .error e
  | b :: rest => .ok (b, { s with input := rest })

def Format.byte : Format UInt8 := ⟨fun b => [b], fun _ => 0, fun _ => True⟩

theorem decodes_byte (e : ε) : Decodes (byte e) Format.byte := by
  intro s b s'
  obtain ⟨input, budget⟩ := s
  obtain ⟨input', budget'⟩ := s'
  cases input with
  | nil => simp [byte, Format.byte]
  | cons c rest =>
    simp [byte, Format.byte]
    tauto

/-- The next `n` bytes. -/
def takeBytes (e : ε) (n : Nat) : Decoder ε Bytes := fun s =>
  if n ≤ s.input.length then .ok (s.input.take n, { s with input := s.input.drop n }) else .error e

def Format.bytes (n : Nat) : Format Bytes := ⟨id, fun _ => 0, fun bs => bs.length = n⟩

theorem decodes_takeBytes (e : ε) (n : Nat) : Decodes (takeBytes e n) (Format.bytes n) := by
  intro s bs s'
  obtain ⟨input, budget⟩ := s
  obtain ⟨input', budget'⟩ := s'
  simp only [takeBytes, Format.bytes, id_eq, Nat.zero_add]
  constructor
  · intro h
    split at h
    · next hn =>
      simp only [Except.ok.injEq, Prod.mk.injEq, Cursor.mk.injEq] at h
      obtain ⟨rfl, rfl, rfl⟩ := h
      exact ⟨by simpa using hn, (List.take_append_drop n input).symm, rfl⟩
    · cases h
  · rintro ⟨rfl, rfl, rfl⟩
    simp

/-- A little-endian number of `w` bytes. -/
def takeLE (e : ε) (w : Nat) : Decoder ε Nat := ofLE <$> takeBytes e w

def Format.le (w : Nat) : Format Nat := ⟨toLE w, fun _ => 0, fun n => n < 256 ^ w⟩

theorem decodes_takeLE (e : ε) (w : Nat) : Decodes (takeLE e w) (Format.le w) := by
  intro s n s'
  rw [takeLE, map_eq_pure_bind, bind_eq_ok]
  constructor
  · rintro ⟨bs, s₁, h, hp⟩
    obtain ⟨hl, hi, hb⟩ := (decodes_takeBytes e w _ _ _).1 h
    obtain ⟨rfl, hi', hb'⟩ := (Decodes.pure _ _ _ _).1 hp
    simp only [Format.unit, List.nil_append, Nat.zero_add] at hi' hb'
    have hw : bs.length = w := hl
    refine ⟨?_, ?_, by rw [hb, hb']; rfl⟩
    · show ofLE bs < 256 ^ w
      rw [← hw]
      exact ofLE_lt bs
    · rw [hi, hi', ← hw]
      show bs ++ _ = toLE bs.length (ofLE bs) ++ _
      rw [toLE_ofLE]
  · rintro ⟨hn, hi, hb⟩
    refine ⟨toLE w n, s', (decodes_takeBytes e w _ _ _).2 ⟨length_toLE w n, hi, hb⟩, ?_⟩
    exact (Decodes.pure _ _ _ _).2 ⟨(ofLE_toLE hn).symm, by simp [Format.unit], by simp [Format.unit]⟩

/-- A tag byte, read by a partial function on bytes. -/
def tagged (e : ε) (ofTag : UInt8 → Option α) : Decoder ε α := do
  let tag ← byte e
  match ofTag tag with
  | some a => pure a
  | none => throw e

def Format.tag (toTag : α → UInt8) : Format α := ⟨fun a => [toTag a], fun _ => 0, fun _ => True⟩

theorem decodes_tagged (e : ε) {ofTag : UInt8 → Option α} {toTag : α → UInt8}
    (h : ∀ t a, ofTag t = some a ↔ toTag a = t) : Decodes (tagged e ofTag) (Format.tag toTag) := by
  have hf : ∀ t, Decodes (match ofTag t with | some a => pure a | none => throw e : Decoder ε α)
      ⟨fun _ => [], fun _ => 0, fun a => toTag a = t⟩ := by
    intro t
    cases ht : ofTag t with
    | none =>
      refine (Decodes.fail e).congr (fun a => ?_) (fun _ _ => ⟨rfl, rfl⟩)
      simp only [Format.none, false_iff]
      intro ha
      rw [(h t a).2 ha] at ht
      cases ht
    | some a =>
      refine (Decodes.pure a).congr (fun b => ?_) (fun _ _ => ⟨rfl, rfl⟩)
      simp only [Format.unit]
      rw [← h t b, ht, Option.some.injEq, eq_comm]
  refine ((decodes_byte e).bind toTag hf fun _ _ _ hv => hv).congr (fun a => ?_) fun a _ => ?_
  · simp [Format.andThen, Format.byte, Format.tag]
  · simp [Format.andThen, Format.byte, Format.tag]

/-! ## Repetition -/

/-- `n` values, one after the other. -/
def repeatN (item : Decoder ε α) : Nat → Decoder ε (List α)
  | 0 => pure []
  | n + 1 => do
    let a ← item
    let as ← repeatN item n
    pure (a :: as)

/-- Lists of a fixed length. -/
def Format.repeat (c : Format α) (n : Nat) : Format (List α) :=
  ⟨fun as => as.flatMap c.encode, fun as => (as.map c.cost).sum, fun as => as.length = n ∧ ∀ a ∈ as, c.valid a⟩

theorem decodes_repeat {item : Decoder ε α} {c : Format α} (h : Decodes item c) :
    ∀ n, Decodes (repeatN item n) (c.repeat n)
  | 0 => by
    refine (Decodes.pure []).congr (fun as => ?_) ?_
    · simp only [Format.unit, Format.repeat, List.length_eq_zero_iff]
      constructor
      · rintro rfl
        exact ⟨rfl, by simp⟩
      · exact fun h => h.1
    · rintro as ⟨hl, -⟩
      simp [List.length_eq_zero_iff.1 hl, Format.unit, Format.repeat]
  | n + 1 => by
    intro s as s'
    show (item >>= fun a => repeatN item n >>= fun as => pure (a :: as)) s = .ok (as, s') ↔ _
    rw [bind_eq_ok]
    constructor
    · rintro ⟨a, s₁, h₁, h₂⟩
      obtain ⟨as', s₂, h₂, h₃⟩ := bind_eq_ok.1 h₂
      obtain ⟨hv, hi, hb⟩ := (h _ _ _).1 h₁
      obtain ⟨⟨hl, hvs⟩, hi', hb'⟩ := (decodes_repeat h n _ _ _).1 h₂
      obtain ⟨rfl, hi'', hb''⟩ := (Decodes.pure _ _ _ _).1 h₃
      simp only [Format.unit, List.nil_append, Nat.zero_add] at hi'' hb''
      refine ⟨⟨by simp [hl], by simpa using ⟨hv, hvs⟩⟩, ?_, ?_⟩
      · rw [hi, hi', hi'']; simp [Format.repeat]
      · rw [hb, hb', hb'']; simp [Format.repeat]; omega
    · rintro ⟨⟨hl, hvs⟩, hi, hb⟩
      cases as with
      | nil => cases hl
      | cons a as =>
        have hl' : as.length = n := by simpa using hl
        have hva := hvs a (by simp)
        have hvas : ∀ b ∈ as, c.valid b := fun b hb => hvs b (by simp [hb])
        simp only [Format.repeat, List.flatMap_cons, List.map_cons, List.sum_cons, List.append_assoc] at hi hb
        refine ⟨a, ⟨as.flatMap c.encode ++ s'.input, (as.map c.cost).sum + s'.budget⟩,
          (h _ _ _).2 ⟨hva, hi, by rw [hb, Nat.add_assoc]⟩, bind_eq_ok.2 ⟨as, s', ?_, rfl⟩⟩
        exact (decodes_repeat h n _ _ _).2 ⟨⟨hl', hvas⟩, rfl, rfl⟩

/-! ## Counted lists with a budget -/

/-- Spend `n` from the budget. -/
def spend (e : ε) (n : Nat) : Decoder ε Unit := fun s =>
  if n ≤ s.budget then .ok ((), { s with budget := s.budget - n }) else .error e

/-- A `u32` count, checked against `max` and against the bytes left; then `size` of the budget for each item; then the
items. -/
def list (e : ε) (max size : Nat) (item : Decoder ε α) : Decoder ε (List α) := do
  let count ← takeLE e 4
  let s ← get
  if count ≤ max ∧ count ≤ s.input.length then
    spend e (count * size)
    repeatN item count
  else throw e

/-- Lists of at most `max` items. -/
def Format.list (c : Format α) (max size : Nat) : Format (List α) where
  encode as := toLE 4 as.length ++ as.flatMap c.encode
  cost as := as.length * size + (as.map c.cost).sum
  valid as := as.length ≤ max ∧ ∀ a ∈ as, c.valid a

theorem le_length_flatMap {c : Format α} (hc : ∀ a, c.valid a → c.encode a ≠ []) :
    ∀ {as : List α}, (∀ a ∈ as, c.valid a) → as.length ≤ (as.flatMap c.encode).length
  | [], _ => by simp
  | a :: as, h => by
    have ha := List.length_pos_iff.2 (hc a (h a (by simp)))
    have has := le_length_flatMap hc (fun b hb => h b (by simp [hb]) : ∀ b ∈ as, c.valid b)
    simp only [List.flatMap_cons, List.length_append, List.length_cons]
    omega

/-- The count never exceeds the bytes left when every item takes a byte, so the check against the input rejects
nothing that could be read. -/
theorem decodes_list (e : ε) (max size : Nat) {item : Decoder ε α} {c : Format α} (h : Decodes item c)
    (hc : ∀ a, c.valid a → c.encode a ≠ []) (hmax : max < 2 ^ 32) :
    Decodes (list e max size item) (c.list max size) := by
  intro s as s'
  rw [list, bind_eq_ok]
  constructor
  · rintro ⟨count, s₁, h₁, h₂⟩
    obtain ⟨hn, hi, hb⟩ := (decodes_takeLE e 4 _ _ _).1 h₁
    obtain ⟨t, s₂, hg, h₂⟩ := bind_eq_ok.1 h₂
    cases hg
    split at h₂
    · next hcount =>
      obtain ⟨u, s₃, h₃, h₄⟩ := bind_eq_ok.1 h₂
      unfold spend at h₃
      split at h₃
      · next hspend =>
        cases h₃
        obtain ⟨⟨rfl, hv⟩, hi', hb'⟩ := (decodes_repeat h _ _ _ _).1 h₄
        refine ⟨⟨hcount.1, hv⟩, ?_, ?_⟩
        · rw [hi]
          simp only at hi'
          rw [hi']
          simp [Format.list, Format.le, Format.repeat]
        · simp only [Format.repeat] at hb'
          simp only [Format.list]
          simp only [Format.le] at hb
          omega
      · cases h₃
    · cases h₂
  · rintro ⟨⟨hl, hv⟩, hi, hb⟩
    have hlen : as.length < 2 ^ 32 := Nat.lt_of_le_of_lt hl hmax
    have hle := le_length_flatMap hc hv
    simp only [Format.list, List.append_assoc] at hi hb
    refine ⟨as.length, ⟨as.flatMap c.encode ++ s'.input, s.budget⟩,
      (decodes_takeLE e 4 _ _ _).2 ⟨?_, hi, by simp [Format.le]⟩, ?_⟩
    · show as.length < 256 ^ 4
      omega
    refine bind_eq_ok.2 ⟨_, _, rfl, ?_⟩
    rw [if_pos ⟨hl, by rw [List.length_append]; omega⟩]
    refine bind_eq_ok.2 ⟨(), ⟨as.flatMap c.encode ++ s'.input, s.budget - as.length * size⟩, ?_, ?_⟩
    · unfold spend
      rw [if_pos (by simp only; omega)]
    · exact (decodes_repeat h _ _ _ _).2 ⟨⟨rfl, hv⟩, rfl, by simp only [Format.repeat]; omega⟩

/-! ## Whole byte strings -/

/-- Run a decoder over a whole byte string. -/
def runAll (d : Decoder ε α) (bs : Bytes) : Option α :=
  match d ⟨bs, 0⟩ with
  | .ok (a, s) => if s.input = [] then some a else none
  | .error _ => none

theorem runAll_eq {d : Decoder ε α} {c : Format α} (h : Decodes d c) (hc : ∀ a, c.valid a → c.cost a = 0)
    {bs : Bytes} {a : α} : runAll d bs = some a ↔ c.valid a ∧ bs = c.encode a := by
  unfold runAll
  constructor
  · intro hr
    split at hr
    · next b s hd =>
      split at hr
      · next hs =>
        cases hr
        obtain ⟨hv, hi, -⟩ := (h _ _ _).1 hd
        exact ⟨hv, by simpa [hs] using hi⟩
      · cases hr
    · cases hr
  · rintro ⟨hv, rfl⟩
    rw [(h ⟨c.encode a, 0⟩ a ⟨[], 0⟩).2 ⟨hv, by simp, by simp [hc a hv]⟩]
    rfl

end ByteCodec
