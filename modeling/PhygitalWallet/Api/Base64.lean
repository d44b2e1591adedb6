import PhygitalWallet.Lib.BaseText
import PhygitalWallet.Lib.Utf8
import Mathlib.Data.List.Basic

/-!
# Base64 of the API worker (`shared/crypto/base64.ts`)

Kit's codec does the work; `base64Encoder` is `getBase64Encoder().encode`, where `none` is what it throws at.

- `bytesToBase64Url`, `base64UrlToBytes`: the URL form, without padding;
- `base64UrlToBytes_bytesToBase64Url`: the round trip, over a kit that reads back what it writes;
- `base64UrlToBytes_bytesToBase64`: the plain form is read, too.
-/

namespace PhygitalWallet.Api

open ByteSeq BaseText

/-- `getBase64Encoder().encode`. -/
abbrev Base64Encoder := String → Option Bytes

/-- Kit reads back what it writes. -/
def ReadsBack (base64Encoder : Base64Encoder) : Prop := ∀ bytes, base64Encoder (base64Of bytes) = some bytes

theorem readsBack_base64Decode : ReadsBack fun text => base64Decode text.toList := by
  intro bytes
  show base64Decode (String.ofList (base64Chars bytes)).toList = some bytes
  rw [String.toList_ofList, base64Decode_base64Chars]

def bytesToBase64 (bytes : Bytes) : String := base64Of bytes

/-- The two characters that are not for URLs are replaced. -/
def toUrl (c : Char) : Char := if c = '+' then '-' else if c = '/' then '_' else c

/-- And back. -/
def fromUrl (c : Char) : Char := if c = '-' then '+' else if c = '_' then '/' else c

/-- The padding at the end is dropped. -/
def stripPadding (cs : List Char) : List Char := (cs.reverse.dropWhile (· = '=')).reverse

def bytesToBase64Url (bytes : Bytes) : String := String.ofList (stripPadding ((bytesToBase64 bytes).toList.map toUrl))

def base64UrlToBytes (base64Encoder : Base64Encoder) (base64url : String) : Option Bytes :=
  let padded := base64url.toList.map fromUrl
  let padLen := (4 - (Utf8.codeUnits padded).length % 4) % 4
  base64Encoder (String.ofList (padded ++ List.replicate padLen '='))

/-! ## The round trip -/

theorem digitChar_mem {d : Nat} (h : d < 64) : digitChar base64Alphabet d ∈ base64Alphabet := by
  have hlen : d < base64Alphabet.length := h
  have hget : digitChar base64Alphabet d = base64Alphabet[d] := by simp [digitChar, List.getD, hlen]
  rw [hget]
  exact List.getElem_mem hlen

/-- Digits, and the padding that makes the length a multiple of four. -/
theorem base64Chars_split : ∀ bytes : Bytes, ∃ body k, base64Chars bytes = body ++ List.replicate k '=' ∧ k < 4 ∧
    (body.length + k) % 4 = 0 ∧ (∀ c ∈ body, c ∈ base64Alphabet) ∧ (bytes ≠ [] → body ≠ [])
  | [] => ⟨[], 0, rfl, by decide, by decide, by simp, by simp⟩
  | [a] => by
    have ha : a.toNat < 256 := a.toNat_lt
    refine ⟨[digitChar base64Alphabet (a.toNat / 4), digitChar base64Alphabet (a.toNat % 4 * 16)], 2, rfl, by decide,
      by simp, ?_, fun _ => List.cons_ne_nil _ _⟩
    simp only [List.forall_mem_cons, List.not_mem_nil, false_imp_iff, implies_true, and_true]
    exact ⟨digitChar_mem (by omega), digitChar_mem (by omega)⟩
  | [a, b] => by
    have ha : a.toNat < 256 := a.toNat_lt
    have hb : b.toNat < 256 := b.toNat_lt
    refine ⟨[digitChar base64Alphabet (a.toNat / 4), digitChar base64Alphabet (a.toNat % 4 * 16 + b.toNat / 16),
      digitChar base64Alphabet (b.toNat % 16 * 4)], 1, rfl, by decide, by simp, ?_, fun _ => List.cons_ne_nil _ _⟩
    simp only [List.forall_mem_cons, List.not_mem_nil, false_imp_iff, implies_true, and_true]
    exact ⟨digitChar_mem (by omega), digitChar_mem (by omega), digitChar_mem (by omega)⟩
  | a :: b :: c :: rest => by
    have ha : a.toNat < 256 := a.toNat_lt
    have hb : b.toNat < 256 := b.toNat_lt
    have hc : c.toNat < 256 := c.toNat_lt
    obtain ⟨body, k, hchars, hk, hlen, hmem, -⟩ := base64Chars_split rest
    refine ⟨digitChar base64Alphabet (a.toNat / 4) :: digitChar base64Alphabet (a.toNat % 4 * 16 + b.toNat / 16) ::
      digitChar base64Alphabet (b.toNat % 16 * 4 + c.toNat / 64) :: digitChar base64Alphabet (c.toNat % 64) :: body, k,
      ?_, hk, ?_, ?_, fun _ => List.cons_ne_nil _ _⟩
    · rw [base64Chars, hchars]
      rfl
    · simp only [List.length_cons]
      omega
    · simp only [List.forall_mem_cons]
      exact ⟨digitChar_mem (by omega), digitChar_mem (by omega), digitChar_mem (by omega), digitChar_mem (by omega), hmem⟩

theorem fromUrl_toUrl : ∀ c ∈ base64Alphabet, fromUrl (toUrl c) = c := by
  rw [← List.forall_iff_forall_mem]
  decide +kernel

theorem toUrl_ne : ∀ c ∈ base64Alphabet, toUrl c ≠ '=' ∧ toUrl c ≠ '.' ∧ (toUrl c).toNat ≤ 0xffff := by
  rw [← List.forall_iff_forall_mem]
  decide +kernel

theorem fromUrl_small : ∀ c ∈ base64Alphabet, c.toNat ≤ 0xffff := by
  rw [← List.forall_iff_forall_mem]
  decide +kernel

/-- The padding alone is dropped. -/
theorem stripPadding_append {body : List Char} {k : Nat} (h : ∀ c ∈ body, c ≠ '=') :
    stripPadding (body ++ List.replicate k '=') = body := by
  have hbody : body.reverse.dropWhile (· = '=') = body.reverse := by
    cases hrev : body.reverse with
    | nil => rfl
    | cons c cs =>
      have hc : c ∈ body := List.mem_reverse.1 (hrev ▸ List.mem_cons_self)
      exact List.dropWhile_cons_of_neg (by simpa using h c hc)
  have hpad : ∀ n : Nat, ∀ cs : List Char, (List.replicate n '=' ++ cs).dropWhile (· = '=') = cs.dropWhile (· = '=') := by
    intro n cs
    induction n with
    | zero => rfl
    | succ n ih => simp [List.replicate_succ]
  rw [stripPadding, List.reverse_append, List.reverse_replicate, hpad, hbody, List.reverse_reverse]

/-- One 16-bit unit a character. -/
theorem length_codeUnits {cs : List Char} (h : ∀ c ∈ cs, c.toNat ≤ 0xffff) : (Utf8.codeUnits cs).length = cs.length := by
  induction cs with
  | nil => rfl
  | cons c cs ih =>
    have hcs := ih fun d hd => h d (List.mem_cons_of_mem _ hd)
    simp only [Utf8.codeUnits, List.flatMap_cons, if_pos (h c List.mem_cons_self), List.length_append,
      List.length_cons, List.length_nil] at hcs ⊢
    omega

/-- The URL form: the digits. -/
theorem bytesToBase64Url_eq (bytes : Bytes) : ∃ body k, bytesToBase64Url bytes = String.ofList (body.map toUrl) ∧
    base64Chars bytes = body ++ List.replicate k '=' ∧ k < 4 ∧ (body.length + k) % 4 = 0 ∧
    (∀ c ∈ body, c ∈ base64Alphabet) ∧ (bytes ≠ [] → body ≠ []) := by
  obtain ⟨body, k, hchars, hk, hlen, hmem, hne⟩ := base64Chars_split bytes
  refine ⟨body, k, ?_, hchars, hk, hlen, hmem, hne⟩
  have hurl : (body ++ List.replicate k '=').map toUrl = body.map toUrl ++ List.replicate k '=' := by
    rw [List.map_append, List.map_replicate]
    rfl
  rw [bytesToBase64Url, bytesToBase64, base64Of, String.toList_ofList, hchars, hurl, stripPadding_append]
  intro c hc
  obtain ⟨d, hd, rfl⟩ := List.mem_map.1 hc
  exact (toUrl_ne d (hmem d hd)).1

/-- **The round trip.** -/
theorem base64UrlToBytes_bytesToBase64Url {base64Encoder : Base64Encoder} (h : ReadsBack base64Encoder) (bytes : Bytes) :
    base64UrlToBytes base64Encoder (bytesToBase64Url bytes) = some bytes := by
  obtain ⟨body, k, hurl, hchars, hk, hlen, hmem, -⟩ := bytesToBase64Url_eq bytes
  have hback : (body.map toUrl).map fromUrl = body := by
    rw [List.map_map]
    conv_rhs => rw [← List.map_id body]
    exact List.map_congr_left fun c hc => fromUrl_toUrl c (hmem c hc)
  have hunits : (Utf8.codeUnits body).length = body.length := length_codeUnits fun c hc => fromUrl_small c (hmem c hc)
  have hpad : (4 - body.length % 4) % 4 = k := by omega
  rw [base64UrlToBytes, hurl, String.toList_ofList, hback]
  simp only [hunits, hpad]
  rw [← hchars]
  exact h bytes

theorem fromUrl_id : ∀ c ∈ base64Alphabet, fromUrl c = c := by
  rw [← List.forall_iff_forall_mem]
  decide +kernel

/-- The plain form is read like the URL form. -/
theorem base64UrlToBytes_bytesToBase64 {base64Encoder : Base64Encoder} (h : ReadsBack base64Encoder) (bytes : Bytes) :
    base64UrlToBytes base64Encoder (bytesToBase64 bytes) = some bytes := by
  obtain ⟨body, k, hchars, hk, hlen, hmem, -⟩ := base64Chars_split bytes
  have hback : (body ++ List.replicate k '=').map fromUrl = body ++ List.replicate k '=' := by
    rw [List.map_append, List.map_replicate, List.map_congr_left fun c hc => fromUrl_id c (hmem c hc), List.map_id']
    rfl
  have hunits : (Utf8.codeUnits (body ++ List.replicate k '=')).length = body.length + k := by
    rw [length_codeUnits, List.length_append, List.length_replicate]
    intro c hc
    rcases List.mem_append.1 hc with hc | hc
    · exact fromUrl_small c (hmem c hc)
    · rw [List.eq_of_mem_replicate hc]
      decide
  have hpad : (4 - (body.length + k) % 4) % 4 = 0 := by omega
  rw [base64UrlToBytes, bytesToBase64, base64Of, String.toList_ofList, hchars, hback]
  simp only [hunits, hpad, List.replicate_zero, List.append_nil]
  rw [← hchars]
  exact h bytes

/-- The URL form of some bytes is some text, without a dot. -/
theorem bytesToBase64Url_plain {bytes : Bytes} (h : bytes ≠ []) :
    (bytesToBase64Url bytes).toList ≠ [] ∧ '.' ∉ (bytesToBase64Url bytes).toList := by
  obtain ⟨body, k, hurl, -, -, -, hmem, hne⟩ := bytesToBase64Url_eq bytes
  rw [hurl, String.toList_ofList]
  refine ⟨fun hnil => hne h (List.map_eq_nil_iff.1 hnil), fun hdot => ?_⟩
  obtain ⟨c, hc, heq⟩ := List.mem_map.1 hdot
  exact (toUrl_ne c (hmem c hc)).2.1 heq

end PhygitalWallet.Api
