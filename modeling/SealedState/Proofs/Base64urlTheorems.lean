/-
SealedState.Proofs.Base64urlTheorems — base64url is canonical.

`decodeChars?_encodeChars` says that reading gives back what was written.
Here is the other direction: a text that is read is the one that writing
gives (`eq_encodeChars_of_decodeChars?`), so no byte string has two
spellings, and two byte strings never share one
(`encodeChars_injective`). A character without a value, such as the one
between two fields, stands in no spelling (`not_mem_encodeChars`).

`Canonical` says without the writer which texts are spellings: digits,
as many as whole bytes need, and nothing in the bits that are left over
(`canonical_iff`). They are the texts that are read
(`exists_decode_iff_canonical`).

SPEC_FULL.md §3 has every field of a token in base64url without padding.
-/
import Mathlib.Algebra.Group.Nat.Defs
import SealedState.Bytes.Base64url

namespace SealedState.Base64url

/-! ## Digits -/

/-- The number of the character that is the digit of a value. -/
theorem toNat_digit {v : Nat} (h : v < 64) : (digit v).toNat =
    if v < 26 then 0x41 + v else if v < 52 then 0x47 + v
    else if v < 62 then v - 4 else if v = 62 then 0x2d else 0x5f := by
  have hall : ∀ k : Fin 64, (digit k.val).toNat =
      if k.val < 26 then 0x41 + k.val else if k.val < 52 then 0x47 + k.val
      else if k.val < 62 then k.val - 4 else if k.val = 62 then 0x2d else 0x5f := by
    decide +kernel
  exact hall ⟨v, h⟩

/-- A character with a value is the digit of that value. -/
theorem digit_of_value? {c : Char} {v : Nat} (h : value? c = some v) :
    v < 64 ∧ digit v = c := by
  have hv : v < 64 ∧ c.toNat = if v < 26 then 0x41 + v else if v < 52 then 0x47 + v
      else if v < 62 then v - 4 else if v = 62 then 0x2d else 0x5f := by
    unfold value? at h
    simp only at h
    split at h
    · cases h; constructor <;> grind
    · split at h
      · cases h; constructor <;> grind
      · split at h
        · cases h; constructor <;> grind
        · split at h
          · rename_i hc
            cases h; subst hc; decide
          · split at h
            · rename_i hc
              cases h; subst hc; decide
            · cases h
  refine ⟨hv.1, ?_⟩
  rw [← Char.toNat_inj, toNat_digit hv.1, hv.2]

/-! ## One spelling only -/

/-- What is read is what writing gives. The bits that a group of
characters shares between two bytes are put back together by the bounds
on the values. -/
theorem eq_encodeChars_of_decodeChars? : ∀ {cs : List Char} {b : Bytes},
    decodeChars? cs = some b → cs = encodeChars b
  | [], b, h => by
      cases h
      rfl
  | [_], b, h => by cases h
  | [p, q], b, h => by
      simp only [decodeChars?, Option.bind_eq_bind, Option.bind_eq_some_iff,
        Option.ite_none_right_eq_some, Option.some.injEq] at h
      obtain ⟨x, hx, y, hy, hbits, rfl⟩ := h
      obtain ⟨hx, rfl⟩ := digit_of_value? hx
      obtain ⟨hy, rfl⟩ := digit_of_value? hy
      simp only [encodeChars, UInt8.toNat_ofNat']
      have h1 : (x * 4 + y / 16) % 2 ^ 8 / 4 = x := by omega
      have h2 : (x * 4 + y / 16) % 2 ^ 8 % 4 * 16 = y := by omega
      rw [h1, h2]
  | [p, q, r], b, h => by
      simp only [decodeChars?, Option.bind_eq_bind, Option.bind_eq_some_iff,
        Option.ite_none_right_eq_some, Option.some.injEq] at h
      obtain ⟨x, hx, y, hy, z, hz, hbits, rfl⟩ := h
      obtain ⟨hx, rfl⟩ := digit_of_value? hx
      obtain ⟨hy, rfl⟩ := digit_of_value? hy
      obtain ⟨hz, rfl⟩ := digit_of_value? hz
      simp only [encodeChars, UInt8.toNat_ofNat']
      have h1 : (x * 4 + y / 16) % 2 ^ 8 / 4 = x := by omega
      have h2 : (x * 4 + y / 16) % 2 ^ 8 % 4 * 16 + (y % 16 * 16 + z / 4) % 2 ^ 8 / 16 = y := by
        omega
      have h3 : (y % 16 * 16 + z / 4) % 2 ^ 8 % 16 * 4 = z := by omega
      rw [h1, h2, h3]
  | p :: q :: r :: s :: rest, b, h => by
      simp only [decodeChars?, Option.bind_eq_bind, Option.bind_eq_some_iff,
        Option.some.injEq] at h
      obtain ⟨x, hx, y, hy, z, hz, w, hw, bytes, hbytes, rfl⟩ := h
      obtain ⟨hx, rfl⟩ := digit_of_value? hx
      obtain ⟨hy, rfl⟩ := digit_of_value? hy
      obtain ⟨hz, rfl⟩ := digit_of_value? hz
      obtain ⟨hw, rfl⟩ := digit_of_value? hw
      have ih := eq_encodeChars_of_decodeChars? hbytes
      simp only [encodeChars, UInt8.toNat_ofNat']
      have h1 : (x * 4 + y / 16) % 2 ^ 8 / 4 = x := by omega
      have h2 : (x * 4 + y / 16) % 2 ^ 8 % 4 * 16 + (y % 16 * 16 + z / 4) % 2 ^ 8 / 16 = y := by
        omega
      have h3 : (y % 16 * 16 + z / 4) % 2 ^ 8 % 16 * 4 + (z % 4 * 64 + w) % 2 ^ 8 / 64 = z := by
        omega
      have h4 : (z % 4 * 64 + w) % 2 ^ 8 % 64 = w := by omega
      rw [h1, h2, h3, h4, ih]

theorem decodeChars?_eq_some_iff {cs : List Char} {b : Bytes} :
    decodeChars? cs = some b ↔ cs = encodeChars b := by
  constructor
  · exact eq_encodeChars_of_decodeChars?
  · rintro rfl
    exact decodeChars?_encodeChars b

/-- A text spells the byte string that it is written for, and no other. -/
theorem decode_eq_ok_iff {text : String} {b : Bytes} :
    decode text = .ok b ↔ text = encode b := by
  have hchars : decode? text = some b ↔ text = encode b := by
    rw [decode?, decodeChars?_eq_some_iff, encode, ← String.toList_inj, String.toList_ofList]
  rw [decode, ← hchars]
  split <;> simp_all

/-- Two byte strings never share a spelling. -/
theorem encodeChars_injective {a b : Bytes} (h : encodeChars a = encodeChars b) : a = b := by
  have hread : decodeChars? (encodeChars a) = decodeChars? (encodeChars b) :=
    congrArg decodeChars? h
  rw [decodeChars?_encodeChars, decodeChars?_encodeChars] at hread
  exact Option.some.inj hread

/-! ## The characters of a spelling -/

/-- Every character of a spelling has a value. -/
theorem isSome_value?_of_mem {c : Char} : ∀ {b : Bytes}, c ∈ encodeChars b →
    (value? c).isSome = true
  | [], h => by simp [encodeChars] at h
  | [_], h => by
      simp only [encodeChars, List.mem_cons, List.not_mem_nil, or_false] at h
      rcases h with rfl | rfl <;> rw [value?_digit] <;> rfl
  | [_, _], h => by
      simp only [encodeChars, List.mem_cons, List.not_mem_nil, or_false] at h
      rcases h with rfl | rfl | rfl <;> rw [value?_digit] <;> rfl
  | _ :: _ :: _ :: rest, h => by
      simp only [encodeChars, List.mem_cons] at h
      rcases h with rfl | rfl | rfl | rfl | h
      · rw [value?_digit]; rfl
      · rw [value?_digit]; rfl
      · rw [value?_digit]; rfl
      · rw [value?_digit]; rfl
      · exact isSome_value?_of_mem h

/-- A character without a value stands in no spelling. -/
theorem not_mem_encodeChars {c : Char} (h : value? c = none) (b : Bytes) :
    c ∉ encodeChars b := by
  intro hmem
  have hsome := isSome_value?_of_mem hmem
  rw [h] at hsome
  cases hsome

/-! ## The texts that are spellings -/

theorem length_alphabet : alphabet.length = 64 := by decide +kernel

theorem digit_eq_getElem {v : Nat} (h : v < alphabet.length) : digit v = alphabet[v] := by
  have hmod : v % 64 = v := Nat.mod_eq_of_lt (by rwa [length_alphabet] at h)
  rw [digit, hmod, List.getD_eq_getElem?_getD, List.getElem?_eq_getElem h, Option.getD_some]

theorem mem_alphabet_iff {c : Char} : c ∈ alphabet ↔ ∃ v, value? c = some v := by
  constructor
  · intro h
    obtain ⟨v, hv, rfl⟩ := List.mem_iff_getElem.1 h
    exact ⟨v % 64, by rw [← digit_eq_getElem hv, value?_digit]⟩
  · rintro ⟨v, hv⟩
    obtain ⟨hlt, rfl⟩ := digit_of_value? hv
    have hbound : v < alphabet.length := by rwa [length_alphabet]
    rw [digit_eq_getElem hbound]
    exact List.getElem_mem hbound

theorem digit_mem_alphabet (v : Nat) : digit v ∈ alphabet :=
  mem_alphabet_iff.2 ⟨v % 64, value?_digit v⟩

/-- The number of bits of the last character of a text that belong to no
byte. -/
def spareBits (length : Nat) : Nat :=
  if length % 4 = 2 then 4 else if length % 4 = 3 then 2 else 0

/-- A text of digits, of a length that whole bytes have, whose spare bits
are zero. -/
structure Canonical (cs : List Char) : Prop where
  mem_alphabet : ∀ c ∈ cs, c ∈ alphabet
  length_mod : cs.length % 4 ≠ 1
  spare_zero : ∀ v, cs.getLast?.bind value? = some v → v % 2 ^ spareBits cs.length = 0

/-- A group of four digits in front changes nothing. -/
theorem canonical_group_iff {p q r s : Char} {rest : List Char} :
    Canonical (p :: q :: r :: s :: rest) ↔
      (p ∈ alphabet ∧ q ∈ alphabet ∧ r ∈ alphabet ∧ s ∈ alphabet) ∧ Canonical rest := by
  have hmod : (p :: q :: r :: s :: rest).length % 4 = rest.length % 4 := by
    simp only [List.length_cons]
    omega
  have hspare : spareBits (p :: q :: r :: s :: rest).length = spareBits rest.length := by
    rw [spareBits, spareBits, hmod]
  constructor
  · rintro ⟨hmem, hlen, hzero⟩
    simp only [List.mem_cons, forall_eq_or_imp] at hmem
    obtain ⟨hp, hq, hr, hs, hrest⟩ := hmem
    refine ⟨⟨hp, hq, hr, hs⟩, hrest, by rwa [hmod] at hlen, ?_⟩
    intro v hv
    cases rest with
    | nil => cases hv
    | cons c rest =>
      rw [← hspare]
      exact hzero v (by simpa only [List.getLast?_cons_cons] using hv)
  · rintro ⟨⟨hp, hq, hr, hs⟩, hmem, hlen, hzero⟩
    refine ⟨?_, by rwa [hmod], ?_⟩
    · simp only [List.mem_cons, forall_eq_or_imp]
      exact ⟨hp, hq, hr, hs, hmem⟩
    · intro v hv
      rw [hspare]
      cases rest with
      | nil => exact Nat.mod_one v
      | cons c rest => exact hzero v (by simpa only [List.getLast?_cons_cons] using hv)

theorem exists_decodeChars?_of_canonical : ∀ {cs : List Char}, Canonical cs →
    ∃ b, decodeChars? cs = some b
  | [], _ => ⟨[], rfl⟩
  | [_], h => absurd rfl h.length_mod
  | [p, q], h => by
      obtain ⟨x, hx⟩ := mem_alphabet_iff.1 (h.mem_alphabet p (by simp))
      obtain ⟨y, hy⟩ := mem_alphabet_iff.1 (h.mem_alphabet q (by simp))
      have hbits : y % 16 = 0 := h.spare_zero y hy
      rw [decodeChars?, hx, hy]
      exact ⟨_, if_pos hbits⟩
  | [p, q, r], h => by
      obtain ⟨x, hx⟩ := mem_alphabet_iff.1 (h.mem_alphabet p (by simp))
      obtain ⟨y, hy⟩ := mem_alphabet_iff.1 (h.mem_alphabet q (by simp))
      obtain ⟨z, hz⟩ := mem_alphabet_iff.1 (h.mem_alphabet r (by simp))
      have hbits : z % 4 = 0 := h.spare_zero z hz
      rw [decodeChars?, hx, hy, hz]
      exact ⟨_, if_pos hbits⟩
  | p :: q :: r :: s :: rest, h => by
      obtain ⟨⟨hp, hq, hr, hs⟩, hrest⟩ := canonical_group_iff.1 h
      obtain ⟨x, hx⟩ := mem_alphabet_iff.1 hp
      obtain ⟨y, hy⟩ := mem_alphabet_iff.1 hq
      obtain ⟨z, hz⟩ := mem_alphabet_iff.1 hr
      obtain ⟨w, hw⟩ := mem_alphabet_iff.1 hs
      obtain ⟨bytes, hbytes⟩ := exists_decodeChars?_of_canonical hrest
      rw [decodeChars?, hx, hy, hz, hw, hbytes]
      exact ⟨_, rfl⟩

theorem canonical_encodeChars : ∀ b : Bytes, Canonical (encodeChars b)
  | [] => ⟨by simp [encodeChars], by decide, by simp [encodeChars]⟩
  | [a] => by
      refine ⟨?_, by simp [encodeChars], ?_⟩
      · simp [encodeChars, digit_mem_alphabet]
      · intro v hv
        rw [encodeChars, List.getLast?_cons_cons, List.getLast?_singleton, Option.bind_some,
          value?_digit] at hv
        cases hv
        have hspare : spareBits (encodeChars [a]).length = 4 := rfl
        rw [hspare]
        omega
  | [a, b] => by
      refine ⟨?_, by simp [encodeChars], ?_⟩
      · simp [encodeChars, digit_mem_alphabet]
      · intro v hv
        rw [encodeChars, List.getLast?_cons_cons, List.getLast?_cons_cons,
          List.getLast?_singleton, Option.bind_some, value?_digit] at hv
        cases hv
        have hspare : spareBits (encodeChars [a, b]).length = 2 := rfl
        rw [hspare]
        omega
  | _ :: _ :: _ :: rest =>
      canonical_group_iff.2 ⟨⟨digit_mem_alphabet _, digit_mem_alphabet _, digit_mem_alphabet _,
        digit_mem_alphabet _⟩, canonical_encodeChars rest⟩

/-- The spellings are exactly the canonical texts. -/
theorem canonical_iff {cs : List Char} : Canonical cs ↔ ∃ b, cs = encodeChars b := by
  constructor
  · intro h
    obtain ⟨b, hb⟩ := exists_decodeChars?_of_canonical h
    exact ⟨b, eq_encodeChars_of_decodeChars? hb⟩
  · rintro ⟨b, rfl⟩
    exact canonical_encodeChars b

/-- The texts that are read are the canonical ones. -/
theorem exists_decode_iff_canonical {text : String} :
    (∃ b, decode text = .ok b) ↔ Canonical text.toList := by
  rw [canonical_iff]
  refine exists_congr fun b => ?_
  rw [decode_eq_ok_iff, encode, ← String.toList_inj, String.toList_ofList]

end SealedState.Base64url
