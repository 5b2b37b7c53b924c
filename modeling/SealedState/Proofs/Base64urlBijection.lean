/-
SealedState.Proofs.Base64urlBijection — byte strings and the texts that
spell them.

A character of base64url stands for six bits and a byte is eight, so a text
of `n` characters has `6 * n % 8` bits too many for whole bytes: none, four
or two, and six behind a single character that groups of four leave over.
`Spells` says with these numbers alone which texts stand for a byte string.
Writing is a bijection onto them, and reading is its inverse
(`encode_bijOn`).

The fields of SPEC_FULL.md §3 are written and read so (`base64url_encode`,
`base64url_decode`).
-/
import Mathlib.Data.Set.Function
import SealedState.Proofs.Base64urlTheorems

namespace SealedState.Base64url

/-! ## Digits by name -/

/-- A character of base64url. -/
def IsDigit (c : Char) : Prop :=
  ('A' ≤ c ∧ c ≤ 'Z') ∨ ('a' ≤ c ∧ c ≤ 'z') ∨ ('0' ≤ c ∧ c ≤ '9') ∨ c = '-' ∨ c = '_'

theorem char_le_iff {c d : Char} : c ≤ d ↔ c.toNat ≤ d.toNat := by
  rw [Char.le_def, UInt32.le_iff_toNat_le]
  rfl

theorem isDigit_iff_mem {c : Char} : IsDigit c ↔ c ∈ alphabet := by
  rw [mem_alphabet_iff, ← Option.isSome_iff_exists]
  unfold IsDigit value?
  simp only [char_le_iff, Char.reduceToNat]
  grind

/-- The value of a digit is its place in the alphabet. -/
theorem value?_of_mem {c : Char} (h : c ∈ alphabet) : value? c = some (alphabet.idxOf c) := by
  obtain ⟨v, hv⟩ := mem_alphabet_iff.1 h
  obtain ⟨hlt, rfl⟩ := digit_of_value? hv
  have hbound : v < alphabet.length := by rwa [length_alphabet]
  have hnodup : alphabet.Nodup := by decide +kernel
  rw [hv, digit_eq_getElem hbound, hnodup.idxOf_getElem]

/-! ## The length of a spelling -/

/-- Four digits for three bytes, rounded up. -/
theorem length_encodeChars : ∀ b : Bytes, (encodeChars b).length = (4 * b.length + 2) / 3
  | [] => rfl
  | [_] => by simp [encodeChars]
  | [_, _] => by simp [encodeChars]
  | _ :: _ :: _ :: rest => by
      rw [encodeChars]
      simp only [List.length_cons, length_encodeChars rest]
      omega

/-! ## The texts that stand for byte strings -/

/-- The text is one of digits, a length that whole bytes have, and the bits
of its last digit that belong to no byte are zero. -/
structure Spells (text : String) : Prop where
  digits : ∀ c ∈ text.toList, IsDigit c
  length : text.length % 4 ≠ 1
  spare : ∀ c, text.toList.getLast? = some c →
    alphabet.idxOf c % 2 ^ (6 * text.length % 8) = 0

theorem spareBits_eq {n : Nat} (h : n % 4 ≠ 1) : spareBits n = 6 * n % 8 := by
  unfold spareBits
  grind

theorem spells_iff_canonical {text : String} : Spells text ↔ Canonical text.toList := by
  have hvalue : ∀ c, text.toList.getLast? = some c → (∀ c ∈ text.toList, c ∈ alphabet) →
      value? c = some (alphabet.idxOf c) := fun c hlast hmem =>
    value?_of_mem (hmem c (List.mem_of_getLast? hlast))
  constructor
  · rintro ⟨hdigits, hlength, hspare⟩
    have hmem : ∀ c ∈ text.toList, c ∈ alphabet := fun c hc => isDigit_iff_mem.1 (hdigits c hc)
    refine ⟨hmem, hlength, ?_⟩
    intro v hv
    obtain ⟨c, hlast, hc⟩ := Option.bind_eq_some_iff.1 hv
    rw [hvalue c hlast hmem] at hc
    cases hc
    rw [String.length_toList, spareBits_eq hlength]
    exact hspare c hlast
  · rintro ⟨hmem, hlength, hspare⟩
    rw [String.length_toList] at hlength hspare
    refine ⟨fun c hc => isDigit_iff_mem.2 (hmem c hc), hlength, ?_⟩
    intro c hlast
    have hzero := hspare _ (Option.bind_eq_some_iff.2 ⟨c, hlast, hvalue c hlast hmem⟩)
    rwa [spareBits_eq hlength] at hzero

theorem exists_decode_iff {text : String} : (∃ b, decode text = .ok b) ↔ Spells text := by
  rw [spells_iff_canonical, exists_decode_iff_canonical]

/-- There is one way in which reading fails. -/
theorem decode_eq_error_iff {text : String} {e : CryptoError} :
    decode text = .error e ↔ ¬ Spells text ∧ e = .base64Decode invalid := by
  rw [← exists_decode_iff]
  unfold decode
  cases decode? text <;> simp [eq_comm]

/-- Byte strings and the texts that spell them belong together one to one.
What is written for a byte string is read back, is a text of digits, and has
four digits for three bytes, rounded up. Reading accepts the texts that spell
a byte string and no others, each as the byte string that it is written for;
so writing maps the byte strings one to one onto these texts. -/
theorem encode_bijOn :
    (∀ b : Bytes, decode (encode b) = .ok b ∧ (encode b).length = (4 * b.length + 2) / 3 ∧
      ∀ c ∈ (encode b).toList, IsDigit c) ∧
    (∀ text, (∃ b, decode text = .ok b) ↔ Spells text) ∧
    (∀ text b, decode text = .ok b ↔ encode b = text) ∧
    (∀ text, decode text = .error (.base64Decode invalid) ↔ ¬ Spells text) ∧
    Set.BijOn encode Set.univ {text | Spells text} := by
  have hread : ∀ b, decode (encode b) = .ok b := fun b => decode_eq_ok_iff.2 rfl
  have hspells : ∀ b, Spells (encode b) := fun b => exists_decode_iff.1 ⟨b, hread b⟩
  refine ⟨?_, fun _ => exists_decode_iff, ?_, ?_, ?_, ?_, ?_⟩
  · intro b
    refine ⟨hread b, ?_, (hspells b).digits⟩
    rw [encode, String.length_ofList, length_encodeChars]
  · intro text b
    rw [decode_eq_ok_iff, eq_comm]
  · intro text
    rw [decode_eq_error_iff]
    exact and_iff_left rfl
  · intro b _
    exact hspells b
  · intro b _ b' _ h
    exact encodeChars_injective (String.ofList_injective h)
  · intro text htext
    obtain ⟨b, hb⟩ := exists_decode_iff.2 htext
    exact ⟨b, trivial, (decode_eq_ok_iff.1 hb).symm⟩

end SealedState.Base64url
