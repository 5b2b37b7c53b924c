/-
SealedState.Proofs.HexSpellings — which texts are hexadecimal.

`IsSpelling` says without the reader which texts those are: an even
number of digits, in either case. They are the texts that are read
(`exists_decode_iff`). What is read is the byte string that the text is
written for once its letters are small (`toLower_of_decode`), so the case
of letters makes no difference (`decode_of_toLower_eq`).

The tenant of settings is such a text (SPEC_FULL.md §6).
-/
import SealedState.Proofs.HexTheorems
import SealedState.Proofs.ResultTheorems
import SealedState.Proofs.Utf8Theorems

namespace SealedState.Hex

/-- The digits, letters in either case. -/
def alphabet : List Char := "0123456789abcdefABCDEF".toList

/-- An even number of digits. -/
structure IsSpelling (text : String) : Prop where
  even : text.toList.length % 2 = 0
  digits : ∀ c ∈ text.toList, c ∈ alphabet

theorem isSpelling_iff_all {text : String} : IsSpelling text ↔
    text.toList.length % 2 = 0 ∧ text.toList.all (fun c => decide (c ∈ alphabet)) = true := by
  simp only [List.all_eq_true, decide_eq_true_eq]
  exact ⟨fun h => ⟨h.even, h.digits⟩, fun h => ⟨h.1, h.2⟩⟩

instance (text : String) : Decidable (IsSpelling text) := decidable_of_iff' _ isSpelling_iff_all

/-! ## Digits -/

/-- A digit is a character of ASCII and has a value; in small letters it is
the digit of its value. -/
theorem exists_hexValue? {c : Char} (h : c ∈ alphabet) : c.toNat < 0x80 ∧
    ∃ v < 16, Ascii.hexValue? (UInt8.ofNat c.toNat) = some v ∧ c.toLower = Nat.digitChar v := by
  have hall : alphabet.all (fun c => decide (c.toNat < 0x80)
      && (Ascii.hexValue? (UInt8.ofNat c.toNat)).any fun v =>
        decide (v < 16 ∧ c.toLower = Nat.digitChar v)) = true := by
    decide +kernel
  obtain ⟨hascii, hvalue⟩ := Bool.and_eq_true_iff.1 (List.all_eq_true.1 hall c h)
  obtain ⟨v, hv, hdigit⟩ := (Option.any_eq_true _ _).1 hvalue
  obtain ⟨hlt, hlower⟩ := of_decide_eq_true hdigit
  exact ⟨of_decide_eq_true hascii, v, hlt, hv, hlower⟩

/-- The first byte of a character beyond ASCII is no digit. -/
theorem hexValue?_of_not_ascii {a : UInt8} (h : ¬ a < 0x80) : Ascii.hexValue? a = none := by
  have hall : ∀ n : Fin 256, ¬ UInt8.ofNat n.val < 0x80 →
      Ascii.hexValue? (UInt8.ofNat n.val) = none := by
    decide +kernel
  have ha := hall ⟨a.toNat, a.toNat_lt⟩
  simp only [UInt8.ofNat_toNat] at ha
  exact ha h

theorem mem_alphabet_of_hexValue? {a : UInt8} (hascii : a < 0x80)
    (h : (Ascii.hexValue? a).isSome = true) : Char.ofNat a.toNat ∈ alphabet := by
  have hall : ∀ n : Fin 128, (Ascii.hexValue? (UInt8.ofNat n.val)).isSome = true →
      Char.ofNat n.val ∈ alphabet := by
    decide +kernel
  have ha := hall ⟨a.toNat, UInt8.lt_iff_toNat_lt.1 hascii⟩
  simp only [UInt8.ofNat_toNat] at ha
  exact ha h

/-- A character all of whose bytes are digits is one. -/
theorem mem_alphabet_of_bytes {c : Char}
    (h : ∀ b ∈ String.utf8EncodeChar c, (Ascii.hexValue? b).isSome = true) : c ∈ alphabet := by
  have hform := Utf8.form_encodeChar c
  generalize String.utf8EncodeChar c = bytes at h hform
  have hfirst : ∀ {a : UInt8}, ¬ a < 0x80 → (Ascii.hexValue? a).isSome = true → False := by
    intro a hascii ha
    rw [hexValue?_of_not_ascii hascii] at ha
    cases ha
  cases hform with
  | one hascii hc =>
    subst hc
    exact mem_alphabet_of_hexValue? hascii (h _ List.mem_cons_self)
  | two hascii _ => exact (hfirst hascii (h _ List.mem_cons_self)).elim
  | three hascii _ _ => exact (hfirst hascii (h _ List.mem_cons_self)).elim
  | four hascii _ _ _ => exact (hfirst hascii (h _ List.mem_cons_self)).elim

/-! ## Pairs -/

theorem isSome_of_digit {byte : UInt8} {position v : Nat} (h : digit byte position = .ok v) :
    (Ascii.hexValue? byte).isSome = true := by
  rw [digit] at h
  split at h
  · simp_all
  · cases h

/-- Nothing but digits is read. -/
theorem isSome_of_pairs : ∀ {text : Bytes} {position : Nat} {b : Bytes}, text.length % 2 = 0 →
    pairs position text = .ok b → ∀ x ∈ text, (Ascii.hexValue? x).isSome = true
  | [], _, _, _, _, _, hx => by cases hx
  | [_], _, _, heven, _, _, _ => by cases heven
  | hi :: lo :: rest, position, b, heven, h, x, hx => by
      obtain ⟨high, hhigh, h⟩ := bind_eq_ok_iff.1 h
      obtain ⟨low, hlow, h⟩ := bind_eq_ok_iff.1 h
      obtain ⟨bytes, hrest, -⟩ := bind_eq_ok_iff.1 h
      rcases List.mem_cons.1 hx with rfl | hx
      · exact isSome_of_digit hhigh
      rcases List.mem_cons.1 hx with rfl | hx
      · exact isSome_of_digit hlow
      refine isSome_of_pairs ?_ hrest x hx
      rw [List.length_cons, List.length_cons] at heven
      omega

/-- Pairs of digits are read, and written alike in small letters. -/
theorem exists_pairs : ∀ {cs : List Char} (position : Nat), cs.length % 2 = 0 →
    (∀ c ∈ cs, c ∈ alphabet) →
    ∃ b, pairs position (Ascii.ofChars cs) = .ok b ∧ cs.map Char.toLower = b.flatMap digits
  | [], _, _, _ => ⟨[], rfl, rfl⟩
  | [_], _, heven, _ => by cases heven
  | c :: d :: cs, position, heven, h => by
      obtain ⟨hc, h⟩ := List.forall_mem_cons.1 h
      obtain ⟨hd, h⟩ := List.forall_mem_cons.1 h
      obtain ⟨-, high, hhigh, hvalue, hlower⟩ := exists_hexValue? hc
      obtain ⟨-, low, hlow, hvalue', hlower'⟩ := exists_hexValue? hd
      rw [List.length_cons, List.length_cons] at heven
      obtain ⟨b, hpairs, hdigits⟩ := exists_pairs (position + 2) (show cs.length % 2 = 0 by omega) h
      refine ⟨UInt8.ofNat (16 * high + low) :: b, ?_, ?_⟩
      · change pairs position (UInt8.ofNat c.toNat :: UInt8.ofNat d.toNat :: Ascii.ofChars cs) = _
        rw [pairs, digit_of_hexValue? hvalue, digit_of_hexValue? hvalue', hpairs]
        rfl
      · have hbyte : (UInt8.ofNat (16 * high + low)).toNat = 16 * high + low :=
          Utf8.toNat_byte (by omega)
        rw [List.flatMap_cons, digits, hbyte, show (16 * high + low) / 16 = high by omega,
          show (16 * high + low) % 16 = low by omega, ← hdigits, List.map_cons, List.map_cons,
          hlower, hlower']
        rfl

/-! ## Texts -/

theorem encode_of_digits {text : String} (h : ∀ c ∈ text.toList, c ∈ alphabet) :
    Utf8.encode text = Ascii.ofChars text.toList :=
  Utf8.bytes_of_ascii fun c hc => (exists_hexValue? (h c hc)).1

theorem exists_decode_of_isSpelling {text : String} (h : IsSpelling text) :
    ∃ b, decode text = .ok b ∧ text.toList.map Char.toLower = b.flatMap digits := by
  obtain ⟨b, hpairs, hlower⟩ := exists_pairs 0 h.even h.digits
  refine ⟨b, ?_, hlower⟩
  simp only [decode, encode_of_digits h.digits]
  rw [if_pos (by rw [Ascii.ofChars, List.length_map]; exact h.even), hpairs]

theorem isSpelling_of_decode {text : String} {b : Bytes} (h : decode text = .ok b) :
    IsSpelling text := by
  simp only [decode] at h
  split at h
  · rename_i heven
    have hall := isSome_of_pairs heven h
    have hdigits : ∀ c ∈ text.toList, c ∈ alphabet := fun c hc => mem_alphabet_of_bytes
      fun byte hbyte => hall byte (List.mem_flatMap.2 ⟨c, hc, hbyte⟩)
    refine ⟨?_, hdigits⟩
    rwa [encode_of_digits hdigits, Ascii.ofChars, List.length_map] at heven
  · cases h

/-- The texts that are read are the spellings. -/
theorem exists_decode_iff {text : String} : (∃ b, decode text = .ok b) ↔ IsSpelling text := by
  constructor
  · rintro ⟨b, h⟩
    exact isSpelling_of_decode h
  · intro h
    obtain ⟨b, hdecode, -⟩ := exists_decode_of_isSpelling h
    exact ⟨b, hdecode⟩

theorem toLower_of_decode {text : String} {b : Bytes} (h : decode text = .ok b) :
    text.toList.map Char.toLower = b.flatMap digits := by
  obtain ⟨b', hdecode, hlower⟩ := exists_decode_of_isSpelling (isSpelling_of_decode h)
  rw [h] at hdecode
  cases hdecode
  exact hlower

/-- What is a digit in small letters is one. -/
theorem mem_alphabet_of_toLower {c : Char} (h : c.toLower ∈ alphabet) : c ∈ alphabet := by
  have hall : ∀ n : Fin 128, (Char.ofNat n.val).toLower ∈ alphabet →
      Char.ofNat n.val ∈ alphabet := by
    decide +kernel
  by_cases hascii : c.toNat < 128
  · have hc := hall ⟨c.toNat, hascii⟩
    simp only [Char.ofNat_toNat] at hc
    exact hc h
  · have hlower : c.toLower = c :=
      dif_neg fun hupper => hascii (Nat.lt_of_le_of_lt hupper.2 (by decide))
    rwa [hlower] at h

/-- Texts that differ in the case of letters only are read alike. -/
theorem decode_of_toLower_eq {text other : String} {b : Bytes} (h : decode text = .ok b)
    (hother : other.toList.map Char.toLower = text.toList.map Char.toLower) :
    decode other = .ok b := by
  have hspelling := isSpelling_of_decode h
  have hlength : other.toList.length = text.toList.length := by
    simpa using congrArg List.length hother
  have hdigits : ∀ c ∈ other.toList, c ∈ alphabet := by
    intro c hc
    have hmem : c.toLower ∈ text.toList.map Char.toLower := hother ▸ List.mem_map_of_mem hc
    obtain ⟨d, hd, heq⟩ := List.mem_map.1 hmem
    have hlower : alphabet.all (fun d => decide (d.toLower ∈ alphabet)) = true := by
      decide +kernel
    have hd := of_decide_eq_true (List.all_eq_true.1 hlower d (hspelling.digits d hd))
    exact mem_alphabet_of_toLower (heq ▸ hd)
  obtain ⟨b', hdecode, hlower⟩ := exists_decode_of_isSpelling ⟨hlength ▸ hspelling.even, hdigits⟩
  -- both are spelled alike in small letters, and a byte string has one such spelling
  have hencode : encode b' = encode b := by
    rw [encode, encode, ← hlower, ← toLower_of_decode h, hother]
  rw [hdecode, encode_injective hencode]

end SealedState.Hex
