/-
SealedState.Proofs.HexTheorems — hexadecimal is read back.

`decode_encode` says that reading gives back what was written, whatever
the byte string; so different byte strings are never shown alike
(`encode_injective`).

The tenants of an error and of an event are told so (SPEC_FULL.md §7 and §8).
-/
import SealedState.Bytes.Hex

namespace SealedState.Hex

/-! ## Digits -/

/-- The octet of a lower-case digit has the value of the digit, and takes
one byte in a text. -/
theorem digitChar_octet {v : Nat} (h : v < 16) :
    String.utf8EncodeChar (Nat.digitChar v) = [UInt8.ofNat (Nat.digitChar v).toNat] ∧
      Ascii.hexValue? (UInt8.ofNat (Nat.digitChar v).toNat) = some v := by
  have hall : ∀ k : Fin 16,
      String.utf8EncodeChar (Nat.digitChar k.val) = [UInt8.ofNat (Nat.digitChar k.val).toNat] ∧
        Ascii.hexValue? (UInt8.ofNat (Nat.digitChar k.val).toNat) = some k.val := by
    decide +kernel
  exact hall ⟨v, h⟩

/-- The octets of the two digits of a byte. -/
def octets (b : UInt8) : Bytes :=
  [UInt8.ofNat (Nat.digitChar (b.toNat / 16)).toNat,
    UInt8.ofNat (Nat.digitChar (b.toNat % 16)).toNat]

theorem utf8_encode (b : Bytes) : Utf8.encode (encode b) = b.flatMap octets := by
  rw [Utf8.encode, encode, String.toList_ofList]
  induction b with
  | nil => rfl
  | cons x b ih =>
    have hx := x.toNat_lt
    have hhigh := (digitChar_octet (show x.toNat / 16 < 16 by omega)).1
    have hlow := (digitChar_octet (show x.toNat % 16 < 16 by omega)).1
    rw [List.flatMap_cons, List.flatMap_append, ih, digits]
    simp only [List.flatMap_cons, List.flatMap_nil, hhigh, hlow]
    rfl

theorem digit_of_hexValue? {byte : UInt8} {v : Nat} (h : Ascii.hexValue? byte = some v)
    (position : Nat) : digit byte position = .ok v := by
  rw [digit, h]

/-! ## Reading back -/

theorem pairs_octets : ∀ (position : Nat) (b : Bytes),
    pairs position (b.flatMap octets) = .ok b
  | _, [] => rfl
  | position, x :: b => by
      have hx := x.toNat_lt
      have hhigh := (digitChar_octet (show x.toNat / 16 < 16 by omega)).2
      have hlow := (digitChar_octet (show x.toNat % 16 < 16 by omega)).2
      have ih := pairs_octets (position + 2) b
      have hbyte : UInt8.ofNat (16 * (x.toNat / 16) + x.toNat % 16) = x := by
        rw [Nat.div_add_mod, UInt8.ofNat_toNat]
      rw [List.flatMap_cons, octets, List.cons_append, List.cons_append, List.nil_append, pairs,
        digit_of_hexValue? hhigh, digit_of_hexValue? hlow, ih]
      exact congrArg (fun y => Except.ok (y :: b)) hbyte

theorem length_octets (b : Bytes) : (b.flatMap octets).length = 2 * b.length := by
  induction b with
  | nil => rfl
  | cons x b ih =>
    rw [List.flatMap_cons, List.length_append, ih, List.length_cons]
    simp only [octets, List.length_cons, List.length_nil]
    omega

/-- Reading gives back what was written. -/
theorem decode_encode (b : Bytes) : decode (encode b) = .ok b := by
  have heven : (b.flatMap octets).length % 2 = 0 := by
    rw [length_octets, Nat.mul_mod_right]
  simp only [decode, utf8_encode]
  rw [if_pos heven, pairs_octets]

/-- Different byte strings are never shown alike. -/
theorem encode_injective {a b : Bytes} (h : encode a = encode b) : a = b := by
  have hread : decode (encode a) = decode (encode b) := congrArg decode h
  rw [decode_encode, decode_encode] at hread
  exact Except.ok.inj hread

end SealedState.Hex
