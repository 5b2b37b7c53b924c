/-
SealedState.Bytes.Base64url — byte strings in base64url without padding.

Three bytes make four characters; a last group of one or two bytes makes
two or three, and the bits that such a group does not need are zero.
Reading accepts exactly what writing produces, so a byte string has one
spelling only.

These are `base64url_encode` and `base64url_decode`, the framing helpers of
SPEC_FULL.md §2; every field of the wire format in §3 is such a text.
-/
import SealedState.Bytes
import SealedState.Crypto.Error

namespace SealedState.Base64url

/-- The sixty-four digits, in order of value. -/
def alphabet : List Char :=
  "ABCDEFGHIJKLMNOPQRSTUVWXYZabcdefghijklmnopqrstuvwxyz0123456789-_".toList

/-- The digit of a value; the value counts modulo 64. -/
def digit (v : Nat) : Char := alphabet.getD (v % 64) 'A'

/-- The value of a digit. -/
def value? (c : Char) : Option Nat :=
  let n := c.toNat
  if 0x41 ≤ n ∧ n ≤ 0x5a then some (n - 0x41)
  else if 0x61 ≤ n ∧ n ≤ 0x7a then some (n - 0x61 + 26)
  else if 0x30 ≤ n ∧ n ≤ 0x39 then some (n - 0x30 + 52)
  else if c = '-' then some 62
  else if c = '_' then some 63
  else none

/-- The characters of a byte string. -/
def encodeChars : Bytes → List Char
  | [] => []
  | [a] => [digit (a.toNat / 4), digit (a.toNat % 4 * 16)]
  | [a, b] =>
    [digit (a.toNat / 4), digit (a.toNat % 4 * 16 + b.toNat / 16),
      digit (b.toNat % 16 * 4)]
  | a :: b :: c :: rest =>
    digit (a.toNat / 4) :: digit (a.toNat % 4 * 16 + b.toNat / 16)
      :: digit (b.toNat % 16 * 4 + c.toNat / 64) :: digit (c.toNat % 64)
      :: encodeChars rest

/-- The byte string that characters spell. A single character is too
little for a byte, and leftover bits have to be zero. -/
def decodeChars? : List Char → Option Bytes
  | [] => some []
  | [_] => none
  | [p, q] => do
    let x ← value? p
    let y ← value? q
    if y % 16 = 0 then some [UInt8.ofNat (x * 4 + y / 16)] else none
  | [p, q, r] => do
    let x ← value? p
    let y ← value? q
    let z ← value? r
    if z % 4 = 0 then
      some [UInt8.ofNat (x * 4 + y / 16), UInt8.ofNat (y % 16 * 16 + z / 4)]
    else none
  | p :: q :: r :: s :: rest => do
    let x ← value? p
    let y ← value? q
    let z ← value? r
    let w ← value? s
    let bytes ← decodeChars? rest
    some (UInt8.ofNat (x * 4 + y / 16) :: UInt8.ofNat (y % 16 * 16 + z / 4)
      :: UInt8.ofNat (z % 4 * 64 + w) :: bytes)

/-- A byte string in base64url. -/
def encode (b : Bytes) : String := String.ofList (encodeChars b)

/-- The byte string that a base64url text spells. -/
def decode? (s : String) : Option Bytes := decodeChars? s.toList

/-- The words for a text that spells no byte string. -/
def invalid : String := "invalid Base64 encoding"

/-- The byte string that a base64url text spells, or why there is none. -/
def decode (s : String) : Except CryptoError Bytes :=
  match decode? s with
  | some b => .ok b
  | none => .error (.base64Decode invalid)

/-! ## Reading back -/

theorem value?_digit (v : Nat) : value? (digit v) = some (v % 64) := by
  have hall : ∀ k : Fin 64, value? (alphabet.getD k.val 'A') = some k.val := by decide +kernel
  exact hall ⟨v % 64, Nat.mod_lt _ (by omega)⟩

theorem decodeChars?_encodeChars : ∀ b : Bytes, decodeChars? (encodeChars b) = some b
  | [] => rfl
  | [a] => by
      have ha := a.toNat_lt
      simp only [encodeChars, decodeChars?, value?_digit, Option.bind_eq_bind,
        Option.bind_some]
      rw [if_pos (by omega), show a.toNat / 4 % 64 * 4 + a.toNat % 4 * 16 % 64 / 16
        = a.toNat by omega]
      simp
  | [a, b] => by
      have ha := a.toNat_lt
      have hb := b.toNat_lt
      simp only [encodeChars, decodeChars?, value?_digit, Option.bind_eq_bind,
        Option.bind_some]
      rw [if_pos (by omega),
        show a.toNat / 4 % 64 * 4 + (a.toNat % 4 * 16 + b.toNat / 16) % 64 / 16
          = a.toNat by omega,
        show (a.toNat % 4 * 16 + b.toNat / 16) % 64 % 16 * 16
          + b.toNat % 16 * 4 % 64 / 4 = b.toNat by omega]
      simp
  | a :: b :: c :: rest => by
      have ha := a.toNat_lt
      have hb := b.toNat_lt
      have hc := c.toNat_lt
      have ih := decodeChars?_encodeChars rest
      simp only [encodeChars, decodeChars?, value?_digit, Option.bind_eq_bind,
        Option.bind_some, ih]
      rw [show a.toNat / 4 % 64 * 4 + (a.toNat % 4 * 16 + b.toNat / 16) % 64 / 16
          = a.toNat by omega,
        show (a.toNat % 4 * 16 + b.toNat / 16) % 64 % 16 * 16
          + (b.toNat % 16 * 4 + c.toNat / 64) % 64 / 4 = b.toNat by omega,
        show (b.toNat % 16 * 4 + c.toNat / 64) % 64 % 4 * 64 + c.toNat % 64 % 64
          = c.toNat by omega]
      simp

end SealedState.Base64url
