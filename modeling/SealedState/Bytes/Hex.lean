/-
SealedState.Bytes.Hex — byte strings in hexadecimal, two digits a byte.

Writing uses lower-case digits; reading takes either case, and names the
first character that is no digit by the byte it starts with.

The tenant is written so in settings (SPEC_FULL.md §6), and in the error and
the event for another tenant (§7, §8).
-/
import SealedState.Bytes.Ascii
import SealedState.Text.Quoted
import SealedState.Text.Utf8

namespace SealedState.Hex

/-- The lower-case digits of a byte. -/
def digits (b : UInt8) : List Char :=
  [Nat.digitChar (b.toNat / 16), Nat.digitChar (b.toNat % 16)]

/-- A byte string in lower-case hexadecimal. -/
def encode (b : Bytes) : String := String.ofList (b.flatMap digits)

/-- Why a text is no hexadecimal byte string. -/
inductive Fault
  | oddLength
  | notADigit (byte : UInt8) (position : Nat)
  deriving DecidableEq

/-- The words for a fault. A byte is shown as the character of that
number. -/
def Fault.message : Fault → String
  | .oddLength => "Odd number of digits"
  | .notADigit byte position =>
    "Invalid character " ++ Quoted.char (Char.ofNat byte.toNat) ++ " at position "
      ++ Nat.repr position

/-- The value of a digit that stands at a known place. -/
def digit (byte : UInt8) (position : Nat) : Except Fault Nat :=
  match Ascii.hexValue? byte with
  | some v => .ok v
  | none => .error (.notADigit byte position)

/-- Reads pairs of digits, the first of which stands at `position`. -/
def pairs (position : Nat) : Bytes → Except Fault Bytes
  | hi :: lo :: rest => do
    let h ← digit hi position
    let l ← digit lo (position + 1)
    let bytes ← pairs (position + 2) rest
    return UInt8.ofNat (16 * h + l) :: bytes
  | _ => .ok []

/-- The bytes that a hexadecimal text stands for. That the digits do not
pair up is found before any other fault. -/
def decode (s : String) : Except Fault Bytes :=
  let text := Utf8.encode s
  if text.length % 2 = 0 then pairs 0 text else .error .oddLength

end SealedState.Hex
