/-
SealedState.Text.Utf8 — strings as UTF-8 byte strings.

`Utf8.encode` writes a string; `Utf8.span` reads as many characters as a
byte string begins with and hands back the rest, so that a reader which
sees a text piece by piece can carry a cut character over to the next
piece; `Utf8.decode?` accepts a byte string that `span` reads to its end.
An encoded character is accepted in its shortest form only, and
surrogates are no characters.
-/
import SealedState.Bytes

namespace SealedState.Utf8

/-- The bytes of a string. -/
def encode (s : String) : Bytes := s.toList.flatMap String.utf8EncodeChar

/-- The byte continues a character that an earlier byte began. -/
def isContinuation (b : UInt8) : Bool := 0x80 ≤ b && b < 0xc0

/-- The character with number `n`, provided that `n` needs the form it was
written in: `least` is the first number that does. -/
def scalar? (least n : Nat) : Option Char :=
  if h : least ≤ n ∧ n.isValidChar then some (Char.ofNatAux n h.2) else none

/-- The character that two bytes encode. -/
def two? (a b : UInt8) : Option Char :=
  if 0xc0 ≤ a && a < 0xe0 && isContinuation b then
    scalar? 0x80 (a.toNat % 32 * 64 + b.toNat % 64)
  else none

/-- The character that three bytes encode. -/
def three? (a b c : UInt8) : Option Char :=
  if 0xe0 ≤ a && a < 0xf0 && isContinuation b && isContinuation c then
    scalar? 0x800 (a.toNat % 16 * 4096 + b.toNat % 64 * 64 + c.toNat % 64)
  else none

/-- The character that four bytes encode. -/
def four? (a b c d : UInt8) : Option Char :=
  if 0xf0 ≤ a && a < 0xf8 && isContinuation b && isContinuation c
      && isContinuation d then
    scalar? 0x10000 (a.toNat % 8 * 262144 + b.toNat % 64 * 4096
      + c.toNat % 64 * 64 + d.toNat % 64)
  else none

/-- Puts a character in front of what was read after it. -/
def push (c : Char) (r : List Char × Bytes) : List Char × Bytes := (c :: r.1, r.2)

/-- The characters that a byte string begins with, and the bytes from the
first place at which no character is encoded. -/
def span : Bytes → List Char × Bytes
  | [] => ([], [])
  | a :: as =>
    if a < 0x80 then push (Char.ofNat a.toNat) (span as)
    else match as with
      | [] => ([], [a])
      | b :: bs =>
        match two? a b with
        | some c => push c (span bs)
        | none =>
          match bs with
          | [] => ([], [a, b])
          | c :: cs =>
            match three? a b c with
            | some x => push x (span cs)
            | none =>
              match cs with
              | [] => ([], [a, b, c])
              | d :: ds =>
                match four? a b c d with
                | some x => push x (span ds)
                | none => ([], a :: b :: c :: d :: ds)

/-- The string that a byte string encodes, if it encodes one. -/
def decode? (b : Bytes) : Option String :=
  match span b with
  | (cs, []) => some (String.ofList cs)
  | (_, _ :: _) => none

@[simp] theorem encode_append (s t : String) : encode (s ++ t) = encode s ++ encode t := by
  simp [encode]

end SealedState.Utf8
