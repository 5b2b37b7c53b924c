/-
SealedState.Json.Fault — why a JSON text was refused, and where.

A reader knows how many bytes it has left, so a fault carries that count;
the line and the column follow from the text once it is known as a whole.

The words end up in the errors of serialization and of settings (SPEC_FULL.md
§7).
-/
import SealedState.Bytes.Ascii
import SealedState.Found

namespace SealedState.Json

/-- What is wrong with a JSON text. -/
inductive Issue
  | endInList
  | endInObject
  | endInText
  | endInValue
  | expectedColon
  | expectedListEnd
  | expectedObjectEnd
  | expectedIdent
  | expectedValue
  | invalidEscape
  | invalidNumber
  | numberOutOfRange
  | invalidCodePoint
  | controlCharacter
  | nameNotText
  | loneSurrogate
  | endInSurrogates
  | trailingComma
  | trailingCharacters
  | recursionLimit
  | mismatch (m : Mismatch)

/-- Numbers have exponents below `1e-5` and from `1e16` on, and a tie goes
to the even digit. -/
def numberStyle : DecimalStyle := { positional := some (-5, 15), tie := .even }

/-- The words for an issue. -/
def Issue.message : Issue → String
  | endInList => "EOF while parsing a list"
  | endInObject => "EOF while parsing an object"
  | endInText => "EOF while parsing a string"
  | endInValue => "EOF while parsing a value"
  | expectedColon => "expected `:`"
  | expectedListEnd => "expected `,` or `]`"
  | expectedObjectEnd => "expected `,` or `\x7d`"
  | expectedIdent => "expected ident"
  | expectedValue => "expected value"
  | invalidEscape => "invalid escape"
  | invalidNumber => "invalid number"
  | numberOutOfRange => "number out of range"
  | invalidCodePoint => "invalid unicode code point"
  | controlCharacter => "control character (\\u0000-\\u001F) found while parsing a string"
  | nameNotText => "key must be a string"
  | loneSurrogate => "lone leading surrogate in hex escape"
  | endInSurrogates => "unexpected end of hex escape"
  | trailingComma => "trailing comma"
  | trailingCharacters => "trailing characters"
  | recursionLimit => "recursion limit exceeded"
  | mismatch m => m.message numberStyle

/-- An issue, and the number of bytes that are left where it shows. -/
structure Fault where
  issue : Issue
  left : Nat

/-- Reads a value from the front of a byte string, and gives the bytes
after it too. -/
abbrev Reader (α : Type) : Type := Bytes → Except Fault (α × Bytes)

/-- An issue with the bytes read so far. -/
def Issue.before {α : Type} (issue : Issue) (rest : Bytes) : Except Fault α :=
  .error ⟨issue, rest.length⟩

/-- An issue with the byte that comes next, which counts as read. -/
def Issue.next {α : Type} (issue : Issue) (rest : Bytes) : Except Fault α :=
  .error ⟨issue, rest.length - 1⟩

/-- The line after some bytes; the first line has the number one. -/
def lineAfter (front : Bytes) : Nat := front.count Ascii.lineFeed + 1

/-- The number of bytes since the last line feed. -/
def columnAfter (front : Bytes) : Nat :=
  (front.reverse.takeWhile (· != Ascii.lineFeed)).length

/-- The words for a fault in a text. -/
def Fault.message (f : Fault) (text : Bytes) : String :=
  let front := text.take (text.length - f.left)
  f.issue.message ++ " at line " ++ Nat.repr (lineAfter front)
    ++ " column " ++ Nat.repr (columnAfter front)

end SealedState.Json
