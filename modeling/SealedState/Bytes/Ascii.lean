/-
SealedState.Bytes.Ascii — the octets that the text formats of this
library give a meaning to, by name, and the classes they fall into.
-/
import SealedState.Bytes

namespace SealedState.Ascii

@[match_pattern] abbrev tab : UInt8 := 0x09
@[match_pattern] abbrev lineFeed : UInt8 := 0x0a
@[match_pattern] abbrev carriageReturn : UInt8 := 0x0d
@[match_pattern] abbrev space : UInt8 := 0x20
@[match_pattern] abbrev quote : UInt8 := 0x22
@[match_pattern] abbrev plus : UInt8 := 0x2b
@[match_pattern] abbrev comma : UInt8 := 0x2c
@[match_pattern] abbrev minus : UInt8 := 0x2d
@[match_pattern] abbrev point : UInt8 := 0x2e
@[match_pattern] abbrev slash : UInt8 := 0x2f
@[match_pattern] abbrev zero : UInt8 := 0x30
@[match_pattern] abbrev colon : UInt8 := 0x3a
@[match_pattern] abbrev upperE : UInt8 := 0x45
@[match_pattern] abbrev openBracket : UInt8 := 0x5b
@[match_pattern] abbrev backslash : UInt8 := 0x5c
@[match_pattern] abbrev closeBracket : UInt8 := 0x5d
@[match_pattern] abbrev lowerB : UInt8 := 0x62
@[match_pattern] abbrev lowerE : UInt8 := 0x65
@[match_pattern] abbrev lowerF : UInt8 := 0x66
@[match_pattern] abbrev lowerN : UInt8 := 0x6e
@[match_pattern] abbrev lowerR : UInt8 := 0x72
@[match_pattern] abbrev lowerT : UInt8 := 0x74
@[match_pattern] abbrev lowerU : UInt8 := 0x75
@[match_pattern] abbrev openBrace : UInt8 := 0x7b
@[match_pattern] abbrev closeBrace : UInt8 := 0x7d

/-- The octet is one of `0` to `9`. -/
def isDigit (b : UInt8) : Bool := 0x30 ≤ b && b ≤ 0x39

/-- The value of a decimal digit. -/
def digitValue (b : UInt8) : Nat := b.toNat - 0x30

/-- The number that decimal digits spell. -/
def decimalValue (digits : Bytes) : Nat :=
  digits.foldl (fun n b => n * 10 + digitValue b) 0

/-- The octets of characters, all of which are ASCII. -/
def ofChars (cs : List Char) : Bytes := cs.map fun c => UInt8.ofNat c.toNat

/-- The octets of a text, all of which is ASCII. -/
def ofString (s : String) : Bytes := ofChars s.toList

/-- The value of a hexadecimal digit, in either case. -/
def hexValue? (b : UInt8) : Option Nat :=
  if isDigit b then some (digitValue b)
  else if 0x61 ≤ b && b ≤ 0x66 then some (b.toNat - 0x61 + 10)
  else if 0x41 ≤ b && b ≤ 0x46 then some (b.toNat - 0x41 + 10)
  else none

/-- The lower-case digit of a value below sixteen. -/
def hexDigit (v : Nat) : UInt8 := if v < 10 then 0x30 + UInt8.ofNat v else 0x57 + UInt8.ofNat v

/-- The octet is a character below the space, a control character. -/
def isControl (b : UInt8) : Bool := b < 0x20

end SealedState.Ascii
