/-
SealedState.Text.Quoted — texts and characters between quotation marks,
as diagnostics show them.

A backslash introduces what cannot stand for itself: the mark that closes
the quotation, the backslash, tab, line feed, carriage return and NUL by
a letter, and every other character that is not printable by its number
in hexadecimal between braces.

The errors of settings quote texts and characters (SPEC_FULL.md §6 and §7).
-/
import SealedState.Text.Printable

namespace SealedState.Quoted

/-- A character inside a quotation that the character `mark` closes. -/
def escape (mark c : Char) : List Char :=
  if c = '\x00' then ['\\', '0']
  else if c = '\t' then ['\\', 't']
  else if c = '\n' then ['\\', 'n']
  else if c = '\r' then ['\\', 'r']
  else if c = '\\' then ['\\', '\\']
  else if c = mark then ['\\', mark]
  else if isPrintable c then [c]
  else ['\\', 'u', '\x7b'] ++ Nat.toDigits 16 c.toNat ++ ['\x7d']

/-- A text between double quotation marks. -/
def string (s : String) : String :=
  String.ofList (['"'] ++ s.toList.flatMap (escape '"') ++ ['"'])

/-- A character between single quotation marks. -/
def char (c : Char) : String :=
  String.ofList (['\x27'] ++ escape '\x27' c ++ ['\x27'])

end SealedState.Quoted
