/-
SealedState.Json.Writer — JSON values as text, without blanks.

This is the writer of `JsonSerializer` in SPEC_FULL.md §4.3.
-/
import SealedState.Json.Number
import SealedState.Json.Text
import SealedState.Text.Split

namespace SealedState.Json

def writeNull : Bytes := Ascii.ofString "null"

def writeBoolean (b : Bool) : Bytes := Ascii.ofString (if b then "true" else "false")

/-- Written items between brackets, with a comma between each two. -/
def writeList (items : List Bytes) : Bytes :=
  Ascii.openBracket :: joinWith Ascii.comma items ++ [Ascii.closeBracket]

/-- A member with a written value. -/
def writeMember (name : String) (value : Bytes) : Bytes :=
  writeText name ++ Ascii.colon :: value

/-- Written members between braces, with a comma between each two. -/
def writeObject (members : List Bytes) : Bytes :=
  Ascii.openBrace :: joinWith Ascii.comma members ++ [Ascii.closeBrace]

mutual

/-- A value as text. -/
def write : Json → Bytes
  | .null => writeNull
  | .boolean b => writeBoolean b
  | .number n => n.write
  | .text s => writeText s
  | .list items => writeList (writeItems items)
  | .object members => writeObject (writeMembers members)

/-- Values as texts. -/
def writeItems : List Json → List Bytes
  | [] => []
  | item :: items => item.write :: writeItems items

/-- Members as texts. -/
def writeMembers : List (String × Json) → List Bytes
  | [] => []
  | (name, value) :: members => writeMember name value.write :: writeMembers members

end

end SealedState.Json
