/-
SealedState.Json.Basic — JSON values.

A number is an integer if it fits into 64 bits, with or without a sign,
and a floating-point number otherwise. The members of an object are kept
in ascending order of their names by `Json.insert`; the later of two
members with one name stays.

They are what `JsonSerializer` of SPEC_FULL.md §4.3 reads where no type is
asked for.
-/
import SealedState.Ascending
import SealedState.Binary.Binary64
import SealedState.Integer

namespace SealedState

namespace Json

/-- The integers that a JSON number holds exactly. -/
def integerBounds : Bounds := ⟨-0x8000000000000000, 0xffffffffffffffff⟩

/-- A JSON number. -/
inductive Number
  | integer (n : integerBounds.Value)
  | float (x : Binary64)

/-- An integer as a number: itself, or the nearest floating-point number
where it is out of bounds. -/
def Number.ofInt (n : Int) : Number :=
  match integerBounds.ofInt? n with
  | some v => .integer v
  | none => .float (Binary64.ofInt n)

end Json

/-- A JSON value. -/
inductive Json
  | null
  | boolean (b : Bool)
  | number (n : Json.Number)
  | text (s : String)
  | list (items : List Json)
  | object (members : List (String × Json))

namespace Json

/-- Puts a member in its place. -/
def insert (name : String) (value : Json) (members : List (String × Json)) :
    List (String × Json) :=
  insertAscending name value members

end Json

end SealedState
