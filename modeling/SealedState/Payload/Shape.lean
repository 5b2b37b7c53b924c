/-
SealedState.Payload.Shape — the types of value that a token can carry.

A `Shape` names a type, and `Shape.Val` is the type it names.

`encode` and `decode` of SPEC_FULL.md §4.1 are for values of any type that a
serializer takes; the shapes stand for these types.
-/
import SealedState.Json.Basic
import SealedState.Bytes

namespace SealedState

/-- What is kept while a user connects an account of another service. -/
structure CredentialFlow where
  connectorId : String
  connectionId : String
  redirectUrl : String
  token : Option String
  deriving DecidableEq

/-! ## Maps from byte strings -/

/-- Byte strings are ordered byte by byte, and a beginning comes first. -/
theorem bytes_lt_trans (a b c : Bytes) : a < b → b < c → a < c := List.lt_trans

theorem bytes_lt_of_ne (a b : Bytes) (hne : a ≠ b) (h : ¬ a < b) : b < a :=
  Decidable.byContradiction fun hba =>
    hne (List.le_antisymm (List.not_lt.1 hba) (List.not_lt.1 h))

/-- A map from byte strings to integers of 32 bits, in ascending order of
the keys. -/
structure ByteMap where
  entries : List (Bytes × IntegerKind.i32.Value)
  ascending : Ascending entries

namespace ByteMap

def empty : ByteMap := ⟨[], List.Pairwise.nil⟩

/-- Puts an entry in its place; the entry with the same key gives way. -/
def insert (key : Bytes) (value : IntegerKind.i32.Value) (m : ByteMap) : ByteMap :=
  ⟨insertAscending key value m.entries,
    m.ascending.insert bytes_lt_trans bytes_lt_of_ne key value⟩

end ByteMap

/-! ## Shapes -/

/-- A type of value. -/
inductive Shape
  | json
  | flow
  | text
  | boolean
  | integer (k : IntegerKind)
  | float
  | optionalInteger (k : IntegerKind)
  | integers (k : IntegerKind)
  | tuple
  | byteMap
  deriving DecidableEq

/-- A text, a number, some bytes and an answer that may be open. -/
abbrev Tuple : Type :=
  String × IntegerKind.u64.Value × List IntegerKind.u8.Value × Option Bool

/-- The values of a shape. -/
def Shape.Val : Shape → Type
  | json => Json
  | flow => CredentialFlow
  | text => String
  | boolean => Bool
  | integer k => k.Value
  | float => Binary64
  | optionalInteger k => Option k.Value
  | integers k => List k.Value
  | tuple => Tuple
  | byteMap => ByteMap

end SealedState
