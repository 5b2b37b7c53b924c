/-
SealedState.Record — records as lists of fields, whatever format they are
read from.

A record is read into a partial one, field by field, and is complete when
no field is missing that has no default. `ρ` is the type of readers of a
format.

The settings of SPEC_FULL.md §6 are such a record.
-/
namespace SealedState

/-- A field of a record that is read into partial records `σ`. -/
structure Field (ρ : Type → Type) (σ : Type) where
  name : String
  /-- The partial record holds the field. -/
  isPresent : σ → Bool
  /-- Reads the field into a partial record. -/
  read : σ → ρ σ
  /-- In a list of fields, the field may be absent at the end. -/
  isOptional : Bool

/-- What is done about members that are no fields. -/
inductive Others
  | refuse
  | pass

/-- A record of type `α`, read by way of partial records `σ`. -/
structure Record (ρ : Type → Type) (σ α : Type) where
  name : String
  fields : List (Field ρ σ)
  others : Others
  empty : σ
  /-- The whole record, or the name of a field that is missing. -/
  complete : σ → Except String α

namespace Record

variable {ρ : Type → Type} {σ α : Type}

/-- The names of the fields. -/
def names (r : Record ρ σ α) : List String := r.fields.map (·.name)

/-- The field with a name. -/
def field? (r : Record ρ σ α) (name : String) : Option (Field ρ σ) :=
  r.fields.find? (·.name == name)

end Record

end SealedState
