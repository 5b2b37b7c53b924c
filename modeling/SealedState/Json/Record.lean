/-
SealedState.Json.Record — records read from objects, or from lists in the
order of their fields.

In an object a field may come in any place but once; whether other names
are refused or passed over is up to the record. In a list every field has
its place.

`from_json` of SPEC_FULL.md §6 reads settings so.
-/
import SealedState.Json.Skip
import SealedState.Record

namespace SealedState.Json.Reader

variable {σ α : Type}

/-- The words for a record as an expected value. -/
def expectedRecord (r : Record Reader σ α) : String := "struct " ++ r.name

/-- The words for a record as an expected list. -/
def expectedFields (r : Record Reader σ α) : String :=
  expectedRecord r ++ " with " ++ Nat.repr r.fields.length ++ " elements"

/-- The whole record; a missing field is reported with the bytes read so
far. -/
def finishRecord (r : Record Reader σ α) (s : σ) : Reader α := fun rest =>
  match r.complete s with
  | .ok x => .ok (x, rest)
  | .error name => mismatch (.missingField name) rest

/-- Reads members up to the end of an object; there are fewer than
`bound`. -/
def fieldsByName (r : Record Reader σ α) : (bound : Nat) → (first : Bool) → σ → Reader σ
  | 0, _, _ => fun rest => Issue.endInObject.before rest
  | bound + 1, first, s => fun rest => do
    match ← nextMember first rest with
    | .closed rest => return (s, rest)
    | .more name rest =>
      match r.field? name with
      | some field =>
        if field.isPresent s then mismatch (.duplicateField name) (afterName rest)
        else
          let (s, rest) ← field.read s (← colon rest)
          fieldsByName r bound false s rest
      | none =>
        match r.others with
        | .refuse => mismatch (.unknownField name r.names) (afterName rest)
        | .pass => fieldsByName r bound false s (← Skip.value (← colon rest))

/-- Reads the fields from the items of a list, of which `index` were
read. -/
def fieldsInOrder (r : Record Reader σ α) :
    (fields : List (Field Reader σ)) → (index : Nat) → σ → Reader σ
  | [], _, s => fun rest => return (s, ← closeList rest)
  | field :: fields, index, s => fun rest => do
    match ← nextItem (index == 0) rest with
    | .closed rest =>
      if (field :: fields).all (·.isOptional) then return (s, rest)
      else mismatch (.wrongLength index (expectedFields r)) rest
    | .more () rest =>
      let (s, rest) ← field.read s rest
      fieldsInOrder r fields (index + 1) s rest

/-- Reads a record. -/
def record (r : Record Reader σ α) : Reader α := dispatch fun b rest => do
  if b = Ascii.openBrace then
    let (s, rest) ← fieldsByName r (rest.length + 1) true r.empty rest
    finishRecord r s rest
  else if b = Ascii.openBracket then
    let (s, rest) ← fieldsInOrder r r.fields 0 r.empty rest
    finishRecord r s rest
  else wrongType (expectedRecord r) b rest

end SealedState.Json.Reader
