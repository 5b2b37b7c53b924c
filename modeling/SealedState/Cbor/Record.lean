/-
SealedState.Cbor.Record — records read from maps, and items passed over.

The keys of a record are short strings of text or of bytes. A member that
is no field is passed over, tags included, but its item has to be
well-formed, and nested no deeper than one that is read.

`CborSerializer` of SPEC_FULL.md §4.3 reads records so.
-/
import SealedState.Cbor.Reader
import SealedState.Record

namespace SealedState.Cbor.Reader

/-! ## Items passed over -/

/-- Passes over the elements of a container after its header, each of them
with `skip`. -/
def skipContainer (skip : Reader Unit) (h : Header) (rest : Bytes) :
    Except Fault (Unit × Cursor) := do
  let c : Cursor := ⟨none, rest⟩
  match h with
  | .array length =>
    let (_, c) ← items skip (c.left + 1) length c
    return ((), c)
  | .map length => entries skip skip skip (fun _ _ s => s) (c.left + 1) length () c
  | h => h.wrongType "array"

/-- Passes over an item; `nested` passes over what is inside of it, and is
none where nothing more may be open. -/
def skipItem (nested : Option (Reader Unit)) : Reader Unit :=
  fun c => do
    let (h, rest) ← c.take
    match h with
    | .positive _ | .negative _ | .float _ => return ((), ⟨none, rest⟩)
    | .simple n =>
      if 20 ≤ n ∧ n ≤ 23 then return ((), ⟨none, rest⟩)
      else h.wrongType "known simple value"
    | .stop => h.wrongType "non-break"
    | .text length =>
      let (_, rest) ← textAfter length rest
      return ((), ⟨none, rest⟩)
    | .bytes length =>
      let (_, rest) ← bytesAfter length rest
      return ((), ⟨none, rest⟩)
    | .tag tag =>
      match ← bigInteger? tag rest with
      | (some _, c) => return ((), c)
      | (none, c) =>
        match nested with
        | some skip => skip c
        | none => throw .recursionLimit
    | h =>
      match nested with
      | some skip => skipContainer skip h rest
      | none => throw .recursionLimit

/-- Passes over an item, with at most `depth` containers and tags open at
once. -/
def skip : (depth : Nat) → Reader Unit
  | 0 => skipItem none
  | depth + 1 => skipItem (some (skip depth))

/-! ## Records -/

/-- Reads the name of a field; a name that is no UTF-8 is given as none. -/
def fieldName : Reader (Option String) := dispatch fun start h rest =>
  match h with
  | .text (some length) =>
    if length ≤ chunkLength then do
      let (cs, rest) ← textSegment [] start length rest
      return (some (String.ofList cs), rest)
    else h.wrongType "str or bytes"
  | .bytes (some length) =>
    if length ≤ chunkLength then do
      let (b, rest) ← bytesSegment [] start length rest
      return (Utf8.decode? b, rest)
    else h.wrongType "str or bytes"
  | h => h.wrongType "str or bytes"

/-- Reads the members of a record. Every member takes a byte, so `bound` is
more than their number. -/
def fields {σ α : Type} (r : Record Reader σ α) : (bound : Nat) → (remaining : Option Nat) →
    σ → Reader σ
  | 0, _, _ => fun _ => .error .truncated
  | bound + 1, remaining, s => fun c => do
    match ← next remaining c with
    | (none, c) => return (s, c)
    | (some remaining, c) =>
      let (name, c) ← fieldName c
      match name.bind r.field? with
      | some field =>
        if field.isPresent s then mismatch (.duplicateField field.name)
        else
          let (s, c) ← field.read s c
          fields r bound remaining s c
      | none =>
        match r.others with
        | .refuse => mismatch (.unknownField (name.getD "") r.names)
        | .pass =>
          let (_, c) ← skip (maxDepth - 1) c
          fields r bound remaining s c

/-- Reads a record. -/
def record {σ α : Type} (r : Record Reader σ α) : Reader α := fun c => do
  let (length, c) ← mapStart c
  let (s, c) ← fields r (c.left + 1) length r.empty c
  match r.complete s with
  | .ok x => return (x, c)
  | .error name => mismatch (.missingField name)

end SealedState.Cbor.Reader
