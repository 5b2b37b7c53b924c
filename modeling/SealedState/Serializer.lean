/-
SealedState.Serializer — how the value of a state becomes bytes.

A serializer writes and reads the values of every shape. The library has
two, for JSON text and for CBOR items; any other pair of functions makes
one too.

These are the `Serializer` of SPEC_FULL.md §4.3, which §1 leaves to
collaborators, and its two implementations, `JsonSerializer` and
`CborSerializer`.
-/
import SealedState.Payload.CborItem
import SealedState.StateError

namespace SealedState

/-- Writes values as bytes and reads them back. -/
structure Serializer where
  name : String
  serialize : (σ : Shape) → σ.Val → Except StateError Bytes
  deserialize : (σ : Shape) → Bytes → Except StateError σ.Val

namespace Serializer

/-- Values as JSON text. -/
def json : Serializer where
  name := "json"
  serialize σ v :=
    match Json.writeShape σ v with
    | .ok b => .ok b
    | .error reason => .error (.serialization reason)
  deserialize σ b :=
    match Json.document (Json.Reader.shape σ) b with
    | .ok v => .ok v
    | .error fault => .error (.serialization (fault.message b))

/-- Values as CBOR items. -/
def cbor : Serializer where
  name := "cbor"
  serialize σ v := .ok (Cbor.writeShape σ v)
  deserialize σ b :=
    match Cbor.first (Cbor.Reader.shape σ) b with
    | .ok v => .ok v
    | .error fault => .error (.serialization ("CBOR decode: " ++ fault.message b.length))

end Serializer

end SealedState
