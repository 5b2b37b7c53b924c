/-
SealedState.Payload.JsonText — values of every shape as JSON text.

A map from byte strings has no JSON text unless it is empty, since the
names of members are strings.

This is how `JsonSerializer` of SPEC_FULL.md §4.3 takes the types of values.
-/
import SealedState.Json.Record
import SealedState.Json.Writer
import SealedState.Payload.Shape

namespace SealedState

namespace CredentialFlow

/-- A flow that is read in part. -/
structure Partial where
  connectorId : Option String
  connectionId : Option String
  redirectUrl : Option String
  token : Option (Option String)

/-- A flow is whole with three texts; the token may be missing. -/
def Partial.complete (p : Partial) : Except String CredentialFlow :=
  match p.connectorId, p.connectionId, p.redirectUrl with
  | some connectorId, some connectionId, some redirectUrl =>
    .ok ⟨connectorId, connectionId, redirectUrl, p.token.getD none⟩
  | none, _, _ => .error "connector_id"
  | _, none, _ => .error "connection_id"
  | _, _, none => .error "redirect_url"

/-- The fields of a flow in a format. `put` turns a reader of a field into
one of partial records. -/
def record {ρ : Type → Type} (text : ρ String) (optionalText : ρ (Option String))
    (put : {α : Type} → (α → Partial) → ρ α → ρ Partial) : Record ρ Partial CredentialFlow where
  name := "CredentialFlowState"
  fields :=
    [{ name := "connector_id", isPresent := (·.connectorId.isSome), isOptional := false
       read := fun p => put (fun s => { p with connectorId := some s }) text },
     { name := "connection_id", isPresent := (·.connectionId.isSome), isOptional := false
       read := fun p => put (fun s => { p with connectionId := some s }) text },
     { name := "redirect_url", isPresent := (·.redirectUrl.isSome), isOptional := false
       read := fun p => put (fun s => { p with redirectUrl := some s }) text },
     { name := "token", isPresent := (·.token.isSome), isOptional := false
       read := fun p => put (fun s => { p with token := some s }) optionalText }]
  others := .pass
  empty := ⟨none, none, none, none⟩
  complete := Partial.complete

end CredentialFlow

namespace Json

/-! ## Writing -/

/-- A value that may be missing. -/
def writeOption {α : Type} (write : α → Bytes) : Option α → Bytes
  | none => writeNull
  | some x => write x

def writeFlow (f : CredentialFlow) : Bytes :=
  writeObject
    [writeMember "connector_id" (writeText f.connectorId),
      writeMember "connection_id" (writeText f.connectionId),
      writeMember "redirect_url" (writeText f.redirectUrl),
      writeMember "token" (writeOption writeText f.token)]

def writeTuple (t : Tuple) : Bytes :=
  writeList
    [writeText t.1, writeInteger t.2.1.val, writeList (t.2.2.1.map (writeInteger ·.val)),
      writeOption writeBoolean t.2.2.2]

/-- A value of a shape as text, or the words for why it has none. -/
def writeShape : (σ : Shape) → σ.Val → Except String Bytes
  | .json, (x : Json) => .ok x.write
  | .flow, f => .ok (writeFlow f)
  | .text, s => .ok (writeText s)
  | .boolean, b => .ok (writeBoolean b)
  | .integer _, n => .ok (writeInteger n.val)
  | .float, x => .ok (writeFloat x)
  | .optionalInteger _, n => .ok (writeOption (writeInteger ·.val) n)
  | .integers _, ns => .ok (writeList (ns.map (writeInteger ·.val)))
  | .tuple, t => .ok (writeTuple t)
  | .byteMap, m => if m.entries = [] then .ok (writeObject []) else .error Issue.nameNotText.message

/-! ## Reading -/

namespace Reader

/-- Reads an integer; a kind that numbers hold is read as a number. -/
def integerOfKind : (k : IntegerKind) → Reader k.Value
  | .i128 => wideInteger .i128
  | k => integer k

/-- Reads the next of several items that make a whole, of which `index`
were read. -/
def part {α : Type} (read : Reader α) (index : Nat) (whole : String) : Reader α := fun rest => do
  match ← nextItem (index == 0) rest with
  | .closed rest => mismatch (.wrongLength index whole) rest
  | .more () rest => read rest

def tuple : Reader Tuple := dispatch fun b rest => do
  let whole := "a tuple of size 4"
  if b = Ascii.openBracket then
    let (s, rest) ← part string 0 whole rest
    let (n, rest) ← part (integer .u64) 1 whole rest
    let (ns, rest) ← part (list (integer .u8)) 2 whole rest
    let (o, rest) ← part (option boolean) 3 whole rest
    return ((s, n, ns, o), ← closeList rest)
  else wrongType whole b rest

/-- Reads the empty map. The name of a member is never a byte string. -/
def byteMap : Reader ByteMap := dispatch fun b rest => do
  if b = Ascii.openBrace then
    match ← nextMember true rest with
    | .closed rest => return (ByteMap.empty, rest)
    | .more name rest => mismatch (.wrongType (.text name) "a sequence") (afterName rest)
  else wrongType "a map" b rest

def flow : Reader CredentialFlow :=
  record (CredentialFlow.record string (option string) map)

/-- Reads a value of a shape. -/
def shape : (σ : Shape) → Reader σ.Val
  | .json => any
  | .flow => flow
  | .text => string
  | .boolean => boolean
  | .integer k => integerOfKind k
  | .float => float
  | .optionalInteger k => option (integerOfKind k)
  | .integers k => list (integerOfKind k)
  | .tuple => tuple
  | .byteMap => byteMap

end Reader

end Json

end SealedState
