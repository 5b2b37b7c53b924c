/-
SealedState.Payload.CborItem — values of every shape as CBOR items.

This is how `CborSerializer` of SPEC_FULL.md §4.3 takes the types of values.
-/
import SealedState.Cbor.Record
import SealedState.Cbor.Writer
import SealedState.Payload.JsonText

namespace SealedState.Cbor

/-! ## Writing -/

/-- A value that may be missing. -/
def writeOption {α : Type} (write : α → Bytes) : Option α → Bytes
  | none => writeNull
  | some x => write x

def writeFlow (f : CredentialFlow) : Bytes :=
  writeMap
    [(writeText "connector_id", writeText f.connectorId),
      (writeText "connection_id", writeText f.connectionId),
      (writeText "redirect_url", writeText f.redirectUrl),
      (writeText "token", writeOption writeText f.token)]

/-- Bytes as a list of numbers. -/
def writeBytes (b : Bytes) : Bytes := writeList (b.map fun x => writeInteger x.toNat)

def writeTuple (t : Tuple) : Bytes :=
  writeList
    [writeText t.1, writeInteger t.2.1.val, writeList (t.2.2.1.map (writeInteger ·.val)),
      writeOption writeBoolean t.2.2.2]

def writeByteMap (m : ByteMap) : Bytes :=
  writeMap (m.entries.map fun (key, value) => (writeBytes key, writeInteger value.val))

/-- A value of a shape as an item. -/
def writeShape : (σ : Shape) → σ.Val → Bytes
  | .json, (x : Json) => write x
  | .flow, f => writeFlow f
  | .text, s => writeText s
  | .boolean, b => writeBoolean b
  | .integer _, n => writeInteger n.val
  | .float, x => writeFloat x
  | .optionalInteger _, n => writeOption (writeInteger ·.val) n
  | .integers _, ns => writeList (ns.map (writeInteger ·.val))
  | .tuple, t => writeTuple t
  | .byteMap, m => writeByteMap m

/-! ## Reading -/

namespace Reader

/-- Reads bytes that are given as a list of numbers. -/
def byteList : Reader Bytes := map (·.map fun n => UInt8.ofNat n.val.toNat) (integers .u8)

def tuple : Reader Tuple := fun c => do
  let whole := "a tuple of size 4"
  let (s, c) ← sequence c
  match s with
  | .bytes [] => mismatch (.wrongLength 0 whole)
  | .bytes (b :: _) => mismatch (.wrongType (.integer b.toNat) "a string")
  | .array length =>
    let ((s, left), c) ← element text 0 whole length c
    let ((n, left), c) ← element (integer .u64) 1 whole left c
    let ((ns, left), c) ← element (integers .u8) 2 whole left c
    let ((o, _), c) ← element (option boolean) 3 whole left c
    return ((s, n, ns, o), c)

def byteMap : Reader ByteMap := fun c => do
  let (length, c) ← mapStart c
  entries byteList byteList (integer .i32) ByteMap.insert (c.left + 1) length ByteMap.empty c

def flow : Reader CredentialFlow :=
  record (CredentialFlow.record text (option text) map)

/-- Reads a value of a shape. -/
def shape : (σ : Shape) → Reader σ.Val
  | .json => any
  | .flow => flow
  | .text => text
  | .boolean => boolean
  | .integer k => integer k
  | .float => float
  | .optionalInteger k => option (integer k)
  | .integers k => integers k
  | .tuple => tuple
  | .byteMap => byteMap

end Reader

end SealedState.Cbor
