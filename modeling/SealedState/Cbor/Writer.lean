/-
SealedState.Cbor.Writer — values as CBOR items, each in the fewest bytes.

This is the writer of `CborSerializer` in SPEC_FULL.md §4.3.
-/
import SealedState.Cbor.Header
import SealedState.Json.Basic
import SealedState.Text.Utf8

namespace SealedState.Cbor

/-- The bytes of a natural number of at most 128 bits, without leading
zeros. -/
def shortBytes (n : Nat) : Bytes := (Bytes.bigEndian 16 n).dropWhile (· == 0)

/-- A natural number as a header; a number that no header holds is written
as a tagged byte string. -/
def writeNatural (header : Nat → Header) (bigTag n : Nat) : Bytes :=
  if n < 0x10000000000000000 then (header n).write
  else
    let digits := shortBytes n
    (Header.tag bigTag).write ++ (Header.bytes digits.length).write ++ digits

/-- An integer of at most 128 bits. -/
def writeInteger : Int → Bytes
  | .ofNat n => writeNatural .positive 2 n
  | .negSucc n => writeNatural .negative 3 n

def writeBoolean (b : Bool) : Bytes := (Header.boolean b).write

def writeNull : Bytes := Header.null.write

def writeFloat (x : Binary64) : Bytes := (Header.float x).write

/-- A string with its length in bytes. -/
def writeText (s : String) : Bytes :=
  let text := Utf8.encode s
  (Header.text text.length).write ++ text

/-- Written items after their number. -/
def writeList (items : List Bytes) : Bytes :=
  (Header.array items.length).write ++ items.flatten

/-- Written keys and values after their number. -/
def writeMap (entries : List (Bytes × Bytes)) : Bytes :=
  (Header.map entries.length).write ++ entries.flatMap fun (key, value) => key ++ value

mutual

/-- A JSON value as an item. -/
def write : Json → Bytes
  | .null => writeNull
  | .boolean b => writeBoolean b
  | .number (.integer n) => writeInteger n.val
  | .number (.float x) => writeFloat x
  | .text s => writeText s
  | .list items => writeList (writeItems items)
  | .object members => writeMap (writeMembers members)

/-- JSON values as items. -/
def writeItems : List Json → List Bytes
  | [] => []
  | item :: items => write item :: writeItems items

/-- Members as keys and values. -/
def writeMembers : List (String × Json) → List (Bytes × Bytes)
  | [] => []
  | (name, value) :: members => (writeText name, write value) :: writeMembers members

end

end SealedState.Cbor
