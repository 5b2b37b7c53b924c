/-
SealedState.Cbor.Header — the headers that begin every CBOR item.

A header says of which kind an item is and holds one number: a value, a
length, or nothing. It is written in the fewest bytes; when it is read,
longer forms are accepted too. `Cursor` is a place in a byte string, at
which one header may have been read ahead.

CBOR is the format of `CborSerializer` in SPEC_FULL.md §4.3.
-/
import SealedState.Bytes
import SealedState.Found

namespace SealedState.Cbor

/-- A header. A container or a string without a length goes on up to a
stop. -/
inductive Header
  | positive (n : Nat)
  /-- The integer `-1 - n`. -/
  | negative (n : Nat)
  | bytes (length : Option Nat)
  | text (length : Option Nat)
  | array (length : Option Nat)
  | map (length : Option Nat)
  | tag (n : Nat)
  | simple (n : Nat)
  | float (x : Binary64)
  | stop

/-! ## Faults -/

/-- Why a CBOR item was refused. Places are given by the number of bytes
that are left there. -/
inductive Fault
  | truncated
  | malformed (left : Nat)
  | unexpected (left : Option Nat) (reason : String)
  | recursionLimit

/-- A number in an optional place of a report. -/
def optionalText : Option Nat → String
  | none => "None"
  | some n => "Some(" ++ Nat.repr n ++ ")"

/-- The words for a fault in a byte string of some length. -/
def Fault.message (length : Nat) : Fault → String
  | truncated =>
    "Io(Error \x7b kind: UnexpectedEof, message: \"failed to fill whole buffer\" \x7d)"
  | malformed left => "Syntax(" ++ Nat.repr (length - left) ++ ")"
  | unexpected left reason =>
    "Semantic(" ++ optionalText (left.map (length - ·)) ++ ", " ++ Quoted.string reason ++ ")"
  | recursionLimit => "RecursionLimitExceeded"

/-- Floating-point numbers in reports have no exponent, and a tie goes
up. -/
def reportStyle : DecimalStyle := { positional := none, tie := .up }

/-- A mismatch, which is reported without its place. -/
def mismatch {α : Type} (m : Mismatch) : Except Fault α :=
  .error (.unexpected none (m.message reportStyle))

/-- A value that is refused for a reason of its own, which is reported
without its place. -/
def refused {α : Type} (reason : String) : Except Fault α := .error (.unexpected none reason)

/-! ## Writing -/

namespace Header

/-- A first byte with its number, which follows in one, two, four or eight
bytes unless it is small. -/
def head (major n : Nat) : Bytes :=
  if n < 24 then [UInt8.ofNat (32 * major + n)]
  else if n < 0x100 then UInt8.ofNat (32 * major + 24) :: Bytes.bigEndian 1 n
  else if n < 0x10000 then UInt8.ofNat (32 * major + 25) :: Bytes.bigEndian 2 n
  else if n < 0x100000000 then UInt8.ofNat (32 * major + 26) :: Bytes.bigEndian 4 n
  else UInt8.ofNat (32 * major + 27) :: Bytes.bigEndian 8 n

/-- The first byte of an item that has no length. -/
def openHead (major : Nat) : Bytes := [UInt8.ofNat (32 * major + 31)]

/-- A length, or none. -/
def headOf (major : Nat) : Option Nat → Bytes
  | some n => head major n
  | none => openHead major

/-- A floating-point number in the shortest format that holds it. -/
def writeFloat (x : Binary64) : Bytes :=
  match x.narrow? Layout.half with
  | some bits => 0xf9 :: Bytes.bigEndian 2 bits
  | none =>
    match x.narrow? Layout.single with
    | some bits => 0xfa :: Bytes.bigEndian 4 bits
    | none => 0xfb :: Bytes.bigEndian 8 x.bits.toNat

/-- A header in the fewest bytes. -/
def write : Header → Bytes
  | positive n => head 0 n
  | negative n => head 1 n
  | bytes length => headOf 2 length
  | text length => headOf 3 length
  | array length => headOf 4 length
  | map length => headOf 5 length
  | tag n => head 6 n
  | simple n => head 7 n
  | float x => writeFloat x
  | stop => openHead 7

/-- The least number of bytes of a header. -/
def size (h : Header) : Nat := h.write.length

/-! ## Simple values -/

def boolean (b : Bool) : Header := simple (if b then 21 else 20)
def null : Header := simple 22
def undefined : Header := simple 23

/-- A header as something found. -/
def found : Header → Found
  | positive n => .integer n
  | negative n => .integer ((Int64.ofInt (-1 - n)).toInt)
  | bytes _ => .named "bytes"
  | text _ => .named "string"
  | array _ => .named "sequence"
  | map _ => .named "map"
  | tag _ => .named "tag"
  | simple 20 => .boolean false
  | simple 21 => .boolean true
  | simple 22 => .named "null"
  | simple 23 => .named "undefined"
  | simple _ => .named "simple"
  | float x => .float x
  | stop => .named "break"

/-- Reports a header in the place of something else. -/
def wrongType {α : Type} (h : Header) (expected : String) : Except Fault α :=
  mismatch (.wrongType h.found expected)

/-! ## Reading -/

/-- The kind of a number after the first byte: it is in the byte, or in
some of the next bytes, or there is none. -/
inductive Argument
  | here (n : Nat)
  | after (width n : Nat)
  | absent

/-- The number that belongs to a first byte. `left` is the number of bytes
from the first byte on. -/
def argument (left : Nat) (low : Nat) (rest : Bytes) : Except Fault (Argument × Bytes) :=
  if low < 24 then .ok (.here low, rest)
  else if low < 28 then
    let width := 1 <<< (low - 24)
    match Bytes.split? width rest with
    | some (front, rest) => .ok (.after width (Bytes.toNat front), rest)
    | none => .error .truncated
  else if low = 31 then .ok (.absent, rest)
  else .error (.malformed left)

/-- The header that a major type and a number make, if they do. -/
def ofArgument? : (major : Nat) → Argument → Option Header
  | 0, .here n => some (positive n)
  | 0, .after _ n => some (positive n)
  | 1, .here n => some (negative n)
  | 1, .after _ n => some (negative n)
  | 2, .here n => some (bytes (some n))
  | 2, .after _ n => some (bytes (some n))
  | 2, .absent => some (bytes none)
  | 3, .here n => some (text (some n))
  | 3, .after _ n => some (text (some n))
  | 3, .absent => some (text none)
  | 4, .here n => some (array (some n))
  | 4, .after _ n => some (array (some n))
  | 4, .absent => some (array none)
  | 5, .here n => some (map (some n))
  | 5, .after _ n => some (map (some n))
  | 5, .absent => some (map none)
  | 6, .here n => some (tag n)
  | 6, .after _ n => some (tag n)
  | 7, .here n => some (simple n)
  | 7, .after 1 n => some (simple n)
  | 7, .after 2 n => some (float (Binary64.widen Layout.half n))
  | 7, .after 4 n => some (float (Binary64.widen Layout.single n))
  | 7, .after _ n => some (float ⟨UInt64.ofNat n⟩)
  | 7, .absent => some stop
  | _, _ => none

/-- Reads a header. -/
def read : Bytes → Except Fault (Header × Bytes)
  | [] => .error .truncated
  | b :: rest => do
    let left := rest.length + 1
    let (argument, rest) ← argument left (b.toNat % 32) rest
    match ofArgument? (b.toNat / 32) argument with
    | some h => return (h, rest)
    | none => throw (.malformed left)

end Header

/-! ## Places -/

/-- A place in a byte string: a header that was read ahead, if there is
one, and the bytes after it. -/
structure Cursor where
  ahead : Option Header
  rest : Bytes

namespace Cursor

/-- The start of a byte string. -/
def start (b : Bytes) : Cursor := ⟨none, b⟩

/-- The number of bytes that are left; a header that was read ahead counts
as if written in the fewest bytes. -/
def left (c : Cursor) : Nat :=
  match c.ahead with
  | none => c.rest.length
  | some h => h.size + c.rest.length

/-- Takes a header, with the bytes after it. -/
def take (c : Cursor) : Except Fault (Header × Bytes) :=
  match c.ahead with
  | some h => .ok (h, c.rest)
  | none => Header.read c.rest

end Cursor

/-- Reads a value at a place, and gives the place after it too. -/
abbrev Reader (α : Type) : Type := Cursor → Except Fault (α × Cursor)

end SealedState.Cbor
