/-
SealedState.Cbor.Reader — values read from CBOR items.

Most readers read one type and pass over tags in front of it; `value`
reads any JSON value and knows no tags but those of great integers. What
follows the item that is read stays unread.

These are the readers of `CborSerializer` in SPEC_FULL.md §4.3.
-/
import SealedState.Cbor.Segments
import SealedState.Json.Basic

namespace SealedState.Cbor

/-- The number of containers and tags that may be open at once. -/
def maxDepth : Nat := 256

namespace Reader

/-- Reads with a reader and changes the result. -/
def map {α β : Type} (f : α → β) (read : Reader α) : Reader β := fun c => do
  let (x, c) ← read c
  return (f x, c)

/-! ## Scalars -/

/-- Takes the first header that is no tag, and the number of bytes that
were left before it. Every tag takes a byte, so `bound` is more than their
number. -/
def untagged : (bound : Nat) → Cursor → Except Fault (Nat × Header × Bytes)
  | 0, _ => .error .truncated
  | bound + 1, c => do
    let (h, rest) ← c.take
    match h with
    | .tag _ => untagged bound ⟨none, rest⟩
    | h => return (c.left, h, rest)

/-- Reads an item by its first header that is no tag. -/
def dispatch {α : Type} (read : (start : Nat) → Header → Bytes → Except Fault (α × Bytes)) :
    Reader α := fun c => do
  let (start, h, rest) ← untagged (c.left + 1) c
  let (x, rest) ← read start h rest
  return (x, ⟨none, rest⟩)

def boolean : Reader Bool := dispatch fun start h rest =>
  match h with
  | .simple 20 => return (false, rest)
  | .simple 21 => return (true, rest)
  | _ => throw (.unexpected (some start) "expected bool")

def float : Reader Binary64 := dispatch fun _ h rest =>
  match h with
  | .float x => return (x, rest)
  | h => h.wrongType "float"

def text : Reader String := dispatch fun _ h rest =>
  match h with
  | .text length => textAfter length rest
  | h => h.wrongType "string"

/-- Reads a value that may be null. A tag is no null, whatever follows. -/
def option {α : Type} (read : Reader α) : Reader (Option α) := fun c => do
  let (h, rest) ← c.take
  match h with
  | .simple 22 => return (none, ⟨none, rest⟩)
  | .simple 23 => return (none, ⟨none, rest⟩)
  | h =>
    let (x, c) ← read ⟨some h, rest⟩
    return (some x, c)

/-! ## Integers -/

/-- The tag of a great natural number. -/
def bigPositive : Nat := 2

/-- The tag of a great negative integer. -/
def bigNegative : Nat := 3

/-- The greatest number of bytes of a great integer, leading zeros
apart. -/
def maxBigLength : Nat := 16

/-- Adds bytes to the digits of a great integer. -/
def addBigDigits (digits : Bytes) : Bytes → Except Fault Bytes
  | [] => .ok digits
  | b :: bytes =>
    if maxBigLength ≤ digits.length then refused "bigint too large"
    else if digits = [] && b == 0 then addBigDigits [] bytes
    else addBigDigits (digits ++ [b]) bytes

/-- Reads a segment of a great integer, sixteen bytes at a time; `unread`
bytes of it are left, fewer than `bound`. -/
def bigChunks : (bound : Nat) → (unread : Nat) → (digits : Bytes) → Bytes →
    Except Fault (Bytes × Bytes)
  | 0, _, _, _ => .error .truncated
  | bound + 1, unread, digits, rest =>
    if unread = 0 then .ok (digits, rest)
    else
      let new := min maxBigLength unread
      match Bytes.split? new rest with
      | none => .error .truncated
      | some (chunk, rest) => do
        bigChunks bound (unread - new) (← addBigDigits digits chunk) rest

/-- Reads the natural number after the tag of a great integer. -/
def bigDigits (rest : Bytes) : Except Fault (Nat × Bytes) := do
  let (h, rest) ← Header.read rest
  match h with
  | .bytes length =>
    let segment : SegmentReader Bytes := fun digits _ length rest =>
      bigChunks (length + 1) length digits rest
    let (digits, rest) ← string bytesLength? segment h length [] rest
    return (Bytes.toNat digits, rest)
  | h => h.wrongType "bytes"

/-- An integer as it is written: a natural number, or how far the integer
is below minus one. -/
inductive Magnitude
  | positive (n : Nat)
  | negative (n : Nat)

namespace Magnitude

def number : Magnitude → Nat
  | positive n => n
  | negative n => n

def isNegative : Magnitude → Bool
  | positive _ => false
  | negative _ => true

def toInt : Magnitude → Int
  | positive n => n
  | negative n => -1 - n

end Magnitude

/-- Reads an integer of any size up to 128 bits; other tags are passed
over. Every tag takes a byte, so `bound` is more than their number. -/
def magnitude : (bound : Nat) → Cursor → Except Fault (Magnitude × Bytes)
  | 0, _ => .error .truncated
  | bound + 1, c => do
    let (h, rest) ← c.take
    match h with
    | .positive n => return (.positive n, rest)
    | .negative n => return (.negative n, rest)
    | .tag n =>
      if n = bigPositive then
        let (n, rest) ← bigDigits rest
        return (.positive n, rest)
      else if n = bigNegative then
        let (n, rest) ← bigDigits rest
        return (.negative n, rest)
      else magnitude bound ⟨none, rest⟩
    | h => h.wrongType "integer"

/-- The kind by way of which a kind is read: 64 bits, where they are
enough. -/
def carrier : IntegerKind → IntegerKind
  | .u8 | .u32 | .u64 => .u64
  | .i32 | .i64 => .i64
  | .i128 => .i128

/-- The integer of a kind. What its carrier does not hold is refused first,
and with other words. -/
def ofMagnitude (k : IntegerKind) (m : Magnitude) : Except Fault k.Value :=
  if m.isNegative && !k.isSigned then refused "unexpected negative integer"
  else if (carrier k).bounds.greatest < m.number then refused "integer too large"
  else
    match k.bounds.ofInt? m.toInt with
    | some v => .ok v
    | none => mismatch (.wrongValue m.toInt k.name)

/-- Reads an integer of a kind. -/
def integer (k : IntegerKind) : Reader k.Value := fun c => do
  let (m, rest) ← magnitude (c.left + 1) c
  return (← ofMagnitude k m, ⟨none, rest⟩)

/-! ## Lists -/

/-- Goes to the next element of a container. With a number of elements
left, it counts down; without one, a stop ends the container. -/
def next (remaining : Option Nat) (c : Cursor) :
    Except Fault (Option (Option Nat) × Cursor) :=
  match remaining with
  | some 0 => .ok (none, c)
  | some (n + 1) => .ok (some (some n), c)
  | none => do
    let (h, rest) ← c.take
    match h with
    | .stop => return (none, ⟨none, rest⟩)
    | h => return (some none, ⟨some h, rest⟩)

/-- Reads the items of a list. Every item takes a byte, so `bound` is more
than their number. -/
def items {α : Type} (read : Reader α) : (bound : Nat) → (remaining : Option Nat) →
    Reader (List α)
  | 0, _ => fun _ => .error .truncated
  | bound + 1, remaining => fun c => do
    match ← next remaining c with
    | (none, c) => return ([], c)
    | (some remaining, c) =>
      let (x, c) ← read c
      let (xs, c) ← items read bound remaining c
      return (x :: xs, c)

/-- What a list is read from: the items of an array, or the bytes of a byte
string. -/
inductive Sequence
  | array (length : Option Nat)
  | bytes (b : Bytes)

/-- Reads the beginning of a list: the header of an array, or the whole of
a byte string. -/
def sequence : Reader Sequence := dispatch fun _ h rest =>
  match h with
  | .array length => return (.array length, rest)
  | .bytes length => do
    let (b, rest) ← bytesAfter length rest
    return (.bytes b, rest)
  | h => h.wrongType "array"

/-- A byte as an integer of a kind. -/
def ofByte (k : IntegerKind) (b : UInt8) : Except Fault k.Value :=
  match k.bounds.ofInt? b.toNat with
  | some v => .ok v
  | none => mismatch (.wrongValue b.toNat k.name)

/-- Reads a list of integers. -/
def integers (k : IntegerKind) : Reader (List k.Value) := fun c => do
  let (s, c) ← sequence c
  match s with
  | .array length => items (integer k) (c.left + 1) length c
  | .bytes b => return (← b.mapM (ofByte k), c)

/-- Reads the next of several elements that make a whole, of which `index`
were read. -/
def element {α : Type} (read : Reader α) (index : Nat) (whole : String)
    (remaining : Option Nat) : Reader (α × Option Nat) := fun c => do
  match ← next remaining c with
  | (none, _) => mismatch (.wrongLength index whole)
  | (some remaining, c) =>
    let (x, c) ← read c
    return ((x, remaining), c)

/-! ## Maps -/

/-- Reads the header of a map. -/
def mapStart : Reader (Option Nat) := dispatch fun _ h rest =>
  match h with
  | .map length => return (length, rest)
  | h => h.wrongType "map"

/-- Reads the entries of a map and adds each to those before. The first
key may have a reader of its own. Every entry takes a byte, so `bound` is
more than their number. -/
def entries {κ α σ : Type} (firstKey key : Reader κ) (value : Reader α) (add : κ → α → σ → σ) :
    (bound : Nat) → (remaining : Option Nat) → σ → Reader σ
  | 0, _, _ => fun _ => .error .truncated
  | bound + 1, remaining, s => fun c => do
    match ← next remaining c with
    | (none, c) => return (s, c)
    | (some remaining, c) =>
      let (k, c) ← firstKey c
      let (x, c) ← value c
      entries key key value add bound remaining (add k x s) c

/-- Reads a text that is short and in one segment. -/
def shortText : Reader String := dispatch fun start h rest =>
  match h with
  | .text (some length) =>
    if length ≤ chunkLength then do
      let (cs, rest) ← textSegment [] start length rest
      return (String.ofList cs, rest)
    else h.wrongType "str"
  | h => h.wrongType "str"

/-! ## Any value -/

/-- A natural number or an integer as a JSON number, if one holds it. -/
def number (n : Int) : Except Fault Json :=
  match Json.integerBounds.ofInt? n with
  | some v => .ok (.number (.integer v))
  | none => refused "JSON number out of range"

/-- Reads a great integer after its tag, if it is one: a byte string of
known length and of at most sixteen bytes. Otherwise the header after the
tag is read ahead, whatever the tag is. -/
def bigInteger? (tag : Nat) (rest : Bytes) : Except Fault (Option Int × Cursor) := do
  let (h, after) ← Header.read rest
  match h with
  | .bytes (some length) =>
    if (tag = bigPositive ∨ tag = bigNegative) ∧ length ≤ maxBigLength then
      match Bytes.split? length after with
      | none => throw .truncated
      | some (digits, after) =>
        let n := Bytes.toNat digits
        if tag = bigPositive then return (some n, ⟨none, after⟩)
        else if IntegerKind.i128.bounds.greatest < n then refused "integer too large"
        else return (some (-1 - n), ⟨none, after⟩)
    else return (none, ⟨some h, after⟩)
  | h => return (none, ⟨some h, after⟩)

/-- Reads the elements of a container after its header, each of them with
`read`. -/
def container (read : Reader Json) (h : Header) (rest : Bytes) :
    Except Fault (Json × Cursor) := do
  let c : Cursor := ⟨none, rest⟩
  match h with
  | .array length =>
    let (xs, c) ← items read (c.left + 1) length c
    return (.list xs, c)
  | .map length =>
    let (ms, c) ← entries shortText text read Json.insert (c.left + 1) length [] c
    return (.object ms, c)
  | h => h.wrongType "array"

/-- Reads any JSON value; `nested` reads what is inside of it, and is none
where nothing more may be open. -/
def item (nested : Option (Reader Json)) : Reader Json :=
  fun c => do
    let (h, rest) ← c.take
    let done (x : Json) : Except Fault (Json × Cursor) := .ok (x, ⟨none, rest⟩)
    match h with
    | .positive n => done (← number n)
    | .negative n => done (← number (-1 - n))
    | .float x => done (if x.isFinite then .number (.float x) else .null)
    | .simple 20 => done (.boolean false)
    | .simple 21 => done (.boolean true)
    | .simple 22 => done .null
    | .simple 23 => done .null
    | .simple _ => h.wrongType "known simple value"
    | .stop => h.wrongType "non-break"
    | .text length =>
      let (s, rest) ← textAfter length rest
      return (.text s, ⟨none, rest⟩)
    | .bytes length =>
      let _ ← bytesAfter length rest
      mismatch (.wrongType (.named "byte array") "any valid JSON value")
    | .tag tag =>
      match ← bigInteger? tag rest with
      | (some n, c) => return (← number n, c)
      | (none, _) =>
        if nested.isSome then
          mismatch (.wrongType (.named "enum") "any valid JSON value")
        else throw .recursionLimit
    | h =>
      match nested with
      | some read => container read h rest
      | none => throw .recursionLimit

/-- Reads any JSON value, with at most `depth` containers and tags open at
once. -/
def value : (depth : Nat) → Reader Json
  | 0 => item none
  | depth + 1 => item (some (value depth))

/-- Reads any JSON value. -/
def any : Reader Json := value maxDepth

end Reader

/-- Reads the first item of a byte string. -/
def first {α : Type} (read : Reader α) (b : Bytes) : Except Fault α := do
  let (x, _) ← read (Cursor.start b)
  return x

end SealedState.Cbor
