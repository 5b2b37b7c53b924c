/-
SealedState.Json.Reader — values read from JSON text.

`Reader.value` reads any value; the other readers read one type each and
report what they find instead. Containers may be nested to a limit, which
counts down with each bracket. `document` reads a text as a whole: after
the value only blanks may follow.

These are the readers of `JsonSerializer` in SPEC_FULL.md §4.3.
-/
import SealedState.Json.Number
import SealedState.Json.Text

namespace SealedState.Json

/-- The number of containers that may be open at once. -/
def maxDepth : Nat := 127

/-- The bytes from the first that is no blank. -/
def skipBlank (rest : Bytes) : Bytes :=
  rest.dropWhile fun b =>
    b == Ascii.space || b == Ascii.lineFeed || b == Ascii.tab || b == Ascii.carriageReturn

namespace Reader

/-- Reads with a reader and changes the result. -/
def map {α β : Type} (f : α → β) (read : Reader α) : Reader β := fun rest => do
  let (x, rest) ← read rest
  return (f x, rest)

/-! ## Scalars -/

/-- Reads the letters that remain of a word. -/
def ident : (letters : Bytes) → Bytes → Except Fault Bytes
  | [], rest => .ok rest
  | _ :: _, [] => Issue.endInValue.before []
  | letter :: letters, b :: rest =>
    if b = letter then ident letters rest else Issue.expectedIdent.before rest

/-- Reads a value whose first byte says of which kind it is; at the end
there is none. -/
def dispatch {α : Type} (read : UInt8 → Reader α) : Reader α := fun rest =>
  match skipBlank rest with
  | [] => Issue.endInValue.before []
  | b :: rest => read b rest

/-- Reads a number from its first byte on. -/
def numberFrom (b : UInt8) : Reader Number := fun rest =>
  if b = Ascii.minus then number true rest else number false (b :: rest)

/-- The byte may begin a number. -/
def startsNumber (b : UInt8) : Bool := b == Ascii.minus || Ascii.isDigit b

/-- A number as something found. -/
def Number.found : Number → Found
  | .integer n => .integer n.val
  | .float x => .float x

/-- A mismatch with the bytes read so far. -/
def mismatch {α : Type} (m : Mismatch) (rest : Bytes) : Except Fault α :=
  (Issue.mismatch m).before rest

/-- Reports a value of another type than the expected one. A scalar is
read to its end first, so what is wrong with it is reported instead; a
container is left alone. -/
def wrongType {α : Type} (expected : String) (b : UInt8) : Reader α := fun rest => do
  let report (found : Found) (rest : Bytes) := mismatch (.wrongType found expected) rest
  if b = Ascii.lowerN then
    report (.named "null") (← ident (Ascii.ofString "ull") rest)
  else if b = Ascii.lowerT then
    report (.boolean true) (← ident (Ascii.ofString "rue") rest)
  else if b = Ascii.lowerF then
    report (.boolean false) (← ident (Ascii.ofString "alse") rest)
  else if startsNumber b then
    let (n, rest) ← numberFrom b rest
    report (Number.found n) rest
  else if b = Ascii.quote then
    let (s, rest) ← text rest
    report (.text s) rest
  else if b = Ascii.openBracket then report (.named "sequence") (b :: rest)
  else if b = Ascii.openBrace then report (.named "map") (b :: rest)
  else Issue.expectedValue.next (b :: rest)

def boolean : Reader Bool := dispatch fun b rest => do
  if b = Ascii.lowerT then return (true, ← ident (Ascii.ofString "rue") rest)
  else if b = Ascii.lowerF then return (false, ← ident (Ascii.ofString "alse") rest)
  else wrongType "a boolean" b rest

/-- Reads an integer of a kind. -/
def integer (k : IntegerKind) : Reader k.Value := dispatch fun b rest => do
  if startsNumber b then
    let (n, rest) ← numberFrom b rest
    match n with
    | .integer n =>
      match k.bounds.ofInt? n.val with
      | some v => return (v, rest)
      | none => mismatch (.wrongValue n.val k.name) rest
    | .float x => mismatch (.wrongType (.float x) k.name) rest
  else wrongType k.name b rest

/-- Reads an integer of a kind that other numbers do not hold: only digits
count, and any number of them. -/
def wideInteger (k : IntegerKind) : Reader k.Value := dispatch fun b rest => do
  let negative := b == Ascii.minus
  let rest := if negative then rest else b :: rest
  match rest with
  | [] => Issue.invalidNumber.before []
  | Ascii.zero :: after =>
    if startsWithDigit after then Issue.invalidNumber.next after
    else finish negative 0 after
  | b :: after =>
    if Ascii.isDigit b then
      finish negative (Ascii.decimalValue (rest.takeWhile Ascii.isDigit)) (dropDigits rest)
    else Issue.invalidNumber.before after
where
  /-- The integer with a sign, if the kind has it. -/
  finish (negative : Bool) (sum : Nat) : Reader k.Value := fun rest =>
    match k.bounds.ofInt? (if negative then -sum else sum) with
    | some v => .ok (v, rest)
    | none => Issue.numberOutOfRange.before rest

/-- Reads a floating-point number; an integer is taken as the nearest
one. -/
def float : Reader Binary64 := dispatch fun b rest => do
  if startsNumber b then
    let (n, rest) ← numberFrom b rest
    match n with
    | .integer n => return (Binary64.ofInt n.val, rest)
    | .float x => return (x, rest)
  else wrongType "f64" b rest

/-- Reads a string. -/
def string : Reader String := dispatch fun b rest =>
  if b = Ascii.quote then text rest else wrongType "a string" b rest

/-- Reads a value that may be null. -/
def option {α : Type} (read : Reader α) : Reader (Option α) := fun rest =>
  match skipBlank rest with
  | Ascii.lowerN :: rest => do return (none, ← ident (Ascii.ofString "ull") rest)
  | rest => do
    let (x, rest) ← read rest
    return (some x, rest)

/-! ## Lists -/

/-- What comes next in a container: its end, with the bytes after it, or
one more element. -/
inductive Next (α : Type)
  | closed (rest : Bytes)
  | more (x : α) (rest : Bytes)

/-- Finds the next item of a list. -/
def nextItem (first : Bool) (rest : Bytes) : Except Fault (Next Unit) :=
  match skipBlank rest with
  | [] => Issue.endInList.before []
  | b :: rest =>
    if b = Ascii.closeBracket then .ok (.closed rest)
    else if first then .ok (.more () (b :: rest))
    else if b = Ascii.comma then
      match skipBlank rest with
      | [] => Issue.endInValue.before []
      | b :: rest =>
        if b = Ascii.closeBracket then Issue.trailingComma.next (b :: rest)
        else .ok (.more () (b :: rest))
    else Issue.expectedListEnd.next (b :: rest)

/-- Reads items up to the end of a list; there are fewer than `bound`. -/
def items {α : Type} (read : Reader α) : (bound : Nat) → (first : Bool) → Reader (List α)
  | 0, _ => fun rest => Issue.endInList.before rest
  | bound + 1, first => fun rest => do
    match ← nextItem first rest with
    | .closed rest => return ([], rest)
    | .more () rest =>
      let (x, rest) ← read rest
      let (xs, rest) ← items read bound false rest
      return (x :: xs, rest)

/-- Reads the end of a list after its last item. -/
def closeList (rest : Bytes) : Except Fault Bytes :=
  match skipBlank rest with
  | [] => Issue.endInList.before []
  | b :: rest =>
    if b = Ascii.closeBracket then .ok rest
    else if b = Ascii.comma then
      match skipBlank rest with
      | Ascii.closeBracket :: rest => Issue.trailingComma.next (Ascii.closeBracket :: rest)
      | rest => Issue.trailingCharacters.next rest
    else Issue.trailingCharacters.next (b :: rest)

/-- Reads a list whose items are of one type. -/
def list {α : Type} (read : Reader α) : Reader (List α) := dispatch fun b rest =>
  if b = Ascii.openBracket then items read (rest.length + 1) true rest
  else wrongType "a sequence" b rest

/-! ## Objects -/

/-- Finds the next member of an object, and reads its name. -/
def nextMember (first : Bool) (rest : Bytes) : Except Fault (Next String) :=
  match skipBlank rest with
  | [] => Issue.endInObject.before []
  | b :: rest =>
    if b = Ascii.closeBrace then .ok (.closed rest)
    else if first then
      if b = Ascii.quote then name rest else Issue.nameNotText.next (b :: rest)
    else if b = Ascii.comma then
      match skipBlank rest with
      | [] => Issue.endInValue.before []
      | b :: rest =>
        if b = Ascii.quote then name rest
        else if b = Ascii.closeBrace then Issue.trailingComma.next (b :: rest)
        else Issue.nameNotText.next (b :: rest)
    else Issue.expectedObjectEnd.next (b :: rest)
where
  /-- Reads a name whose opening quotation mark was read. -/
  name (rest : Bytes) : Except Fault (Next String) := do
    let (s, rest) ← text rest
    return .more s rest

/-- Reads the colon between a name and its value. -/
def colon (rest : Bytes) : Except Fault Bytes :=
  match skipBlank rest with
  | [] => Issue.endInObject.before []
  | b :: rest => if b = Ascii.colon then .ok rest else Issue.expectedColon.next (b :: rest)

/-- The place of a fault that lies in a name: blanks after it count, and
the end of the object if it follows at once. -/
def afterName (rest : Bytes) : Bytes :=
  match skipBlank rest with
  | Ascii.closeBrace :: rest => rest
  | rest => rest

/-- Reads members up to the end of an object; there are fewer than
`bound`. -/
def members (read : Reader Json) : (bound : Nat) → (first : Bool) →
    List (String × Json) → Reader (List (String × Json))
  | 0, _, _ => fun rest => Issue.endInObject.before rest
  | bound + 1, first, before => fun rest => do
    match ← nextMember first rest with
    | .closed rest => return (before, rest)
    | .more name rest =>
      let rest ← colon rest
      let (x, rest) ← read rest
      members read bound false (Json.insert name x before) rest

/-! ## Any value -/

/-- Reads any value, where `nested` reads a container from its bracket
on. -/
def element (nested : UInt8 → Reader Json) : Reader Json := dispatch fun b rest => do
  if b = Ascii.lowerN then
    return (.null, ← ident (Ascii.ofString "ull") rest)
  else if b = Ascii.lowerT then
    return (.boolean true, ← ident (Ascii.ofString "rue") rest)
  else if b = Ascii.lowerF then
    return (.boolean false, ← ident (Ascii.ofString "alse") rest)
  else if startsNumber b then
    let (n, rest) ← numberFrom b rest
    return (.number n, rest)
  else if b = Ascii.quote then
    let (s, rest) ← text rest
    return (.text s, rest)
  else if b = Ascii.openBracket || b = Ascii.openBrace then nested b rest
  else Issue.expectedValue.next (b :: rest)

/-- Reads a container after its bracket, and each of its elements with
`read`. -/
def container (read : Reader Json) (b : UInt8) : Reader Json := fun rest => do
  if b = Ascii.openBracket then
    let (xs, rest) ← items read (rest.length + 1) true rest
    return (.list xs, rest)
  else
    let (ms, rest) ← members read (rest.length + 1) true [] rest
    return (.object ms, rest)

/-- Reads any value, with at most `depth` containers open at once. -/
def value : (depth : Nat) → Reader Json
  | 0 => element fun b rest => Issue.recursionLimit.next (b :: rest)
  | depth + 1 => element (container (value depth))

/-- Reads any value. -/
def any : Reader Json := value maxDepth

end Reader

/-- Reads a text as a whole. -/
def document {α : Type} (read : Reader α) (text : Bytes) : Except Fault α := do
  let (x, rest) ← read text
  match skipBlank rest with
  | [] => return x
  | rest => Issue.trailingCharacters.next rest

end SealedState.Json
