/-
SealedState.Json.Text — strings in JSON.

A string is written as its UTF-8 bytes, with escapes for the quotation
mark, the backslash and the control characters only. It is read byte by
byte; an escape by number stands for a UTF-16 unit, so a character beyond
the first 65536 takes two of them.

`JsonSerializer` of SPEC_FULL.md §4.3 writes and reads strings so.
-/
import SealedState.Json.Fault
import SealedState.Text.Utf8

namespace SealedState.Json

/-! ## Writing -/

/-- A byte inside a string. -/
def escapeByte (b : UInt8) : Bytes :=
  if b = Ascii.quote then [Ascii.backslash, Ascii.quote]
  else if b = Ascii.backslash then [Ascii.backslash, Ascii.backslash]
  else if b = 0x08 then [Ascii.backslash, Ascii.lowerB]
  else if b = 0x0c then [Ascii.backslash, Ascii.lowerF]
  else if b = Ascii.lineFeed then [Ascii.backslash, Ascii.lowerN]
  else if b = Ascii.carriageReturn then [Ascii.backslash, Ascii.lowerR]
  else if b = Ascii.tab then [Ascii.backslash, Ascii.lowerT]
  else if Ascii.isControl b then
    [Ascii.backslash, Ascii.lowerU, Ascii.zero, Ascii.zero, Ascii.hexDigit (b.toNat / 16),
      Ascii.hexDigit (b.toNat % 16)]
  else [b]

/-- A string with its quotation marks. -/
def writeText (s : String) : Bytes :=
  Ascii.quote :: (Utf8.encode s).flatMap escapeByte ++ [Ascii.quote]

/-! ## Reading -/

namespace Reader

/-- The number that four hexadecimal digits spell. -/
def hexUnit? (a b c d : UInt8) : Option Nat := do
  let a ← Ascii.hexValue? a
  let b ← Ascii.hexValue? b
  let c ← Ascii.hexValue? c
  let d ← Ascii.hexValue? d
  return a * 4096 + b * 256 + c * 16 + d

/-- The byte that an escape by letter stands for. -/
def escaped? (letter : UInt8) : Option UInt8 :=
  if letter = Ascii.quote || letter = Ascii.backslash || letter = Ascii.slash then some letter
  else if letter = Ascii.lowerB then some 0x08
  else if letter = Ascii.lowerF then some 0x0c
  else if letter = Ascii.lowerN then some Ascii.lineFeed
  else if letter = Ascii.lowerR then some Ascii.carriageReturn
  else if letter = Ascii.lowerT then some Ascii.tab
  else none

/-- The unit is the first of two. -/
def isHighSurrogate (unit : Nat) : Bool := 0xd800 ≤ unit && unit ≤ 0xdbff

/-- The unit is the second of two. -/
def isLowSurrogate (unit : Nat) : Bool := 0xdc00 ≤ unit && unit ≤ 0xdfff

/-- Puts bytes in front of those that were read after them. -/
def push (bytes : Bytes) (r : Except Fault (Bytes × Bytes)) :
    Except Fault (Bytes × Bytes) :=
  r.map fun (more, rest) => (bytes ++ more, rest)

/-- The bytes of the character with a number. -/
def characterBytes (n : Nat) : Bytes := String.utf8EncodeChar (Char.ofNat n)

/-- Reads up to the closing quotation mark. After the first unit of two,
`high` holds it, and only its partner may follow. -/
def textBytes : (high : Option Nat) → Reader Bytes
  | _, [] => Issue.endInText.before []
  | none, b :: rest =>
    if b = Ascii.quote then .ok ([], rest)
    else if b = Ascii.backslash then
      match rest with
      | [] => Issue.endInText.before []
      | letter :: rest =>
        if letter = Ascii.lowerU then
          match rest with
          | p :: q :: r :: s :: rest =>
            match hexUnit? p q r s with
            | none => Issue.invalidEscape.before rest
            | some unit =>
              if isLowSurrogate unit then Issue.loneSurrogate.before rest
              else if isHighSurrogate unit then textBytes (some unit) rest
              else push (characterBytes unit) (textBytes none rest)
          | _ => Issue.endInText.before []
        else
          match escaped? letter with
          | some byte => push [byte] (textBytes none rest)
          | none => Issue.invalidEscape.before rest
    else if Ascii.isControl b then Issue.controlCharacter.before rest
    else push [b] (textBytes none rest)
  | some high, b :: rest =>
    if b = Ascii.backslash then
      match rest with
      | [] => Issue.endInText.before []
      | letter :: rest =>
        if letter = Ascii.lowerU then
          match rest with
          | p :: q :: r :: s :: rest =>
            match hexUnit? p q r s with
            | none => Issue.invalidEscape.before rest
            | some low =>
              if isLowSurrogate low then
                push (characterBytes ((high - 0xd800) * 1024 + (low - 0xdc00) + 0x10000))
                  (textBytes none rest)
              else Issue.loneSurrogate.before rest
          | _ => Issue.endInText.before []
        else Issue.endInSurrogates.before rest
    else Issue.endInSurrogates.before rest

/-- Reads a string whose opening quotation mark was read. That its bytes,
with the escapes replaced, are UTF-8 is checked when its end is known. The
bytes from the first that begins no character on are then taken back, one
byte of the text for each. -/
def text : Reader String := fun start => do
  let (bytes, rest) ← textBytes none start
  match Utf8.span bytes with
  | (cs, []) => return (String.ofList cs, rest)
  | (_, cut) => throw ⟨.invalidCodePoint, cut.length + rest.length⟩

end Reader

end SealedState.Json
