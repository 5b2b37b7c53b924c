/-
SealedState.Json.Skip — values passed over without being kept.

What is skipped is checked for its grammar only: numbers may be of any
size, escapes need not name characters, and containers may be nested to
any depth, since the open ones are kept on a list.

`JsonSerializer` of SPEC_FULL.md §4.3 passes over members without a field so.
-/
import SealedState.Json.Reader

namespace SealedState.Json.Skip

/-! ## Scalars -/

/-- Passes over the digits of an exponent. -/
def exponent (rest : Bytes) : Except Fault Bytes :=
  let rest := match rest with
    | Ascii.plus :: rest => rest
    | Ascii.minus :: rest => rest
    | rest => rest
  match rest with
  | [] => Issue.invalidNumber.before []
  | b :: rest =>
    if Ascii.isDigit b then .ok (Reader.dropDigits rest) else Issue.invalidNumber.before rest

/-- Passes over what follows the digits before a decimal point. -/
def afterInteger (rest : Bytes) : Except Fault Bytes :=
  match rest with
  | Ascii.point :: rest =>
    if Reader.startsWithDigit rest then
      let rest := Reader.dropDigits rest
      match Reader.afterExponentLetter? rest with
      | some rest => exponent rest
      | none => .ok rest
    else Issue.invalidNumber.next rest
  | rest =>
    match Reader.afterExponentLetter? rest with
    | some rest => exponent rest
    | none => .ok rest

/-- Passes over a number whose sign was read. -/
def number (rest : Bytes) : Except Fault Bytes :=
  match rest with
  | [] => Issue.invalidNumber.before []
  | Ascii.zero :: rest =>
    if Reader.startsWithDigit rest then Issue.invalidNumber.next rest else afterInteger rest
  | b :: after =>
    if Ascii.isDigit b then afterInteger (Reader.dropDigits rest)
    else Issue.invalidNumber.before after

/-- Passes over a string whose opening quotation mark was read. -/
def text : Bytes → Except Fault Bytes
  | [] => Issue.endInText.before []
  | b :: rest =>
    if b = Ascii.quote then .ok rest
    else if b = Ascii.backslash then
      match rest with
      | [] => Issue.endInText.before []
      | letter :: rest =>
        if letter = Ascii.lowerU then
          match rest with
          | p :: q :: r :: s :: rest =>
            match Reader.hexUnit? p q r s with
            | none => Issue.invalidEscape.before rest
            | some _ => text rest
          | _ => Issue.endInText.before []
        else
          match Reader.escaped? letter with
          | some _ => text rest
          | none => Issue.invalidEscape.before rest
    else if Ascii.isControl b then Issue.controlCharacter.before (b :: rest)
    else text rest

/-! ## Containers -/

/-- A kind of container. -/
inductive Bracket
  | list
  | object

namespace Bracket

/-- The byte that ends a container. -/
def closing : Bracket → UInt8
  | list => Ascii.closeBracket
  | object => Ascii.closeBrace

/-- The issue where the text ends in a container. -/
def atEnd : Bracket → Issue
  | list => .endInList
  | object => .endInObject

/-- The issue where an element is followed neither by a comma nor by the
end. -/
def afterElement : Bracket → Issue
  | list => .expectedListEnd
  | object => .expectedObjectEnd

end Bracket

/-- Passes over what precedes the value of an element: in an object, the
name and the colon. -/
def elementStart : Bracket → Bytes → Except Fault Bytes
  | .list, rest => .ok rest
  | .object, rest =>
    match skipBlank rest with
    | [] => Issue.endInObject.before []
    | b :: rest => do
      if b = Ascii.quote then Reader.colon (← text rest)
      else Issue.nameNotText.next (b :: rest)

/-- What comes next while values are passed over: a value, or what follows
one in the innermost open container. Nothing may have been read in the
container yet, in which case a comma is no way to go on. -/
inductive Phase
  | value
  | within (empty : Bool)

/-- Passes over values until no container is open. Every second step reads
a byte, so twice the length of the text bounds the steps. -/
def run : (steps : Nat) → Phase → (opened : List Bracket) → Bytes → Except Fault Bytes
  | 0, _, _, rest => Issue.endInValue.before rest
  | steps + 1, .value, opened, rest =>
    match skipBlank rest with
    | [] => Issue.endInValue.before []
    | b :: rest => do
      if b = Ascii.openBracket then run steps (.within true) (.list :: opened) rest
      else if b = Ascii.openBrace then run steps (.within true) (.object :: opened) rest
      else
        let rest ←
          if b = Ascii.lowerN then Reader.ident (Ascii.ofString "ull") rest
          else if b = Ascii.lowerT then Reader.ident (Ascii.ofString "rue") rest
          else if b = Ascii.lowerF then Reader.ident (Ascii.ofString "alse") rest
          else if b = Ascii.minus then number rest
          else if Ascii.isDigit b then number (b :: rest)
          else if b = Ascii.quote then text rest
          else Issue.expectedValue.next (b :: rest)
        run steps (.within false) opened rest
  | _ + 1, .within _, [], rest => .ok rest
  | steps + 1, .within empty, bracket :: opened, rest =>
    match skipBlank rest with
    | [] => bracket.atEnd.before []
    | b :: rest => do
      if b = bracket.closing then run steps (.within false) opened rest
      else if b = Ascii.comma && !empty then
        run steps .value (bracket :: opened) (← elementStart bracket rest)
      else if empty then
        run steps .value (bracket :: opened) (← elementStart bracket (b :: rest))
      else bracket.afterElement.next (b :: rest)

/-- Passes over one value. -/
def value (rest : Bytes) : Except Fault Bytes := run (2 * rest.length + 2) .value [] rest

end SealedState.Json.Skip
