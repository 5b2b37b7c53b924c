/-
SealedState.Json.Number — numbers in JSON.

The digits of a number are added up as long as the sum fits into 64 bits;
digits after that only move the decimal point. Without a point and an
exponent, and within bounds, the result is an integer; otherwise the sum
is taken as a floating-point number and scaled by a power of ten.

`JsonSerializer` of SPEC_FULL.md §4.3 reads numbers so.
-/
import SealedState.Json.Basic
import SealedState.Json.Fault

namespace SealedState.Json

/-! ## Writing -/

/-- An integer. -/
def writeInteger (n : Int) : Bytes := Ascii.ofChars (decimalText n)

/-- A floating-point number; what is not finite is written as null. -/
def writeFloat (x : Binary64) : Bytes :=
  if x.isFinite then Ascii.ofString (numberStyle.finite x)
  else Ascii.ofString "null"

def Number.write : Number → Bytes
  | integer n => writeInteger n.val
  | float x => writeFloat x

/-! ## Reading -/

namespace Reader

/-- The greatest sum of digits. -/
def maxSignificand : Nat := 0xffffffffffffffff

/-- The greatest exponent that is added up. -/
def maxExponent : Nat := 0x7fffffff

/-- Adds digits to a sum as long as it fits, and counts them. -/
def addDigits (sum count : Nat) : Bytes → Nat × Nat × Bytes
  | [] => (sum, count, [])
  | b :: rest =>
    if Ascii.isDigit b && sum * 10 + Ascii.digitValue b ≤ maxSignificand then
      addDigits (sum * 10 + Ascii.digitValue b) (count + 1) rest
    else (sum, count, b :: rest)

/-- The bytes begin with a digit. -/
def startsWithDigit : Bytes → Bool
  | [] => false
  | b :: _ => Ascii.isDigit b

/-- The bytes after the digits at the front. -/
def dropDigits (rest : Bytes) : Bytes := rest.dropWhile Ascii.isDigit

/-- The number `sum · 10 ^ power`. -/
def floating (negative : Bool) (sum : Nat) (power : Int) : Reader Number := fun rest =>
  match Binary64.ofDecimal? negative sum power with
  | some x => .ok (.float x, rest)
  | none => Issue.numberOutOfRange.before rest

/-- Reads the digits of an exponent after the first. An exponent that is
too great to be added up makes the number zero or too great itself. -/
def exponentDigits (negative : Bool) (sum : Nat) (power : Int) (down : Bool) :
    (exponent : Nat) → Reader Number
  | exponent, [] => floating negative sum (if down then power - exponent else power + exponent) []
  | exponent, b :: rest =>
    if Ascii.isDigit b then
      let longer := exponent * 10 + Ascii.digitValue b
      if longer ≤ maxExponent then exponentDigits negative sum power down longer rest
      else if sum ≠ 0 && !down then Issue.numberOutOfRange.before rest
      else .ok (.float (Binary64.make negative 0), dropDigits rest)
    else floating negative sum (if down then power - exponent else power + exponent) (b :: rest)

/-- Reads what follows the letter of an exponent. -/
def exponent (negative : Bool) (sum : Nat) (power : Int) : Reader Number := fun rest =>
  let (down, rest) := match rest with
    | Ascii.plus :: rest => (false, rest)
    | Ascii.minus :: rest => (true, rest)
    | rest => (false, rest)
  match rest with
  | [] => Issue.endInValue.before []
  | b :: rest =>
    if Ascii.isDigit b then
      exponentDigits negative sum power down (Ascii.digitValue b) rest
    else Issue.invalidNumber.before rest

/-- The bytes after the letter of an exponent, if they begin with it. -/
def afterExponentLetter? : Bytes → Option Bytes
  | Ascii.lowerE :: rest => some rest
  | Ascii.upperE :: rest => some rest
  | _ => none

/-- Reads what follows a decimal point; `power` is the power of ten of the
digit before it. -/
def fraction (negative : Bool) (sum : Nat) (power : Int) : Reader Number := fun rest =>
  let (sum, count, rest) := addDigits sum 0 rest
  if count = 0 && !startsWithDigit rest then
    match rest with
    | [] => Issue.endInValue.before []
    | _ :: _ => Issue.invalidNumber.next rest
  else
    let power := power - count
    let rest := dropDigits rest
    match afterExponentLetter? rest with
    | some rest => exponent negative sum power rest
    | none => floating negative sum power rest

/-- The number that digits without a point and an exponent add up to. A
negative zero is a floating-point number. -/
def whole (negative : Bool) (sum : Nat) : Number :=
  if negative then
    if sum = 0 then .float Binary64.negativeZero else Number.ofInt (-sum)
  else Number.ofInt sum

/-- Reads what follows the digits before the point. `dropped` digits did
not fit into the sum. -/
def afterInteger (negative : Bool) (sum dropped : Nat) : Reader Number := fun rest =>
  match rest with
  | Ascii.point :: rest => fraction negative sum dropped rest
  | rest =>
    match afterExponentLetter? rest with
    | some rest => exponent negative sum dropped rest
    | none =>
      if dropped = 0 then .ok (whole negative sum, rest)
      else floating negative sum dropped rest

/-- Reads a number whose sign was read. -/
def number (negative : Bool) : Reader Number := fun rest =>
  match rest with
  | [] => Issue.endInValue.before []
  | Ascii.zero :: rest =>
    if startsWithDigit rest then Issue.invalidNumber.next rest
    else afterInteger negative 0 0 rest
  | b :: after =>
    if Ascii.isDigit b then
      let (sum, _, rest) := addDigits 0 0 rest
      let dropped := (rest.takeWhile Ascii.isDigit).length
      afterInteger negative sum dropped (dropDigits rest)
    else Issue.invalidNumber.before after

end Reader

end SealedState.Json
