/-
SealedState.Binary.Layout — binary floating-point formats, and exact
rounding to them.

A format is given by the widths of its exponent and its fraction. A
magnitude (a bit pattern without the sign) is either infinite, no number,
or stands for the rational number `m · 2 ^ q`; `Layout.round` gives the
magnitude nearest to a quotient of natural numbers, a tie going to the
even one. Everything is computed with natural numbers, so nothing is lost
on the way.
-/
namespace SealedState

/-- A quotient of natural numbers. -/
structure Ratio where
  num : Nat
  den : Nat

namespace Ratio

/-- The number `m · 2 ^ q`. -/
def scaled (m : Nat) (q : Int) : Ratio := ⟨m <<< q.toNat, 1 <<< (-q).toNat⟩

def mul (x y : Ratio) : Ratio := ⟨x.num * y.num, x.den * y.den⟩

def div (x y : Ratio) : Ratio := ⟨x.num * y.den, x.den * y.num⟩

/-- The integer nearest to a quotient, the even one in a tie. -/
def roundEven (x : Ratio) : Nat :=
  let q := x.num / x.den
  let r := x.num % x.den
  if 2 * r < x.den || (2 * r == x.den && q % 2 == 0) then q else q + 1

/-- The exponent of the greatest power of two that does not exceed a
positive quotient. -/
def log2 (x : Ratio) : Int :=
  let guess : Int := x.num.log2 - x.den.log2
  let power := scaled 1 guess
  if power.num * x.den ≤ x.num * power.den then guess else guess - 1

end Ratio

/-- A binary floating-point format. -/
structure Layout where
  exponentBits : Nat
  fractionBits : Nat

namespace Layout

/-- Sixteen bits. -/
def half : Layout := ⟨5, 10⟩

/-- Thirty-two bits. -/
def single : Layout := ⟨8, 23⟩

/-- Sixty-four bits. -/
def double : Layout := ⟨11, 52⟩

/-- The least exponent of a number whose first bit is implied. -/
def minExponent (f : Layout) : Int := 2 - (1 <<< (f.exponentBits - 1) : Nat)

/-- The magnitude of infinity. -/
def infinity (f : Layout) : Nat := (1 <<< f.exponentBits - 1) <<< f.fractionBits

/-- The bit that tells a quiet value that is no number from a signalling
one. -/
def quietBit (f : Layout) : Nat := 1 <<< (f.fractionBits - 1)

/-- The bit that carries the sign. -/
def signBit (f : Layout) : Nat := 1 <<< (f.exponentBits + f.fractionBits)

/-- The significand and the exponent of a finite magnitude. -/
def parts (f : Layout) (magnitude : Nat) : Nat × Int :=
  let exponent := magnitude >>> f.fractionBits
  let fraction := magnitude % 1 <<< f.fractionBits
  if exponent = 0 then (fraction, f.minExponent - f.fractionBits)
  else (1 <<< f.fractionBits + fraction, exponent - 1 + f.minExponent - f.fractionBits)

/-- The number that a finite magnitude stands for. -/
def value (f : Layout) (magnitude : Nat) : Ratio :=
  let (m, q) := f.parts magnitude
  Ratio.scaled m q

/-- The magnitude nearest to a quotient, the even one in a tie; infinity
beyond the greatest. -/
def round (f : Layout) (x : Ratio) : Nat :=
  if x.num = 0 then 0
  else
    let exponent := max x.log2 f.minExponent
    let unit := Ratio.scaled 1 (exponent - f.fractionBits)
    let steps := (x.div unit).roundEven
    min f.infinity ((exponent - f.minExponent).toNat <<< f.fractionBits + steps)

end Layout

end SealedState
