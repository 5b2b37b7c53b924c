/-
SealedState.Binary.Binary64 — floating-point numbers of 64 bits, by their
bits.

Two numbers are equal here when their bits are: zero and negative zero
differ. A shorter format takes a number over when widening gives the
same bits back.

JSON and CBOR (SPEC_FULL.md §4.3) both have such numbers.
-/
import SealedState.Binary.Layout

namespace SealedState

/-- A floating-point number of 64 bits. -/
structure Binary64 where
  bits : UInt64
  deriving DecidableEq

namespace Binary64

/-- The number with a sign and a magnitude. -/
def make (negative : Bool) (magnitude : Nat) : Binary64 :=
  ⟨UInt64.ofNat (magnitude + if negative then Layout.double.signBit else 0)⟩

def isNegative (x : Binary64) : Bool := Layout.double.signBit ≤ x.bits.toNat

/-- The bits without the sign. -/
def magnitude (x : Binary64) : Nat := x.bits.toNat % Layout.double.signBit

def isFinite (x : Binary64) : Bool := x.magnitude < Layout.double.infinity

def isNaN (x : Binary64) : Bool := Layout.double.infinity < x.magnitude

/-- The number nearest to an integer. -/
def ofInt (n : Int) : Binary64 := make (n < 0) (Layout.double.round ⟨n.natAbs, 1⟩)

def negativeZero : Binary64 := make true 0

/-! ## Shorter formats -/

/-- A magnitude of one format in another, where an infinity stays one and
a value that is no number keeps the first bits of its fraction and becomes
quiet. -/
def convert (source target : Layout) (magnitude : Nat) : Nat :=
  if magnitude < source.infinity then target.round (source.value magnitude)
  else if magnitude = source.infinity then target.infinity
  else
    target.infinity
      + ((magnitude - source.infinity) <<< (target.fractionBits - source.fractionBits)
        >>> (source.fractionBits - target.fractionBits) ||| target.quietBit)

/-- The number with the bits of a shorter format. -/
def widen (f : Layout) (bits : Nat) : Binary64 :=
  make (f.signBit ≤ bits) (convert f Layout.double (bits % f.signBit))

/-- The bits of a shorter format, where they hold the number. -/
def narrow? (f : Layout) (x : Binary64) : Option Nat :=
  let bits := convert Layout.double f x.magnitude + if x.isNegative then f.signBit else 0
  if widen f bits == x then some bits else none

/-! ## Decimal scale -/

/-- The greatest power of ten that one step multiplies or divides by. -/
def maxPower : Nat := 308

/-- The magnitude of a power of ten. -/
def powerOfTen (n : Nat) : Nat := Layout.double.round ⟨Nat.pow 10 n, 1⟩

/-- The rounded product or quotient of two finite magnitudes. -/
def combine (op : Ratio → Ratio → Ratio) (x y : Nat) : Nat :=
  Layout.double.round (op (Layout.double.value x) (Layout.double.value y))

/-- A finite magnitude times a power of ten, or nothing where that is
infinite. A negative power divides, in steps of at most `maxPower`; two
full steps bring every significand below to zero, so three are enough. -/
def scaleMagnitude : (steps : Nat) → (magnitude : Nat) → (power : Int) → Option Nat
  | steps, magnitude, power =>
    if power.natAbs ≤ maxPower then
      if 0 ≤ power then
        let product := combine Ratio.mul magnitude (powerOfTen power.natAbs)
        if product < Layout.double.infinity then some product else none
      else some (combine Ratio.div magnitude (powerOfTen power.natAbs))
    else if magnitude = 0 then some 0
    else if 0 ≤ power then none
    else match steps with
      | 0 => some 0
      | steps + 1 =>
        scaleMagnitude steps (combine Ratio.div magnitude (powerOfTen maxPower))
          (power + maxPower)

/-- The number that a sign, a significand of at most 64 bits and a power of
ten are read as. -/
def ofDecimal? (negative : Bool) (significand : Nat) (power : Int) : Option Binary64 :=
  (scaleMagnitude 3 (Layout.double.round ⟨significand, 1⟩) power).map (make negative)

end Binary64

end SealedState
