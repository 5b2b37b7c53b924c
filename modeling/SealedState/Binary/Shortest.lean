/-
SealedState.Binary.Shortest — floating-point numbers in decimal, with the
fewest digits that read back.

Every positive number `m · 2 ^ q` owns the interval of the reals that
round to it; the ends belong to it when `m` is even. On a grid of decimal
numbers `c · 10 ^ k` only the two neighbours of the number can be the
nearest ones in that interval. `Decimal.shortest` takes the coarsest grid
on which one of them lies in the interval, and of two the nearer.

A `DecimalStyle` says how the digits are laid out.

JSON text has its numbers so (SPEC_FULL.md §4.3, `JsonSerializer`).
-/
import SealedState.Binary.Binary64

namespace SealedState

/-- The number `digits · 10 ^ power`. -/
structure Decimal where
  digits : Nat
  power : Int

namespace Decimal

/-- The interval of a positive magnitude, with the number itself, counted
in quarters of its last place. -/
structure Interval where
  lower : Nat
  middle : Nat
  upper : Nat
  /-- The exponent of a quarter of the last place. -/
  exponent : Int
  closed : Bool

/-- The interval of a positive magnitude. Below a power of two the numbers
lie twice as close. -/
def Interval.ofMagnitude (magnitude : Nat) : Interval :=
  let (m, q) := Layout.double.parts magnitude
  let atPower := magnitude % 0x10000000000000 = 0 ∧ 0x20000000000000 ≤ magnitude
  { lower := 4 * m - if atPower then 1 else 2
    middle := 4 * m
    upper := 4 * m + 2
    exponent := q - 2
    closed := m % 2 = 0 }

/-- Which of two equally near neighbours is taken. -/
inductive Tie
  | even
  | up

/-- The shortest candidate on the grid of step `10 ^ power`. The factors
turn a count of quarters and a count of steps into one unit. -/
def onGrid? (tie : Tie) (i : Interval) (power : Int) : Option Nat :=
  let quarter := Nat.pow 10 (-power).toNat <<< i.exponent.toNat
  let step := Nat.pow 10 power.toNat <<< (-i.exponent).toNat
  let below := i.middle * quarter / step
  let inside (c : Nat) : Bool :=
    if i.closed then i.lower * quarter ≤ c * step && c * step ≤ i.upper * quarter
    else i.lower * quarter < c * step && c * step < i.upper * quarter
  let before := i.middle * quarter - below * step
  let after := (below + 1) * step - i.middle * quarter
  let preferBelow := before < after ||
    (before == after && match tie with
      | .even => below % 2 == 0
      | .up => false)
  match 0 < below && inside below, inside (below + 1) with
  | true, true => some (if preferBelow then below else below + 1)
  | true, false => some below
  | false, true => some (below + 1)
  | false, false => none

/-- The first grid with a candidate, from `power` down. -/
def search (tie : Tie) (i : Interval) : (grids : Nat) → (power : Int) → Decimal
  | 0, power => ⟨i.middle, power⟩
  | grids + 1, power =>
    match onGrid? tie i power with
    | some c => ⟨c, power⟩
    | none => search tie i grids (power - 1)

/-- The shortest decimal number that rounds to a positive finite
magnitude. The first grid lies above the number; seventeen digits are
always enough. -/
def shortest (tie : Tie) (magnitude : Nat) : Decimal :=
  let i := Interval.ofMagnitude magnitude
  let top := ((i.middle.log2 : Int) + i.exponent + 1) * 30103 / 100000 + 1
  search tie i 25 top

end Decimal

/-- How a number is laid out: the least and the greatest exponent of the
first digit that is written without an exponent, if there are such, and
which way a tie goes. -/
structure DecimalStyle where
  positional : Option (Int × Int)
  tie : Decimal.Tie

namespace DecimalStyle

/-- The digits with the point in its place and at least one digit on
either side of it. -/
def positionalText (digits : List Char) (power : Int) : List Char :=
  let count : Int := digits.length + power
  if 0 ≤ power then digits ++ List.replicate power.toNat '0' ++ ['.', '0']
  else if 0 < count then digits.take count.toNat ++ '.' :: digits.drop count.toNat
  else ['0', '.'] ++ List.replicate (-count).toNat '0' ++ digits

/-- The digits with the point after the first, and the exponent with its
sign. -/
def scientificText (digits : List Char) (power : Int) : List Char :=
  let exponent := digits.length + power - 1
  let sign := if exponent < 0 then '-' else '+'
  let fraction := digits.drop 1
  digits.take 1 ++ (if fraction = [] then [] else '.' :: fraction)
    ++ 'e' :: sign :: Nat.toDigits 10 exponent.natAbs

/-- A finite number as text. -/
def finite (style : DecimalStyle) (x : Binary64) : String :=
  let sign := if x.isNegative then ['-'] else []
  if x.magnitude = 0 then String.ofList (sign ++ ['0', '.', '0'])
  else
    let d := Decimal.shortest style.tie x.magnitude
    let digits := Nat.toDigits 10 d.digits
    let exponent := digits.length + d.power - 1
    let isPositional := match style.positional with
      | none => true
      | some (least, greatest) => least ≤ exponent && exponent ≤ greatest
    String.ofList (sign ++
      if isPositional then positionalText digits d.power else scientificText digits d.power)

/-- A number as text; what is not finite has a name. -/
def text (style : DecimalStyle) (x : Binary64) : String :=
  if x.isFinite then style.finite x
  else if x.isNaN then "NaN"
  else if x.isNegative then "-inf" else "inf"

end DecimalStyle

end SealedState
