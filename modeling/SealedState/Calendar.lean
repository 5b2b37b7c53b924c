/-
SealedState.Calendar — instants as dates of the proleptic Gregorian
calendar.

Days are counted from 1 March of the year zero, so the leap day is the
last of its year, its four years, and its four hundred. A cycle of 400
years has 146097 days, a century 36524 and one more in the last, four
years 1461 but in the last four of a century, and a year 365 and one more
in the last of four. `DateTime.toSeconds` undoes `DateTime.ofSeconds`.

SPEC_FULL.md §7 asks for the notice of expiry to show an RFC 3339 instant.
-/
import SealedState.Integer

namespace SealedState

/-- A day of the calendar. The year before the year one is the year
zero. -/
structure Date where
  year : Int
  month : Nat
  day : Nat
  deriving DecidableEq

namespace Date

/-- The number of days from 1 March of the year zero to 1 January 1970. -/
def epochDay : Int := 719468

/-- The day with a number, where 1 January 1970 has the number zero. -/
def ofDays (days : Int) : Date :=
  let fromMarch := days + epochDay
  let cycle := fromMarch / 146097
  let inCycle := (fromMarch % 146097).toNat
  let century := min (inCycle / 36524) 3
  let inCentury := inCycle - century * 36524
  let four := inCentury / 1461
  let inFour := inCentury % 1461
  let one := min (inFour / 365) 3
  let inYear := inFour - one * 365
  let fromMarchMonth := (5 * inYear + 2) / 153
  let day := inYear - (153 * fromMarchMonth + 2) / 5 + 1
  let month := if fromMarchMonth < 10 then fromMarchMonth + 3 else fromMarchMonth - 9
  let year := cycle * 400 + (century * 100 + four * 4 + one : Nat)
  ⟨if month ≤ 2 then year + 1 else year, month, day⟩

/-- The number of a day, where 1 January 1970 has the number zero. -/
def toDays (d : Date) : Int :=
  let year := if d.month ≤ 2 then d.year - 1 else d.year
  let fromMarchMonth := (d.month + 9) % 12
  let inYear := (153 * fromMarchMonth + 2) / 5 + d.day - 1
  year * 365 + year / 4 - year / 100 + year / 400 + inYear - epochDay

end Date

/-- A second of the calendar. -/
structure DateTime where
  date : Date
  hour : Nat
  minute : Nat
  second : Nat
  deriving DecidableEq

namespace DateTime

/-- The second with a number, where the first of 1 January 1970 has the
number zero. -/
def ofSeconds (seconds : Int) : DateTime :=
  let inDay := (seconds % 86400).toNat
  { date := Date.ofDays (seconds / 86400)
    hour := inDay / 3600
    minute := inDay / 60 % 60
    second := inDay % 60 }

/-- The number of a second. -/
def toSeconds (t : DateTime) : Int :=
  t.date.toDays * 86400 + (t.hour * 3600 + t.minute * 60 + t.second : Nat)

/-- The seconds that have a text of their own, from the first of the year
-262143 to the last of the year 262142. -/
def bounds : Bounds :=
  ⟨toSeconds ⟨⟨-262143, 1, 1⟩, 0, 0, 0⟩, toSeconds ⟨⟨262142, 12, 31⟩, 23, 59, 59⟩⟩

/-- A number in at least `width` digits. -/
def padded (width n : Nat) : List Char :=
  let digits := Nat.toDigits 10 n
  List.replicate (width - digits.length) '0' ++ digits

/-- A year in at least four digits, with a sign where there are more or it
is negative. -/
def yearText (year : Int) : List Char :=
  let sign := if year < 0 then ['-'] else if 9999 < year then ['+'] else []
  sign ++ padded 4 year.natAbs

/-- A second in the form of RFC 3339, at the meridian of Greenwich. -/
def text (t : DateTime) : String :=
  String.ofList (yearText t.date.year ++ '-' :: padded 2 t.date.month ++ '-' :: padded 2 t.date.day
    ++ 'T' :: padded 2 t.hour ++ ':' :: padded 2 t.minute ++ ':' :: padded 2 t.second
    ++ "+00:00".toList)

end DateTime

/-- An instant as text: a date and time, or the number of the second where
no date is known. -/
def instantText (seconds : Int) : String :=
  match DateTime.bounds.ofInt? seconds with
  | some s => (DateTime.ofSeconds s.val).text
  | none => String.ofList (decimalText seconds)

end SealedState
