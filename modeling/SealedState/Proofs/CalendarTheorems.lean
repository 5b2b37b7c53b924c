/-
SealedState.Proofs.CalendarTheorems — the numbers of days and seconds are
those of the proleptic Gregorian calendar.

The calendar is given by its months, its leap years and the step from one
day to the next (`Date.tomorrow`). `Date.HasNumber` counts these steps from
1 January 1970, forwards and backwards, without any formula.
`Date.ofDays` computes what the count comes to, for every number
(`Date.hasNumber_iff`), and `Date.toDays` is its inverse on the days of the
calendar; the same goes for seconds (`DateTime.hasNumber_iff`).

The formulas let years start in March. A day is then a year and a number in
it (`Date.marchYear`, `Date.inYear`), and a year has a place in a cycle of 400
years (`Date.Place`), which is found and taken apart in one way only.

The notice of SPEC_FULL.md §7 shows instants in this calendar.
-/
import Mathlib.Tactic.IntervalCases
import SealedState.Calendar

namespace SealedState

namespace Date

/-! ## The calendar -/

/-- The year has a 29 February. -/
def IsLeap (year : Int) : Prop := year % 4 = 0 ∧ (year % 100 ≠ 0 ∨ year % 400 = 0)

instance (year : Int) : Decidable (IsLeap year) := inferInstanceAs (Decidable (_ ∧ _))

/-- The number of days of a month. -/
def monthLength (year : Int) (month : Nat) : Nat :=
  if month = 2 then if IsLeap year then 29 else 28
  else if month = 4 ∨ month = 6 ∨ month = 9 ∨ month = 11 then 30 else 31

/-- The calendar has the day. -/
structure IsValid (d : Date) : Prop where
  one_le_month : 1 ≤ d.month
  month_le : d.month ≤ 12
  one_le_day : 1 ≤ d.day
  day_le : d.day ≤ monthLength d.year d.month

/-- The day after. -/
def tomorrow (d : Date) : Date :=
  if d.day < monthLength d.year d.month then { d with day := d.day + 1 }
  else if d.month < 12 then ⟨d.year, d.month + 1, 1⟩
  else ⟨d.year + 1, 1, 1⟩

/-- The days counted one by one, forwards and backwards from 1 January
1970. -/
inductive HasNumber : Date → Int → Prop
  | epoch : HasNumber ⟨1970, 1, 1⟩ 0
  | next {d : Date} {n : Int} (h : HasNumber d n) : HasNumber d.tomorrow (n + 1)
  | previous {d : Date} {n : Int} (valid : d.IsValid) (h : HasNumber d.tomorrow (n + 1)) :
      HasNumber d n

theorem one_le_monthLength (year : Int) (month : Nat) : 1 ≤ monthLength year month := by
  unfold monthLength
  split
  · split <;> omega
  · split <;> omega

theorem monthLength_le (year : Int) (month : Nat) : monthLength year month ≤ 31 := by
  unfold monthLength
  split
  · split <;> omega
  · split <;> omega

theorem monthLength_february (year : Int) :
    monthLength year 2 = if IsLeap year then 29 else 28 := rfl

theorem isValid_tomorrow {d : Date} (h : d.IsValid) : d.tomorrow.IsValid := by
  obtain ⟨hone, hle, -, -⟩ := h
  unfold tomorrow
  split
  · rename_i hday
    exact ⟨hone, hle, by simp, hday⟩
  · split
    · rename_i hmonth
      exact ⟨by simp, hmonth, by simp, one_le_monthLength _ _⟩
    · exact ⟨by simp, by simp, by simp, one_le_monthLength _ _⟩

/-! ## Years that start in March -/

/-- The days from 1 March of the year zero to 1 March of a year. -/
def yearStart (year : Int) : Int := year * 365 + year / 4 - year / 100 + year / 400

/-- A year that starts in March ends with the February of the next one. -/
theorem yearStart_eq (year : Int) :
    yearStart year = yearStart (year - 1) + 337 + monthLength year 2 := by
  rw [monthLength_february]
  by_cases h : IsLeap year
  · rw [if_pos h]
    simp only [IsLeap] at h
    simp only [yearStart]
    omega
  · rw [if_neg h]
    simp only [IsLeap] at h
    simp only [yearStart]
    omega

theorem yearStart_le {year year' : Int} (h : year ≤ year') : yearStart year ≤ yearStart year' := by
  simp only [yearStart]
  omega

/-! ## Months that are counted from March -/

/-- The number of a month, where March has the number zero. -/
def fromMarch (month : Nat) : Nat := (month + 9) % 12

/-- The month with a number, where March has the number zero. -/
def ofMarch (m : Nat) : Nat := if m < 10 then m + 3 else m - 9

theorem fromMarch_ofMarch {m : Nat} (h : m < 12) : fromMarch (ofMarch m) = m := by
  simp only [fromMarch, ofMarch]
  split <;> omega

theorem ofMarch_fromMarch {month : Nat} (hone : 1 ≤ month) (hle : month ≤ 12) :
    ofMarch (fromMarch month) = month := by
  by_cases h : fromMarch month < 10
  · rw [ofMarch, if_pos h]
    simp only [fromMarch] at *
    omega
  · rw [ofMarch, if_neg h]
    simp only [fromMarch] at *
    omega

/-- The days from 1 March to the first of a month, counted from March. -/
def monthStart (m : Nat) : Nat := (153 * m + 2) / 5

/-- The month that a day of a year falls in. -/
theorem month_eq_iff {k m : Nat} :
    (5 * k + 2) / 153 = m ↔ monthStart m ≤ k ∧ k < monthStart (m + 1) := by
  simp only [monthStart]
  omega

/-- But for February, a month ends where the next one starts. -/
theorem monthLength_of_ne {year : Int} {month : Nat} (hone : 1 ≤ month) (hle : month ≤ 12)
    (hne : month ≠ 2) :
    monthLength year month = monthStart (fromMarch month + 1) - monthStart (fromMarch month) := by
  interval_cases month <;> first | rfl | contradiction

/-! ## Days of a year -/

/-- The year that a day falls in, if years start in March. -/
def marchYear (d : Date) : Int := if d.month ≤ 2 then d.year - 1 else d.year

/-- The number of a day in its year, if years start in March. -/
def inYear (d : Date) : Nat := monthStart (fromMarch d.month) + d.day - 1

theorem toDays_eq (d : Date) : d.toDays = yearStart d.marchYear + d.inYear - epochDay := rfl

/-- A year that starts in March has a day with this number. -/
def InYear (year : Int) (k : Nat) : Prop := k < 365 ∨ k = 365 ∧ IsLeap (year + 1)

theorem InYear.le {year : Int} {k : Nat} (h : InYear year k) : k ≤ 365 := by
  simp only [InYear] at h
  omega

theorem inYear_of_isValid {d : Date} (h : d.IsValid) : InYear d.marchYear d.inYear := by
  obtain ⟨year, month, day⟩ := d
  obtain ⟨hone, hle, hday, hlength⟩ := h
  simp only [InYear, marchYear, inYear] at *
  by_cases hmonth : month = 2
  · subst hmonth
    rw [monthLength_february] at hlength
    have hstart : monthStart (fromMarch 2) = 337 := rfl
    have hyear : year - 1 + 1 = year := by omega
    by_cases hleap : IsLeap year
    · rw [if_pos hleap] at hlength
      rw [if_pos (Nat.le_refl 2), hyear]
      simp only [hleap, and_true]
      omega
    · rw [if_neg hleap] at hlength
      omega
  · rw [monthLength_of_ne hone hle hmonth] at hlength
    simp only [monthStart, fromMarch] at *
    omega

/-- The day of a year that starts in March. -/
def ofYearDay (year : Int) (k : Nat) : Date :=
  let m := (5 * k + 2) / 153
  ⟨if ofMarch m ≤ 2 then year + 1 else year, ofMarch m, k - monthStart m + 1⟩

theorem ofYearDay_inYear {d : Date} (h : d.IsValid) : ofYearDay d.marchYear d.inYear = d := by
  have hm : (5 * d.inYear + 2) / 153 = fromMarch d.month := by
    obtain ⟨hone, hle, hday, hlength⟩ := h
    rw [month_eq_iff, inYear]
    by_cases hmonth : d.month = 2
    · have hstart : monthStart (fromMarch 2) = 337 := rfl
      have hend : monthStart (fromMarch 2 + 1) = 367 := rfl
      rw [hmonth, monthLength_february] at hlength
      rw [hmonth]
      split at hlength <;> omega
    · rw [monthLength_of_ne hone hle hmonth] at hlength
      omega
  have hday := h.one_le_day
  have hyear : (if d.month ≤ 2 then d.marchYear + 1 else d.marchYear) = d.year := by
    simp only [marchYear]
    split <;> omega
  have hback : d.inYear - monthStart (fromMarch d.month) + 1 = d.day := by
    rw [inYear]
    omega
  simp only [ofYearDay, hm, ofMarch_fromMarch h.one_le_month h.month_le, hyear, hback]

theorem isValid_ofYearDay {year : Int} {k : Nat} (h : InYear year k) :
    (ofYearDay year k).IsValid := by
  have hle := h.le
  simp only [ofYearDay]
  obtain ⟨hlow, hhigh⟩ := month_eq_iff.1 (rfl : (5 * k + 2) / 153 = _)
  have hm : (5 * k + 2) / 153 < 12 := by omega
  generalize (5 * k + 2) / 153 = m at *
  have hmonth : 1 ≤ ofMarch m ∧ ofMarch m ≤ 12 := by
    simp only [ofMarch]
    split <;> omega
  refine ⟨hmonth.1, hmonth.2, by simp, ?_⟩
  by_cases hfeb : ofMarch m = 2
  · obtain rfl : m = 11 := by
      rw [← fromMarch_ofMarch hm, hfeb]
      rfl
    have hstart : monthStart 11 = 337 := rfl
    simp only [hfeb, Nat.le_refl, if_true, monthLength_february]
    simp only [InYear] at h
    split <;> grind
  · simp only [monthLength_of_ne hmonth.1 hmonth.2 hfeb, fromMarch_ofMarch hm]
    omega

theorem marchYear_ofYearDay {year : Int} {k : Nat} : (ofYearDay year k).marchYear = year := by
  simp only [ofYearDay, marchYear]
  split <;> omega

theorem inYear_ofYearDay {year : Int} {k : Nat} (h : k ≤ 365) : (ofYearDay year k).inYear = k := by
  simp only [ofYearDay, inYear]
  obtain ⟨hlow, hhigh⟩ := month_eq_iff.1 (rfl : (5 * k + 2) / 153 = _)
  rw [fromMarch_ofMarch (by omega)]
  omega

/-! ## Cycles of 400 years -/

/-- A day of a cycle by its century, its four years, its year, and its
number there. A year has a 366th day only where it is the last of four, and
this only where the four are not the last of a century or the century is the
last. -/
structure Place (k century four one day : Nat) : Prop where
  century_le : century ≤ 3
  four_le : four ≤ 24
  one_le : one ≤ 3
  day_le : day ≤ 365
  leap : day = 365 → one = 3 ∧ (four = 24 → century = 3)
  eq : k = century * 36524 + four * 1461 + one * 365 + day

variable {k century four one day : Nat}

theorem Place.of_lt (h : k < 146097) :
    let century := min (k / 36524) 3
    let inCentury := k - century * 36524
    let four := inCentury / 1461
    let inFour := inCentury % 1461
    let one := min (inFour / 365) 3
    Place k century four one (inFour - one * 365) := by
  intro century inCentury four inFour one
  have hcentury : k = century * 36524 + inCentury ∧ century ≤ 3 ∧ inCentury ≤ 36524 ∧
      (inCentury = 36524 → century = 3) := by
    omega
  have hfour : inCentury = four * 1461 + inFour ∧ inFour < 1461 ∧ four ≤ 24 ∧
      (four = 24 → inFour = 1460 → inCentury = 36524) := by
    omega
  have hone : inFour = one * 365 + (inFour - one * 365) ∧ one ≤ 3 ∧
      inFour - one * 365 ≤ 365 ∧ (inFour - one * 365 = 365 → inFour = 1460 ∧ one = 3) := by
    omega
  clear_value century inCentury four inFour one
  exact ⟨by omega, by omega, by omega, by omega, by omega, by omega⟩

theorem Place.unique {century' four' one' day' : Nat} (h : Place k century four one day)
    (h' : Place k century' four' one' day') :
    century = century' ∧ four = four' ∧ one = one' ∧ day = day' := by
  obtain ⟨h1, h2, h3, h4, h5, h6⟩ := h
  obtain ⟨h1', h2', h3', h4', h5', h6'⟩ := h'
  obtain rfl : century = century' := by omega
  obtain rfl : four = four' := by omega
  obtain rfl : one = one' := by omega
  omega

theorem Place.yearStart_eq (h : Place k century four one day) (cycle : Int) :
    yearStart (cycle * 400 + (century * 100 + four * 4 + one : Nat))
      = cycle * 146097 + (k - day : Int) := by
  obtain ⟨h1, h2, h3, h4, h5, h6⟩ := h
  simp only [yearStart]
  omega

/-- Only leap years have a 366th day. -/
theorem Place.inYear (h : Place k century four one day) (cycle : Int) :
    InYear (cycle * 400 + (century * 100 + four * 4 + one : Nat)) day := by
  obtain ⟨hcentury, hfour, hone, hle, hleap, -⟩ := h
  by_cases hlast : day = 365
  · obtain ⟨rfl, hcycle⟩ := hleap hlast
    refine .inr ⟨hlast, ?_⟩
    simp only [IsLeap]
    omega
  · exact .inl (by omega)

/-- Every day has a place in a cycle. -/
theorem exists_place (days : Int) : ∃ cycle : Int, ∃ k century four one day : Nat,
    Place k century four one day ∧ days + epochDay = cycle * 146097 + k := by
  have hlt : ((days + epochDay) % 146097).toNat < 146097 := by omega
  refine ⟨(days + epochDay) / 146097, _, _, _, _, _, Place.of_lt hlt, ?_⟩
  omega

/-- Every day of a year has a place in a cycle. -/
theorem InYear.exists_place {year : Int} (h : InYear year day) :
    ∃ cycle : Int, ∃ k century four one : Nat, Place k century four one day ∧
      year = cycle * 400 + (century * 100 + four * 4 + one : Nat) := by
  obtain ⟨y, hy⟩ : ∃ y : Nat, year % 400 = y := ⟨(year % 400).toNat, by omega⟩
  refine ⟨year / 400, _, y / 100, y % 100 / 4, y % 4, ⟨?_, ?_, ?_, h.le, ?_, rfl⟩, ?_⟩
  · omega
  · omega
  · omega
  · simp only [InYear, IsLeap] at h
    omega
  · omega

/-- The day with a number is found from its place in a cycle. -/
theorem ofDays_eq {days cycle : Int} (h : Place k century four one day)
    (hdays : days + epochDay = cycle * 146097 + k) :
    ofDays days = ofYearDay (cycle * 400 + (century * 100 + four * 4 + one : Nat)) day := by
  have hlt : k < 146097 := by
    obtain ⟨h1, h2, h3, h4, h5, h6⟩ := h
    omega
  have hcycle : (days + epochDay) / 146097 = cycle := by omega
  have hk : ((days + epochDay) % 146097).toNat = k := by omega
  obtain ⟨hcentury, hfour, hone, hday⟩ := (Place.of_lt hlt).unique h
  unfold ofDays
  simp only [hcycle, hk]
  rw [hday, hone, hfour, hcentury]
  rfl

/-! ## Numbers of days -/

theorem toDays_ofDays (days : Int) : (ofDays days).toDays = days := by
  obtain ⟨cycle, k, century, four, one, day, hplace, hdays⟩ := exists_place days
  have hyear := hplace.yearStart_eq cycle
  rw [ofDays_eq hplace hdays, toDays_eq, marchYear_ofYearDay, inYear_ofYearDay hplace.day_le]
  omega

theorem isValid_ofDays (days : Int) : (ofDays days).IsValid := by
  obtain ⟨cycle, k, century, four, one, day, hplace, hdays⟩ := exists_place days
  rw [ofDays_eq hplace hdays]
  exact isValid_ofYearDay (hplace.inYear cycle)

theorem ofDays_toDays {d : Date} (h : d.IsValid) : ofDays d.toDays = d := by
  obtain ⟨cycle, k, century, four, one, hplace, hyear⟩ := (inYear_of_isValid h).exists_place
  have hstart := hplace.yearStart_eq cycle
  have hdays : d.toDays + epochDay = cycle * 146097 + k := by
    rw [toDays_eq, hyear]
    omega
  rw [ofDays_eq hplace hdays, ← hyear, ofYearDay_inYear h]

/-- The first of a month follows the last of the month before. -/
theorem toDays_nextMonth {year : Int} {month : Nat} (hone : 1 ≤ month) (hlt : month < 12) :
    toDays ⟨year, month + 1, 1⟩ = toDays ⟨year, month, monthLength year month⟩ + 1 := by
  by_cases hfeb : month = 2
  · subst hfeb
    have hyear := yearStart_eq year
    have hfebruary : monthStart (fromMarch 2) = 337 := rfl
    have hmarch : monthStart (fromMarch 3) = 0 := rfl
    simp only [toDays_eq, marchYear, inYear, hfebruary, hmarch]
    simp only [Nat.reduceAdd, Nat.reduceLeDiff, if_true, if_false]
    omega
  · have hstart : fromMarch (month + 1) = fromMarch month + 1 := by
      simp only [fromMarch]
      omega
    have hlength := one_le_monthLength year month
    rw [monthLength_of_ne hone (Nat.le_of_lt hlt) hfeb] at hlength ⊢
    have hyear : (if month + 1 ≤ 2 then year - 1 else year)
        = if month ≤ 2 then year - 1 else year := by
      split <;> split <;> omega
    simp only [toDays_eq, marchYear, inYear, hstart, hyear]
    omega

/-- 1 January follows 31 December. -/
theorem toDays_nextYear (year : Int) :
    toDays ⟨year + 1, 1, 1⟩ = toDays ⟨year, 12, 31⟩ + 1 := by
  have hdecember : monthStart (fromMarch 12) = 275 := rfl
  have hjanuary : monthStart (fromMarch 1) = 306 := rfl
  have hyear : marchYear ⟨year + 1, 1, 1⟩ = marchYear ⟨year, 12, 31⟩ := by simp [marchYear]
  rw [toDays_eq, toDays_eq, hyear]
  simp only [inYear, hdecember, hjanuary]
  omega

/-- Numbers of days go up by one from day to day. -/
theorem toDays_tomorrow {d : Date} (h : d.IsValid) : d.tomorrow.toDays = d.toDays + 1 := by
  obtain ⟨year, month, day⟩ := d
  obtain ⟨hone, hle, hday, hlength⟩ := h
  simp only at hone hle hday hlength
  by_cases hlast : day < monthLength year month
  · rw [tomorrow, if_pos hlast]
    simp only [toDays_eq, marchYear, inYear]
    omega
  · have hday : day = monthLength year month := by omega
    rw [tomorrow, if_neg hlast, hday]
    by_cases hlt : month < 12
    · rw [if_pos hlt]
      exact toDays_nextMonth hone hlt
    · obtain rfl : month = 12 := by omega
      rw [if_neg hlt]
      exact toDays_nextYear year

theorem ofDays_succ (n : Int) : ofDays (n + 1) = (ofDays n).tomorrow := by
  have hvalid := isValid_ofDays n
  have hnumber : (ofDays n).tomorrow.toDays = n + 1 := by
    rw [toDays_tomorrow hvalid, toDays_ofDays]
  rw [← hnumber, ofDays_toDays (isValid_tomorrow hvalid)]

/-- The day with a number is the one that counting comes to. -/
theorem hasNumber_iff {d : Date} {n : Int} : d.HasNumber n ↔ d = ofDays n := by
  constructor
  · intro h
    induction h with
    | epoch => rfl
    | next _ ih => rw [ih, ofDays_succ]
    | @previous d n valid _ ih =>
      have hnumber : d.toDays = n := by
        have hnext := toDays_tomorrow valid
        rw [ih, toDays_ofDays] at hnext
        omega
      rw [← hnumber, ofDays_toDays valid]
  · rintro rfl
    induction n using Int.induction_on with
    | zero => exact .epoch
    | succ n ih =>
      rw [ofDays_succ]
      exact .next ih
    | pred n ih =>
      refine .previous (isValid_ofDays _) ?_
      rw [← ofDays_succ]
      simpa using ih

example : (⟨2000, 2, 29⟩ : Date).tomorrow = ⟨2000, 3, 1⟩ ∧
    (⟨1900, 2, 28⟩ : Date).tomorrow = ⟨1900, 3, 1⟩ := by decide

/-! ## Years -/

theorem toDays_newYear (year : Int) :
    toDays ⟨year, 1, 1⟩ = yearStart (year - 1) + 306 - epochDay := by
  have hjanuary : monthStart (fromMarch 1) = 306 := rfl
  have hyear : marchYear ⟨year, 1, 1⟩ = year - 1 := by simp [marchYear]
  rw [toDays_eq, hyear]
  simp only [inYear, hjanuary]
  omega

/-- A day stands between the first of its year and the first of the next. -/
theorem toDays_between {d : Date} (h : d.IsValid) :
    toDays ⟨d.year, 1, 1⟩ ≤ d.toDays ∧ d.toDays < toDays ⟨d.year + 1, 1, 1⟩ := by
  have hlast := (inYear_of_isValid h).le
  have hyear := yearStart_eq d.year
  have hfebruary := one_le_monthLength d.year 2
  obtain ⟨hone, hle, hday, hlength⟩ := h
  rw [toDays_newYear, toDays_newYear, toDays_eq, Int.add_sub_cancel]
  by_cases hmonth : d.month ≤ 2
  · have hstart : 306 ≤ d.inYear := by
      simp only [inYear, monthStart, fromMarch]
      omega
    rw [marchYear, if_pos hmonth]
    omega
  · have hend : d.inYear < 306 := by
      rw [monthLength_of_ne hone hle (by omega)] at hlength
      simp only [inYear, monthStart, fromMarch] at *
      omega
    rw [marchYear, if_neg hmonth]
    omega

/-- Days are in the order of their years. -/
theorem le_year_iff {d : Date} (h : d.IsValid) (year : Int) :
    year ≤ d.year ↔ toDays ⟨year, 1, 1⟩ ≤ d.toDays := by
  obtain ⟨hfirst, hlast⟩ := toDays_between h
  rw [toDays_newYear] at *
  constructor
  · intro hle
    have hstart := yearStart_le (show year - 1 ≤ d.year - 1 by omega)
    omega
  · intro hle
    by_cases hlt : d.year < year
    · have hstart := yearStart_le (show d.year + 1 - 1 ≤ year - 1 by omega)
      omega
    · omega

end Date

namespace DateTime

/-! ## Seconds -/

/-- The calendar has the second. -/
structure IsValid (t : DateTime) : Prop where
  date : t.date.IsValid
  hour_lt : t.hour < 24
  minute_lt : t.minute < 60
  second_lt : t.second < 60

/-- The second has a number: its day has one, and a day has 86400
seconds. -/
structure HasNumber (t : DateTime) (seconds : Int) : Prop where
  date : t.date.HasNumber (seconds / 86400)
  hour_lt : t.hour < 24
  minute_lt : t.minute < 60
  second_lt : t.second < 60
  inDay : seconds % 86400 = t.hour * 3600 + t.minute * 60 + t.second

variable {t : DateTime} {seconds : Int}

/-- The second with a number is the one that counting comes to. -/
theorem hasNumber_iff : t.HasNumber seconds ↔ t = ofSeconds seconds := by
  constructor
  · rintro ⟨hdate, hhour, hminute, hsecond, hinDay⟩
    obtain ⟨date, hour, minute, second⟩ := t
    simp only at hhour hminute hsecond hinDay
    simp only [ofSeconds, DateTime.mk.injEq]
    refine ⟨Date.hasNumber_iff.1 hdate, ?_, ?_, ?_⟩
    · omega
    · omega
    · omega
  · rintro rfl
    refine ⟨Date.hasNumber_iff.2 rfl, ?_, ?_, ?_, ?_⟩ <;> simp only [ofSeconds] <;> omega

theorem hasNumber_ofSeconds (seconds : Int) : (ofSeconds seconds).HasNumber seconds :=
  hasNumber_iff.2 rfl

theorem HasNumber.isValid (h : t.HasNumber seconds) : t.IsValid := by
  obtain rfl := hasNumber_iff.1 h
  exact ⟨Date.isValid_ofDays _, h.hour_lt, h.minute_lt, h.second_lt⟩

/-- A second has one number only. -/
theorem HasNumber.toSeconds_eq (h : t.HasNumber seconds) : t.toSeconds = seconds := by
  obtain rfl := hasNumber_iff.1 h
  have hinDay := h.inDay
  rw [toSeconds]
  simp only [ofSeconds, Date.toDays_ofDays] at *
  omega

/-- The seconds with a text of their own are those of the years -262143 to
262142. -/
theorem mem_bounds_iff : bounds.least ≤ seconds ∧ seconds ≤ bounds.greatest ↔
    -262143 ≤ (ofSeconds seconds).date.year ∧ (ofSeconds seconds).date.year ≤ 262142 := by
  have hvalid := Date.isValid_ofDays (seconds / 86400)
  have hfirst := Date.le_year_iff hvalid (-262143)
  have hafter := Date.le_year_iff hvalid 262143
  have hlast : Date.toDays ⟨262143, 1, 1⟩ = Date.toDays ⟨262142, 12, 31⟩ + 1 :=
    Date.toDays_nextYear 262142
  rw [Date.toDays_ofDays] at hfirst hafter
  have hleast : bounds.least = Date.toDays ⟨-262143, 1, 1⟩ * 86400 + 0 := rfl
  have hgreatest : bounds.greatest = Date.toDays ⟨262142, 12, 31⟩ * 86400 + 86399 := rfl
  simp only [ofSeconds]
  rw [hleast, hgreatest, hfirst]
  omega

end DateTime

end SealedState
