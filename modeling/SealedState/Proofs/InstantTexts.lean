/-
SealedState.Proofs.InstantTexts — what the text of an instant says.

`DateTime.ofText?` reads a text in the form of RFC 3339, piece by piece and
without the writer, and a text `Shows` an instant if it is a date and time
that the calendar counts to it, or else its decimal number. The text that is
written for an instant shows this instant and no other
(`shows_instantText_iff`), so two instants never share a text.

SPEC_FULL.md §7 has the instant of expiry in this form (`format_instant`).
-/
import SealedState.Proofs.CalendarTheorems

namespace SealedState

namespace DateTime

/-! ## Reading -/

/-- A number of two digits behind a character, and what follows it. -/
def twoDigits? (c : Char) : List Char → Option (Nat × List Char)
  | [] => none
  | d :: cs =>
    let digits := cs.take 2
    if d = c ∧ digits.length = 2 ∧ digits.all Char.isDigit = true then
      some (Nat.ofDigitChars 10 digits 0, cs.drop 2)
    else none

/-- A sign, which may be missing, and what follows it. -/
def sign : List Char → Int × List Char
  | '-' :: cs => (-1, cs)
  | '+' :: cs => (1, cs)
  | cs => (1, cs)

/-- A year of four digits or more, perhaps after a sign, and what follows
it. -/
def year? (cs : List Char) : Option (Int × List Char) :=
  let (sign, cs) := sign cs
  let digits := cs.takeWhile Char.isDigit
  if 4 ≤ digits.length then
    some (sign * Nat.ofDigitChars 10 digits 0, cs.dropWhile Char.isDigit)
  else none

/-- The date and time in a text in the form of RFC 3339, at the meridian of
Greenwich. -/
def ofText? (cs : List Char) : Option DateTime := do
  let (year, cs) ← year? cs
  let (month, cs) ← twoDigits? '-' cs
  let (day, cs) ← twoDigits? '-' cs
  let (hour, cs) ← twoDigits? 'T' cs
  let (minute, cs) ← twoDigits? ':' cs
  let (second, cs) ← twoDigits? ':' cs
  if cs = "+00:00".toList then some ⟨⟨year, month, day⟩, hour, minute, second⟩ else none

end DateTime

/-- The number in a decimal text. -/
def integer? (cs : List Char) : Option Int :=
  let (sign, digits) := DateTime.sign cs
  if digits ≠ [] ∧ digits.all Char.isDigit = true then
    some (sign * Nat.ofDigitChars 10 digits 0)
  else none

/-- The text shows an instant: as a date and time of the calendar, or as the
number of the second. -/
inductive Shows (text : String) : Int → Prop
  | date {t : DateTime} {seconds : Int} (read : DateTime.ofText? text.toList = some t)
      (number : t.HasNumber seconds) : Shows text seconds
  | number {seconds : Int} (undated : DateTime.ofText? text.toList = none)
      (read : integer? text.toList = some seconds) : Shows text seconds

/-- A text shows one instant at most. -/
theorem Shows.unique {text : String} {s s' : Int} (h : Shows text s) (h' : Shows text s') :
    s = s' := by
  cases h with
  | @date t _ hread hnumber =>
    cases h' with
    | @date t' _ hread' hnumber' =>
      obtain rfl : t = t' := Option.some.inj (hread.symm.trans hread')
      rw [← hnumber.toSeconds_eq, ← hnumber'.toSeconds_eq]
    | number hundated' => simp [hundated'] at hread
  | number hundated hread =>
    cases h' with
    | date hread' => simp [hundated] at hread'
    | number _ hread' => exact Option.some.inj (hread.symm.trans hread')

namespace DateTime

/-! ## Digits -/

theorem isDigit_of_mem_padded {width n : Nat} {c : Char} (h : c ∈ padded width n) :
    c.isDigit = true := by
  simp only [padded, List.mem_append, List.mem_replicate] at h
  rcases h with ⟨-, rfl⟩ | h
  · rfl
  · exact Nat.isDigit_of_mem_toDigits (by decide) (by decide) h

theorem length_padded (width n : Nat) :
    (padded width n).length = max width (Nat.toDigits 10 n).length := by
  simp only [padded, List.length_append, List.length_replicate]
  omega

/-- Zeros in front change no number. -/
theorem ofDigitChars_padded (width n : Nat) : Nat.ofDigitChars 10 (padded width n) 0 = n := by
  simp only [padded, Nat.ofDigitChars_append, Nat.ofDigitChars_replicate_zero]
  exact Nat.ofDigitChars_toDigits (by decide) (by decide)

theorem twoDigits?_cons {c : Char} {digits : List Char} (hlen : digits.length = 2)
    (hall : ∀ c ∈ digits, c.isDigit = true) (rest : List Char) :
    twoDigits? c (c :: (digits ++ rest)) = some (Nat.ofDigitChars 10 digits 0, rest) := by
  unfold twoDigits?
  simp only [List.take_left' hlen, List.drop_left' hlen]
  rw [if_pos ⟨trivial, hlen, List.all_eq_true.2 hall⟩]

theorem twoDigits?_padded {c : Char} {n : Nat} (h : n < 100) (rest : List Char) :
    twoDigits? c (c :: (padded 2 n ++ rest)) = some (n, rest) := by
  have hdigits : (Nat.toDigits 10 n).length ≤ 2 :=
    (Nat.length_toDigits_le_iff (by decide) (by decide)).2 h
  have hlen : (padded 2 n).length = 2 := by
    rw [length_padded]
    omega
  rw [twoDigits?_cons hlen fun c hc => isDigit_of_mem_padded hc, ofDigitChars_padded]

/-- Digits have no sign in front. -/
theorem sign_of_digits {digits : List Char} (h : ∀ c ∈ digits, c.isDigit = true)
    (hne : digits ≠ []) (rest : List Char) : sign (digits ++ rest) = (1, digits ++ rest) := by
  cases digits with
  | nil => exact absurd rfl hne
  | cons c digits =>
    have hc := h c List.mem_cons_self
    rw [List.cons_append]
    unfold sign
    split
    · rename_i heq
      obtain ⟨rfl, -⟩ := List.cons.inj heq
      cases hc
    · rename_i heq
      obtain ⟨rfl, -⟩ := List.cons.inj heq
      cases hc
    · rfl

/-! ## Dates and times -/

/-- A year is read back where no digit follows it. -/
theorem year?_of_sign {cs digits rest : List Char} {s : Int} (hsign : sign cs = (s, digits ++ rest))
    (hall : ∀ c ∈ digits, c.isDigit = true) (hlen : 4 ≤ digits.length)
    (hrest : ∀ c ∈ rest.head?, c.isDigit = false) :
    year? cs = some (s * Nat.ofDigitChars 10 digits 0, rest) := by
  have hnone : rest.takeWhile Char.isDigit = [] ∧ rest.dropWhile Char.isDigit = rest := by
    cases rest with
    | nil => exact ⟨rfl, rfl⟩
    | cons c rest =>
      have hc := hrest c rfl
      simp [hc]
  unfold year?
  simp only [hsign, List.takeWhile_append_of_pos hall, List.dropWhile_append_of_pos hall, hnone,
    List.append_nil]
  rw [if_pos hlen]

theorem year?_yearText (year : Int) (rest : List Char) :
    year? (yearText year ++ '-' :: rest) = some (year, '-' :: rest) := by
  have hall : ∀ c ∈ padded 4 year.natAbs, c.isDigit = true := fun c hc => isDigit_of_mem_padded hc
  have hlen : 4 ≤ (padded 4 year.natAbs).length := by
    rw [length_padded]
    omega
  have hne : padded 4 year.natAbs ≠ [] := List.ne_nil_of_length_pos (by omega)
  have hrest : ∀ c ∈ ('-' :: rest).head?, c.isDigit = false := by
    intro c hc
    cases hc
    rfl
  have hsign : sign (yearText year ++ '-' :: rest)
      = (if year < 0 then -1 else 1, padded 4 year.natAbs ++ '-' :: rest) := by
    unfold yearText
    by_cases hneg : year < 0
    · simp [hneg, sign]
    · by_cases hlarge : 9999 < year
      · simp [hneg, hlarge, sign]
      · simp only [hneg, hlarge, if_false, List.nil_append]
        exact sign_of_digits hall hne _
  rw [year?_of_sign hsign hall hlen hrest, ofDigitChars_padded]
  congr 2
  split <;> omega

/-- A date and time is read back from its text. -/
theorem ofText?_text {t : DateTime} (h : t.IsValid) : ofText? t.text.toList = some t := by
  obtain ⟨hdate, hhour, hminute, hsecond⟩ := h
  have hmonth : t.date.month < 100 := Nat.lt_of_le_of_lt hdate.month_le (by decide)
  have hday : t.date.day < 100 :=
    Nat.lt_of_le_of_lt (hdate.day_le.trans (Date.monthLength_le _ _)) (by decide)
  rw [text, String.toList_ofList]
  simp only [List.append_assoc, List.cons_append]
  refine Option.bind_eq_some_iff.2 ⟨_, year?_yearText _ _, ?_⟩
  refine Option.bind_eq_some_iff.2 ⟨_, twoDigits?_padded hmonth _, ?_⟩
  refine Option.bind_eq_some_iff.2 ⟨_, twoDigits?_padded hday _, ?_⟩
  refine Option.bind_eq_some_iff.2 ⟨_, twoDigits?_padded (by omega) _, ?_⟩
  refine Option.bind_eq_some_iff.2 ⟨_, twoDigits?_padded (by omega) _, ?_⟩
  refine Option.bind_eq_some_iff.2 ⟨_, twoDigits?_padded (by omega) _, ?_⟩
  exact if_pos rfl

/-- A number in decimal is no date: nothing follows its digits. -/
theorem ofText?_eq_none {cs digits : List Char} {s : Int} (hsign : sign cs = (s, digits))
    (hall : ∀ c ∈ digits, c.isDigit = true) : ofText? cs = none := by
  have hdrop : digits.dropWhile Char.isDigit = [] := by
    rw [← List.append_nil digits, List.dropWhile_append_of_pos hall]
    rfl
  unfold ofText? year?
  simp only [hsign, hdrop]
  split <;> rfl

end DateTime

/-! ## Instants -/

theorem isDigit_of_mem_toDigits {n : Nat} : ∀ c ∈ Nat.toDigits 10 n, c.isDigit = true :=
  fun _ hc => Nat.isDigit_of_mem_toDigits (by decide) (by decide) hc

/-- The text of a number is a sign and digits. -/
theorem sign_decimalText (n : Int) : DateTime.sign (decimalText n)
    = (if n < 0 then -1 else 1, Nat.toDigits 10 n.natAbs) := by
  cases n with
  | ofNat n =>
    have hsign := DateTime.sign_of_digits (isDigit_of_mem_toDigits (n := n)) Nat.toDigits_ne_nil []
    have hnonneg : ¬ (n : Int) < 0 := by omega
    rw [List.append_nil] at hsign
    exact hsign.trans (by simp [hnonneg])
  | negSucc n => simp [decimalText, DateTime.sign]

/-- A number is read back from its text. -/
theorem integer?_decimalText (n : Int) : integer? (decimalText n) = some n := by
  unfold integer?
  simp only [sign_decimalText]
  rw [if_pos ⟨Nat.toDigits_ne_nil, List.all_eq_true.2 isDigit_of_mem_toDigits⟩,
    Nat.ofDigitChars_toDigits (by decide) (by decide)]
  congr 1
  split <;> omega

theorem ofText?_decimalText (n : Int) :
    DateTime.ofText? (String.ofList (decimalText n)).toList = none := by
  rw [String.toList_ofList]
  exact DateTime.ofText?_eq_none (sign_decimalText n) isDigit_of_mem_toDigits

theorem shows_decimalText (n : Int) : Shows (String.ofList (decimalText n)) n := by
  refine .number (ofText?_decimalText n) ?_
  rw [String.toList_ofList]
  exact integer?_decimalText n

/-- The second is one of the years -262143 to 262142. -/
def Dated (seconds : Int) : Prop :=
  ∃ t : DateTime, t.HasNumber seconds ∧ -262143 ≤ t.date.year ∧ t.date.year ≤ 262142

theorem dated_iff {seconds : Int} :
    Dated seconds ↔ DateTime.bounds.least ≤ seconds ∧ seconds ≤ DateTime.bounds.greatest := by
  rw [DateTime.mem_bounds_iff]
  constructor
  · rintro ⟨t, hnumber, hyears⟩
    obtain rfl := DateTime.hasNumber_iff.1 hnumber
    exact hyears
  · intro hyears
    exact ⟨_, DateTime.hasNumber_ofSeconds seconds, hyears⟩

/-- An instant of these years is written as the date and time that the
calendar counts to it. -/
theorem instantText_of_dated {seconds : Int} (h : Dated seconds) :
    ∃ t : DateTime, DateTime.ofText? (instantText seconds).toList = some t ∧
      t.HasNumber seconds := by
  have hnumber := DateTime.hasNumber_ofSeconds seconds
  refine ⟨_, ?_, hnumber⟩
  unfold instantText
  rw [Bounds.ofInt?, dif_pos (dated_iff.1 h)]
  exact DateTime.ofText?_text hnumber.isValid

/-- The other instants, and they alone, are written as numbers. -/
theorem instantText_eq_decimal_iff {seconds : Int} :
    instantText seconds = String.ofList (decimalText seconds) ↔ ¬ Dated seconds := by
  constructor
  · intro heq hdated
    obtain ⟨t, hread, -⟩ := instantText_of_dated hdated
    rw [heq, ofText?_decimalText] at hread
    cases hread
  · intro h
    unfold instantText
    rw [Bounds.ofInt?, dif_neg (mt dated_iff.2 h)]

/-- The text of an instant shows it. -/
theorem shows_instantText (seconds : Int) : Shows (instantText seconds) seconds := by
  by_cases h : Dated seconds
  · obtain ⟨t, hread, hnumber⟩ := instantText_of_dated h
    exact .date hread hnumber
  · rw [instantText_eq_decimal_iff.2 h]
    exact shows_decimalText seconds

/-- The text of an instant shows it and no other. -/
theorem shows_instantText_iff {seconds s : Int} : Shows (instantText seconds) s ↔ s = seconds := by
  constructor
  · intro h
    exact h.unique (shows_instantText seconds)
  · rintro rfl
    exact shows_instantText s

/-- Two instants never share a text. -/
theorem instantText_injective {s s' : Int} (h : instantText s = instantText s') : s = s' := by
  have hshows := shows_instantText s
  rw [h, shows_instantText_iff] at hshows
  exact hshows

example : Shows "2017-07-14T02:55:00+00:00" 1500000900 := shows_instantText 1500000900

end SealedState
