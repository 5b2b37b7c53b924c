/-
SealedState.Proofs.TimeTheorems — the decimal texts of times.

`Token.Decimal text n` says that a text is one of digits, perhaps after a
minus sign, and stands for `n`. Reading a time accepts exactly the texts
of 64-bit integers (`parseTime_eq_ok_iff`), leading zeros and a negative
zero included; the text that is written for a time is one of those
(`decimal_timeText`).

SPEC_FULL.md §3 has the time of issue in decimal, and §4.1 that it has to fit
into 64 bits (step 1 of `decode`).
-/
import SealedState.Token

namespace SealedState

/-! ## Digits -/

namespace Ascii

theorem toNat_ofNat_of_isDigit {c : Char} (h : c.isDigit = true) :
    (UInt8.ofNat c.toNat).toNat = c.toNat := by
  have hrange := Char.isDigit_iff_toNat.1 h
  simp only [Char.reduceToNat] at hrange
  rw [UInt8.toNat_ofNat']
  omega

theorem isDigit_ofNat {c : Char} (h : c.isDigit = true) :
    isDigit (UInt8.ofNat c.toNat) = true := by
  have hrange := Char.isDigit_iff_toNat.1 h
  simp only [Char.reduceToNat] at hrange
  simp only [isDigit, Bool.and_eq_true, decide_eq_true_eq, UInt8.le_iff_toNat_le,
    toNat_ofNat_of_isDigit h]
  exact hrange

/-- The octets of digits spell the number that the digits spell. -/
theorem foldl_ofChars : ∀ (cs : List Char) (n : Nat), (∀ c ∈ cs, c.isDigit = true) →
    (ofChars cs).foldl (fun n b => n * 10 + digitValue b) n = Nat.ofDigitChars 10 cs n
  | [], n, _ => by simp [ofChars]
  | c :: cs, n, h => by
      have hc := h c List.mem_cons_self
      have ih := foldl_ofChars cs (n * 10 + digitValue (UInt8.ofNat c.toNat))
        (fun d hd => h d (List.mem_cons_of_mem c hd))
      have hvalue : digitValue (UInt8.ofNat c.toNat) = c.toNat - '0'.toNat := by
        rw [digitValue, toNat_ofNat_of_isDigit hc]
        rfl
      rw [ofChars, List.map_cons, List.foldl_cons, Nat.ofDigitChars_cons, ← hvalue,
        Nat.mul_comm 10 n]
      exact ih

theorem decimalValue_toDigits (n : Nat) :
    decimalValue (ofChars (Nat.toDigits 10 n)) = n := by
  have hdigits : ∀ c ∈ Nat.toDigits 10 n, c.isDigit = true := fun c hc =>
    Nat.isDigit_of_mem_toDigits (by decide) (by decide) hc
  rw [decimalValue, foldl_ofChars _ 0 hdigits,
    Nat.ofDigitChars_toDigits (by decide) (by decide)]

end Ascii

namespace Token

/-! ## Decimal texts -/

/-- A text of one digit or more, perhaps after a minus sign, and the
integer that it stands for. -/
inductive Decimal : Bytes → Int → Prop
  | natural {digits : Bytes} (ne_nil : digits ≠ [])
      (all_digits : ∀ b ∈ digits, Ascii.isDigit b = true) :
      Decimal digits (Ascii.decimalValue digits)
  | negated {digits : Bytes} (ne_nil : digits ≠ [])
      (all_digits : ∀ b ∈ digits, Ascii.isDigit b = true) :
      Decimal (Ascii.minus :: digits) (-(Ascii.decimalValue digits : Int))

theorem toDigits_decimal (n : Nat) :
    Ascii.ofChars (Nat.toDigits 10 n) ≠ [] ∧
      ∀ b ∈ Ascii.ofChars (Nat.toDigits 10 n), Ascii.isDigit b = true := by
  constructor
  · simp [Ascii.ofChars]
  · intro b hb
    obtain ⟨c, hc, rfl⟩ := List.mem_map.1 hb
    exact Ascii.isDigit_ofNat (Nat.isDigit_of_mem_toDigits (by decide) (by decide) hc)

/-- The text of an integer is decimal. -/
theorem decimal_decimalText (n : Int) : Decimal (Ascii.ofChars (decimalText n)) n := by
  cases n with
  | ofNat n =>
    obtain ⟨hne, hdigits⟩ := toDigits_decimal n
    have h := Decimal.natural hne hdigits
    rw [Ascii.decimalValue_toDigits] at h
    exact h
  | negSucc n =>
    obtain ⟨hne, hdigits⟩ := toDigits_decimal (n + 1)
    have h := Decimal.negated hne hdigits
    rw [Ascii.decimalValue_toDigits] at h
    exact h

/-- The text that is written for a time is decimal. -/
theorem decimal_timeText (t : Int64) : Decimal (timeText t) t.toInt :=
  decimal_decimalText t.toInt

/-! ## Reading a time -/

theorem splitSign_minus (digits : Bytes) :
    splitSign (Ascii.minus :: digits) = (true, digits) := rfl

theorem splitSign_of_digits {digits : Bytes}
    (h : ∀ b ∈ digits, Ascii.isDigit b = true) : splitSign digits = (false, digits) := by
  unfold splitSign
  split
  · have hminus := h Ascii.minus List.mem_cons_self
    exact absurd hminus (by decide)
  · rfl

/-- A sign is cut off, or there is none. -/
theorem splitSign_cases (text : Bytes) :
    text = Ascii.minus :: (splitSign text).2 ∧ (splitSign text).1 = true ∨
      splitSign text = (false, text) := by
  unfold splitSign
  split
  · exact .inl ⟨rfl, rfl⟩
  · exact .inr rfl

/-- Once the digits are found to be such, the range of times decides. -/
theorem parseTime_of_splitSign {text digits : Bytes} {negative : Bool}
    (hsplit : splitSign text = (negative, digits)) (hne : digits ≠ [])
    (hdigits : ∀ b ∈ digits, Ascii.isDigit b = true) :
    parseTime text =
      let n : Int := if negative then -Ascii.decimalValue digits else Ascii.decimalValue digits
      if IntegerKind.i64.bounds.greatest < n then .error .tooLarge
      else if n < IntegerKind.i64.bounds.least then .error .tooSmall
      else .ok (Int64.ofInt n) := by
  have hform : (decide (digits = []) || !digits.all Ascii.isDigit) = false := by
    rw [List.all_eq_true.2 hdigits, decide_eq_false hne]
    rfl
  unfold parseTime
  rw [hsplit]
  simp only [hform, Bool.false_eq_true, if_false]

theorem parseTime_of_decimal {text : Bytes} {n : Int} (h : Decimal text n) :
    parseTime text =
      if IntegerKind.i64.bounds.greatest < n then .error .tooLarge
      else if n < IntegerKind.i64.bounds.least then .error .tooSmall
      else .ok (Int64.ofInt n) := by
  cases h with
  | natural hne hdigits =>
    rw [parseTime_of_splitSign (splitSign_of_digits hdigits) hne hdigits]
    rfl
  | negated hne hdigits =>
    rw [parseTime_of_splitSign (splitSign_minus _) hne hdigits]
    rfl

/-- A text that is not decimal is refused as such. -/
theorem decimal_or_parseTime (text : Bytes) :
    (∃ n, Decimal text n) ∨ parseTime text = .error .notDecimal := by
  by_cases h : (splitSign text).2 ≠ [] ∧ ∀ b ∈ (splitSign text).2, Ascii.isDigit b = true
  · obtain ⟨hne, hdigits⟩ := h
    left
    obtain ⟨htext, -⟩ | hsplit := splitSign_cases text
    · rw [htext]
      exact ⟨_, .negated hne hdigits⟩
    · rw [hsplit] at hne hdigits
      exact ⟨_, .natural hne hdigits⟩
  · right
    have hform : (decide ((splitSign text).2 = []) || !(splitSign text).2.all Ascii.isDigit)
        = true := by
      rw [Bool.or_eq_true, decide_eq_true_eq, Bool.not_eq_true', ← Bool.not_eq_true,
        List.all_eq_true]
      exact Classical.or_iff_not_imp_left.2 fun hne hall => h ⟨hne, hall⟩
    unfold parseTime
    simp only [hform, if_true]

/-- Reading accepts exactly the decimal texts of times. -/
theorem parseTime_eq_ok_iff {text : Bytes} {t : Int64} :
    parseTime text = .ok t ↔ Decimal text t.toInt := by
  constructor
  · intro h
    obtain ⟨n, hn⟩ | hnot := decimal_or_parseTime text
    · rw [parseTime_of_decimal hn] at h
      split at h
      · cases h
      · split at h
        · cases h
        · rename_i hgreatest hleast
          simp only [IntegerKind.bounds] at hgreatest hleast
          cases h
          rwa [Int64.toInt_ofInt_of_le (by omega) (by omega)]
    · rw [hnot] at h
      cases h
  · intro h
    have hlt := t.toInt_lt
    have hle := t.le_toInt
    rw [parseTime_of_decimal h, if_neg (by simp only [IntegerKind.bounds]; omega),
      if_neg (by simp only [IntegerKind.bounds]; omega), Int64.ofInt_toInt]

example : parseTime (Ascii.ofString "-00") = .ok 0 := rfl

example : parseTime (Ascii.ofString "+5") = .error .notDecimal := rfl

/-- A time is read back from its text. -/
theorem parseTime_timeText (t : Int64) : parseTime (timeText t) = .ok t :=
  parseTime_eq_ok_iff.2 (decimal_timeText t)

end Token

end SealedState
