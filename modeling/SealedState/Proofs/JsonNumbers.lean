/-
SealedState.Proofs.JsonNumbers — the numbers that are written, and where a
reader stops behind them.

What a floating-point number reads back as is not said here, only how far
it is read: `Unsigned` is the grammar of the texts that are written for
finite ones (`exists_finite`), and a reader that accepts such a text stops
at its end (`stops_number`).
-/
import SealedState.Proofs.JsonContainers

namespace SealedState

/-! ## The text of a number -/

namespace DecimalStyle

/-- Digits, at least one. -/
def Digits (cs : List Char) : Prop := cs ≠ [] ∧ ∀ c ∈ cs, c.isDigit = true

/-- The letter of an exponent with its sign and its digits, or nothing. -/
inductive Exponent : List Char → Prop
  | none : Exponent []
  | some {sign : Char} {digits : List Char} (hsign : sign = '+' ∨ sign = '-')
      (h : Digits digits) : Exponent ('e' :: sign :: digits)

/-- Digits, perhaps with a point and digits behind it, and perhaps with an
exponent. -/
inductive Unsigned : List Char → Prop
  | whole {digits exponent : List Char} (h : Digits digits) (he : Exponent exponent) :
      Unsigned (digits ++ exponent)
  | pointed {digits fraction exponent : List Char} (h : Digits digits) (hf : Digits fraction)
      (he : Exponent exponent) : Unsigned (digits ++ '.' :: (fraction ++ exponent))

theorem digits_toDigits (n : Nat) : Digits (Nat.toDigits 10 n) := by
  refine ⟨?_, fun c hc => Nat.isDigit_of_mem_toDigits (by decide) (by decide) hc⟩
  exact Nat.toDigits_ne_nil

theorem Digits.append {cs ds : List Char} (h : Digits cs) (hds : ∀ c ∈ ds, c.isDigit = true) :
    Digits (cs ++ ds) :=
  ⟨List.append_ne_nil_of_left_ne_nil h.1 ds, List.forall_mem_append.2 ⟨h.2, hds⟩⟩

theorem isDigit_replicate_zero (n : Nat) : ∀ c ∈ List.replicate n '0', c.isDigit = true := by
  intro c hc
  rw [List.eq_of_mem_replicate hc]
  rfl

theorem digits_zero : Digits ['0'] := ⟨List.cons_ne_nil _ _, List.forall_mem_singleton.2 rfl⟩

theorem unsigned_positionalText {digits : List Char} (h : Digits digits) (power : Int) :
    Unsigned (positionalText digits power) := by
  have hpos : 0 < digits.length := List.length_pos_iff.2 h.1
  fun_cases positionalText digits power with
  | case1 hpower =>
    have hwhole := h.append (isDigit_replicate_zero power.toNat)
    exact .pointed hwhole digits_zero .none
  | case2 count hpower hcount =>
    have hfront : Digits (digits.take count.toNat) := by
      refine ⟨fun hnil => ?_, fun c hc => h.2 c (List.mem_of_mem_take hc)⟩
      have hzero := (List.take_eq_nil_iff.1 hnil).resolve_right h.1
      omega
    have hback : Digits (digits.drop count.toNat) := by
      refine ⟨fun hnil => ?_, fun c hc => h.2 c (List.mem_of_mem_drop hc)⟩
      have hall := List.drop_eq_nil_iff.1 hnil
      omega
    have hunsigned := Unsigned.pointed hfront hback .none
    rwa [List.append_nil] at hunsigned
  | case3 count hpower hcount =>
    have hback : Digits (List.replicate (-count).toNat '0' ++ digits) :=
      ⟨List.append_ne_nil_of_right_ne_nil _ h.1,
        List.forall_mem_append.2 ⟨isDigit_replicate_zero _, h.2⟩⟩
    have hunsigned := Unsigned.pointed digits_zero hback .none
    rwa [List.append_nil] at hunsigned

theorem unsigned_scientificText {digits : List Char} (h : Digits digits) (power : Int) :
    Unsigned (scientificText digits power) := by
  obtain ⟨d, tail, rfl⟩ := List.exists_cons_of_ne_nil h.1
  obtain ⟨hd, htail⟩ := List.forall_mem_cons.1 h.2
  have hfirst : Digits [d] := ⟨List.cons_ne_nil d [], by simpa using hd⟩
  have hexponent : ∀ n : Int, Exponent ('e' :: (if n < 0 then '-' else '+')
      :: Nat.toDigits 10 n.natAbs) := by
    intro n
    refine .some ?_ (digits_toDigits n.natAbs)
    split
    · exact .inr rfl
    · exact .inl rfl
  cases tail with
  | nil => exact .whole hfirst (hexponent _)
  | cons c tail => exact .pointed hfirst ⟨List.cons_ne_nil c tail, htail⟩ (hexponent _)

/-- A finite number is written as an unsigned one, behind a sign if it has
one. -/
theorem exists_finite (style : DecimalStyle) (x : Binary64) : ∃ cs, Unsigned cs ∧
    (style.finite x).toList = (if x.isNegative then ['-'] else []) ++ cs := by
  fun_cases finite style x with
  | case1 sign hzero =>
    have hzeros : Unsigned ['0', '.', '0'] := .pointed digits_zero digits_zero .none
    exact ⟨['0', '.', '0'], hzeros, by simp [sign]⟩
  | case2 sign hzero d digits exponent isPositional =>
    refine ⟨if isPositional then positionalText digits d.power else scientificText digits d.power,
      ?_, by simp [sign]⟩
    split
    · exact unsigned_positionalText (digits_toDigits _) _
    · exact unsigned_scientificText (digits_toDigits _) _

end DecimalStyle

namespace Json.Reader

variable {rest : Bytes}

/-! ## What a number leaves -/

open DecimalStyle

/-- What a reader of numbers gives of a text, it leaves what comes after it. -/
def Stops (read : Reader Number) (text rest : Bytes) : Prop :=
  ∀ x after, read (text ++ rest) = .ok (x, after) → after = rest

theorem stops_floating (negative : Bool) (sum : Nat) (power : Int) :
    Stops (floating negative sum power) [] rest := by
  intro x after h
  rw [List.nil_append, floating] at h
  split at h
  · cases h
    rfl
  · cases h

theorem stops_exponentDigits (hrest : Ends rest) {negative : Bool} {sum : Nat} {power : Int}
    {down : Bool} : ∀ (digits : Bytes), (∀ b ∈ digits, Ascii.isDigit b = true) → ∀ exponent : Nat,
    Stops (exponentDigits negative sum power down exponent) digits rest
  | [], _, exponent => by
      intro x after h
      rw [List.nil_append, exponentDigits.eq_def] at h
      split at h
      · exact stops_floating _ _ _ x after h
      · rename_i b rest
        rw [(hrest b rfl).1, if_neg Bool.false_ne_true] at h
        exact stops_floating _ _ _ x after h
  | b :: digits, hdigits, exponent => by
      obtain ⟨hb, hdigits⟩ := List.forall_mem_cons.1 hdigits
      intro x after h
      rw [List.cons_append, exponentDigits, if_pos hb] at h
      simp only at h
      split at h
      · exact stops_exponentDigits hrest digits hdigits _ x after h
      · split at h
        · cases h
        · cases h
          exact (takeWhile_digits hrest hdigits).2

theorem stops_exponent (hrest : Ends rest) {negative : Bool} {sum : Nat} {power : Int}
    {sign : UInt8} (hsign : sign = Ascii.plus ∨ sign = Ascii.minus) {digits : Bytes}
    (hne : digits ≠ []) (hdigits : ∀ b ∈ digits, Ascii.isDigit b = true) :
    Stops (exponent negative sum power) (sign :: digits) rest := by
  obtain ⟨b, digits, rfl⟩ := List.exists_cons_of_ne_nil hne
  obtain ⟨hb, hdigits⟩ := List.forall_mem_cons.1 hdigits
  intro x after h
  rcases hsign with rfl | rfl
  · change (if Ascii.isDigit b then exponentDigits negative sum power false (Ascii.digitValue b)
      (digits ++ rest) else Issue.invalidNumber.before (digits ++ rest)) = _ at h
    rw [if_pos hb] at h
    exact stops_exponentDigits hrest digits hdigits _ x after h
  · change (if Ascii.isDigit b then exponentDigits negative sum power true (Ascii.digitValue b)
      (digits ++ rest) else Issue.invalidNumber.before (digits ++ rest)) = _ at h
    rw [if_pos hb] at h
    exact stops_exponentDigits hrest digits hdigits _ x after h

/-- The digits that do not fit into a sum are at the end. -/
theorem exists_addDigits (hrest : startsWithDigit rest = false) (digits : Bytes) :
    ∀ sum count : Nat, (∀ b ∈ digits, Ascii.isDigit b = true) → ∃ sum' count' suffix,
      addDigits sum count (digits ++ rest) = (sum', count', suffix ++ rest) ∧
        ∀ b ∈ suffix, Ascii.isDigit b = true := by
  induction digits with
  | nil =>
    intro sum count _
    refine ⟨sum, count, [], ?_, by simp⟩
    cases rest with
    | nil => rfl
    | cons b rest =>
      rw [startsWithDigit] at hrest
      rw [List.nil_append, addDigits, hrest, Bool.false_and, if_neg Bool.false_ne_true]
  | cons b digits ih =>
    intro sum count hdigits
    rw [List.cons_append, addDigits]
    split
    · exact ih _ _ fun b hb => hdigits b (List.mem_cons_of_mem _ hb)
    · exact ⟨sum, count, b :: digits, rfl, hdigits⟩

theorem dropDigits_append (hrest : startsWithDigit rest = false) {digits : Bytes}
    (h : ∀ b ∈ digits, Ascii.isDigit b = true) : dropDigits (digits ++ rest) = rest := by
  rw [dropDigits, List.dropWhile_append_of_pos h]
  cases rest with
  | nil => rfl
  | cons b rest =>
    rw [startsWithDigit] at hrest
    rw [List.dropWhile_cons, hrest, if_neg Bool.false_ne_true]

theorem isDigit_ofChars {cs : List Char} (h : Digits cs) :
    Ascii.ofChars cs ≠ [] ∧ ∀ b ∈ Ascii.ofChars cs, Ascii.isDigit b = true := by
  refine ⟨fun hnil => h.1 (List.map_eq_nil_iff.1 hnil), fun b hb => ?_⟩
  obtain ⟨c, hc, rfl⟩ := List.mem_map.1 hb
  exact Ascii.isDigit_ofNat (h.2 c hc)

/-- What stands behind digits is no digit, and is an exponent or nothing. -/
theorem exponent_cases (hrest : Ends rest) {cs : List Char} (h : Exponent cs) :
    startsWithDigit (Ascii.ofChars cs ++ rest) = false ∧
    (∀ after, Ascii.ofChars cs ++ rest ≠ Ascii.point :: after) ∧
    ((Ascii.ofChars cs = [] ∧ afterExponentLetter? (Ascii.ofChars cs ++ rest) = none) ∨
      ∃ text, afterExponentLetter? (Ascii.ofChars cs ++ rest) = some (text ++ rest) ∧
        ∀ negative sum power, Stops (exponent negative sum power) text rest) := by
  cases h with
  | none =>
    refine ⟨hrest.startsWithDigit, fun after hpoint => ?_, .inl ⟨rfl, hrest.afterExponentLetter?⟩⟩
    have hpoint : rest = Ascii.point :: after := hpoint
    subst hpoint
    exact absurd rfl (hrest _ rfl).2.1
  | @some sign digits hsign hdigits =>
    obtain ⟨hne, hall⟩ := isDigit_ofChars hdigits
    have hbyte : UInt8.ofNat sign.toNat = Ascii.plus ∨ UInt8.ofNat sign.toNat = Ascii.minus := by
      rcases hsign with rfl | rfl
      · exact .inl rfl
      · exact .inr rfl
    refine ⟨rfl, fun after hpoint => ?_, .inr ⟨_, rfl, fun negative sum power =>
      stops_exponent hrest hbyte hne hall⟩⟩
    cases hpoint

theorem stops_fraction (hrest : Ends rest) {negative : Bool} {sum : Nat} {power : Int}
    {digits exponent : List Char} (hdigits : Digits digits) (hexponent : Exponent exponent) :
    Stops (fraction negative sum power) (Ascii.ofChars (digits ++ exponent)) rest := by
  obtain ⟨hdigit, -, hafter⟩ := exponent_cases hrest hexponent
  obtain ⟨hne, hall⟩ := isDigit_ofChars hdigits
  obtain ⟨sum', count, suffix, hadd, hsuffix⟩ := exists_addDigits hdigit _ sum 0 hall
  intro x after h
  rw [Ascii.ofChars, List.map_append, List.append_assoc, ← Ascii.ofChars, ← Ascii.ofChars, fraction,
    hadd] at h
  simp only [dropDigits_append hdigit hsuffix] at h
  split at h
  · split at h <;> cases h
  · rcases hafter with ⟨hnil, hletter⟩ | ⟨text, hletter, hstops⟩
    · rw [hletter, hnil] at h
      exact stops_floating _ _ _ x after h
    · rw [hletter] at h
      exact hstops _ _ _ x after h

theorem stops_afterInteger_exponent (hrest : Ends rest) {negative : Bool} {sum dropped : Nat}
    {exponent : List Char} (hexponent : Exponent exponent) :
    Stops (afterInteger negative sum dropped) (Ascii.ofChars exponent) rest := by
  obtain ⟨-, hpoint, hafter⟩ := exponent_cases hrest hexponent
  intro x after h
  rw [afterInteger.eq_def] at h
  split at h
  · exact absurd ‹_› (hpoint _)
  · rcases hafter with ⟨hnil, hletter⟩ | ⟨text, hletter, hstops⟩
    · rw [hletter, hnil] at h
      simp only at h
      split at h
      · cases h
        rfl
      · exact stops_floating _ _ _ x after h
    · rw [hletter] at h
      exact hstops _ _ _ x after h

theorem stops_number_digits {tail : Bytes} (htail : startsWithDigit (tail ++ rest) = false)
    {negative : Bool} {digits : List Char} (hdigits : Digits digits)
    (h : ∀ sum dropped, Stops (afterInteger negative sum dropped) tail rest) :
    Stops (number negative) (Ascii.ofChars digits ++ tail) rest := by
  obtain ⟨hne, hall⟩ := isDigit_ofChars hdigits
  obtain ⟨b, bytes, hbytes⟩ := List.exists_cons_of_ne_nil hne
  rw [hbytes] at hall ⊢
  obtain ⟨sum, count, suffix, hadd, hsuffix⟩ := exists_addDigits htail _ 0 0 hall
  intro x after hread
  rw [List.append_assoc, number.eq_def] at hread
  split at hread
  · cases hread
  · rename_i heq
    split at hread
    · cases hread
    · rename_i hzero
      cases heq
      cases bytes with
      | nil => exact h 0 0 x after hread
      | cons b bytes => exact absurd (hall b (by simp)) hzero
  · split at hread
    · rw [hadd] at hread
      simp only [dropDigits_append htail hsuffix] at hread
      exact h _ _ x after hread
    · cases hread

/-- A number is read to its end, if it is read. -/
theorem stops_number (hrest : Ends rest) (negative : Bool) {cs : List Char} (h : Unsigned cs) :
    Stops (number negative) (Ascii.ofChars cs) rest := by
  cases h with
  | @whole digits exponent hdigits hexponent =>
    rw [Ascii.ofChars, List.map_append]
    exact stops_number_digits (exponent_cases hrest hexponent).1 hdigits fun sum dropped =>
      stops_afterInteger_exponent hrest hexponent
  | @pointed digits fraction exponent hdigits hfraction hexponent =>
    rw [Ascii.ofChars, List.map_append]
    exact stops_number_digits rfl hdigits fun sum dropped =>
      stops_fraction hrest hfraction hexponent

end Json.Reader
end SealedState
