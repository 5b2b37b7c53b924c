/-
SealedState.Proofs.JsonLiterals — every value of JSON, before a reader of
strings or of integers.

Where a value begins, its first characters decide of which kind it is
(`Value.exists_first`), and digits that are no part of a longer number are
the value (`Value.eq_natural`). So a reader of one kind accepts no text in
which the grammar has a value of another kind.

`Follows` is what a record asks of the readers of its fields. It is about
every value that the grammar has, those of other kinds too, which are
refused.
-/
import SealedState.Proofs.JsonAcceptance

namespace SealedState

namespace Json.Reader

open Utf8

variable {rest : List Char}

theorem Ends.chars (h : Ends (bytes rest)) :
    ∀ c ∈ rest.head?, c.isDigit = false ∧ c ≠ '.' ∧ c ≠ 'e' ∧ c ≠ 'E' := by
  intro c hc
  obtain ⟨tail, rfl⟩ := List.head?_eq_some_iff.1 hc
  have hfirst : c.toNat < 0x80 → UInt8.ofNat c.toNat ∈ (bytes (c :: tail)).head? := by
    intro hascii
    rw [bytes_cons_of_ascii hascii]
    rfl
  refine ⟨eq_false_of_ne_true fun hdigit => ?_, ?_, ?_, ?_⟩
  · have hrange := Char.isDigit_iff_toNat.1 hdigit
    simp only [Char.reduceToNat] at hrange
    have hnot := (h _ (hfirst (by omega))).1
    rw [Ascii.isDigit_ofNat hdigit] at hnot
    cases hnot
  · rintro rfl
    exact (h _ (hfirst (by decide))).2.1 rfl
  · rintro rfl
    exact (h _ (hfirst (by decide))).2.2.1 rfl
  · rintro rfl
    exact (h _ (hfirst (by decide))).2.2.2 rfl

end Json.Reader

namespace Json.Grammar

open Reader (Ends)
open Utf8

variable {cs rest start : List Char} {l : Literal}

/-! ## One value in one place -/

/-- The characters that begin a value which is no string. -/
def firsts : List Char := "ntf[\x7b-0123456789".toList

theorem digit_mem_firsts {c : Char} (h : c.isDigit = true) : c ∈ firsts := by
  have hall : ∀ n : Fin 128, (Char.ofNat n.val).isDigit = true → Char.ofNat n.val ∈ firsts := by
    decide +kernel
  have hrange := Char.isDigit_iff_toNat.1 h
  simp only [Char.reduceToNat] at hrange
  have hc := hall ⟨c.toNat, by omega⟩
  rw [Char.ofNat_toNat] at hc
  exact hc h

theorem exists_digits_cons (n : Nat) (rest : List Char) : ∃ c tail,
    Nat.toDigits 10 n ++ rest = c :: tail ∧ c.isDigit = true := by
  obtain ⟨c, tail, hcons⟩ := List.exists_cons_of_ne_nil (Nat.toDigits_ne_nil (n := n) (b := 10))
  refine ⟨c, tail ++ rest, by rw [hcons, List.cons_append], ?_⟩
  exact Nat.isDigit_of_mem_toDigits (by decide) (by decide) (hcons ▸ List.mem_cons_self)

theorem exists_word_cons {w : String} (hw : w ∈ ["null", "true", "false"]) (rest : List Char) :
    ∃ c tail, w.toList ++ rest = c :: tail ∧ c ∈ firsts ∧ c.isDigit = false := by
  simp only [List.mem_cons, List.not_mem_nil, or_false] at hw
  rcases hw with rfl | rfl | rfl
  · exact ⟨'n', _, rfl, by decide, rfl⟩
  · exact ⟨'t', _, rfl, by decide, rfl⟩
  · exact ⟨'f', _, rfl, by decide, rfl⟩

theorem exists_suffix_cons {fraction exponent : List Char} (hfraction : Fraction fraction)
    (hexponent : Exponent exponent) (hne : fraction ≠ [] ∨ exponent ≠ []) (rest : List Char) :
    ∃ c tail, fraction ++ (exponent ++ rest) = c :: tail ∧ (c = '.' ∨ c = 'e' ∨ c = 'E') := by
  cases hfraction with
  | some => exact ⟨'.', _, rfl, .inl rfl⟩
  | none =>
    cases hexponent with
    | some hletter => exact ⟨_, _, rfl, .inr hletter⟩
    | none => simp at hne

/-- A value begins with a character that says whether it is a string. -/
theorem Value.exists_first (h : Value start l rest) :
    ∃ c tail, start = c :: tail ∧ (c = '"' ∧ (∃ s, l = .text s) ∨ c ∈ firsts) := by
  cases h with
  | word rest hw =>
    obtain ⟨c, tail, hcons, hc, -⟩ := exists_word_cons hw rest
    exact ⟨c, tail, hcons, .inr hc⟩
  | natural n rest =>
    obtain ⟨c, tail, hcons, hc⟩ := exists_digits_cons n rest
    exact ⟨c, tail, hcons, .inr (digit_mem_firsts hc)⟩
  | @number sign fraction exponent n rest hsign _ _ _ =>
    cases hsign with
    | none =>
      obtain ⟨c, tail, hcons, hc⟩ := exists_digits_cons n (fraction ++ (exponent ++ rest))
      refine ⟨c, tail, ?_, .inr (digit_mem_firsts hc)⟩
      rw [← hcons]
      simp only [List.nil_append, List.append_assoc]
    | minus => exact ⟨'-', _, rfl, .inr (by decide)⟩
  | text h => exact ⟨_, _, rfl, .inl ⟨rfl, _, rfl⟩⟩
  | list h => exact ⟨_, _, rfl, .inr (by decide)⟩
  | object h => exact ⟨_, _, rfl, .inr (by decide)⟩

theorem not_space_of_mem_firsts {c : Char} (h : c ∈ firsts) : isSpace c = false ∧ c ≠ ']' := by
  have hall : firsts.all (fun c => decide (isSpace c = false ∧ c ≠ ']')) = true := by
    decide +kernel
  exact of_decide_eq_true (List.all_eq_true.1 hall c h)

theorem Value.exists_cons (h : Value start l rest) :
    ∃ c tail, start = c :: tail ∧ isSpace c = false ∧ c ≠ ']' := by
  obtain ⟨c, tail, rfl, ⟨rfl, -⟩ | hc⟩ := h.exists_first
  · exact ⟨'"', tail, rfl, by decide, by decide⟩
  · exact ⟨c, tail, rfl, not_space_of_mem_firsts hc⟩

/-- A value has its place behind all of the white space. -/
theorem Gap.start_unique {start' rest' : List Char} {l' : Literal} (hgap : Gap cs start)
    (hvalue : Value start l rest) (hgap' : Gap cs start') (hvalue' : Value start' l' rest') :
    start = start' := by
  obtain ⟨c, tail, rfl, hc, -⟩ := hvalue.exists_cons
  obtain ⟨d, tail', rfl, hd, -⟩ := hvalue'.exists_cons
  rw [← hgap.dropWhile_eq hc, ← hgap'.dropWhile_eq hd]

/-- Digits end where no digit follows. -/
theorem toDigits_append_inj {n m : Nat} {after : List Char}
    (hrest : ∀ c ∈ rest.head?, c.isDigit = false) (hafter : ∀ c ∈ after.head?, c.isDigit = false)
    (h : Nat.toDigits 10 n ++ rest = Nat.toDigits 10 m ++ after) : n = m ∧ rest = after := by
  have hspan : ∀ (n : Nat) {rest : List Char}, (∀ c ∈ rest.head?, c.isDigit = false) →
      (Nat.toDigits 10 n ++ rest).takeWhile Char.isDigit = Nat.toDigits 10 n := by
    intro n rest hrest
    rw [List.takeWhile_append_of_pos fun c hc =>
      Nat.isDigit_of_mem_toDigits (by decide) (by decide) hc]
    cases rest with
    | nil => simp
    | cons c rest => rw [List.takeWhile_cons, hrest c rfl]; simp
  have hdigits := congrArg (List.takeWhile Char.isDigit) h
  rw [hspan n hrest, hspan m hafter] at hdigits
  have hvalue := congrArg (Nat.ofDigitChars 10 · 0) hdigits
  simp only [Nat.ofDigitChars_toDigits (b := 10) (by decide) (by decide)] at hvalue
  rw [hdigits] at h
  exact ⟨hvalue, List.append_cancel_left h⟩

/-- A string is no value of another kind. -/
theorem Value.eq_text {x : String} {rest' : List Char} (h : Value start (.text x) rest')
    (h' : Value start l rest) : ∃ s, l = .text s := by
  cases h with
  | text =>
    obtain ⟨c, tail, hcons, ⟨-, hs⟩ | hc⟩ := h'.exists_first
    · exact hs
    · cases hcons
      exact absurd hc (by decide)

/-- An integer is no value of another kind, nor a part of a number. -/
theorem Value.eq_natural {n : Nat} {after : List Char}
    (h : Value (Nat.toDigits 10 n ++ after) l rest) (hafter : Ends (bytes after))
    (hrest : Ends (bytes rest)) : l = .natural n := by
  have hnoDigit : ∀ c ∈ after.head?, c.isDigit = false := fun c hc => (hafter.chars c hc).1
  obtain ⟨d, tail, hdigits, hd⟩ := exists_digits_cons n after
  generalize hstart : Nat.toDigits 10 n ++ after = start at h
  cases h with
  | word rest hw =>
    obtain ⟨c, tail', hcons, -, hc⟩ := exists_word_cons hw rest
    cases (hdigits.symm.trans hstart).trans hcons
    rw [hd] at hc
    cases hc
  | natural m rest =>
    rw [(toDigits_append_inj hnoDigit (fun c hc => (hrest.chars c hc).1) hstart).1]
  | @number sign fraction exponent m rest hsign hfraction hexponent hne =>
    cases hsign with
    | minus =>
      cases hdigits.symm.trans hstart
      cases hd
    | none =>
      have hsuffix := hne.resolve_left fun hnot => hnot rfl
      obtain ⟨c, tail', hcons, hc⟩ := exists_suffix_cons hfraction hexponent hsuffix rest
      rw [List.nil_append, List.append_assoc, List.append_assoc, hcons] at hstart
      have hnot : ∀ c' ∈ (c :: tail').head?, c'.isDigit = false := by
        intro c' hc'
        cases hc'
        rcases hc with rfl | rfl | rfl
        · rfl
        · rfl
        · rfl
      obtain ⟨-, rfl⟩ := toDigits_append_inj hnoDigit hnot hstart
      obtain ⟨-, hpoint, hlower, hupper⟩ := hafter.chars c rfl
      rcases hc with hc | hc | hc
      · exact absurd hc hpoint
      · exact absurd hc hlower
      · exact absurd hc hupper
  | text h =>
    cases hdigits.symm.trans hstart
    cases hd
  | list h =>
    cases hdigits.symm.trans hstart
    cases hd
  | object h =>
    cases hdigits.symm.trans hstart
    cases hd

/-- The string that a value is. -/
def Literal.text? : Literal → Option String
  | .text s => some s
  | _ => none

/-- The integer that a value is. -/
def Literal.natural? : Literal → Option Nat
  | .natural n => some n
  | _ => none

theorem Literal.text?_eq_some_iff {s : String} : l.text? = some s ↔ l = .text s := by
  cases l <;> simp [text?]

theorem Literal.natural?_eq_some_iff {n : Nat} : l.natural? = some n ↔ l = .natural n := by
  cases l <;> simp [natural?]

end Json.Grammar

namespace Json.Reader

open Grammar Utf8

/-! ## Readers that follow the grammar -/

variable {α β : Type} {read : Reader α} {take : Literal → Option α}

/-- The reader accepts nothing but values, and of the values those that
`take` has a result for. -/
structure Follows (read : Reader α) (take : Literal → Option α) : Prop where
  exists_value : ∀ {cs : List Char} {x : α} {tail : Bytes}, read (bytes cs) = .ok (x, tail) →
    ∃ start l rest, Gap cs start ∧ Value start l rest ∧ tail = bytes rest
  reads : ∀ {cs start rest : List Char} {l : Literal}, Gap cs start → Value start l rest →
    Ends (bytes rest) → (read (bytes cs)).toOption = (take l).map fun x => (x, bytes rest)

theorem toOption_map (f : α → β) (read : Reader α) (start : Bytes) :
    (Reader.map f read start).toOption = (read start).toOption.map fun x => (f x.1, x.2) := by
  rw [Reader.map]
  cases read start with
  | error fault => rfl
  | ok x => rfl

theorem Follows.map (h : Follows read take) (f : α → β) :
    Follows (Reader.map f read) fun l => (take l).map f where
  exists_value hread := by
    obtain ⟨⟨x, tail⟩, hx, heq⟩ := bind_eq_ok_iff.1 hread
    cases heq
    exact h.exists_value hx
  reads hgap hvalue hends := by
    rw [toOption_map, h.reads hgap hvalue hends, Option.map_map, Option.map_map]
    rfl

theorem follows_string : Follows string Literal.text? where
  exists_value hread := by
    obtain ⟨start, rest, hgap, hvalue, rfl⟩ := string_eq_ok_iff.1 hread
    exact ⟨start, _, rest, hgap, hvalue, rfl⟩
  reads {cs start rest l} hgap hvalue hends := by
    cases hl : l.text? with
    | some s =>
      rw [Literal.text?_eq_some_iff.1 hl] at hvalue
      exact toOption_eq_some_iff.2 (string_eq_ok_iff.2 ⟨start, rest, hgap, hvalue, rfl⟩)
    | none =>
      cases hread : string (bytes cs) with
      | error fault => rfl
      | ok x =>
        obtain ⟨start', rest', hgap', hvalue', -⟩ := string_eq_ok_iff.1 hread
        rw [hgap.start_unique hvalue hgap' hvalue'] at hvalue
        obtain ⟨s, rfl⟩ := hvalue'.eq_text hvalue
        cases hl

theorem follows_integer {k : IntegerKind} (hk : k.isSigned = false) :
    Follows (integer k) fun l => l.natural?.bind fun n => k.bounds.ofInt? n where
  exists_value hread := by
    obtain ⟨n, rest, hgap, -, -, rfl⟩ := (integer_eq_ok_iff hk).1 hread
    exact ⟨_, _, rest, hgap, .natural n rest, rfl⟩
  reads {cs start rest l} hgap hvalue hends := by
    cases hl : l.natural?.bind fun n => k.bounds.ofInt? n with
    | some v =>
      obtain ⟨n, hn, hv⟩ := Option.bind_eq_some_iff.1 hl
      rw [Literal.natural?_eq_some_iff.1 hn] at hvalue
      cases hvalue
      exact toOption_eq_some_iff.2 ((integer_eq_ok_iff hk).2
        ⟨n, rest, hgap, Bounds.val_of_ofInt? hv, hends, rfl⟩)
    | none =>
      cases hread : integer k (bytes cs) with
      | error fault => rfl
      | ok x =>
        obtain ⟨v, tail⟩ := x
        obtain ⟨n, rest', hgap', hval, hends', -⟩ := (integer_eq_ok_iff hk).1 hread
        rw [hgap.start_unique hvalue hgap' (.natural n rest')] at hvalue
        rw [hvalue.eq_natural hends' hends, Literal.natural?, Option.bind_some, ← hval,
          Bounds.ofInt?_val] at hl
        cases hl

end Json.Reader

end SealedState
