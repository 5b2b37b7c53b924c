/-
SealedState.Proofs.TokenFaults — what the parser of tokens says of a text
that is no token.

`Token.Flaw` says without the parser what may be wrong with one field, and
`Token.Faulty` with a text: the number of its fields, or else the first of
five that has a flaw. The parser gives this cause and no other
(`parse_eq_error_iff`). A cause names a count, a field or a kind of flaw,
so two texts that share it are told in the same words.

This is the failing side of step 1 of `decode` in SPEC_FULL.md §4.1.
-/
import SealedState.Proofs.TokenTheorems

namespace SealedState.Token

/-! ## Flaws -/

/-- The fields of a token, in order. -/
def Field.all : List Field := [.ciphertext, .issuedAt, .tenantId, .iv, .tag]

/-- What is wrong with the text of a time. -/
inductive TimeFlaw (time : Bytes) : Malformation → Prop
  | form (h : ∀ n, ¬ Decimal time n) : TimeFlaw time .notDecimal
  | tooLarge {n : Int} (decimal : Decimal time n) (h : 0x7fffffffffffffff < n) :
      TimeFlaw time .tooLarge
  | tooSmall {n : Int} (decimal : Decimal time n) (h : n < -0x8000000000000000) :
      TimeFlaw time .tooSmall

/-- What is wrong with a field. -/
inductive Flaw : Field → List Char → Malformation → Prop
  | spelling {field : Field} {part : List Char} (h : ¬ Base64url.Canonical part) :
      Flaw field part (.notBase64url field)
  | time {time : Bytes} {cause : Malformation} (h : TimeFlaw time cause) :
      Flaw .issuedAt (Base64url.encodeChars time) cause

/-- The parts of a text between its bars. -/
def parts (text : String) : List (List Char) := splitAll separator text.toList

/-- What is wrong with a text: the number of its fields, or the first field
that has a flaw. -/
inductive Faulty (text : String) : Malformation → Prop
  | count (h : (parts text).length ≠ fieldCount) : Faulty text (.fields (parts text).length)
  | field {before after : List (Field × List Char)} {field : Field} {part : List Char}
      {cause : Malformation} (count : (parts text).length = fieldCount)
      (fields : Field.all.zip (parts text) = before ++ (field, part) :: after)
      (sound : ∀ x ∈ before, ∀ cause, ¬ Flaw x.1 x.2 cause) (flaw : Flaw field part cause) :
      Faulty text cause

/-! ## One field -/

theorem fieldBytes_eq_error_iff {field : Field} {part : List Char} {cause : Malformation} :
    fieldBytes field part = .error cause ↔
      ¬ Base64url.Canonical part ∧ cause = .notBase64url field := by
  rw [Base64url.canonical_iff]
  simp only [← Base64url.decodeChars?_eq_some_iff]
  unfold fieldBytes
  cases Base64url.decodeChars? part <;> simp [eq_comm]

theorem parseTime_eq_error_iff {time : Bytes} {cause : Malformation} :
    parseTime time = .error cause ↔ TimeFlaw time cause := by
  constructor
  · intro h
    by_cases hdecimal : ∃ n, Decimal time n
    · obtain ⟨n, hn⟩ := hdecimal
      rw [parseTime_of_decimal hn] at h
      split at h
      · rename_i hlarge
        simp only [IntegerKind.bounds] at hlarge
        cases h
        exact .tooLarge hn (by omega)
      · split at h
        · rename_i hsmall
          simp only [IntegerKind.bounds] at hsmall
          cases h
          exact .tooSmall hn (by omega)
        · cases h
    · obtain hsome | hnot := decimal_or_parseTime time
      · exact absurd hsome hdecimal
      · obtain rfl := Except.error.inj (hnot.symm.trans h)
        exact .form fun n hn => hdecimal ⟨n, hn⟩
  · intro h
    cases h with
    | form h =>
      obtain ⟨n, hn⟩ | hnot := decimal_or_parseTime time
      · exact absurd hn (h n)
      · exact hnot
    | tooLarge hn h =>
      rw [parseTime_of_decimal hn, if_pos (by simp only [IntegerKind.bounds]; omega)]
    | tooSmall hn h =>
      rw [parseTime_of_decimal hn, if_neg (by simp only [IntegerKind.bounds]; omega),
        if_pos (by simp only [IntegerKind.bounds]; omega)]

/-- What the parser finds wrong with a field. -/
def flaw? (field : Field) (part : List Char) : Option Malformation :=
  match fieldBytes field part with
  | .error cause => some cause
  | .ok b =>
    if field = .issuedAt then
      match parseTime b with
      | .error cause => some cause
      | .ok _ => none
    else none

theorem flaw?_eq_some_iff {field : Field} {part : List Char} {cause : Malformation} :
    flaw? field part = some cause ↔ Flaw field part cause := by
  constructor
  · intro h
    unfold flaw? at h
    split at h
    · rename_i hread
      obtain ⟨hspelling, rfl⟩ := fieldBytes_eq_error_iff.1 hread
      cases h
      exact .spelling hspelling
    · rename_i time hread
      obtain rfl := fieldBytes_eq_ok_iff.1 hread
      split at h
      · rename_i hfield
        subst hfield
        split at h
        · rename_i htime
          cases h
          exact .time (parseTime_eq_error_iff.1 htime)
        · cases h
      · cases h
  · intro h
    unfold flaw?
    cases h with
    | spelling h => rw [fieldBytes_eq_error_iff.2 ⟨h, rfl⟩]
    | time h =>
      rw [fieldBytes_encodeChars]
      simp only [if_true, parseTime_eq_error_iff.2 h]

/-! ## All fields -/

/-- The parser reads the parts of a text, if they are as many as the fields
of a token, and reports the first flaw that it finds. -/
theorem parse_eq_error_iff_findSome? {text : String} {cause : Malformation} :
    parse text = .error cause ↔
      if (parts text).length = fieldCount then
        (Field.all.zip (parts text)).findSome? (fun x => flaw? x.1 x.2) = some cause
      else .fields (parts text).length = cause := by
  unfold parse
  rw [← parts]
  split
  · rename_i ciphertext issuedAt tenantId iv tag hparts
    have hcount : [ciphertext, issuedAt, tenantId, iv, tag].length = fieldCount := rfl
    rw [hparts, if_pos hcount]
    simp only [Field.all, List.zip_cons_cons, List.zip_nil_left, List.findSome?_cons,
      List.findSome?_nil, flaw?, bind, Except.bind, pure, Except.pure]
    -- both sides stop at the first of six readings that fails
    cases fieldBytes .ciphertext ciphertext with
    | error cause => simp
    | ok ciphertext =>
    simp only [reduceCtorEq, if_false]
    cases fieldBytes .issuedAt issuedAt with
    | error cause => simp
    | ok time =>
    simp only [if_true]
    cases parseTime time with
    | error cause => simp
    | ok issuedAt =>
    cases fieldBytes .tenantId tenantId with
    | error cause => simp
    | ok tenantId =>
    cases fieldBytes .iv iv with
    | error cause => simp
    | ok iv =>
    cases fieldBytes .tag tag with
    | error cause => simp
    | ok tag => simp
  · rename_i hfive
    rw [if_neg ?_]
    · exact ⟨Except.error.inj, congrArg Except.error⟩
    · intro hlength
      match parts text, hlength, hfive with
      | [a, b, c, d, e], _, hfive => exact hfive a b c d e rfl

/-- The cause that the parser gives for a text is what is wrong with it. -/
theorem parse_eq_error_iff {text : String} {cause : Malformation} :
    parse text = .error cause ↔ Faulty text cause := by
  rw [parse_eq_error_iff_findSome?]
  split
  · rename_i hcount
    rw [List.findSome?_eq_some_iff]
    constructor
    · rintro ⟨before, ⟨field, part⟩, after, hfields, hflaw, hsound⟩
      refine .field hcount hfields ?_ (flaw?_eq_some_iff.1 hflaw)
      intro x hx cause' hflaw'
      have hsome := flaw?_eq_some_iff.2 hflaw'
      rw [hsound x hx] at hsome
      cases hsome
    · intro h
      cases h with
      | count h => exact absurd hcount h
      | field _ hfields hsound hflaw =>
        refine ⟨_, _, _, hfields, flaw?_eq_some_iff.2 hflaw, ?_⟩
        intro x hx
        refine Option.eq_none_iff_forall_ne_some.2 ?_
        intro cause' hsome
        exact hsound x hx cause' (flaw?_eq_some_iff.1 hsome)
  · rename_i hcount
    constructor
    · rintro rfl
      exact .count hcount
    · intro h
      cases h with
      | count => rfl
      | field h => exact absurd h hcount

/-- A faulty text is no token. -/
theorem Faulty.parse_ne_ok {text : String} {cause : Malformation} (h : Faulty text cause)
    (t : Token) : parse text ≠ .ok t := by
  rw [parse_eq_error_iff.2 h]
  exact nofun

theorem parsed_or_faulty (text : String) :
    (∃ t, parse text = .ok t) ∨ ∃ cause, Faulty text cause := by
  cases hparse : parse text with
  | ok t => exact .inl ⟨t, rfl⟩
  | error cause => exact .inr ⟨cause, parse_eq_error_iff.1 hparse⟩

end SealedState.Token
