/-
SealedState.Proofs.JsonAcceptance — which texts the readers of strings and
of integers accept.

`string_eq_ok_iff` and `integer_eq_ok_iff` say it in the words of the
grammar, and as what the text is read. An integer is digits only: whatever
has a point or an exponent is a floating-point number, if it is one at all,
and so is a sum of digits that outgrows 64 bits (`number_eq_integer`). A
value of another kind is never accepted (`wrongType_ne_ok`).
-/
import Mathlib.Data.List.Induction
import SealedState.Proofs.JsonSpellings

namespace SealedState

/-! ## Digits -/

namespace Ascii

theorem ofChars_append (cs ds : List Char) : ofChars (cs ++ ds) = ofChars cs ++ ofChars ds :=
  List.map_append

theorem ofChars_digitChar {b : UInt8} (h : isDigit b = true) :
    digitValue b < 10 ∧ ofChars [Nat.digitChar (digitValue b)] = [b] := by
  have hall : ∀ n : Fin 256, isDigit (UInt8.ofNat n.val) = true →
      digitValue (UInt8.ofNat n.val) < 10 ∧
      ofChars [Nat.digitChar (digitValue (UInt8.ofNat n.val))] = [UInt8.ofNat n.val] := by
    decide +kernel
  have hb := hall ⟨b.toNat, b.toNat_lt⟩
  simp only [UInt8.ofNat_toNat] at hb
  exact hb h

theorem decimalValue_concat (digits : Bytes) (d : UInt8) :
    decimalValue (digits ++ [d]) = decimalValue digits * 10 + digitValue d := by
  simp [decimalValue]

/-- Digits without a leading zero are the text of the number that they
spell. -/
theorem eq_toDigits {digits : Bytes} (hne : digits ≠ []) (hzero : zero ∉ digits.head?)
    (h : ∀ b ∈ digits, isDigit b = true) :
    digits = ofChars (Nat.toDigits 10 (decimalValue digits)) := by
  induction digits using List.reverseRecOn with
  | nil => exact absurd rfl hne
  | append_singleton init d ih =>
    obtain ⟨hinit, hd⟩ := List.forall_mem_append.1 h
    obtain ⟨hlt, hchar⟩ := ofChars_digitChar (hd d List.mem_cons_self)
    rw [decimalValue_concat]
    cases init with
    | nil =>
      rw [show decimalValue [] = 0 from rfl, Nat.zero_mul, Nat.zero_add,
        Nat.toDigits_of_lt_base hlt, hchar, List.nil_append]
    | cons first init =>
      have ih := ih (List.cons_ne_nil first init) hzero hinit
      have hpos : 0 < decimalValue (first :: init) := by
        refine Nat.pos_of_ne_zero fun hvalue => ?_
        rw [hvalue] at ih
        exact hzero (congrArg List.head? ih ▸ rfl)
      rw [Nat.toDigits_of_base_le (by decide) (by omega), ofChars_append,
        show (decimalValue (first :: init) * 10 + digitValue d) / 10
          = decimalValue (first :: init) by omega,
        show (decimalValue (first :: init) * 10 + digitValue d) % 10 = digitValue d by omega,
        hchar, ← ih]

end Ascii

namespace Utf8

/-- Bytes that begin as a text of ASCII does begin with that text. -/
theorem exists_of_bytes_eq_append : ∀ {ds cs : List Char} {tail : Bytes},
    (∀ c ∈ ds, c.toNat < 0x80) → bytes cs = Ascii.ofChars ds ++ tail →
    ∃ rest, cs = ds ++ rest ∧ tail = bytes rest
  | [], cs, _, _, h => ⟨cs, rfl, h.symm⟩
  | c :: ds, cs, tail, hascii, h => by
      obtain ⟨hc, hascii⟩ := List.forall_mem_cons.1 hascii
      have hbyte : (UInt8.ofNat c.toNat).toNat = c.toNat := toNat_byte (by omega)
      have hlt : UInt8.ofNat c.toNat < 0x80 := by
        rw [UInt8.lt_iff_toNat_lt, hbyte]
        exact hc
      obtain ⟨cs, rfl, hrest⟩ := exists_of_bytes_eq_cons h hlt
      obtain ⟨rest, rfl, rfl⟩ := exists_of_bytes_eq_append hascii hrest.symm
      rw [hbyte, Char.ofNat_toNat]
      exact ⟨rest, rfl, rfl⟩

theorem ascii_toDigits (n : Nat) : ∀ c ∈ Nat.toDigits 10 n, c.toNat < 0x80 := by
  intro c hc
  have hdigit := Nat.isDigit_of_mem_toDigits (by decide) (by decide) hc
  have hrange := Char.isDigit_iff_toNat.1 hdigit
  simp only [Char.reduceToNat] at hrange
  omega

end Utf8

theorem Bounds.val_of_ofInt? {b : Bounds} {n : Int} {v : b.Value} (h : b.ofInt? n = some v) :
    v.val = n := by
  rw [ofInt?] at h
  split at h
  · cases h
    rfl
  · cases h

namespace Json.Reader

open Grammar Utf8

/-! ## Numbers that are integers -/

section Numbers

variable {negative down : Bool} {sum dropped : Nat} {power : Int} {n : integerBounds.Value}
  {start tail : Bytes}

theorem floating_ne_integer : floating negative sum power start ≠ .ok (.integer n, tail) := by
  intro h
  rw [floating] at h
  split at h
  · cases h
  · cases h

theorem exponentDigits_ne_integer : ∀ {start : Bytes} {exponent : Nat},
    exponentDigits negative sum power down exponent start ≠ .ok (.integer n, tail)
  | [], _ => floating_ne_integer
  | b :: start, exponent => by
      intro h
      rw [exponentDigits] at h
      split at h
      · simp only at h
        split at h
        · exact exponentDigits_ne_integer h
        · split at h
          · cases h
          · cases h
      · exact floating_ne_integer h

theorem exponent_ne_integer : exponent negative sum power start ≠ .ok (.integer n, tail) := by
  intro h
  rw [exponent.eq_def] at h
  simp only at h
  split at h
  · cases h
  · split at h
    · exact exponentDigits_ne_integer h
    · cases h

theorem fraction_ne_integer : fraction negative sum power start ≠ .ok (.integer n, tail) := by
  intro h
  rw [fraction.eq_def] at h
  simp only at h
  split at h
  · split at h
    · cases h
    · cases h
  · split at h
    · exact exponent_ne_integer h
    · exact floating_ne_integer h

/-- An integer is all that was read of the number, and nothing that follows
continues it. -/
theorem afterInteger_eq_integer
    (h : afterInteger negative sum dropped start = .ok (.integer n, tail)) :
    dropped = 0 ∧ whole negative sum = .integer n ∧ tail = start ∧
      ∀ b ∈ start.head?, b ≠ Ascii.point ∧ b ≠ Ascii.lowerE ∧ b ≠ Ascii.upperE := by
  rw [afterInteger.eq_def] at h
  split at h
  · exact absurd h fraction_ne_integer
  · rename_i hpoint
    split at h
    · exact absurd h exponent_ne_integer
    · rename_i hletter
      split at h
      · rename_i hdropped
        rw [Except.ok.injEq, Prod.mk.injEq] at h
        obtain ⟨hwhole, rfl⟩ := h
        refine ⟨hdropped, hwhole, rfl, fun b hb => ?_⟩
        obtain ⟨rest, rfl⟩ := List.head?_eq_some_iff.1 hb
        refine ⟨?_, ?_, ?_⟩
        · rintro rfl
          exact hpoint rest rfl
        · rintro rfl
          cases hletter
        · rintro rfl
          cases hletter
      · exact absurd h floating_ne_integer

/-- The digits of a number up to the first that does not fit. -/
theorem eq_append_of_addDigits : ∀ {start : Bytes} {sum count sum' count' : Nat},
    addDigits sum count start = (sum', count', tail) → ∃ digits, start = digits ++ tail ∧
      (∀ b ∈ digits, Ascii.isDigit b = true) ∧
      sum' = digits.foldl (fun n b => n * 10 + Ascii.digitValue b) sum
  | [], sum, count, sum', count', h => by
      cases h
      exact ⟨[], rfl, by simp, rfl⟩
  | b :: start, sum, count, sum', count', h => by
      rw [addDigits] at h
      split at h
      · rename_i hb
        obtain ⟨digits, rfl, hdigits, rfl⟩ := eq_append_of_addDigits h
        have hb := (Bool.and_eq_true_iff.1 hb).1
        exact ⟨b :: digits, rfl, List.forall_mem_cons.2 ⟨hb, hdigits⟩, rfl⟩
      · cases h
        exact ⟨[], rfl, by simp, rfl⟩

theorem of_no_digits {rest : Bytes} (h : (rest.takeWhile Ascii.isDigit).length = 0) :
    startsWithDigit rest = false ∧ dropDigits rest = rest := by
  cases rest with
  | nil => exact ⟨rfl, rfl⟩
  | cons b rest =>
    have hb : Ascii.isDigit b = false := by
      refine eq_false_of_ne_true fun hb => ?_
      rw [List.takeWhile_cons, if_pos hb] at h
      cases h
    exact ⟨hb, by rw [dropDigits, List.dropWhile_cons, hb, if_neg Bool.false_ne_true]⟩

theorem Number.val_of_ofInt {i : Int} (h : Number.ofInt i = .integer n) : n.val = i := by
  rw [Number.ofInt] at h
  split at h
  · rename_i v hv
    cases h
    exact Bounds.val_of_ofInt? hv
  · cases h

/-- A number that is read as an integer is written with digits only. -/
theorem number_eq_integer (h : number negative start = .ok (.integer n, tail)) :
    ∃ sum, start = Ascii.ofChars (Nat.toDigits 10 sum) ++ tail ∧ Ends tail ∧
      whole negative sum = .integer n := by
  have hends : startsWithDigit tail = false → (∀ b ∈ tail.head?, b ≠ Ascii.point ∧
      b ≠ Ascii.lowerE ∧ b ≠ Ascii.upperE) → Ends tail := by
    intro hdigit hnot b hb
    obtain ⟨rest, rfl⟩ := List.head?_eq_some_iff.1 hb
    exact ⟨hdigit, hnot b hb⟩
  rw [number.eq_def] at h
  split at h
  · cases h
  · rename_i rest
    split at h
    · cases h
    · rename_i hdigit
      obtain ⟨-, hwhole, rfl, hnot⟩ := afterInteger_eq_integer h
      exact ⟨0, rfl, hends (eq_false_of_ne_true hdigit) hnot, hwhole⟩
  · rename_i b after hzero
    split at h
    · rename_i hb
      rcases hadd : addDigits 0 0 (b :: after) with ⟨sum, count, rest⟩
      rw [hadd] at h
      obtain ⟨hdropped, hwhole, htail, hnot⟩ := afterInteger_eq_integer h
      obtain ⟨hdigit, hdrop⟩ := of_no_digits hdropped
      rw [hdrop] at htail hnot
      subst htail
      obtain ⟨digits, hstart, hdigits, hsum⟩ := eq_append_of_addDigits hadd
      have hne : digits ≠ [] := by
        rintro rfl
        rw [List.nil_append] at hstart
        rw [← hstart, startsWithDigit, hb] at hdigit
        cases hdigit
      have hfirst : Ascii.zero ∉ digits.head? := by
        intro hhead
        obtain ⟨more, rfl⟩ := List.head?_eq_some_iff.1 hhead
        cases hstart
        exact hzero rfl
      refine ⟨sum, ?_, hends hdigit hnot, hwhole⟩
      rw [hstart, hsum]
      exact congrArg (· ++ tail) (Ascii.eq_toDigits hne hfirst hdigits)
    · cases h

end Numbers

/-! ## Values of other kinds -/

theorem mismatch_ne_ok {α : Type} {m : Mismatch} {rest : Bytes} {x : α} :
    mismatch m rest ≠ .ok x := by
  intro h
  cases h

theorem wrongType_ne_ok {α : Type} {expected : String} {b : UInt8} {rest : Bytes}
    {x : α × Bytes} : wrongType expected b rest ≠ .ok x := by
  intro h
  simp only [wrongType] at h
  split at h
  · obtain ⟨_, -, h⟩ := bind_eq_ok_iff.1 h
    exact mismatch_ne_ok h
  split at h
  · obtain ⟨_, -, h⟩ := bind_eq_ok_iff.1 h
    exact mismatch_ne_ok h
  split at h
  · obtain ⟨_, -, h⟩ := bind_eq_ok_iff.1 h
    exact mismatch_ne_ok h
  split at h
  · obtain ⟨_, -, h⟩ := bind_eq_ok_iff.1 h
    exact mismatch_ne_ok h
  split at h
  · obtain ⟨_, -, h⟩ := bind_eq_ok_iff.1 h
    exact mismatch_ne_ok h
  split at h
  · exact mismatch_ne_ok h
  split at h
  · exact mismatch_ne_ok h
  · cases h

theorem dispatch_eq_ok_iff {α : Type} {read : UInt8 → Reader α} {start : Bytes} {x : α × Bytes} :
    dispatch read start = .ok x ↔ ∃ b rest, skipBlank start = b :: rest ∧ read b rest = .ok x := by
  rw [dispatch]
  split
  · rename_i hnil
    constructor
    · intro h
      cases h
    · rintro ⟨b, rest, hcons, -⟩
      rw [hnil] at hcons
      cases hcons
  · rename_i b rest hcons
    constructor
    · intro h
      exact ⟨b, rest, hcons, h⟩
    · rintro ⟨b', rest', hcons', h⟩
      cases hcons.symm.trans hcons'
      exact h

variable {cs rest start : List Char} {l : Literal}

/-- A string is read where there is one. -/
theorem string_eq_ok_iff {x : String} {tail : Bytes} : string (bytes cs) = .ok (x, tail) ↔
    ∃ start rest, Gap cs start ∧ Value start (.text x) rest ∧ tail = bytes rest := by
  rw [string, dispatch_eq_ok_iff]
  constructor
  · rintro ⟨b, rest, hskip, h⟩
    split at h
    · rename_i hb
      subst hb
      obtain ⟨body, hgap, rfl⟩ := exists_gap hskip (by decide)
      obtain ⟨s, rest, hbody, rfl, rfl⟩ := text_eq_ok_iff.1 h
      exact ⟨_, rest, hgap, .text hbody, rfl⟩
    · exact absurd h wrongType_ne_ok
  · rintro ⟨start, rest, hgap, hvalue, rfl⟩
    cases hvalue with
    | text hbody =>
      have hskip := skipBlank_of_gap hgap (by decide)
      rw [bytes_cons_of_ascii (by decide)] at hskip
      refine ⟨_, _, hskip, ?_⟩
      rw [if_pos (by decide)]
      exact text_eq_ok_iff.2 ⟨_, _, hbody, rfl, rfl⟩

theorem dispatch_of_gap {α : Type} {read : UInt8 → Reader α} (h : Gap cs start) :
    dispatch read (bytes cs) = dispatch read (bytes start) := by
  rw [dispatch, dispatch, skipBlank_bytes, skipBlank_bytes, h.dropWhile]

theorem bounds_of_unsigned {k : IntegerKind} (hk : k.isSigned = false) :
    k.bounds.least = 0 ∧ k.bounds.greatest ≤ integerBounds.greatest := by
  cases k with
  | u8 => decide
  | u32 => decide
  | u64 => decide
  | i32 => cases hk
  | i64 => cases hk
  | i128 => cases hk

/-- An integer behind a minus sign is negative. -/
theorem val_of_whole {negative : Bool} {sum : Nat} {n : integerBounds.Value}
    (h : whole negative sum = .integer n) (hn : 0 ≤ n.val) : negative = false ∧ n.val = sum := by
  cases negative with
  | false => exact ⟨rfl, Number.val_of_ofInt h⟩
  | true =>
    rw [whole, if_pos rfl] at h
    split at h
    · cases h
    · have hval := Number.val_of_ofInt h
      omega

theorem numberFrom_eq_natural {b : UInt8} {start tail : Bytes} {n : integerBounds.Value}
    (h : numberFrom b start = .ok (.integer n, tail)) (hn : 0 ≤ n.val) :
    ∃ m : Nat, b :: start = Ascii.ofChars (Nat.toDigits 10 m) ++ tail ∧ Ends tail ∧ n.val = m := by
  rw [numberFrom] at h
  split at h
  · obtain ⟨sum, -, -, hwhole⟩ := number_eq_integer h
    cases (val_of_whole hwhole hn).1
  · obtain ⟨sum, hstart, hends, hwhole⟩ := number_eq_integer h
    exact ⟨sum, hstart, hends, (val_of_whole hwhole hn).2⟩

/-- An integer of a kind without negative ones is read where digits spell
it. -/
theorem integer_eq_ok_iff {k : IntegerKind} (hk : k.isSigned = false) {v : k.Value} {tail : Bytes} :
    integer k (bytes cs) = .ok (v, tail) ↔ ∃ n rest, Gap cs (Nat.toDigits 10 n ++ rest) ∧
      v.val = n ∧ Ends (bytes rest) ∧ tail = bytes rest := by
  obtain ⟨hleast, hgreatest⟩ := bounds_of_unsigned hk
  constructor
  · intro h
    obtain ⟨b, start, hskip, h⟩ := dispatch_eq_ok_iff.1 h
    split at h
    · rename_i hb
      obtain ⟨⟨number, after⟩, hnumber, h⟩ := bind_eq_ok_iff.1 h
      simp only at h
      split at h
      · rename_i n
        split at h
        · rename_i w hw
          cases h
          have hval := Bounds.val_of_ofInt? hw
          have hn : 0 ≤ n.val := by
            have hlow := v.property.1
            omega
          obtain ⟨m, hstart, hends, hm⟩ := numberFrom_eq_natural hnumber hn
          rw [skipBlank_bytes, hstart] at hskip
          obtain ⟨rest, hcs, rfl⟩ := exists_of_bytes_eq_append (ascii_toDigits m) hskip
          exact ⟨m, rest, hcs ▸ gap_dropWhile cs, hval.trans hm, hends, rfl⟩
        · exact absurd h mismatch_ne_ok
      · exact absurd h mismatch_ne_ok
    · exact absurd h wrongType_ne_ok
  · rintro ⟨n, rest, hgap, hval, hends, rfl⟩
    have hbounds : integerBounds.least ≤ v.val ∧ v.val ≤ integerBounds.greatest := by
      have hlow : integerBounds.least ≤ 0 := by decide
      have hhigh := v.property.2
      omega
    have hread := (written_integer v hbounds).reads (bytes rest) hends
    rw [writeInteger, hval] at hread
    rw [integer, dispatch_of_gap hgap, ← integer, bytes_append, bytes_of_ascii (ascii_toDigits n)]
    exact hread

end Json.Reader

end SealedState
