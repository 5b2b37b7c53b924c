/-
SealedState.Proofs.JsonSpellings — white space and strings of JSON, read
from the bytes of a text.

The readers see bytes and the grammar sees characters. A character that the
grammar names is one byte of ASCII, and that byte begins no other character,
so the bytes of a text take the readers where the characters take the
grammar: `skipBlank_bytes` says so of white space, and `text_eq_ok_iff` of
the strings with their escapes.
-/
import SealedState.Proofs.HexSpellings
import SealedState.Proofs.JsonGrammar
import SealedState.Proofs.JsonScalars

namespace SealedState.Json

open Grammar Utf8

variable {cs rest s : List Char}

/-! ## White space -/

namespace Grammar

theorem isSpace_iff {c : Char} :
    isSpace c = true ↔ c = ' ' ∨ c = '\n' ∨ c = '\t' ∨ c = '\r' := by
  simp [isSpace, or_assoc]

theorem gap_dropWhile (cs : List Char) : Gap cs (cs.dropWhile isSpace) := by
  induction cs with
  | nil => exact .none []
  | cons c cs ih =>
    rw [List.dropWhile_cons]
    split
    · rename_i hc
      exact .space hc ih
    · exact .none (c :: cs)

theorem Gap.dropWhile {start : List Char} (h : Gap cs start) :
    cs.dropWhile isSpace = start.dropWhile isSpace := by
  induction h with
  | none => rfl
  | space hc _ ih => rw [List.dropWhile_cons, if_pos hc, ih]

/-- White space up to a character that is none ends there. -/
theorem Gap.dropWhile_eq {c : Char} (h : Gap cs (c :: rest)) (hc : isSpace c = false) :
    cs.dropWhile isSpace = c :: rest := by
  rw [h.dropWhile, List.dropWhile_cons, hc, if_neg Bool.false_ne_true]

theorem IsList.not_isObject {text : List Char} {ls : List Literal} {ms : List (String × Literal)}
    (h : IsList text ls) : ¬ IsObject text ms := by
  rintro ⟨_, _, hobject, -, -⟩
  obtain ⟨_, _, hlist, -, -⟩ := h
  have hsame := (hlist.dropWhile_eq (by decide)).symm.trans (hobject.dropWhile_eq (by decide))
  cases hsame

end Grammar

theorem skipBlank_space {c : Char} (hc : isSpace c = true) (cs : List Char) :
    skipBlank (bytes (c :: cs)) = skipBlank (bytes cs) := by
  rcases isSpace_iff.1 hc with rfl | rfl | rfl | rfl <;> rfl

theorem skipBlank_of_not_space {c : Char} (hc : isSpace c = false) (cs : List Char) :
    skipBlank (bytes (c :: cs)) = bytes (c :: cs) := by
  obtain ⟨b, tail, hcons⟩ := List.exists_cons_of_ne_nil (bytes_cons_ne_nil c cs)
  have hfirst : ∀ {blank : UInt8}, blank < 0x80 → isSpace (Char.ofNat blank.toNat) = true →
      b ≠ blank := by
    rintro blank hascii hspace rfl
    obtain ⟨_, hcs, -⟩ := exists_of_bytes_eq_cons hcons hascii
    rw [(List.cons.inj hcs).1, hspace] at hc
    cases hc
  have hspace : b ≠ Ascii.space := hfirst (by decide) (by decide)
  have hlineFeed : b ≠ Ascii.lineFeed := hfirst (by decide) (by decide)
  have htab : b ≠ Ascii.tab := hfirst (by decide) (by decide)
  have hreturn : b ≠ Ascii.carriageReturn := hfirst (by decide) (by decide)
  rw [hcons, skipBlank, List.dropWhile_cons, if_neg]
  simp [hspace, hlineFeed, htab, hreturn]

/-- The bytes of white space are passed over. -/
theorem skipBlank_bytes (cs : List Char) :
    skipBlank (bytes cs) = bytes (cs.dropWhile isSpace) := by
  induction cs with
  | nil => rfl
  | cons c cs ih =>
    rw [List.dropWhile_cons]
    split
    · rename_i hc
      rw [skipBlank_space hc, ih]
    · rename_i hc
      exact skipBlank_of_not_space (eq_false_of_ne_true hc) cs

theorem skipBlank_of_gap {c : Char} (h : Gap cs (c :: rest)) (hc : isSpace c = false) :
    skipBlank (bytes cs) = bytes (c :: rest) := by
  rw [skipBlank_bytes, h.dropWhile_eq hc]

/-- A byte of ASCII behind white space is a character there. -/
theorem exists_gap {b : UInt8} {tail : Bytes} (h : skipBlank (bytes cs) = b :: tail)
    (hascii : b < 0x80) : ∃ rest, Gap cs (Char.ofNat b.toNat :: rest) ∧ tail = bytes rest := by
  rw [skipBlank_bytes] at h
  obtain ⟨rest, hrest, rfl⟩ := exists_of_bytes_eq_cons h hascii
  exact ⟨rest, hrest ▸ gap_dropWhile cs, rfl⟩

/-! ## Escapes by number -/

namespace Reader

theorem getElem?_hexDigits {v : Nat} (h : v < 16) : hexDigits[v]? = some (Nat.digitChar v) := by
  have hall : ∀ v : Fin 16, hexDigits[v.val]? = some (Nat.digitChar v.val) := by decide +kernel
  exact hall ⟨v, h⟩

/-- A digit takes one byte, which has its value. -/
theorem bytes_hexDigit {c : Char} {v : Nat} (h : HexDigit c v) (cs : List Char) :
    ∃ b, bytes (c :: cs) = b :: bytes cs ∧ Ascii.hexValue? b = some v := by
  have hinj : ∀ v w : Fin 16, Nat.digitChar v.val = Nat.digitChar w.val → v = w := by
    decide +kernel
  have hsub : hexDigits.all (fun c => decide (c ∈ Hex.alphabet)) = true := by decide +kernel
  obtain ⟨hdigit⟩ := h
  have hsmall := List.all_eq_true.1 hsub _ (List.mem_of_getElem? hdigit)
  have hmem : c ∈ Hex.alphabet := Hex.mem_alphabet_of_toLower (of_decide_eq_true hsmall)
  have hlt : v < 16 := (List.getElem?_eq_some_iff.1 hdigit).1
  obtain ⟨hascii, w, hw, hvalue, hlower⟩ := Hex.exists_hexValue? hmem
  rw [hlower, getElem?_hexDigits hlt, Option.some_inj] at hdigit
  have hvw := hinj ⟨v, hlt⟩ ⟨w, hw⟩ hdigit
  rw [Fin.mk.injEq] at hvw
  exact ⟨_, bytes_cons_of_ascii hascii cs, hvw ▸ hvalue⟩

/-- A byte with the value of a digit is that digit. -/
theorem exists_hexDigit {b : UInt8} {tail : Bytes} {v : Nat} (h : bytes cs = b :: tail)
    (hb : Ascii.hexValue? b = some v) :
    ∃ c cs', cs = c :: cs' ∧ tail = bytes cs' ∧ HexDigit c v := by
  have hascii : b < 0x80 := by
    refine Decidable.byContradiction fun hnot => ?_
    rw [Hex.hexValue?_of_not_ascii hnot] at hb
    cases hb
  obtain ⟨cs', rfl, rfl⟩ := exists_of_bytes_eq_cons h hascii
  have hmem := Hex.mem_alphabet_of_hexValue? hascii (Option.isSome_iff_exists.2 ⟨v, hb⟩)
  obtain ⟨hdigit, w, hw, hvalue, hlower⟩ := Hex.exists_hexValue? hmem
  rw [bytes_cons_of_ascii hdigit] at h
  rw [(List.cons.inj h).1, hb, Option.some_inj] at hvalue
  subst hvalue
  exact ⟨_, cs', rfl, rfl, ⟨(getElem?_hexDigits hw).trans (congrArg some hlower.symm)⟩⟩

theorem hexUnit?_eq_some_iff {p q r s : UInt8} {n : Nat} : hexUnit? p q r s = some n ↔
    ∃ a b c d, Ascii.hexValue? p = some a ∧ Ascii.hexValue? q = some b ∧
      Ascii.hexValue? r = some c ∧ Ascii.hexValue? s = some d ∧
      n = a * 4096 + b * 256 + c * 16 + d := by
  simp [hexUnit?, Option.bind_eq_some_iff, eq_comm (b := n)]

theorem bytes_codeUnit {n : Nat} (h : CodeUnit cs n rest) : ∃ p q r s,
    bytes cs = p :: q :: r :: s :: bytes rest ∧ hexUnit? p q r s = some n := by
  obtain ⟨rest, hp, hq, hr, hs⟩ := h
  obtain ⟨p, hfirst, hp⟩ := bytes_hexDigit hp _
  obtain ⟨q, hsecond, hq⟩ := bytes_hexDigit hq _
  obtain ⟨r, hthird, hr⟩ := bytes_hexDigit hr _
  obtain ⟨s, hfourth, hs⟩ := bytes_hexDigit hs rest
  refine ⟨p, q, r, s, ?_, hexUnit?_eq_some_iff.2 ⟨_, _, _, _, hp, hq, hr, hs, rfl⟩⟩
  rw [hfirst, hsecond, hthird, hfourth]

theorem exists_codeUnit {p q r s : UInt8} {tail : Bytes} {n : Nat}
    (h : bytes cs = p :: q :: r :: s :: tail) (hn : hexUnit? p q r s = some n) :
    ∃ rest, CodeUnit cs n rest ∧ tail = bytes rest := by
  obtain ⟨a, b, c, d, hp, hq, hr, hs, rfl⟩ := hexUnit?_eq_some_iff.1 hn
  obtain ⟨_, _, rfl, htail, hp⟩ := exists_hexDigit h hp
  obtain ⟨_, _, rfl, htail, hq⟩ := exists_hexDigit htail.symm hq
  obtain ⟨_, _, rfl, htail, hr⟩ := exists_hexDigit htail.symm hr
  obtain ⟨_, rest, rfl, htail, hs⟩ := exists_hexDigit htail.symm hs
  exact ⟨rest, .mk rest hp hq hr hs, htail⟩

theorem isHighSurrogate_iff {n : Nat} : isHighSurrogate n = true ↔ IsHigh n := by
  simp [isHighSurrogate, IsHigh]

theorem isLowSurrogate_iff {n : Nat} : isLowSurrogate n = true ↔ IsLow n := by
  simp [isLowSurrogate, IsLow]

/-! ## Escapes by letter -/

/-- A letter and the character that it stands for take one byte each. -/
theorem bytes_escape {l c : Char} (h : escape? l = some c) :
    l.toNat < 0x80 ∧ escaped? (UInt8.ofNat l.toNat) = some (UInt8.ofNat c.toNat) ∧
      String.utf8EncodeChar c = [UInt8.ofNat c.toNat] := by
  unfold escape? at h
  split at h
  all_goals cases h
  all_goals exact ⟨by decide, by decide, by decide⟩

/-- A byte that has a meaning behind a backslash is such a letter. -/
theorem exists_escape {b byte : UInt8} (h : escaped? b = some byte) :
    b < 0x80 ∧ ∃ c, escape? (Char.ofNat b.toNat) = some c ∧ String.utf8EncodeChar c = [byte] := by
  have hall : ∀ n : Fin 256, (escaped? (UInt8.ofNat n.val)).all fun byte =>
      decide (UInt8.ofNat n.val < 0x80) && (escape? (Char.ofNat n.val)).any fun c =>
        decide (String.utf8EncodeChar c = [byte]) := by
    decide +kernel
  have hb := hall ⟨b.toNat, b.toNat_lt⟩
  simp only [UInt8.ofNat_toNat] at hb
  rw [h, Option.all_some, Bool.and_eq_true, decide_eq_true_iff, Option.any_eq_true] at hb
  obtain ⟨hascii, c, hc, hbyte⟩ := hb
  exact ⟨hascii, c, hc, of_decide_eq_true hbyte⟩

/-! ## Reading strings -/

section TextBytes

variable {b tail front more : Bytes}

theorem push_push (front more : Bytes) (r : Except Fault (Bytes × Bytes)) :
    push front (push more r) = push (front ++ more) r := by
  cases r with
  | error fault => rfl
  | ok x =>
    obtain ⟨last, tail⟩ := x
    rw [push_ok, push_ok, push_ok, List.append_assoc]

theorem push_eq_ok_iff {r : Except Fault (Bytes × Bytes)} :
    push front r = .ok (b, tail) ↔ ∃ more, r = .ok (more, tail) ∧ b = front ++ more := by
  cases r with
  | error fault => simp [push, Except.map]
  | ok x =>
    obtain ⟨more, tail'⟩ := x
    rw [push_ok, Except.ok.injEq, Prod.mk.injEq]
    constructor
    · rintro ⟨rfl, rfl⟩
      exact ⟨more, rfl, rfl⟩
    · rintro ⟨_, h, rfl⟩
      cases h
      exact ⟨rfl, rfl⟩

theorem textBytes_quote (tail : Bytes) : textBytes none (Ascii.quote :: tail) = .ok ([], tail) := by
  rw [textBytes.eq_def]
  simp only [if_true]

/-- The bytes of a string are read as they are where they are no escapes. -/
theorem textBytes_append (tail : Bytes) : ∀ front : Bytes, (∀ b ∈ front, b ≠ Ascii.quote ∧
    b ≠ Ascii.backslash ∧ Ascii.isControl b = false) →
    textBytes none (front ++ tail) = push front (textBytes none tail)
  | [], _ => by
      cases hr : textBytes none tail with
      | error fault => exact hr
      | ok x => exact hr
  | b :: front, h => by
      obtain ⟨⟨hquote, hbackslash, hcontrol⟩, hfront⟩ := List.forall_mem_cons.1 h
      rw [List.cons_append, textBytes_plain hquote hbackslash hcontrol,
        textBytes_append tail front hfront, push_push, List.singleton_append]

theorem textBytes_char {c : Char} (hquote : c ≠ '"') (hbackslash : c ≠ '\\')
    (hcontrol : 0x20 ≤ c.toNat) (cs : List Char) : textBytes none (bytes (c :: cs))
      = push (String.utf8EncodeChar c) (textBytes none (bytes cs)) := by
  rw [bytes_cons]
  refine textBytes_append _ _ fun b hb => ?_
  by_cases hascii : c.toNat < 0x80
  · rw [encodeChar_of_ascii hascii, List.mem_singleton] at hb
    have hbyte : b.toNat = c.toNat := by rw [hb, toNat_byte (by omega)]
    have hchar : Char.ofNat b.toNat = c := by rw [hbyte, Char.ofNat_toNat]
    refine ⟨?_, ?_, ?_⟩
    · rintro rfl
      exact hquote hchar.symm
    · rintro rfl
      exact hbackslash hchar.symm
    · rw [Ascii.isControl, decide_eq_false_iff_not, UInt8.not_lt, UInt8.le_iff_toNat_le, hbyte]
      exact hcontrol
  · have hle := le_of_mem_encodeChar (Nat.le_of_not_lt hascii) hb
    have hne : ∀ {a : UInt8}, a < 0x80 → b ≠ a := by
      rintro a ha rfl
      exact absurd ha (UInt8.not_lt.2 hle)
    refine ⟨hne (by decide), hne (by decide), ?_⟩
    rw [Ascii.isControl, decide_eq_false_iff_not, UInt8.not_lt]
    exact UInt8.le_trans (by decide) hle

theorem textBytes_high {p q r s : UInt8} {n : Nat} (hn : hexUnit? p q r s = some n)
    (hhigh : isHighSurrogate n = true) (hlow : isLowSurrogate n = false) (tail : Bytes) :
    textBytes none (Ascii.backslash :: Ascii.lowerU :: p :: q :: r :: s :: tail)
      = textBytes (some n) tail := by
  rw [textBytes.eq_def]
  simp only [show ¬ Ascii.backslash = Ascii.quote by decide, if_false, if_true, hn, hhigh, hlow,
    Bool.false_eq_true]

theorem textBytes_low {p q r s : UInt8} {high low : Nat} (hlow : hexUnit? p q r s = some low)
    (h : isLowSurrogate low = true) (tail : Bytes) :
    textBytes (some high) (Ascii.backslash :: Ascii.lowerU :: p :: q :: r :: s :: tail)
      = push (characterBytes ((high - 0xd800) * 1024 + (low - 0xdc00) + 0x10000))
          (textBytes none tail) := by
  rw [textBytes.eq_def]
  simp only [if_true, hlow, h]

/-- What stands behind a backslash in a string that is read. -/
theorem textBytes_escape_cases (h : textBytes none (Ascii.backslash :: front) = .ok (b, tail)) :
    (∃ letter byte rest, front = letter :: rest ∧ escaped? letter = some byte ∧
      push [byte] (textBytes none rest) = .ok (b, tail)) ∨
    (∃ p q r s n rest, front = Ascii.lowerU :: p :: q :: r :: s :: rest ∧
      hexUnit? p q r s = some n ∧ isHighSurrogate n = false ∧ isLowSurrogate n = false ∧
      push (characterBytes n) (textBytes none rest) = .ok (b, tail)) ∨
    ∃ p q r s n rest, front = Ascii.lowerU :: p :: q :: r :: s :: rest ∧
      hexUnit? p q r s = some n ∧ isHighSurrogate n = true ∧
      textBytes (some n) rest = .ok (b, tail) := by
  rw [textBytes.eq_def] at h
  simp only [show ¬ Ascii.backslash = Ascii.quote by decide, if_false, if_true] at h
  split at h
  · cases h
  · split at h
    · rename_i hletter
      subst hletter
      split at h
      · rename_i p q r s rest
        split at h
        · cases h
        · rename_i n hn
          split at h
          · cases h
          · rename_i hlow
            split at h
            · rename_i hhigh
              exact .inr (.inr ⟨p, q, r, s, n, rest, rfl, hn, hhigh, h⟩)
            · rename_i hhigh
              exact .inr (.inl ⟨p, q, r, s, n, rest, rfl, hn, eq_false_of_ne_true hhigh,
                eq_false_of_ne_true hlow, h⟩)
      · cases h
    · split at h
      · rename_i byte hbyte
        exact .inl ⟨_, byte, _, rfl, hbyte, h⟩
      · cases h

/-- Behind the first of two units stands the second. -/
theorem textBytes_second_cases {high : Nat} (h : textBytes (some high) front = .ok (b, tail)) :
    ∃ p q r s low rest, front = Ascii.backslash :: Ascii.lowerU :: p :: q :: r :: s :: rest ∧
      hexUnit? p q r s = some low ∧ isLowSurrogate low = true ∧
      push (characterBytes ((high - 0xd800) * 1024 + (low - 0xdc00) + 0x10000))
        (textBytes none rest) = .ok (b, tail) := by
  match front, h with
  | [], h => cases h
  | first :: front, h =>
    rw [textBytes.eq_def] at h
    simp only at h
    split at h
    · rename_i hfirst
      split at h
      · cases h
      · split at h
        · rename_i hletter
          split at h
          · rename_i p q r s rest
            split at h
            · cases h
            · rename_i low hn
              split at h
              · rename_i hlow
                subst hfirst hletter
                exact ⟨p, q, r, s, low, rest, rfl, hn, hlow, h⟩
              · cases h
          · cases h
        · cases h
    · cases h

end TextBytes

/-! ## Strings of the grammar -/

/-- The characters that a string stands for are read from it. -/
theorem textBytes_of_stringBody (h : StringBody cs s rest) :
    textBytes none (bytes cs) = .ok (bytes s, bytes rest) := by
  induction h with
  | close rest =>
    rw [bytes_cons_of_ascii (by decide)]
    exact textBytes_quote _
  | plain hquote hbackslash hcontrol _ ih =>
    rw [textBytes_char hquote hbackslash hcontrol, ih, push_ok, bytes_cons]
  | @letter l c cs s rest hl _ ih =>
    obtain ⟨hascii, hbyte, hc⟩ := bytes_escape hl
    have hletter : UInt8.ofNat l.toNat ≠ Ascii.lowerU := by
      intro hu
      rw [hu] at hbyte
      cases hbyte
    rw [bytes_cons_of_ascii (by decide), bytes_cons_of_ascii hascii]
    refine (textBytes_letter hbyte hletter _).trans ?_
    rw [ih, push_ok, bytes_cons, hc]
  | unit hn hhigh hlow _ ih =>
    obtain ⟨p, q, r, t, hbytes, hunit⟩ := bytes_codeUnit hn
    rw [← isHighSurrogate_iff, Bool.not_eq_true] at hhigh
    rw [← isLowSurrogate_iff, Bool.not_eq_true] at hlow
    rw [bytes_cons_of_ascii (by decide), bytes_cons_of_ascii (by decide), hbytes]
    refine (textBytes_unit hunit hhigh hlow _).trans ?_
    rw [ih, push_ok, bytes_cons]
    rfl
  | @pair cs mid after s rest high low hfirst hhigh hsecond hlow _ ih =>
    obtain ⟨p, q, r, t, hbytes, hunit⟩ := bytes_codeUnit hfirst
    obtain ⟨p', q', r', t', hbytes', hunit'⟩ := bytes_codeUnit hsecond
    have hnotLow : isLowSurrogate high = false := by
      rw [← Bool.not_eq_true, isLowSurrogate_iff]
      intro h
      exact absurd (Nat.le_trans h.1 hhigh.2) (by decide)
    rw [bytes_cons_of_ascii (by decide), bytes_cons_of_ascii (by decide), hbytes,
      bytes_cons_of_ascii (by decide), bytes_cons_of_ascii (by decide), hbytes']
    refine (textBytes_high hunit (isHighSurrogate_iff.2 hhigh) hnotLow _).trans ?_
    refine (textBytes_low hunit' (isLowSurrogate_iff.2 hlow) _).trans ?_
    rw [ih, push_ok, bytes_cons]
    rfl

theorem textBytes_control_ne_ok {c : Char} (h : c.toNat < 0x20) (cs : List Char)
    (x : Bytes × Bytes) : textBytes none (bytes (c :: cs)) ≠ .ok x := by
  have hbyte : (UInt8.ofNat c.toNat).toNat = c.toNat := toNat_byte (by omega)
  have hcontrol : Ascii.isControl (UInt8.ofNat c.toNat) = true := by
    rw [Ascii.isControl, decide_eq_true_iff, UInt8.lt_iff_toNat_lt, hbyte]
    exact h
  have hne : ∀ {a : UInt8}, Ascii.isControl a = false → UInt8.ofNat c.toNat ≠ a := by
    rintro a ha rfl
    rw [hcontrol] at ha
    cases ha
  have hquote : UInt8.ofNat c.toNat ≠ Ascii.quote := hne (by decide)
  have hbackslash : UInt8.ofNat c.toNat ≠ Ascii.backslash := hne (by decide)
  rw [bytes_cons_of_ascii (by omega), textBytes.eq_def]
  simp [hquote, hbackslash, hcontrol, Issue.before]

/-- A string in the text begins with a spelling of a character, and goes on
behind it. -/
structure Begins (cs : List Char) (c : Char) (after : List Char) : Prop where
  shorter : after.length < cs.length
  body : ∀ {s rest : List Char}, StringBody after s rest → StringBody cs (c :: s) rest

/-- A backslash in a string that is read begins a character of the
grammar. -/
theorem exists_begins_escape {b tail : Bytes}
    (h : textBytes none (bytes ('\\' :: cs)) = .ok (b, tail)) :
    ∃ c after more, Begins ('\\' :: cs) c after ∧ textBytes none (bytes after) = .ok (more, tail) ∧
      b = String.utf8EncodeChar c ++ more := by
  have hu : Char.ofNat Ascii.lowerU.toNat = 'u' := by decide
  have hslash : Char.ofNat Ascii.backslash.toNat = '\\' := by decide
  rw [bytes_cons_of_ascii (by decide)] at h
  rcases textBytes_escape_cases h with ⟨letter, byte, tail', hcs, hbyte, hpush⟩ |
    ⟨p, q, r, t, n, tail', hcs, hn, hhigh, hlow, hpush⟩ |
    ⟨p, q, r, t, high, tail', hcs, hn, hhigh, hsecond⟩
  · obtain ⟨hascii, c, hc, hone⟩ := exists_escape hbyte
    obtain ⟨after, rfl, rfl⟩ := exists_of_bytes_eq_cons hcs hascii
    obtain ⟨more, hmore, rfl⟩ := push_eq_ok_iff.1 hpush
    have hbegins : Begins ('\\' :: Char.ofNat letter.toNat :: after) c after :=
      { shorter := by simp only [List.length_cons]; omega
        body := .letter hc }
    exact ⟨c, after, more, hbegins, hmore, by rw [hone]⟩
  · obtain ⟨digits, rfl, hdigits⟩ := exists_of_bytes_eq_cons hcs (by decide)
    obtain ⟨after, hunit, rfl⟩ := exists_codeUnit hdigits.symm hn
    obtain ⟨more, hmore, rfl⟩ := push_eq_ok_iff.1 hpush
    rw [← Bool.not_eq_true, isHighSurrogate_iff] at hhigh
    rw [← Bool.not_eq_true, isLowSurrogate_iff] at hlow
    have hlt := hunit.length_lt
    rw [hu]
    have hbegins : Begins ('\\' :: 'u' :: digits) (Char.ofNat n) after :=
      { shorter := by simp only [List.length_cons]; omega
        body := .unit hunit hhigh hlow }
    exact ⟨_, after, more, hbegins, hmore, rfl⟩
  · obtain ⟨digits, rfl, hdigits⟩ := exists_of_bytes_eq_cons hcs (by decide)
    obtain ⟨mid, hunit, rfl⟩ := exists_codeUnit hdigits.symm hn
    obtain ⟨p', q', r', t', low, tail', hmid, hn', hlow, hpush⟩ := textBytes_second_cases hsecond
    obtain ⟨letter, rfl, hletter⟩ := exists_of_bytes_eq_cons hmid (by decide)
    obtain ⟨digits', rfl, hdigits'⟩ := exists_of_bytes_eq_cons hletter.symm (by decide)
    obtain ⟨after, hunit', rfl⟩ := exists_codeUnit hdigits'.symm hn'
    obtain ⟨more, hmore, hb⟩ := push_eq_ok_iff.1 hpush
    rw [hslash, hu] at hunit
    have hlt := hunit.length_lt
    have hlt' := hunit'.length_lt
    rw [hu]
    have hbegins : Begins ('\\' :: 'u' :: digits)
        (Char.ofNat ((high - 0xd800) * 1024 + (low - 0xdc00) + 0x10000)) after :=
      { shorter := by simp only [List.length_cons] at hlt ⊢; omega
        body := .pair hunit (isHighSurrogate_iff.1 hhigh) hunit' (isLowSurrogate_iff.1 hlow) }
    exact ⟨_, after, more, hbegins, hmore, hb⟩

/-- A string that is read ends at once, or begins with a character. -/
theorem exists_begins {b tail : Bytes} (h : textBytes none (bytes cs) = .ok (b, tail)) :
    (∃ rest, cs = '"' :: rest ∧ b = [] ∧ tail = bytes rest) ∨
    ∃ c after more, Begins cs c after ∧ textBytes none (bytes after) = .ok (more, tail) ∧
      b = String.utf8EncodeChar c ++ more := by
  cases cs with
  | nil => cases h
  | cons c cs =>
    by_cases hquote : c = '"'
    · subst hquote
      rw [bytes_cons_of_ascii (by decide)] at h
      cases (textBytes_quote (bytes cs)).symm.trans h
      exact .inl ⟨cs, rfl, rfl, rfl⟩
    by_cases hbackslash : c = '\\'
    · subst hbackslash
      exact .inr (exists_begins_escape h)
    by_cases hcontrol : 0x20 ≤ c.toNat
    · rw [textBytes_char hquote hbackslash hcontrol] at h
      obtain ⟨more, hmore, rfl⟩ := push_eq_ok_iff.1 h
      have hbegins : Begins (c :: cs) c cs :=
        { shorter := Nat.lt_succ_self _
          body := .plain hquote hbackslash hcontrol }
      exact .inr ⟨c, cs, more, hbegins, hmore, rfl⟩
    · exact absurd h (textBytes_control_ne_ok (Nat.lt_of_not_le hcontrol) cs _)

/-- Where the reader finds the end of a string, there is one. -/
theorem exists_stringBody {b tail : Bytes} (h : textBytes none (bytes cs) = .ok (b, tail)) :
    ∃ s rest, StringBody cs s rest ∧ b = bytes s ∧ tail = bytes rest := by
  induction hlength : cs.length using Nat.strongRecOn generalizing cs b with
  | ind length ih =>
    subst hlength
    rcases exists_begins h with ⟨rest, rfl, rfl, rfl⟩ | ⟨c, after, more, hbegins, hmore, rfl⟩
    · exact ⟨[], rest, .close rest, rfl, rfl⟩
    · obtain ⟨s, rest, hbody, rfl, rfl⟩ := ih _ hbegins.shorter hmore rfl
      exact ⟨c :: s, rest, hbegins.body hbody, (bytes_cons c s).symm, rfl⟩

theorem span_bytes (s : List Char) : span (bytes s) = (s, []) := by
  have h := span_append [] s
  rw [List.append_nil] at h
  rw [bytes, h]
  simp [span]

/-- A string is read exactly where there is one, as what it stands for. -/
theorem text_eq_ok_iff {x : String} {tail : Bytes} : text (bytes cs) = .ok (x, tail) ↔
    ∃ s rest, StringBody cs s rest ∧ x = String.ofList s ∧ tail = bytes rest := by
  rw [text, bind_eq_ok_iff]
  constructor
  · rintro ⟨⟨b, tail'⟩, hbytes, h⟩
    obtain ⟨s, rest, hbody, rfl, rfl⟩ := exists_stringBody hbytes
    simp only [span_bytes] at h
    cases h
    exact ⟨s, rest, hbody, rfl, rfl⟩
  · rintro ⟨s, rest, hbody, rfl, rfl⟩
    refine ⟨(bytes s, bytes rest), textBytes_of_stringBody hbody, ?_⟩
    simp only [span_bytes]
    rfl

end Reader

end SealedState.Json
