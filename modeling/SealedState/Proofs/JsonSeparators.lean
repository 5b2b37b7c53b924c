/-
SealedState.Proofs.JsonSeparators — what stands between the values of a
list or an object.

The readers look for a comma, a colon or a closing bracket, and pass over
white space. They find what the grammar has there: `nextItem_close` and
`nextItem_more` with their converse `nextItem_cases`, and the same for the
members of objects. What stands behind a value inside of a container never
continues a number (`Items.ends`, `Members.ends`).
-/
import SealedState.Proofs.JsonLiterals

namespace SealedState.Json

open Grammar Utf8

variable {cs rest start : List Char} {first : Bool} {l : Literal} {ls : List Literal}
  {ms : List (String × Literal)}

/-! ## Behind a value -/

namespace Grammar

open Reader (Ends ends_nil ends_cons)

theorem ends_bytes_cons {c : Char} (h : isSpace c = true ∨ c = ',' ∨ c = ']' ∨ c = '}')
    (cs : List Char) : Ends (bytes (c :: cs)) := by
  rw [isSpace_iff] at h
  rcases h with (rfl | rfl | rfl | rfl) | rfl | rfl | rfl <;> exact ends_cons (by decide)

theorem Gap.ends (h : Gap cs start) (hstart : Ends (bytes start)) : Ends (bytes cs) := by
  cases h with
  | none => exact hstart
  | space hc => exact ends_bytes_cons (.inl hc) _

theorem Lead.ends (h : Lead false cs start) : Ends (bytes cs) := by
  cases h with
  | comma h => exact h.ends (ends_bytes_cons (by decide) _)

theorem Items.ends (h : Items false cs ls rest) : Ends (bytes cs) := by
  cases h with
  | close h => exact h.ends (ends_bytes_cons (by decide) _)
  | item hlead => exact hlead.ends

theorem Members.ends (h : Members false cs ms rest) : Ends (bytes cs) := by
  cases h with
  | close h => exact h.ends (ends_bytes_cons (by decide) _)
  | member hlead => exact hlead.ends

end Grammar

/-! ## Between values -/

namespace Reader

theorem skipBlank_eq_cons_iff {c : Char} (hascii : c.toNat < 0x80) (hc : isSpace c = false)
    {tail : Bytes} : skipBlank (bytes cs) = UInt8.ofNat c.toNat :: tail ↔
      ∃ rest, Gap cs (c :: rest) ∧ tail = bytes rest := by
  have hbyte : (UInt8.ofNat c.toNat).toNat = c.toNat := toNat_byte (by omega)
  constructor
  · intro h
    obtain ⟨rest, hgap, rfl⟩ := exists_gap h (by rw [UInt8.lt_iff_toNat_lt, hbyte]; exact hascii)
    rw [hbyte, Char.ofNat_toNat] at hgap
    exact ⟨rest, hgap, rfl⟩
  · rintro ⟨rest, hgap, rfl⟩
    rw [skipBlank_of_gap hgap hc, bytes_cons_of_ascii hascii]

theorem skipBlank_eq_nil_iff : skipBlank (bytes cs) = [] ↔ Gap cs [] := by
  rw [skipBlank_bytes]
  constructor
  · intro h
    cases hdrop : cs.dropWhile isSpace with
    | nil => exact hdrop ▸ gap_dropWhile cs
    | cons c tail =>
      rw [hdrop] at h
      exact absurd h (bytes_cons_ne_nil c tail)
  · intro h
    rw [h.dropWhile]
    rfl

theorem colon_of_gap (h : Gap cs (':' :: rest)) : colon (bytes cs) = .ok (bytes rest) := by
  rw [colon, (skipBlank_eq_cons_iff (by decide) (by decide)).2 ⟨rest, h, rfl⟩]
  rfl

theorem exists_colon {tail : Bytes} (h : colon (bytes cs) = .ok tail) :
    ∃ rest, Gap cs (':' :: rest) ∧ tail = bytes rest := by
  rw [colon] at h
  split at h
  · cases h
  · rename_i hskip
    split at h
    · rename_i hb
      subst hb
      cases h
      exact (skipBlank_eq_cons_iff (by decide) (by decide)).1 hskip
    · cases h

theorem closeList_of_gap (h : Gap cs (']' :: rest)) : closeList (bytes cs) = .ok (bytes rest) := by
  rw [closeList, (skipBlank_eq_cons_iff (by decide) (by decide)).2 ⟨rest, h, rfl⟩]
  rfl

theorem exists_closeList {tail : Bytes} (h : closeList (bytes cs) = .ok tail) :
    ∃ rest, Gap cs (']' :: rest) ∧ tail = bytes rest := by
  rw [closeList] at h
  split at h
  · cases h
  · rename_i hskip
    split at h
    · rename_i hb
      subst hb
      cases h
      exact (skipBlank_eq_cons_iff (by decide) (by decide)).1 hskip
    · split at h
      · split at h
        · cases h
        · cases h
      · cases h

/-- The end of a list is found. -/
theorem nextItem_close (h : Gap cs (']' :: rest)) :
    nextItem first (bytes cs) = .ok (.closed (bytes rest)) := by
  rw [nextItem, (skipBlank_eq_cons_iff (by decide) (by decide)).2 ⟨rest, h, rfl⟩]
  rfl

/-- One more item of a list is found where it begins. -/
theorem nextItem_more (hlead : Lead first cs start) {mid : List Char} (hvalue : Value start l mid) :
    nextItem first (bytes cs) = .ok (.more () (bytes start)) := by
  obtain ⟨c, tail, rfl, hspace, hclose⟩ := hvalue.exists_cons
  obtain ⟨b, more, hcons⟩ := List.exists_cons_of_ne_nil (bytes_cons_ne_nil c tail)
  have hb : b ≠ Ascii.closeBracket := by
    rintro rfl
    obtain ⟨_, hstart, -⟩ := exists_of_bytes_eq_cons hcons (by decide)
    exact hclose (List.cons.inj hstart).1
  cases hlead with
  | first h =>
    rw [nextItem, skipBlank_of_gap h hspace, hcons]
    simp only [hb, if_false, if_true]
  | comma h h' =>
    have hopen : ¬ Ascii.comma = Ascii.closeBracket := by decide
    have hskip := (skipBlank_eq_cons_iff (by decide) (by decide)).2 ⟨_, h, rfl⟩
    rw [show UInt8.ofNat ','.toNat = Ascii.comma from rfl] at hskip
    rw [nextItem, hskip]
    simp only [hopen, if_false, Bool.false_eq_true, if_true, skipBlank_of_gap h' hspace, hcons, hb]

/-- What is found next in a list is its end, or what stands behind a
comma. -/
theorem nextItem_cases {next : Next Unit} (h : nextItem first (bytes cs) = .ok next) :
    (∃ rest, Gap cs (']' :: rest) ∧ next = .closed (bytes rest)) ∨
    ∃ start, Lead first cs start ∧ next = .more () (bytes start) := by
  rw [nextItem] at h
  split at h
  · cases h
  · rename_i b after hskip
    split at h
    · rename_i hb
      subst hb
      cases h
      obtain ⟨rest, hgap, rfl⟩ := (skipBlank_eq_cons_iff (c := ']') (by decide) (by decide)).1 hskip
      exact .inl ⟨rest, hgap, rfl⟩
    · split at h
      · rename_i hfirst
        subst hfirst
        cases h
        rw [← hskip, skipBlank_bytes]
        exact .inr ⟨_, .first (gap_dropWhile cs), rfl⟩
      · rename_i hfirst
        rw [eq_false_of_ne_true hfirst]
        split at h
        · rename_i hb
          subst hb
          obtain ⟨mid, hgap, rfl⟩ :=
            (skipBlank_eq_cons_iff (c := ',') (by decide) (by decide)).1 hskip
          split at h
          · cases h
          · rename_i hskip'
            split at h
            · cases h
            · cases h
              rw [← hskip', skipBlank_bytes]
              exact .inr ⟨_, .comma hgap (gap_dropWhile mid), rfl⟩
        · cases h

/-- The end of an object is found. -/
theorem nextMember_close (h : Gap cs ('}' :: rest)) :
    nextMember first (bytes cs) = .ok (.closed (bytes rest)) := by
  rw [nextMember, (skipBlank_eq_cons_iff (by decide) (by decide)).2 ⟨rest, h, rfl⟩]
  rfl

theorem name_of_stringBody {name s colon : List Char} (h : StringBody name s colon) :
    nextMember.name (bytes name) = .ok (.more (String.ofList s) (bytes colon)) := by
  rw [nextMember.name, text_eq_ok_iff.2 ⟨s, colon, h, rfl, rfl⟩]
  rfl

theorem exists_name {name : List Char} {next : Next String}
    (h : nextMember.name (bytes name) = .ok next) :
    ∃ s colon, StringBody name s colon ∧ next = .more (String.ofList s) (bytes colon) := by
  rw [nextMember.name] at h
  obtain ⟨⟨x, tail⟩, htext, hnext⟩ := bind_eq_ok_iff.1 h
  obtain ⟨s, colon, hbody, rfl, rfl⟩ := text_eq_ok_iff.1 htext
  cases hnext
  exact ⟨s, colon, hbody, rfl⟩

/-- One more member of an object is found, and its name is read. -/
theorem nextMember_more {name s colon : List Char} (hlead : Lead first cs ('"' :: name))
    (hname : StringBody name s colon) :
    nextMember first (bytes cs) = .ok (.more (String.ofList s) (bytes colon)) := by
  rw [← name_of_stringBody hname]
  cases hlead with
  | first h =>
    rw [nextMember, (skipBlank_eq_cons_iff (by decide) (by decide)).2 ⟨name, h, rfl⟩]
    rfl
  | comma h h' =>
    have hopen : ¬ Ascii.comma = Ascii.closeBrace := by decide
    have hskip := (skipBlank_eq_cons_iff (by decide) (by decide)).2 ⟨_, h, rfl⟩
    have hskip' := (skipBlank_eq_cons_iff (by decide) (by decide)).2 ⟨name, h', rfl⟩
    rw [show UInt8.ofNat ','.toNat = Ascii.comma from rfl] at hskip
    rw [show UInt8.ofNat '"'.toNat = Ascii.quote from rfl] at hskip'
    rw [nextMember, hskip]
    simp only [hopen, if_false, Bool.false_eq_true, if_true, hskip']

theorem exists_quoted_name {after : Bytes} {next : Next String}
    (hskip : skipBlank (bytes cs) = Ascii.quote :: after) (h : nextMember.name after = .ok next) :
    ∃ name s colon, Gap cs ('"' :: name) ∧ StringBody name s colon ∧
      next = .more (String.ofList s) (bytes colon) := by
  obtain ⟨name, hgap, rfl⟩ := (skipBlank_eq_cons_iff (c := '"') (by decide) (by decide)).1 hskip
  obtain ⟨s, colon, hname, rfl⟩ := exists_name h
  exact ⟨name, s, colon, hgap, hname, rfl⟩

/-- What is found next in an object is its end, or a name. -/
theorem nextMember_cases {next : Next String} (h : nextMember first (bytes cs) = .ok next) :
    (∃ rest, Gap cs ('}' :: rest) ∧ next = .closed (bytes rest)) ∨
    ∃ name s colon, Lead first cs ('"' :: name) ∧ StringBody name s colon ∧
      next = .more (String.ofList s) (bytes colon) := by
  rw [nextMember] at h
  split at h
  · cases h
  · rename_i b after hskip
    split at h
    · rename_i hb
      subst hb
      cases h
      obtain ⟨rest, hgap, rfl⟩ :=
        (skipBlank_eq_cons_iff (c := '}') (by decide) (by decide)).1 hskip
      exact .inl ⟨rest, hgap, rfl⟩
    · split at h
      · rename_i hfirst
        subst hfirst
        split at h
        · rename_i hb
          subst hb
          obtain ⟨name, s, colon, hgap, hname, hnext⟩ := exists_quoted_name hskip h
          exact .inr ⟨name, s, colon, .first hgap, hname, hnext⟩
        · cases h
      · rename_i hfirst
        rw [eq_false_of_ne_true hfirst]
        split at h
        · rename_i hb
          subst hb
          obtain ⟨mid, hgap, rfl⟩ :=
            (skipBlank_eq_cons_iff (c := ',') (by decide) (by decide)).1 hskip
          split at h
          · cases h
          · rename_i hskip'
            split at h
            · rename_i hb
              subst hb
              obtain ⟨name, s, colon, hgap', hname, hnext⟩ := exists_quoted_name hskip' h
              exact .inr ⟨name, s, colon, .comma hgap hgap', hname, hnext⟩
            · split at h
              · cases h
              · cases h
        · cases h

end Reader

end SealedState.Json
