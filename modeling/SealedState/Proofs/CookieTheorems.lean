/-
SealedState.Proofs.CookieTheorems — how a cookie is found in a header, and
how it is written in one.

A segment of a Cookie header is trimmed, cut at its first sign of equality,
and trimmed again on both sides. It makes no difference to cut it first
(`pair?_eq`), so the name and the value under it can be read off the segment
as it stands (`valueUnder?`), and a search for a name finds the value in the
first segment that has the name (`find?_eq`, `find?_of_first`).

A Set-Cookie header is its segments joined (`toList_headerText`).

These are `from_header` and the text of `StateCookie` in SPEC_FULL.md §4.2.
-/
import SealedState.Cookie
import SealedState.Proofs.SplitTheorems
import SealedState.Proofs.TrimTheorems

namespace SealedState.Cookie

variable {name value segment : List Char}

/-! ## One segment -/

theorem equals_not_isBlank : isBlank '=' = false := rfl

/-- A segment may be cut before it is trimmed. -/
theorem pair?_eq : pair? segment = (splitFirst? '=' segment).map fun (before, after) =>
    (trim before, after.rdropWhile isBlank) := by
  unfold pair?
  cases hcut : splitFirst? '=' segment with
  | none =>
    have hmem : '=' ∉ trim segment :=
      fun h => splitFirst?_eq_none_iff.1 hcut (mem_of_mem_trimBy h)
    rw [splitFirst?_eq_none_iff.2 hmem]
    rfl
  | some parts =>
    obtain ⟨before, after⟩ := parts
    obtain ⟨rfl, hbefore⟩ := splitFirst?_eq_some_iff.1 hcut
    have hmem : '=' ∉ before.dropWhile isBlank :=
      fun h => hbefore ((List.dropWhile_suffix isBlank).subset h)
    rw [trim, trimBy_append_cons equals_not_isBlank, splitFirst?_append _ hmem]
    simp only [Option.map_some, trim, trimBy_dropWhile]

theorem bareValue_rdropWhile : bareValue (value.rdropWhile isBlank) = bareValue value := by
  rw [bareValue, trim, trimBy_rdropWhile]
  rfl

/-- The segment has the name: it holds a sign of equality, and the text
before the first one is the name but for blanks around it. -/
def Names (name segment : List Char) : Prop :=
  (splitFirst? '=' segment).map (fun cut => trim cut.1) = some name

instance : Decidable (Names name segment) := inferInstanceAs (Decidable (_ = _))

/-- The value in a segment that has a name. -/
def valueUnder? (name segment : List Char) : Option (List Char) :=
  if Names name segment then (splitFirst? '=' segment).map fun cut => bareValue cut.2
  else none

theorem valueUnder?_of_cut {before after : List Char} (h : '=' ∉ before)
    (hname : trim before = name) : valueUnder? name (before ++ '=' :: after)
      = some (bareValue after) := by
  have hcut := splitFirst?_append after h
  have hnames : Names name (before ++ '=' :: after) := by
    rw [Names, hcut, Option.map_some, hname]
  rw [valueUnder?, if_pos hnames, hcut, Option.map_some]

theorem valueUnder?_eq_none_iff : valueUnder? name segment = none ↔ ¬ Names name segment := by
  unfold valueUnder?
  split
  · rename_i hnames
    cases hcut : splitFirst? '=' segment with
    | none => simp [Names, hcut] at hnames
    | some parts => simp [hnames]
  · rename_i hnames
    simp [hnames]

/-! ## A header -/

/-- A search goes by the names of the segments as they stand. -/
theorem find?_segments_eq (name : String) (segments : List (List Char)) :
    ((segments.filterMap pair?).find? (·.1 == name.toList)).map
        (fun (name, value) => make (String.ofList name) (String.ofList (bareValue value)))
      = (segments.findSome? (valueUnder? name.toList)).map
        (fun value => make name (String.ofList value)) := by
  induction segments with
  | nil => rfl
  | cons segment segments ih =>
    rw [List.findSome?_cons]
    cases hcut : splitFirst? '=' segment with
    | none =>
      have hpair : pair? segment = none := by rw [pair?_eq, hcut, Option.map_none]
      have hvalue : valueUnder? name.toList segment = none := by simp [valueUnder?, hcut]
      rw [List.filterMap_cons_none hpair, ih, hvalue]
    | some parts =>
      obtain ⟨before, after⟩ := parts
      have hpair : pair? segment = some (trim before, after.rdropWhile isBlank) := by
        rw [pair?_eq, hcut, Option.map_some]
      rw [List.filterMap_cons_some hpair]
      by_cases hname : trim before = name.toList
      · obtain ⟨rfl, hbefore⟩ := of_splitFirst?_eq_some hcut
        rw [valueUnder?_of_cut hbefore hname]
        simp [hname, bareValue_rdropWhile]
      · have hvalue : valueUnder? name.toList segment = none := by
          rw [valueUnder?_eq_none_iff, Names, hcut, Option.map_some, Option.some.injEq]
          exact hname
        simp only [hvalue, ← ih]
        simp [hname]

theorem find?_eq (header name : String) : find? header name =
    ((splitAll ';' header.toList).findSome? (valueUnder? name.toList)).map
      (fun value => make name (String.ofList value)) :=
  find?_segments_eq name (splitAll ';' header.toList)

/-- The first segment with the name decides. -/
theorem find?_of_first {header name : String} {earlier later : List (List Char)}
    {segment value : List Char} (hcut : splitAll ';' header.toList = earlier ++ segment :: later)
    (hearlier : ∀ s ∈ earlier, ¬ Names name.toList s)
    (hvalue : valueUnder? name.toList segment = some value) :
    find? header name = some (make name (String.ofList value)) := by
  have hnone : earlier.findSome? (valueUnder? name.toList) = none :=
    List.findSome?_eq_none_iff.2 fun s hs => valueUnder?_eq_none_iff.2 (hearlier s hs)
  rw [find?_eq, hcut, List.findSome?_append, hnone, List.findSome?_cons, hvalue]
  rfl

/-! ## A cookie as a header -/

theorem toList_foldl_attributes (items : List String) (text : String) :
    (items.foldl (fun text item => text ++ "; " ++ item) text).toList
      = joinWith ';' (text.toList :: items.map fun item => ' ' :: item.toList) := by
  induction items generalizing text with
  | nil => rfl
  | cons item items ih =>
    rw [List.foldl_cons, ih, List.map_cons, ← joinWith_append_cons]
    simp

/-- The text of a cookie is its name and value, then its attributes, with a
semicolon between each two and a blank before each attribute. -/
theorem toList_headerText (c : Cookie) : c.headerText.toList = joinWith ';'
    ((c.name.toList ++ '=' :: c.value.toList)
      :: c.attributes.map fun item => ' ' :: item.toList) := by
  have hfirst : (c.name ++ "=" ++ c.value).toList = c.name.toList ++ '=' :: c.value.toList := by
    simp
  rw [headerText, toList_foldl_attributes, hfirst]

/-- What is written first is read first. -/
theorem splitAll_headerText (c : Cookie) (hname : ';' ∉ c.name.toList)
    (hvalue : ';' ∉ c.value.toList) : ∃ later,
    splitAll ';' c.headerText.toList = (c.name.toList ++ '=' :: c.value.toList) :: later := by
  have hfirst : ';' ∉ c.name.toList ++ '=' :: c.value.toList := by simp [hname, hvalue]
  rw [toList_headerText]
  cases c.attributes with
  | nil => exact ⟨[], splitAll_of_not_mem hfirst⟩
  | cons item items => exact ⟨_, splitAll_append _ hfirst⟩

end SealedState.Cookie
