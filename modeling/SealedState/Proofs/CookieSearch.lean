/-
SealedState.Proofs.CookieSearch — a search of a header, read off its
segments without the code that searches.

`Assigns name after segment` says what it is to have a name: `after` stands
behind the first sign of equality, and the name before it. The first
segment with the name decides, and the value is what stands behind the sign,
without blanks and then without quotation marks around it
(`find?_eq_some_iff`). What is found is therefore written as a segment with
the same name and, where the quotation marks hid no blanks, with the same
value, and is found again in its own text (`find?_headerText`).

The search is `from_header` of SPEC_FULL.md §4.2.
-/
import SealedState.Proofs.CookieTheorems

namespace SealedState

/-! ## Trimmed texts -/

section

variable {p : Char → Bool} {cs : List Char}

theorem getLast?_rdropWhile : ∀ c ∈ (cs.rdropWhile p).getLast?, p c = false := by
  intro c hc
  have hne : cs.rdropWhile p ≠ [] := by
    intro hnil
    rw [hnil] at hc
    cases hc
  rw [List.getLast?_eq_some_getLast hne, Option.mem_some_iff] at hc
  rw [← hc]
  exact eq_false_of_ne_true (List.rdropWhile_last_not p cs hne)

theorem head?_dropWhile : ∀ c ∈ (cs.dropWhile p).head?, p c = false := by
  intro c hc
  have hnot := List.head?_dropWhile_not p cs
  rw [Option.mem_def] at hc
  rw [hc] at hnot
  simpa using hnot

/-- Trimming leaves nothing to trim. -/
theorem trimmed_trimBy (p : Char → Bool) (cs : List Char) : Trimmed p (trimBy p cs) where
  last := getLast?_rdropWhile
  head c hc := by
    obtain ⟨rest, hrest⟩ := List.rdropWhile_prefix (l := cs.dropWhile p) p
    have hhead : c ∈ (cs.dropWhile p).head? := by
      rw [trimBy_eq_rdropWhile, Option.mem_def] at hc
      rw [← hrest, List.head?_append, hc]
      rfl
    exact head?_dropWhile c hhead

end

namespace Cookie

variable {header : String} {name after segment : List Char} {c : Cookie}

/-! ## Segments with a name -/

/-- The text `after` stands behind the first sign of equality of the
segment, and before it the name, but for blanks around it. -/
def Assigns (name after segment : List Char) : Prop :=
  ∃ before, '=' ∉ before ∧ trim before = name ∧ segment = before ++ '=' :: after

theorem valueUnder?_eq_some_iff {value : List Char} : valueUnder? name segment = some value ↔
    ∃ after, Assigns name after segment ∧ bareValue after = value := by
  constructor
  · intro h
    have hnames : Names name segment := by
      by_contra hnot
      rw [valueUnder?_eq_none_iff.2 hnot] at h
      cases h
    rw [valueUnder?, if_pos hnames] at h
    obtain ⟨⟨before, after⟩, hcut, hvalue⟩ := Option.map_eq_some_iff.1 h
    rw [Names, hcut, Option.map_some, Option.some.injEq] at hnames
    obtain ⟨hsegment, hbefore⟩ := of_splitFirst?_eq_some hcut
    exact ⟨after, ⟨before, hbefore, hnames, hsegment⟩, hvalue⟩
  · rintro ⟨after, ⟨before, hbefore, hname, rfl⟩, rfl⟩
    exact valueUnder?_of_cut hbefore hname

theorem names_iff : Names name segment ↔ ∃ after, Assigns name after segment := by
  rw [← not_iff_not, ← valueUnder?_eq_none_iff, Option.eq_none_iff_forall_ne_some]
  constructor
  · rintro hnone ⟨after, h⟩
    exact hnone _ (valueUnder?_eq_some_iff.2 ⟨after, h, rfl⟩)
  · intro hnot value hvalue
    obtain ⟨after, h, -⟩ := valueUnder?_eq_some_iff.1 hvalue
    exact hnot ⟨after, h⟩

/-! ## The first of them -/

/-- The first segment with the name decides. -/
theorem find?_eq_some_iff {name : String} : find? header name = some c ↔
    ∃ earlier segment later after, splitAll ';' header.toList = earlier ++ segment :: later ∧
      Assigns name.toList after segment ∧ (∀ s ∈ earlier, ¬ Names name.toList s) ∧
      c = make name (String.ofList (bareValue after)) := by
  simp only [find?_eq, Option.map_eq_some_iff, List.findSome?_eq_some_iff,
    valueUnder?_eq_some_iff, valueUnder?_eq_none_iff]
  constructor
  · rintro ⟨value, ⟨earlier, segment, later, hcut, ⟨after, hassigns, rfl⟩, hearlier⟩, rfl⟩
    exact ⟨earlier, segment, later, after, hcut, hassigns, hearlier, rfl⟩
  · rintro ⟨earlier, segment, later, after, hcut, hassigns, hearlier, rfl⟩
    exact ⟨_, ⟨earlier, segment, later, hcut, ⟨after, hassigns, rfl⟩, hearlier⟩, rfl⟩

theorem exists_find?_iff {name : String} : (∃ c, find? header name = some c) ↔
    ∃ segment ∈ splitAll ';' header.toList, Names name.toList segment := by
  constructor
  · rintro ⟨c, h⟩
    obtain ⟨earlier, segment, later, after, hcut, hassigns, -⟩ := find?_eq_some_iff.1 h
    refine ⟨segment, ?_, names_iff.2 ⟨after, hassigns⟩⟩
    rw [hcut]
    exact List.mem_append_right earlier List.mem_cons_self
  · rintro ⟨segment, hmem, hnames⟩
    have hfound : ((splitAll ';' header.toList).findSome? (valueUnder? name.toList)).isSome := by
      rw [List.findSome?_isSome_iff]
      refine ⟨segment, hmem, Option.isSome_iff_ne_none.2 fun hnone => ?_⟩
      exact valueUnder?_eq_none_iff.1 hnone hnames
    obtain ⟨value, hvalue⟩ := Option.isSome_iff_exists.1 hfound
    exact ⟨_, by rw [find?_eq, hvalue, Option.map_some]⟩

/-! ## What is found -/

/-- A name that was found stands for itself. -/
theorem name_of_assigns (h : Assigns name after segment) (hsegment : ';' ∉ segment) :
    ';' ∉ name ∧ '=' ∉ name ∧ trim name = name := by
  obtain ⟨before, hbefore, rfl, rfl⟩ := h
  refine ⟨fun hmem => hsegment ?_, fun hmem => hbefore (mem_of_mem_trimBy hmem),
    trimBy_of_trimmed (trimmed_trimBy isBlank before)⟩
  exact List.mem_append_left _ (mem_of_mem_trimBy hmem)

theorem not_mem_bareValue (h : Assigns name after segment) (hsegment : ';' ∉ segment) :
    ';' ∉ bareValue after := by
  obtain ⟨before, -, -, rfl⟩ := h
  intro hmem
  have hafter : ';' ∈ after := mem_of_mem_trimBy (mem_of_mem_trimBy hmem)
  exact hsegment (List.mem_append_right before (List.mem_cons_of_mem _ hafter))

/-- A value with no blanks at its ends is found in the text of its cookie. -/
theorem find?_headerText {name : String} (h : find? header name = some c)
    (hblank : Trimmed isBlank c.value.toList) : find? c.headerText name = some c := by
  obtain ⟨earlier, segment, later, after, hcut, hassigns, -, rfl⟩ := find?_eq_some_iff.1 h
  have hmem : segment ∈ splitAll ';' header.toList :=
    hcut ▸ List.mem_append_right earlier List.mem_cons_self
  have hsegment : ';' ∉ segment := not_mem_of_mem_splitAll hmem
  obtain ⟨hsemicolon, hequals, hname⟩ := name_of_assigns hassigns hsegment
  have hvalue : (String.ofList (bareValue after)).toList = bareValue after := String.toList_ofList
  simp only [make, hvalue] at hblank
  obtain ⟨rest, hrest⟩ := splitAll_headerText (make name (String.ofList (bareValue after)))
    hsemicolon (by simpa only [make, hvalue] using not_mem_bareValue hassigns hsegment)
  simp only [make, hvalue] at hrest
  -- neither blanks nor quotation marks are left around the value
  have hbare : bareValue (bareValue after) = bareValue after := by
    rw [bareValue, trim, trimBy_of_trimmed hblank, bareValue]
    exact trimBy_of_trimmed (trimmed_trimBy _ _)
  refine find?_eq_some_iff.2 ⟨[], _, rest, bareValue after, hrest, ⟨_, hequals, hname, rfl⟩,
    by simp, ?_⟩
  rw [hbare]

/-- A cookie is found exactly if a segment has the name, and the first such
segment gives its value: without blanks, and then without quotation marks,
around what stands behind the first sign of equality. So it does not matter
which segments without the name stand before that segment, nor what stands
after it. What is found has the name and no attributes but the two that
every cookie has, its value ends no segment and has no quotation marks at
its ends, and it is found again in its own text if it has no blanks
there. -/
theorem search_finds_first :
    (∀ header name : String,
      ((∃ c, find? header name = some c) ↔
        ∃ segment ∈ splitAll ';' header.toList, ∃ after, Assigns name.toList after segment) ∧
      ∀ (earlier later : List (List Char)) (segment after : List Char),
        splitAll ';' header.toList = earlier ++ segment :: later →
        (∀ s ∈ earlier, ∀ text, ¬ Assigns name.toList text s) →
        Assigns name.toList after segment →
        find? header name
          = some (make name (String.ofList (trimBy (· == '"') (trimBy isBlank after))))) ∧
    (∀ (header other name : String) (earlier later earlier' later' : List (List Char))
      (segment after : List Char), Assigns name.toList after segment →
      splitAll ';' header.toList = earlier ++ segment :: later →
      splitAll ';' other.toList = earlier' ++ segment :: later' →
      (∀ s ∈ earlier ++ earlier', ∀ text, ¬ Assigns name.toList text s) →
      find? other name = find? header name) ∧
    (∀ (header name : String) (c : Cookie), find? header name = some c →
      c.name = name ∧ c.path = none ∧ c.maxAge = none ∧ ';' ∉ c.value.toList ∧
      c.value.toList.head? ≠ some '"' ∧ c.value.toList.getLast? ≠ some '"' ∧
      ((∀ ch ∈ c.value.toList.head?, isBlank ch = false) →
        (∀ ch ∈ c.value.toList.getLast?, isBlank ch = false) →
        find? c.headerText name = some c)) := by
  have hfirst : ∀ (header name : String) (earlier later : List (List Char))
      (segment after : List Char), splitAll ';' header.toList = earlier ++ segment :: later →
      (∀ s ∈ earlier, ∀ text, ¬ Assigns name.toList text s) → Assigns name.toList after segment →
      find? header name = some (make name (String.ofList (bareValue after))) := by
    intro header name earlier later segment after hcut hearlier hassigns
    refine find?_eq_some_iff.2 ⟨earlier, segment, later, after, hcut, hassigns, ?_, rfl⟩
    intro s hs hnames
    obtain ⟨text, htext⟩ := names_iff.1 hnames
    exact hearlier s hs text htext
  refine ⟨fun header name => ⟨?_, hfirst header name⟩, ?_, ?_⟩
  · simp only [exists_find?_iff, names_iff]
  · intro header other name earlier later earlier' later' segment after hassigns hcut hcut' hnot
    obtain ⟨hearlier, hearlier'⟩ := List.forall_mem_append.1 hnot
    rw [hfirst _ _ _ _ _ _ hcut hearlier hassigns, hfirst _ _ _ _ _ _ hcut' hearlier' hassigns]
  · intro header name c h
    obtain ⟨earlier, segment, later, after, hcut, hassigns, -, rfl⟩ := find?_eq_some_iff.1 h
    have hmem : segment ∈ splitAll ';' header.toList :=
      hcut ▸ List.mem_append_right earlier List.mem_cons_self
    have hsegment : ';' ∉ segment := not_mem_of_mem_splitAll hmem
    have hvalue : (make name (String.ofList (bareValue after))).value.toList = bareValue after :=
      String.toList_ofList
    have hquotes := trimmed_trimBy (· == '"') (trim after)
    refine ⟨rfl, rfl, rfl, ?_, ?_, ?_, fun hhead hlast => find?_headerText h ⟨hhead, hlast⟩⟩
    · rw [hvalue]
      exact not_mem_bareValue hassigns hsegment
    · rw [hvalue]
      intro hhead
      exact absurd (hquotes.head _ hhead) (by decide)
    · rw [hvalue]
      intro hlast
      exact absurd (hquotes.last _ hlast) (by decide)

/-- A segment with the name and no sign of equality, another cookie, blanks
that are not ASCII, a sign of equality and a quotation mark inside of the
value, and a second cookie with the name. -/
theorem search_finds_first_sample :
    find? "flow;flow-old=1;\u00a0flow = \"a=\"b\"\u2003;flow=x" "flow" = some (make "flow" "a=\"b") ∧
    find? "flow=\"a=\"b\"" "flow" = some (make "flow" "a=\"b") ∧
    find? (make "flow" "a=\"b").headerText "flow" = some (make "flow" "a=\"b") := by
  obtain ⟨hsearch, -, hfound⟩ := search_finds_first
  have hearlier : ∀ s ∈ ["flow".toList, "flow-old=1".toList], ¬ Names "flow".toList s := by decide
  have hfirst := (hsearch "flow;flow-old=1;\u00a0flow = \"a=\"b\"\u2003;flow=x" "flow").2
    ["flow".toList, "flow-old=1".toList] ["flow=x".toList]
    "\u00a0flow = \"a=\"b\"\u2003".toList " \"a=\"b\"\u2003".toList (by decide)
    (fun s hs text htext => hearlier s hs (names_iff.2 ⟨text, htext⟩))
    ⟨"\u00a0flow ".toList, by decide, by decide, by decide⟩
  have hshort := (hsearch "flow=\"a=\"b\"" "flow").2 [] [] "flow=\"a=\"b\"".toList
    "\"a=\"b\"".toList (by decide) (by simp) ⟨"flow".toList, by decide, by decide, by decide⟩
  have hvalue : String.ofList (trimBy (· == '"') (trimBy isBlank " \"a=\"b\"\u2003".toList))
      = "a=\"b" := by decide
  rw [hvalue] at hfirst
  refine ⟨hfirst, hshort, ?_⟩
  obtain ⟨-, -, -, -, -, -, htrip⟩ := hfound _ _ _ hfirst
  refine htrip ?_ ?_
  · intro ch hch
    cases hch
    decide
  · intro ch hch
    cases hch
    decide

end Cookie

end SealedState
