/-
SealedState.Proofs.JsonRecords — records, read from the objects and the
lists of the grammar.

`Record.assign` is what a record makes of one member of an object, and a
fold of it over the members, as they stand in the text, is what it makes of
the object (`document_object`): whether the text is accepted depends on
nothing else. The items of a list are taken by their places
(`document_list`). No text but objects and lists is accepted
(`exists_object_or_list`).

These are statements about records that refuse members they have no field
for, whose fields have readers that follow the grammar.

The settings of SPEC_FULL.md §6 are read as such a record.
-/
import SealedState.Json.Record
import SealedState.Proofs.JsonSeparators

namespace SealedState

/-! ## What a record makes of literals -/

section

open Json.Grammar (Literal)

variable {σ α : Type}

/-- Puts a member into a partial record, if it is a field that is not there
yet. -/
def Record.assign (r : Record Json.Reader σ α) (set : String → σ → Literal → Option σ) (s : σ)
    (m : String × Literal) : Option σ :=
  match r.field? m.1 with
  | some field => if field.isPresent s then none else set field.name s m.2
  | none => none

/-- Puts items into a partial record, each into the field at its place. -/
def Record.assignInOrder (set : String → σ → Literal → Option σ) :
    List (Field Json.Reader σ) → σ → List Literal → Option σ
  | fields, s, [] => if fields.all (·.isOptional) then some s else none
  | [], _, _ :: _ => none
  | field :: fields, s, l :: ls =>
    (set field.name s l).bind fun s => Record.assignInOrder set fields s ls

/-- The reader of each field follows the grammar. -/
def Record.Follows (r : Record Json.Reader σ α) (set : String → σ → Literal → Option σ) : Prop :=
  ∀ field ∈ r.fields, ∀ s, Json.Reader.Follows (field.read s) (set field.name s)

section

variable {r : Record Json.Reader σ α} {set : String → σ → Literal → Option σ} {s : σ}
  {name : String} {l : Literal} {field : Field Json.Reader σ}

theorem Record.assign_of_unknown (h : r.field? name = none) : r.assign set s (name, l) = none := by
  simp only [assign, h]

theorem Record.assign_of_present (h : r.field? name = some field)
    (hpresent : field.isPresent s = true) : r.assign set s (name, l) = none := by
  simp only [assign, h, hpresent, if_true]

theorem Record.assign_of_absent (h : r.field? name = some field)
    (habsent : field.isPresent s = false) :
    r.assign set s (name, l) = set field.name s l := by
  simp only [assign, h, habsent, Bool.false_eq_true, if_false]

end

theorem Record.mem_of_field? {r : Record Json.Reader σ α} {name : String}
    {field : Field Json.Reader σ} (h : r.field? name = some field) : field ∈ r.fields :=
  List.mem_of_find?_eq_some h

end

namespace Json.Reader

open Grammar Utf8

variable {σ α : Type} {r : Record Reader σ α} {set : String → σ → Literal → Option σ}
  {cs rest : List Char} {first : Bool} {ls : List Literal} {ms : List (String × Literal)}

/-! ## Objects -/

section Step

variable {start tail : Bytes} {bound : Nat} {s : σ} {name : String} {field : Field Reader σ}

theorem fieldsByName_of_closed (h : nextMember first start = .ok (.closed tail)) :
    fieldsByName r (bound + 1) first s start = .ok (s, tail) := by
  rw [fieldsByName]
  simp only [h, ok_bind]
  rfl

theorem fieldsByName_of_unknown (hothers : r.others = .refuse)
    (h : nextMember first start = .ok (.more name tail)) (hfield : r.field? name = none) :
    fieldsByName r (bound + 1) first s start
      = mismatch (.unknownField name r.names) (afterName tail) := by
  rw [fieldsByName]
  simp only [h, ok_bind, hfield, hothers]

theorem fieldsByName_of_present (h : nextMember first start = .ok (.more name tail))
    (hfield : r.field? name = some field) (hpresent : field.isPresent s = true) :
    fieldsByName r (bound + 1) first s start
      = mismatch (.duplicateField name) (afterName tail) := by
  rw [fieldsByName]
  simp only [h, ok_bind, hfield, hpresent, if_true]

theorem fieldsByName_of_absent (h : nextMember first start = .ok (.more name tail))
    (hfield : r.field? name = some field) (habsent : field.isPresent s = false) :
    fieldsByName r (bound + 1) first s start = (do
      let (s, rest) ← field.read s (← colon tail)
      fieldsByName r bound false s rest) := by
  rw [fieldsByName]
  simp only [h, ok_bind, hfield, habsent, Bool.false_eq_true, if_false]

theorem exists_nextMember {x : σ × Bytes} (h : fieldsByName r (bound + 1) first s start = .ok x) :
    ∃ next, nextMember first start = .ok next := by
  rw [fieldsByName] at h
  obtain ⟨next, hnext, -⟩ := bind_eq_ok_iff.1 h
  exact ⟨next, hnext⟩

end Step

/-- The members of an object are taken one by one. -/
theorem fieldsByName_members (hr : r.Follows set) (hothers : r.others = .refuse) :
    ∀ {ms : List (String × Literal)} {first : Bool} {cs : List Char} {bound : Nat} {s : σ},
    Members first cs ms rest → ms.length < bound →
    (fieldsByName r bound first s (bytes cs)).toOption
      = (ms.foldlM (r.assign set) s).map fun s => (s, bytes rest)
  | [], first, cs, bound + 1, s, .close hgap, _ => by
      rw [fieldsByName_of_closed (nextMember_close hgap)]
      rfl
  | (_, l) :: ms, first, cs, bound + 1, s, .member hlead hname hcolon hgap hvalue hrest, hbound => by
      have hnext := nextMember_more hlead hname
      have ih := fun s =>
        fieldsByName_members hr hothers (s := s) hrest (Nat.lt_of_succ_lt_succ hbound)
      rw [List.foldlM_cons]
      cases hfield : r.field? (String.ofList _) with
      | none =>
        rw [fieldsByName_of_unknown hothers hnext hfield, Record.assign_of_unknown hfield]
        rfl
      | some field =>
        cases hpresent : field.isPresent s with
        | true =>
          rw [fieldsByName_of_present hnext hfield hpresent,
            Record.assign_of_present hfield hpresent]
          rfl
        | false =>
          have hread := (hr field (Record.mem_of_field? hfield) s).reads hgap hvalue hrest.ends
          rw [fieldsByName_of_absent hnext hfield hpresent, Record.assign_of_absent hfield hpresent,
            colon_of_gap hcolon, ok_bind, toOption_bind, hread]
          cases set field.name s l with
          | none => rfl
          | some s => exact ih s

/-- An object that is accepted is one of the grammar. -/
theorem exists_members (hr : r.Follows set) (hothers : r.others = .refuse) :
    ∀ {bound : Nat} {first : Bool} {cs : List Char} {s s' : σ} {tail : Bytes},
    fieldsByName r bound first s (bytes cs) = .ok (s', tail) →
    ∃ ms rest, Members first cs ms rest ∧ tail = bytes rest
  | bound + 1, first, cs, s, s', tail, h => by
      obtain ⟨next, hnext⟩ := exists_nextMember h
      rcases nextMember_cases hnext with ⟨rest, hgap, rfl⟩ | ⟨name, t, colon, hlead, hname, rfl⟩
      · rw [fieldsByName_of_closed hnext] at h
        cases h
        exact ⟨[], rest, .close hgap, rfl⟩
      cases hfield : r.field? (String.ofList t) with
      | none =>
        rw [fieldsByName_of_unknown hothers hnext hfield] at h
        exact absurd h mismatch_ne_ok
      | some field =>
        cases hpresent : field.isPresent s with
        | true =>
          rw [fieldsByName_of_present hnext hfield hpresent] at h
          exact absurd h mismatch_ne_ok
        | false =>
          rw [fieldsByName_of_absent hnext hfield hpresent] at h
          obtain ⟨value, hcolon, h⟩ := bind_eq_ok_iff.1 h
          obtain ⟨⟨s'', mid⟩, hread, h⟩ := bind_eq_ok_iff.1 h
          obtain ⟨value, hgap, rfl⟩ := exists_colon hcolon
          obtain ⟨start, l, mid, hgap', hvalue, rfl⟩ :=
            (hr field (Record.mem_of_field? hfield) s).exists_value hread
          obtain ⟨ms, rest, hmembers, rfl⟩ := exists_members hr hothers h
          exact ⟨_, rest, .member hlead hname hgap hgap' hvalue hmembers, rfl⟩

/-! ## Lists -/

section Step

variable {fields : List (Field Reader σ)} {field : Field Reader σ} {index : Nat} {s : σ}
  {start tail : Bytes}

theorem fieldsInOrder_of_closed (h : nextItem (index == 0) start = .ok (.closed tail)) :
    fieldsInOrder r (field :: fields) index s start
      = if (field :: fields).all (·.isOptional) then .ok (s, tail)
        else mismatch (.wrongLength index (expectedFields r)) tail := by
  rw [fieldsInOrder]
  simp only [h, ok_bind]
  rfl

theorem fieldsInOrder_of_more (h : nextItem (index == 0) start = .ok (.more () tail)) :
    fieldsInOrder r (field :: fields) index s start = (do
      let (s, rest) ← field.read s tail
      fieldsInOrder r fields (index + 1) s rest) := by
  rw [fieldsInOrder]
  simp only [h, ok_bind]

theorem exists_nextItem {x : σ × Bytes}
    (h : fieldsInOrder r (field :: fields) index s start = .ok x) :
    ∃ next, nextItem (index == 0) start = .ok next := by
  rw [fieldsInOrder] at h
  obtain ⟨next, hnext, -⟩ := bind_eq_ok_iff.1 h
  exact ⟨next, hnext⟩

end Step

/-- Where an item stands, a list does not end. -/
theorem closeList_of_item {start mid : List Char} {l : Literal} (hlead : Lead first cs start)
    (hvalue : Value start l mid) : ∃ fault, closeList (bytes cs) = .error fault := by
  cases h : closeList (bytes cs) with
  | error fault => exact ⟨fault, rfl⟩
  | ok tail =>
    obtain ⟨rest, hgap, -⟩ := exists_closeList h
    obtain ⟨c, more, rfl, hspace, hclose⟩ := hvalue.exists_cons
    cases hlead with
    | first h =>
      have heq := (h.dropWhile_eq hspace).symm.trans (hgap.dropWhile_eq (by decide))
      exact absurd (List.cons.inj heq).1 hclose
    | comma h =>
      have heq := (h.dropWhile_eq (by decide)).symm.trans (hgap.dropWhile_eq (by decide))
      cases heq

/-- The items of a list are taken one by one. -/
theorem fieldsInOrder_items : ∀ {fields : List (Field Reader σ)} {ls : List Literal} {index : Nat}
    {cs : List Char} {s : σ},
    (∀ field ∈ fields, ∀ s, Reader.Follows (field.read s) (set field.name s)) →
    Items (index == 0) cs ls rest →
    (fieldsInOrder r fields index s (bytes cs)).toOption
      = (Record.assignInOrder set fields s ls).map fun s => (s, bytes rest)
  | [], [], index, cs, s, _, .close hgap => by
      rw [fieldsInOrder]
      simp only [closeList_of_gap hgap, ok_bind]
      rfl
  | [], _ :: _, index, cs, s, _, .item hlead hvalue _ => by
      obtain ⟨fault, hclose⟩ := closeList_of_item hlead hvalue
      rw [fieldsInOrder]
      simp only [hclose]
      rfl
  | field :: fields, [], index, cs, s, _, .close hgap => by
      rw [fieldsInOrder_of_closed (nextItem_close hgap), Record.assignInOrder]
      split
      · rfl
      · rfl
  | field :: fields, l :: ls, index, cs, s, hfields, .item hlead hvalue hrest => by
      obtain ⟨hfield, hfields⟩ := List.forall_mem_cons.1 hfields
      have ih : ∀ s, (fieldsInOrder r fields (index + 1) s (bytes _)).toOption
          = (Record.assignInOrder set fields s ls).map fun s => (s, bytes rest) :=
        fun s => fieldsInOrder_items hfields hrest
      have hread := (hfield s).reads (.none _) hvalue hrest.ends
      rw [fieldsInOrder_of_more (nextItem_more hlead hvalue), toOption_bind, hread,
        Record.assignInOrder]
      cases set field.name s l with
      | none => rfl
      | some s => exact ih s

/-- A list that is accepted is one of the grammar. -/
theorem exists_items : ∀ {fields : List (Field Reader σ)} {index : Nat} {cs : List Char}
    {s s' : σ} {tail : Bytes},
    (∀ field ∈ fields, ∀ s, Reader.Follows (field.read s) (set field.name s)) →
    fieldsInOrder r fields index s (bytes cs) = .ok (s', tail) →
    ∃ ls rest, Items (index == 0) cs ls rest ∧ tail = bytes rest
  | [], index, cs, s, s', tail, _, h => by
      rw [fieldsInOrder] at h
      obtain ⟨after, hclose, h⟩ := bind_eq_ok_iff.1 h
      cases h
      obtain ⟨rest, hgap, rfl⟩ := exists_closeList hclose
      exact ⟨[], rest, .close hgap, rfl⟩
  | field :: fields, index, cs, s, s', tail, hfields, h => by
      obtain ⟨hfield, hfields⟩ := List.forall_mem_cons.1 hfields
      obtain ⟨next, hnext⟩ := exists_nextItem h
      rcases nextItem_cases hnext with ⟨rest, hgap, rfl⟩ | ⟨start, hlead, rfl⟩
      · rw [fieldsInOrder_of_closed hnext] at h
        split at h
        · cases h
          exact ⟨[], rest, .close hgap, rfl⟩
        · exact absurd h mismatch_ne_ok
      · rw [fieldsInOrder_of_more hnext] at h
        obtain ⟨⟨s'', mid⟩, hread, h⟩ := bind_eq_ok_iff.1 h
        obtain ⟨start', l, mid, hgap, hvalue, rfl⟩ := (hfield s).exists_value hread
        obtain ⟨ls, rest, hitems, rfl⟩ := exists_items hfields h
        exact ⟨l :: ls, rest, .item (hlead.trans hgap) hvalue hitems, rfl⟩

/-! ## Texts as wholes -/

section Text

variable {α : Type} {r : Record Reader σ α} {text body : List Char}

theorem toOption_finishRecord (s : σ) (rest : Bytes) :
    (finishRecord r s rest).toOption = (r.complete s).toOption.map fun x => (x, rest) := by
  rw [finishRecord]
  cases r.complete s with
  | error name => rfl
  | ok x => rfl

theorem record_of_openBrace (hgap : Gap cs ('{' :: body)) : record r (bytes cs) = (do
    let (s, rest) ← fieldsByName r ((bytes body).length + 1) true r.empty (bytes body)
    finishRecord r s rest) := by
  rw [record, dispatch, (skipBlank_eq_cons_iff (by decide) (by decide)).2 ⟨body, hgap, rfl⟩]
  rfl

theorem record_of_openBracket (hgap : Gap cs ('[' :: body)) : record r (bytes cs) = (do
    let (s, rest) ← fieldsInOrder r r.fields 0 r.empty (bytes body)
    finishRecord r s rest) := by
  rw [record, dispatch, (skipBlank_eq_cons_iff (by decide) (by decide)).2 ⟨body, hgap, rfl⟩]
  rfl

theorem record_object (hr : r.Follows set) (hothers : r.others = .refuse)
    (hgap : Gap cs ('{' :: body)) (h : Members true body ms rest) :
    (record r (bytes cs)).toOption = ((ms.foldlM (r.assign set) r.empty).bind fun s =>
      (r.complete s).toOption).map fun x => (x, bytes rest) := by
  have hbound : ms.length < (bytes body).length + 1 := by
    have hle := length_le_bytes body
    have hmembers := h.length_le
    omega
  rw [record_of_openBrace hgap, toOption_bind, fieldsByName_members hr hothers h hbound]
  cases ms.foldlM (r.assign set) r.empty with
  | none => rfl
  | some s => exact toOption_finishRecord s (bytes rest)

theorem record_list (hr : r.Follows set) (hgap : Gap cs ('[' :: body))
    (h : Items true body ls rest) :
    (record r (bytes cs)).toOption = ((Record.assignInOrder set r.fields r.empty ls).bind fun s =>
      (r.complete s).toOption).map fun x => (x, bytes rest) := by
  have hitems : Items ((0 : Nat) == 0) body ls rest := h
  rw [record_of_openBracket hgap, toOption_bind, fieldsInOrder_items hr hitems]
  cases Record.assignInOrder set r.fields r.empty ls with
  | none => rfl
  | some s => exact toOption_finishRecord s (bytes rest)

theorem exists_finishRecord {s : σ} {start : Bytes} {x : α} {tail : Bytes}
    (h : finishRecord r s start = .ok (x, tail)) : tail = start := by
  rw [finishRecord] at h
  split at h
  · cases h
    rfl
  · exact absurd h mismatch_ne_ok

theorem exists_of_record (hr : r.Follows set) (hothers : r.others = .refuse) {x : α} {tail : Bytes}
    (h : record r (bytes cs) = .ok (x, tail)) : ∃ rest, tail = bytes rest ∧
      ((∃ body ms, Gap cs ('{' :: body) ∧ Members true body ms rest) ∨
        ∃ body ls, Gap cs ('[' :: body) ∧ Items true body ls rest) := by
  obtain ⟨b, start, hskip, hread⟩ := dispatch_eq_ok_iff.1 h
  split at hread
  · rename_i hb
    subst hb
    obtain ⟨body, hgap, rfl⟩ := (skipBlank_eq_cons_iff (c := '\x7b') (by decide) (by decide)).1 hskip
    obtain ⟨⟨s, after⟩, hfields, hfinish⟩ := bind_eq_ok_iff.1 hread
    obtain ⟨ms, rest, hmembers, rfl⟩ := exists_members hr hothers hfields
    exact ⟨rest, exists_finishRecord hfinish, .inl ⟨body, ms, hgap, hmembers⟩⟩
  · split at hread
    · rename_i hb
      subst hb
      obtain ⟨body, hgap, rfl⟩ :=
        (skipBlank_eq_cons_iff (c := '[') (by decide) (by decide)).1 hskip
      obtain ⟨⟨s, after⟩, hfields, hfinish⟩ := bind_eq_ok_iff.1 hread
      obtain ⟨ls, rest, hitems, rfl⟩ := exists_items hr hfields
      exact ⟨rest, exists_finishRecord hfinish, .inr ⟨body, ls, hgap, hitems⟩⟩
    · exact absurd hread wrongType_ne_ok

theorem toOption_document {read : Reader α} {x : Option α} {rest : List Char}
    (h : (read (bytes text)).toOption = x.map fun x => (x, bytes rest)) (hgap : Gap rest []) :
    (document read (bytes text)).toOption = x := by
  rw [document, toOption_bind, h]
  cases x with
  | none => rfl
  | some x => simp only [Option.map_some, Option.bind_some, skipBlank_eq_nil_iff.2 hgap]; rfl

/-- An object is read by the fold over its members. -/
theorem document_object (hr : r.Follows set) (hothers : r.others = .refuse)
    (h : IsObject text ms) : (document (record r) (bytes text)).toOption
      = (ms.foldlM (r.assign set) r.empty).bind fun s => (r.complete s).toOption := by
  obtain ⟨body, rest, hgap, hmembers, hend⟩ := h
  exact toOption_document (record_object hr hothers hgap hmembers) hend

/-- A list is read by the places of its items. -/
theorem document_list (hr : r.Follows set) (h : IsList text ls) :
    (document (record r) (bytes text)).toOption
      = (Record.assignInOrder set r.fields r.empty ls).bind fun s => (r.complete s).toOption := by
  obtain ⟨body, rest, hgap, hitems, hend⟩ := h
  exact toOption_document (record_list hr hgap hitems) hend

/-- No other text is accepted. -/
theorem exists_object_or_list (hr : r.Follows set) (hothers : r.others = .refuse) {x : α}
    (h : document (record r) (bytes text) = .ok x) :
    (∃ ms, IsObject text ms) ∨ ∃ ls, IsList text ls := by
  obtain ⟨⟨x', tail⟩, hrecord, hrest⟩ := bind_eq_ok_iff.1 h
  obtain ⟨rest, rfl, hwhole⟩ := exists_of_record hr hothers hrecord
  have hend : Gap rest [] := by
    simp only at hrest
    split at hrest
    · rename_i hskip
      exact skipBlank_eq_nil_iff.1 hskip
    · cases hrest
  rcases hwhole with ⟨body, ms, hgap, hmembers⟩ | ⟨body, ls, hgap, hitems⟩
  · exact .inl ⟨ms, body, rest, hgap, hmembers, hend⟩
  · exact .inr ⟨ls, body, rest, hgap, hitems, hend⟩

end Text

end Json.Reader

end SealedState
