/-
SealedState.Proofs.JsonValues — values, records and tuples are read back
from JSON text.

`written_value` is the induction over a value: each of its containers may
be open where the depth that is left is that of the value at least.
Members are put in order as they are read, so an object that is in order
is read back as it is (`members_listed`). A record is read back if each of
the texts fills one field that was absent (`Fills`, `written_record`).
-/
import Mathlib.Order.Lattice
import SealedState.Proofs.JsonContainers
import SealedState.Proofs.PlainValues
import SealedState.Serializer

namespace SealedState.Json

/-! ## Writing -/

theorem writeItems_eq_map : ∀ items : List Json, writeItems items = items.map write
  | [] => rfl
  | item :: items => by rw [writeItems, writeItems_eq_map items, List.map_cons]

theorem writeMembers_eq_map : ∀ members : List (String × Json),
    writeMembers members = members.map fun m => writeMember m.1 m.2.write
  | [] => rfl
  | (name, value) :: members => by rw [writeMembers, writeMembers_eq_map members, List.map_cons]

namespace Reader

variable {α σ : Type} {rest : Bytes} {first : Bool}

/-! ## Objects -/

theorem members_closed {read : Reader Json} {bound : Nat} {first : Bool}
    {before : List (String × Json)} :
    members read (bound + 1) first before (Ascii.closeBrace :: rest) = .ok (before, rest) := rfl

theorem members_more {read : Reader Json} {bound : Nat} {first : Bool}
    {before : List (String × Json)} {name : String} {text : Bytes} :
    members read (bound + 1) first before
        (lead first ++ (writeText name ++ Ascii.colon :: text)) = (do
      let (x, rest) ← read text
      members read bound false (Json.insert name x before) rest) := by
  rw [members]
  simp only [nextMember_lead, ok_bind, colon_cons]

theorem insert_of_ascending {name : String} {x : Json} {before after : List (String × Json)}
    (h : Ascending (before ++ (name, x) :: after)) :
    Json.insert name x before = before ++ [(name, x)] :=
  insertAscending_of_forall_lt String.lt_irrefl (fun _ _ _ => String.lt_trans)
    fun p hp => (List.pairwise_append.1 h).2.2 p hp _ List.mem_cons_self

/-- Members in order are read back, behind those that were read before. -/
theorem members_listed {read : Reader Json} (members : List (String × Json)) :
    (∀ m ∈ members, Written read m.2.write m.2) →
    ∀ (bound : Nat) (first : Bool) (before : List (String × Json)),
      Ascending (before ++ members) → members.length < bound →
      Reader.members read bound first before
          (listed first (writeMembers members) ++ Ascii.closeBrace :: rest)
        = .ok (before ++ members, rest) := by
  induction members with
  | nil =>
    intro _ bound first before _ hbound
    obtain ⟨bound, rfl⟩ := Nat.exists_eq_add_one_of_ne_zero (Nat.ne_zero_of_lt hbound)
    rw [writeMembers, listed, List.nil_append, members_closed, List.append_nil]
  | cons m members ih =>
    intro h bound first before hascending hbound
    obtain ⟨name, x⟩ := m
    obtain ⟨bound, rfl⟩ := Nat.exists_eq_add_one_of_ne_zero (Nat.ne_zero_of_lt hbound)
    obtain ⟨hx, hmembers⟩ := List.forall_mem_cons.1 h
    have hread := hx.reads _
      (ends_listed ends_closeBrace rest (writeMembers members))
    rw [writeMembers, listed, List.append_assoc, List.append_assoc, writeMember_append,
      members_more, hread, ok_bind]
    -- the member comes after all that were read before, so it is put at the end
    simp only
    rw [insert_of_ascending hascending]
    have ih := ih hmembers bound false (before ++ [(name, x)])
      (by rwa [List.append_assoc]) (Nat.lt_of_succ_lt_succ hbound)
    rwa [List.append_assoc] at ih

theorem length_writeMembers (members : List (String × Json)) :
    (writeMembers members).length = members.length := by
  rw [writeMembers_eq_map, List.length_map]

theorem writeMembers_ne_nil (members : List (String × Json)) :
    ∀ text ∈ writeMembers members, text ≠ [] := by
  rw [writeMembers_eq_map]
  intro text htext
  obtain ⟨m, -, rfl⟩ := List.mem_map.1 htext
  exact List.cons_ne_nil _ _

/-! ## Values -/

section

variable {nested : UInt8 → Reader Json}

theorem element_null : element nested (writeNull ++ rest) = .ok (.null, rest) := by
  change (do return (Json.null, ← ident (Ascii.ofString "ull") (Ascii.ofString "ull" ++ rest))) = _
  rw [ident_append]
  rfl

theorem element_boolean (b : Bool) :
    element nested (writeBoolean b ++ rest) = .ok (.boolean b, rest) := by
  cases b with
  | false =>
    change (do return (Json.boolean false,
      ← ident (Ascii.ofString "alse") (Ascii.ofString "alse" ++ rest))) = _
    rw [ident_append]
    rfl
  | true =>
    change (do return (Json.boolean true,
      ← ident (Ascii.ofString "rue") (Ascii.ofString "rue" ++ rest))) = _
    rw [ident_append]
    rfl

theorem element_text (s : String) : element nested (writeText s ++ rest) = .ok (.text s, rest) := by
  rw [writeText_append, element, dispatch_cons (by decide), if_neg (by decide),
    if_neg (by decide), if_neg (by decide), if_neg (by decide), if_pos rfl, text_escaped]
  rfl

theorem element_number {b : UInt8} (h : startsNumber b = true) : element nested (b :: rest) = (do
    let (n, rest) ← numberFrom b rest
    return (.number n, rest)) := by
  have hne : ∀ letter, startsNumber letter = false → b ≠ letter := by
    rintro letter hletter rfl
    rw [h] at hletter
    cases hletter
  rw [element, dispatch_cons (beginsValue_of_startsNumber h), if_neg (hne _ (by decide)),
    if_neg (hne _ (by decide)), if_neg (hne _ (by decide)), if_pos h]

end

theorem exists_value_eq (d : Nat) : ∃ nested, value d = element nested := by
  cases d with
  | zero => exact ⟨_, rfl⟩
  | succ d => exact ⟨_, rfl⟩

/-- Values that are no containers are read alike at all depths. -/
theorem Written.of_element {text : Bytes} {x : Json}
    (h : ∀ nested, Written (element nested) text x) (d : Nat) : Written (value d) text x := by
  obtain ⟨nested, hvalue⟩ := exists_value_eq d
  rw [hvalue]
  exact h nested

theorem value_openBracket (d : Nat) : value (d + 1) (Ascii.openBracket :: rest) = (do
    let (xs, rest) ← items (value d) (rest.length + 1) true rest
    return (.list xs, rest)) := rfl

theorem value_openBrace (d : Nat) : value (d + 1) (Ascii.openBrace :: rest) = (do
    let (ms, rest) ← members (value d) (rest.length + 1) true [] rest
    return (.object ms, rest)) := rfl

/-- A value is read back where its containers may be open. -/
theorem written_value {x : Json} (h : x.Exact) :
    ∀ d, x.depth ≤ d → Written (value d) x.write x := by
  induction h with
  | null =>
    exact fun d _ => .of_element
      (fun nested => ⟨⟨Ascii.lowerN, _, rfl, by decide⟩, fun rest _ => element_null⟩) d
  | boolean b =>
    exact fun d _ => .of_element
      (fun nested => ⟨(written_boolean b).begins, fun rest _ => element_boolean b⟩) d
  | integer n =>
    obtain ⟨b, tail, htext, hb, hread⟩ := numberFrom_writeInteger n
    rw [write, Number.write, htext]
    refine fun d _ => .of_element (fun nested => ?_) d
    refine ⟨⟨b, tail, rfl, beginsValue_of_startsNumber hb⟩, fun rest hrest => ?_⟩
    rw [List.cons_append, element_number hb, hread rest hrest]
    rfl
  | text s =>
    exact fun d _ => .of_element
      (fun nested => ⟨(written_string s).begins, fun rest _ => element_text s⟩) d
  | @list items h ih =>
    intro d hd
    rw [depth] at hd
    obtain ⟨d, rfl⟩ := Nat.exists_eq_add_one_of_ne_zero (Nat.ne_zero_of_lt hd)
    have hitems := depthItems_le_iff.1 (Nat.le_of_succ_le_succ hd)
    have hwritten : List.Forall₂ (Written (value d)) (items.map write) items :=
      List.forall₂_map_left_iff.2 (List.forall₂_same.2 fun x hx => ih x hx d (hitems x hx))
    rw [write, writeItems_eq_map]
    refine ⟨⟨Ascii.openBracket, _, rfl, by decide⟩, fun rest _ => ?_⟩
    rw [writeList_append, value_openBracket,
      items_listed hwritten _ _ (items_length_bound _ _ (ne_nil_of_written hwritten))]
    rfl
  | @object members hascending h ih =>
    intro d hd
    rw [depth] at hd
    obtain ⟨d, rfl⟩ := Nat.exists_eq_add_one_of_ne_zero (Nat.ne_zero_of_lt hd)
    have hmembers := depthMembers_le_iff.1 (Nat.le_of_succ_le_succ hd)
    rw [write]
    refine ⟨⟨Ascii.openBrace, _, rfl, by decide⟩, fun rest _ => ?_⟩
    rw [writeObject_append, value_openBrace, members_listed members
      (fun m hm => ih m hm d (hmembers m hm)) _ _ [] hascending ?_]
    · rfl
    · rw [← length_writeMembers]
      exact items_length_bound _ _ (writeMembers_ne_nil members)

/-! ## Records -/

section

variable {r : Record Reader σ α}

/-- Texts of members that take a partial record to another one, each of
them by a field that was absent. -/
inductive Fills (r : Record Reader σ α) : σ → List Bytes → σ → Prop
  | nil (s : σ) : Fills r s [] s
  | cons {s s' s'' : σ} {name : String} {field : Field Reader σ} {text : Bytes}
      {texts : List Bytes} (hfield : r.field? name = some field)
      (habsent : field.isPresent s = false) (htext : Written (field.read s) text s')
      (hrest : Fills r s' texts s'') : Fills r s (writeMember name text :: texts) s''

theorem fieldsByName_closed {bound : Nat} {s : σ} :
    fieldsByName r (bound + 1) first s (Ascii.closeBrace :: rest) = .ok (s, rest) := rfl

theorem fieldsByName_more {bound : Nat} {s : σ} {name : String} {field : Field Reader σ}
    {text : Bytes} (hfield : r.field? name = some field) (habsent : field.isPresent s = false) :
    fieldsByName r (bound + 1) first s
        (lead first ++ (writeText name ++ Ascii.colon :: text)) = (do
      let (s, rest) ← field.read s text
      fieldsByName r bound false s rest) := by
  rw [fieldsByName]
  simp only [nextMember_lead, ok_bind, hfield, habsent, Bool.false_eq_true, if_false, colon_cons]

theorem fieldsByName_listed {s s' : σ} {texts : List Bytes} (h : Fills r s texts s') :
    ∀ (bound : Nat) (first : Bool), texts.length < bound →
    fieldsByName r bound first s (listed first texts ++ Ascii.closeBrace :: rest)
      = .ok (s', rest) := by
  induction h with
  | nil s =>
    intro bound first hbound
    obtain ⟨bound, rfl⟩ := Nat.exists_eq_add_one_of_ne_zero (Nat.ne_zero_of_lt hbound)
    rw [listed, List.nil_append, fieldsByName_closed]
  | @cons s s' s'' name field text texts hfield habsent htext _ ih =>
    intro bound first hbound
    obtain ⟨bound, rfl⟩ := Nat.exists_eq_add_one_of_ne_zero (Nat.ne_zero_of_lt hbound)
    have hread := htext.reads _ (ends_listed ends_closeBrace rest texts)
    rw [listed, List.append_assoc, List.append_assoc, writeMember_append,
      fieldsByName_more hfield habsent, hread, ok_bind]
    exact ih bound false (Nat.lt_of_succ_lt_succ hbound)

theorem ne_nil_of_fills {s s' : σ} {texts : List Bytes} (h : Fills r s texts s') :
    ∀ text ∈ texts, text ≠ [] := by
  induction h with
  | nil s => simp
  | cons _ _ _ _ ih => exact List.forall_mem_cons.2 ⟨List.cons_ne_nil _ _, ih⟩

/-- A record is read back from the texts of its fields. -/
theorem written_record {texts : List Bytes} {s : σ} {x : α} (h : Fills r r.empty texts s)
    (hcomplete : r.complete s = .ok x) : Written (record r) (writeObject texts) x := by
  refine ⟨⟨Ascii.openBrace, _, rfl, by decide⟩, fun rest _ => ?_⟩
  rw [writeObject_append, record, dispatch_cons (by decide), if_pos rfl,
    fieldsByName_listed h _ _ (items_length_bound _ _ (ne_nil_of_fills h)), ok_bind]
  simp only [finishRecord, hcomplete]

end

/-! ## Flows -/

theorem written_optionalText : ∀ o : Option String,
    Written (option string) (writeOption writeText o) o
  | none => written_none string
  | some s => (written_string s).some fun h => absurd (Option.some.inj h) (by decide)

theorem written_flow (f : CredentialFlow) : Written flow (writeFlow f) f := by
  obtain ⟨connectorId, connectionId, redirectUrl, token⟩ := f
  have h1 := (written_string connectorId).map fun s =>
    CredentialFlow.Partial.mk (some s) none none none
  have h2 := (written_string connectionId).map fun s =>
    CredentialFlow.Partial.mk (some connectorId) (some s) none none
  have h3 := (written_string redirectUrl).map fun s =>
    CredentialFlow.Partial.mk (some connectorId) (some connectionId) (some s) none
  have h4 := (written_optionalText token).map fun s =>
    CredentialFlow.Partial.mk (some connectorId) (some connectionId) (some redirectUrl) (some s)
  have hfills : Fills (CredentialFlow.record string (option string) map) ⟨none, none, none, none⟩
      [writeMember "connector_id" (writeText connectorId),
        writeMember "connection_id" (writeText connectionId),
        writeMember "redirect_url" (writeText redirectUrl),
        writeMember "token" (writeOption writeText token)]
      ⟨some connectorId, some connectionId, some redirectUrl, some token⟩ := by
    refine .cons rfl rfl h1 ?_
    refine .cons rfl rfl h2 ?_
    refine .cons rfl rfl h3 ?_
    refine .cons rfl rfl h4 ?_
    exact .nil _
  exact written_record hfills rfl

/-! ## Tuples -/

theorem ends_lead : Ends (lead false ++ rest) := ends_cons (by decide)

theorem part_lead {read : Reader α} {text : Bytes} {x : α} (h : Written read text x)
    (hrest : Ends rest) (index : Nat) (first : Bool) (hfirst : (index == 0) = first)
    (whole : String) :
    part read index whole (lead first ++ (text ++ rest)) = .ok (x, rest) := by
  obtain ⟨b, tail, rfl, hb⟩ := h.begins
  rw [part, hfirst, List.cons_append, nextItem_lead hb, ok_bind]
  exact h.reads rest hrest

/-- The kinds of integer that numbers hold. -/
theorem bounds_of_ne_i128 {k : IntegerKind} (hk : k ≠ .i128) (v : k.Value) :
    integerBounds.least ≤ v.val ∧ v.val ≤ integerBounds.greatest := by
  have hk : integerBounds.least ≤ k.bounds.least ∧ k.bounds.greatest ≤ integerBounds.greatest := by
    cases k with
    | i128 => exact absurd rfl hk
    | u8 | u32 | u64 | i32 | i64 => decide
  exact ⟨Int.le_trans hk.1 v.property.1, Int.le_trans v.property.2 hk.2⟩

theorem written_integerOfKind : ∀ {k : IntegerKind} (v : k.Value),
    Written (integerOfKind k) (writeInteger v.val) v
  | .i128, v => written_wideInteger v
  | .u8, v => written_integer v (bounds_of_ne_i128 (by decide) v)
  | .u32, v => written_integer v (bounds_of_ne_i128 (by decide) v)
  | .u64, v => written_integer v (bounds_of_ne_i128 (by decide) v)
  | .i32, v => written_integer v (bounds_of_ne_i128 (by decide) v)
  | .i64, v => written_integer v (bounds_of_ne_i128 (by decide) v)

theorem written_optionalBoolean : ∀ o : Option Bool,
    Written (option boolean) (writeOption writeBoolean o) o
  | none => written_none boolean
  | some b => (written_boolean b).some (by cases b <;> decide)

theorem written_tuple (t : Tuple) : Written tuple (writeTuple t) t := by
  obtain ⟨s, n, ns, o⟩ := t
  have hn : Written (integer .u64) (writeInteger n.val) n :=
    written_integer n (bounds_of_ne_i128 (by decide) n)
  have hns : Written (list (integer .u8)) (writeList (ns.map (writeInteger ·.val))) ns :=
    written_list_map fun v _ => written_integer v (bounds_of_ne_i128 (by decide) v)
  refine ⟨⟨Ascii.openBracket, _, rfl, by decide⟩, fun rest _ => ?_⟩
  have hend : Ends (Ascii.closeBracket :: rest) := ends_cons (by decide)
  rw [writeTuple, writeList_append, tuple, dispatch_cons (by decide), if_pos rfl]
  simp only [listed, List.append_assoc, List.nil_append]
  rw [part_lead (written_string s) ends_lead 0 true rfl, ok_bind,
    part_lead hn ends_lead 1 false rfl, ok_bind, part_lead hns ends_lead 2 false rfl, ok_bind,
    part_lead (written_optionalBoolean o) hend 3 false rfl]
  rfl

/-! ## Shapes -/

theorem written_optionalInteger {k : IntegerKind} : ∀ o : Option k.Value,
    Written (option (integerOfKind k)) (writeOption (writeInteger ·.val) o) o
  | none => written_none _
  | some v => by
      refine (written_integerOfKind v).some ?_
      obtain ⟨b, tail, htext, hb⟩ := exists_writeInteger v.val
      rw [htext]
      rintro h
      cases h
      exact absurd hb (by decide)

end Reader

end SealedState.Json
