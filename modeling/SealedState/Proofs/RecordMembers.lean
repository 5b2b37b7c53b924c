/-
SealedState.Proofs.RecordMembers — what a record holds of the members of an
object, whatever their order.

A partial record is looked at through `get?`, the literal that a field was
read from. `Record.Holds` says what one member does to it, and inductions
over the members what all of them do: members that are taken are distinct
fields with values that fit, and the record holds them and nothing else
(`Holds.of_foldlM`); such members are always taken (`Holds.exists_foldlM`).
Neither mentions the order of the members. The items of a list are taken as
members under the names of the fields (`Holds.assignInOrder_eq_some_iff`).
-/
import SealedState.Proofs.JsonRecords

namespace SealedState.Record

open Json.Grammar (Literal)

variable {σ α : Type} {r : Record Json.Reader σ α} {set : String → σ → Literal → Option σ}
  {get? : σ → String → Option Literal} {Fits : String → Literal → Prop}

/-- The partial record holds a literal for each field that is present, and
`set` puts one there if it fits. -/
structure Holds (r : Record Json.Reader σ α) (set : String → σ → Literal → Option σ)
    (get? : σ → String → Option Literal) (Fits : String → Literal → Prop) : Prop where
  isPresent : ∀ field ∈ r.fields, ∀ s, field.isPresent s = (get? s field.name).isSome
  set_of_fits : ∀ field ∈ r.fields, ∀ {s : σ} {l : Literal}, Fits field.name l →
    ∃ s', set field.name s l = some s' ∧
      ∀ name, get? s' name = if name = field.name then some l else get? s name
  fits_of_set : ∀ field ∈ r.fields, ∀ {s s' : σ} {l : Literal}, set field.name s l = some s' →
    Fits field.name l

/-! ## One member -/

theorem name_of_field? {name : String} {field : Field Json.Reader σ}
    (h : r.field? name = some field) : field.name = name := by
  have hname := List.find?_some h
  exact eq_of_beq hname

theorem exists_field? {name : String} (h : name ∈ r.names) :
    ∃ field, r.field? name = some field := by
  obtain ⟨field, hmem, hname⟩ := List.mem_map.1 h
  have hsome : (r.field? name).isSome = true := by
    rw [field?, List.find?_isSome]
    exact ⟨field, hmem, beq_iff_eq.2 hname⟩
  exact Option.isSome_iff_exists.1 hsome

variable {s s' : σ} {name : String} {l : Literal} {ms : List (String × Literal)}

theorem Holds.isPresent_eq_false_iff (h : r.Holds set get? Fits) {field : Field Json.Reader σ}
    (hfield : field ∈ r.fields) : field.isPresent s = false ↔ get? s field.name = none := by
  rw [h.isPresent field hfield, Option.isSome_eq_false_iff, Option.isNone_iff_eq_none]

/-- A member that is taken is a field that was absent, and is held from then
on. -/
theorem Holds.of_assign (h : r.Holds set get? Fits) (ha : r.assign set s (name, l) = some s') :
    name ∈ r.names ∧ get? s name = none ∧ Fits name l ∧
      ∀ other, get? s' other = if other = name then some l else get? s other := by
  cases hfield : r.field? name with
  | none =>
    rw [assign_of_unknown hfield] at ha
    cases ha
  | some field =>
    have hmem := mem_of_field? hfield
    obtain rfl := name_of_field? hfield
    cases hpresent : field.isPresent s with
    | true =>
      rw [assign_of_present hfield hpresent] at ha
      cases ha
    | false =>
      rw [assign_of_absent hfield hpresent] at ha
      have hfits := h.fits_of_set field hmem ha
      obtain ⟨s'', hset, hget⟩ := h.set_of_fits field hmem (s := s) hfits
      cases ha.symm.trans hset
      exact ⟨List.mem_map_of_mem hmem, (h.isPresent_eq_false_iff hmem).1 hpresent, hfits, hget⟩

theorem Holds.exists_assign (h : r.Holds set get? Fits) (hname : name ∈ r.names)
    (hget : get? s name = none) (hfits : Fits name l) :
    ∃ s', r.assign set s (name, l) = some s' := by
  obtain ⟨field, hfield⟩ := exists_field? hname
  have hmem := mem_of_field? hfield
  obtain rfl := name_of_field? hfield
  have habsent := (h.isPresent_eq_false_iff hmem).2 hget
  obtain ⟨s', hset, -⟩ := h.set_of_fits field hmem (s := s) hfits
  exact ⟨s', (assign_of_absent hfield habsent).trans hset⟩

/-! ## All members -/

/-- Members that are taken leave nothing out, and add nothing. -/
theorem Holds.of_foldlM (h : r.Holds set get? Fits) : ∀ {ms : List (String × Literal)} {s s' : σ},
    ms.foldlM (r.assign set) s = some s' →
    (ms.map Prod.fst).Nodup ∧
    (∀ m ∈ ms, m.1 ∈ r.names ∧ get? s m.1 = none ∧ Fits m.1 m.2) ∧
    ∀ name l, get? s' name = some l ↔ get? s name = some l ∨ (name, l) ∈ ms
  | [], s, s', hfold => by
      cases hfold
      simp
  | (name, l) :: ms, s, s', hfold => by
      rw [List.foldlM_cons] at hfold
      obtain ⟨mid, ha, hfold⟩ := Option.bind_eq_some_iff.1 hfold
      obtain ⟨hname, hnone, hfits, hget⟩ := h.of_assign ha
      obtain ⟨hdistinct, hmembers, hall⟩ := h.of_foldlM hfold
      have hne : ∀ m ∈ ms, m.1 ≠ name := by
        intro m hm heq
        have hmid := (hmembers m hm).2.1
        rw [hget, if_pos heq] at hmid
        cases hmid
      refine ⟨?_, List.forall_mem_cons.2 ⟨⟨hname, hnone, hfits⟩, fun m hm => ?_⟩, ?_⟩
      · rw [List.map_cons, List.nodup_cons]
        refine ⟨fun hmem => ?_, hdistinct⟩
        obtain ⟨m, hm, heq⟩ := List.mem_map.1 hmem
        exact hne m hm heq
      · obtain ⟨hknown, hmid, hfits⟩ := hmembers m hm
        rw [hget, if_neg (hne m hm)] at hmid
        exact ⟨hknown, hmid, hfits⟩
      · intro other l'
        rw [hall, hget, List.mem_cons, Prod.mk.injEq]
        by_cases hother : other = name
        · subst hother
          simp [hnone, eq_comm (a := l)]
        · simp [hother]

theorem Holds.exists_foldlM (h : r.Holds set get? Fits) : ∀ {ms : List (String × Literal)} {s : σ},
    (ms.map Prod.fst).Nodup → (∀ m ∈ ms, m.1 ∈ r.names ∧ get? s m.1 = none ∧ Fits m.1 m.2) →
    ∃ s', ms.foldlM (r.assign set) s = some s'
  | [], s, _, _ => ⟨s, rfl⟩
  | (name, l) :: ms, s, hdistinct, hmembers => by
      obtain ⟨⟨hname, hnone, hfits⟩, hmembers⟩ := List.forall_mem_cons.1 hmembers
      obtain ⟨mid, ha⟩ := h.exists_assign hname hnone hfits
      obtain ⟨-, -, -, hget⟩ := h.of_assign ha
      rw [List.map_cons, List.nodup_cons] at hdistinct
      have hmid : ∀ m ∈ ms, m.1 ∈ r.names ∧ get? mid m.1 = none ∧ Fits m.1 m.2 := by
        intro m hm
        obtain ⟨hknown, habsent, hfits⟩ := hmembers m hm
        have hne : m.1 ≠ name := fun heq => hdistinct.1 (List.mem_map.2 ⟨m, hm, heq⟩)
        rw [hget, if_neg hne]
        exact ⟨hknown, habsent, hfits⟩
      obtain ⟨s', hfold⟩ := h.exists_foldlM hdistinct.2 hmid
      refine ⟨s', ?_⟩
      rw [List.foldlM_cons, ha]
      exact hfold

/-! ## Items -/

/-- Items are taken if the members under the names of the fields are, and if
the fields that are left may be absent. -/
theorem Holds.assignInOrder_eq_some_iff (h : r.Holds set get? Fits) :
    ∀ {fields : List (Field Json.Reader σ)} {ls : List Literal} {s s' : σ},
    (∀ field ∈ fields, r.field? field.name = some field) → (fields.map (·.name)).Nodup →
    (∀ field ∈ fields, get? s field.name = none) →
    (assignInOrder set fields s ls = some s' ↔ ls.length ≤ fields.length ∧
      (fields.drop ls.length).all (·.isOptional) = true ∧
      ((fields.map (·.name)).zip ls).foldlM (r.assign set) s = some s')
  | fields, [], s, s', _, _, _ => by simp [assignInOrder]
  | [], l :: ls, s, s', _, _, _ => by simp [assignInOrder]
  | field :: fields, l :: ls, s, s', hfield, hdistinct, habsent => by
      obtain ⟨hthis, hfield⟩ := List.forall_mem_cons.1 hfield
      obtain ⟨hnone, habsent⟩ := List.forall_mem_cons.1 habsent
      rw [List.map_cons, List.nodup_cons] at hdistinct
      have hassign : r.assign set s (field.name, l) = set field.name s l :=
        assign_of_absent hthis ((h.isPresent_eq_false_iff (mem_of_field? hthis)).2 hnone)
      rw [assignInOrder, List.map_cons, List.zip_cons_cons, List.foldlM_cons, hassign]
      cases hset : set field.name s l with
      | none => simp
      | some mid =>
        obtain ⟨-, -, -, hget⟩ := h.of_assign (hassign.trans hset)
        have hmid : ∀ other ∈ fields, get? mid other.name = none := by
          intro other hother
          have hne : other.name ≠ field.name := fun heq =>
            hdistinct.1 (List.mem_map.2 ⟨other, hother, heq⟩)
          rw [hget, if_neg hne, habsent other hother]
        simpa using h.assignInOrder_eq_some_iff hfield hdistinct.2 hmid

end SealedState.Record
