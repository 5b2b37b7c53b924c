/-
SealedState.Proofs.CborRecords — records and maps from byte strings in
CBOR.

A record is read back if each of its items fills one field that was absent
(`Fills`, `written_record`). A map from byte strings is built from its
entries in order, so it is the same again (`ByteMap.foldl_insert_entries`).
-/
import SealedState.Proofs.CborContainers
import SealedState.Proofs.PlainValues

namespace SealedState

namespace ByteMap

theorem entries_foldl_insert : ∀ (es : List (Bytes × IntegerKind.i32.Value)) (m : ByteMap),
    (es.foldl (fun m e => m.insert e.1 e.2) m).entries
      = es.foldl (fun pairs e => insertAscending e.1 e.2 pairs) m.entries
  | [], _ => rfl
  | _ :: es, _ => entries_foldl_insert es _

/-- A map is built from its entries. -/
theorem foldl_insert_entries (m : ByteMap) :
    m.entries.foldl (fun m e => m.insert e.1 e.2) empty = m := by
  have hentries := entries_foldl_insert m.entries empty
  rw [foldl_insertAscending List.lt_irrefl bytes_lt_trans
    (by rw [empty, List.nil_append]; exact m.ascending)] at hentries
  generalize m.entries.foldl (fun m e => m.insert e.1 e.2) empty = built at hentries
  obtain ⟨entries, hascending⟩ := built
  obtain ⟨entries', hascending'⟩ := m
  cases hentries
  rfl

end ByteMap

namespace Cbor.Reader

variable {α σ : Type} {rest : Bytes}

/-! ## Records -/

section

variable {r : Record Reader σ α}

/-- Items of members that take a partial record to another one, each of
them by a field that was absent. -/
inductive Fills (r : Record Reader σ α) : σ → List (Bytes × Bytes) → σ → Prop
  | nil (s : σ) : Fills r s [] s
  | cons {s s' s'' : σ} {name : String} {field : Field Reader σ} {item : Bytes}
      {items : List (Bytes × Bytes)} (hname : (Utf8.encode name).length ≤ chunkLength)
      (hfield : r.field? name = some field) (habsent : field.isPresent s = false)
      (hitem : Written (field.read s) item s') (hrest : Fills r s' items s'') :
      Fills r s ((writeText name, item) :: items) s''

theorem fields_flatMap {s s' : σ} {items : List (Bytes × Bytes)} (h : Fills r s items s') :
    ∀ bound, items.length < bound → fields r bound (some items.length) s
        ⟨none, items.flatMap (fun item => item.1 ++ item.2) ++ rest⟩
      = .ok (s', ⟨none, rest⟩) := by
  induction h with
  | nil s =>
    intro bound hbound
    obtain ⟨bound, rfl⟩ := Nat.exists_eq_add_one_of_ne_zero (Nat.ne_zero_of_lt hbound)
    rfl
  | @cons s s' s'' name field item items hname hfield habsent hitem _ ih =>
    intro bound hbound
    obtain ⟨bound, rfl⟩ := Nat.exists_eq_add_one_of_ne_zero (Nat.ne_zero_of_lt hbound)
    rw [List.flatMap_cons, List.append_assoc, List.append_assoc, fields, List.length_cons]
    simp only [next_succ, (written_fieldName hname).reads _ _ (.start _), ok_bind,
      Option.bind_some, hfield, habsent, Bool.false_eq_true, if_false,
      hitem.reads _ _ (.start _), ih bound (Nat.lt_of_succ_lt_succ hbound)]

theorem length_le_of_fills {s s' : σ} {items : List (Bytes × Bytes)} (h : Fills r s items s') :
    items.length ≤ (items.flatMap fun item => item.1 ++ item.2).length := by
  induction h with
  | nil s => exact Nat.zero_le 0
  | cons _ _ _ hitem _ ih =>
    have hpos := List.length_pos_iff.2 hitem.nonempty
    simp only [List.flatMap_cons, List.length_append, List.length_cons]
    omega

/-- A record is read back from the items of its fields. -/
theorem written_record {items : List (Bytes × Bytes)} {s : σ} {x : α} (h : Fills r r.empty items s)
    (hcomplete : r.complete s = .ok x) (hsize : items.length < maxSize) :
    Written (record r) (writeMap items) x where
  nonempty := List.append_ne_nil_of_left_ne_nil (Header.head_ne_nil _ _) _
  reads c rest hc := by
    have hbound := length_le_of_fills h
    have hmap : writeMap items
      = (Header.map items.length).write ++ items.flatMap fun item => item.1 ++ item.2 := rfl
    rw [hmap, List.append_assoc] at hc
    rw [record, mapStart_before hsize hc, ok_bind]
    simp only [Cursor.left]
    rw [fields_flatMap h _ (by rw [List.length_append]; omega), ok_bind]
    simp only [hcomplete]
    rfl

end

theorem written_flow {f : CredentialFlow}
    (hconnector : (Utf8.encode f.connectorId).length < maxSize)
    (hconnection : (Utf8.encode f.connectionId).length < maxSize)
    (hredirect : (Utf8.encode f.redirectUrl).length < maxSize)
    (htoken : ∀ s ∈ f.token, (Utf8.encode s).length < maxSize) :
    Written flow (writeFlow f) f := by
  obtain ⟨connectorId, connectionId, redirectUrl, token⟩ := f
  have h1 := (written_text hconnector).map fun s =>
    CredentialFlow.Partial.mk (some s) none none none
  have h2 := (written_text hconnection).map fun s =>
    CredentialFlow.Partial.mk (some connectorId) (some s) none none
  have h3 := (written_text hredirect).map fun s =>
    CredentialFlow.Partial.mk (some connectorId) (some connectionId) (some s) none
  have h4 := (written_optionalText htoken).map fun s =>
    CredentialFlow.Partial.mk (some connectorId) (some connectionId) (some redirectUrl) (some s)
  have hfills : Fills (CredentialFlow.record text (option text) map) ⟨none, none, none, none⟩
      [(writeText "connector_id", writeText connectorId),
        (writeText "connection_id", writeText connectionId),
        (writeText "redirect_url", writeText redirectUrl),
        (writeText "token", writeOption writeText token)]
      ⟨some connectorId, some connectionId, some redirectUrl, some token⟩ := by
    refine .cons (by decide) rfl rfl h1 ?_
    refine .cons (by decide) rfl rfl h2 ?_
    refine .cons (by decide) rfl rfl h3 ?_
    refine .cons (by decide) rfl rfl h4 ?_
    exact .nil _
  exact written_record hfills rfl (show 4 < maxSize by decide)

/-! ## Maps from byte strings -/

/-- A byte as an integer. -/
def byteValue (x : UInt8) : IntegerKind.u8.Value :=
  ⟨x.toNat, Int.natCast_nonneg _, Int.ofNat_le.2 (Nat.le_of_lt_succ x.toNat_lt)⟩

theorem written_bytes {b : Bytes} (h : b.length < maxSize) : Written byteList (writeBytes b) b := by
  have hlist : Written (integers .u8) (writeList ((b.map byteValue).map (writeInteger ·.val)))
      (b.map byteValue) := written_integers (by rwa [List.length_map])
  have hmap := hlist.map fun ns => ns.map fun n => UInt8.ofNat n.val.toNat
  have hvalue : (b.map byteValue).map (fun n => UInt8.ofNat n.val.toNat) = b := by
    rw [List.map_map]
    simp [byteValue, Function.comp_def]
  rw [hvalue, List.map_map] at hmap
  exact hmap

theorem written_byteMap {m : ByteMap} (hsize : m.entries.length < maxSize)
    (hkeys : ∀ e ∈ m.entries, e.1.length < maxSize) : Written byteMap (writeByteMap m) m where
  nonempty := List.append_ne_nil_of_left_ne_nil (Header.head_ne_nil _ _) _
  reads c rest hc := by
    have hkey : ∀ e ∈ m.entries, Written byteList (writeBytes e.1) e.1 :=
      fun e he => written_bytes (hkeys e he)
    have hbound := length_le_flatMap (fun n : IntegerKind.i32.Value => writeInteger n.val) hkey
    have hmap : writeByteMap m = _ :=
      writeMap_map writeBytes (fun n : IntegerKind.i32.Value => writeInteger n.val) m.entries
    rw [hmap, List.append_assoc] at hc
    rw [byteMap, mapStart_before hsize hc, ok_bind]
    simp only [Cursor.left]
    have hvalue : ∀ e ∈ m.entries, Written (integer .i32) (writeInteger e.2.val) e.2 :=
      fun e _ => written_integer e.2
    rw [entries_flatMap ByteMap.insert writeBytes
        (fun n : IntegerKind.i32.Value => writeInteger n.val) m.entries byteList hkey hkey hvalue
        _ _ (by rw [List.length_append]; omega),
      m.foldl_insert_entries]

end Cbor.Reader

end SealedState
