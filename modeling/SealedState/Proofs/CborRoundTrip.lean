/-
SealedState.Proofs.CborRoundTrip — CBOR gives back what it was given,
whatever follows.

`written_value` is the induction over a value and `written_shape` the case
split over shapes. `Serializer.cbor_round_trip` says that trailing bytes
make no difference; so no item begins that of another value.

This is the round trip of SPEC_FULL.md §10 for `CborSerializer`.
-/
import SealedState.Proofs.CborRecords
import SealedState.Serializer

namespace SealedState

namespace Cbor

theorem writeItems_eq_map : ∀ items : List Json, writeItems items = items.map write
  | [] => rfl
  | item :: items => by rw [writeItems, writeItems_eq_map items, List.map_cons]

theorem writeMembers_eq_map : ∀ members : List (String × Json),
    writeMembers members = members.map fun m => (writeText m.1, write m.2)
  | [] => rfl
  | (name, value) :: members => by rw [writeMembers, writeMembers_eq_map members, List.map_cons]

namespace Reader

variable {rest : Bytes}

/-! ## Values -/

/-- Values that are no containers are read alike at all depths. -/
theorem Written.of_item {text : Bytes} {x : Json} (h : ∀ nested, Written (item nested) text x)
    (d : Nat) : Written (value d) text x := by
  cases d with
  | zero => exact h none
  | succ d => exact h (.some (value d))

theorem number_val (v : Json.integerBounds.Value) :
    number v.val = .ok (.number (.integer v)) := by
  rw [number, Bounds.ofInt?_val]

/-- An integer of 64 bits is read from its header alone. -/
theorem item_writeInteger {nested : Option (Reader Json)} (v : Json.integerBounds.Value)
    {c : Cursor} (hc : c.Before (writeInteger v.val ++ rest)) :
    item nested c = .ok (.number (.integer v), ⟨none, rest⟩) := by
  have hnumber := number_val v
  obtain ⟨n, hleast, hgreatest⟩ := v
  simp only [Json.integerBounds] at hleast hgreatest
  cases n with
  | ofNat n =>
    have hn : (n : Int) ≤ 0xffffffffffffffff := hgreatest
    have hn : n < 0x10000000000000000 := by omega
    have hc : c.Before ((Header.positive n).write ++ rest) := by
      rwa [writeInteger, writeNatural, if_pos hn] at hc
    rw [item, hc.take (.positive hn), ok_bind]
    change (do
      let x ← number (Int.ofNat n)
      Except.ok (x, Cursor.mk none rest)) = _
    rw [hnumber]
    rfl
  | negSucc n =>
    have hn : n < 0x10000000000000000 := by omega
    have hc : c.Before ((Header.negative n).write ++ rest) := by
      rwa [writeInteger, writeNatural, if_pos hn] at hc
    have hint : -1 - (n : Int) = Int.negSucc n := by omega
    rw [item, hc.take (.negative hn), ok_bind]
    simp only [hint, hnumber]
    rfl

/-- A value is read back where its containers may be open. -/
theorem written_value {x : Json} (h : x.Exact) : x.ShortNames → x.Sized → ∀ d, x.depth ≤ d →
    Written (value d) (write x) x := by
  induction h with
  | null =>
    intro _ _
    refine fun d _ => .of_item (fun nested => ⟨Header.head_ne_nil 7 22, fun c rest hc => ?_⟩) d
    rw [item, hc.take (.simple (show 22 < 24 by decide))]
    rfl
  | boolean b =>
    intro _ _
    refine fun d _ => .of_item
      (fun nested => ⟨(written_boolean b).nonempty, fun c rest hc => ?_⟩) d
    have hfits : (Header.boolean b).Fits := by cases b <;> exact .simple (by decide)
    rw [item, hc.take hfits]
    cases b <;> rfl
  | integer n =>
    intro _ _
    exact fun d _ => .of_item
      (fun nested => ⟨writeInteger_ne_nil _, fun c rest hc => item_writeInteger n hc⟩) d
  | text s =>
    intro _ hsized
    have hs : (Utf8.encode s).length < maxSize := hsized _ .self
    refine fun d _ => .of_item
      (fun nested => ⟨(written_text hs).nonempty, fun c rest hc => ?_⟩) d
    rw [writeText, List.append_assoc] at hc
    rw [item, hc.take (.text hs), ok_bind]
    simp only [textAfter_encode, ok_bind]
    rfl
  | @list items h ih =>
    intro hnames hsized d hd
    rw [Json.depth] at hd
    obtain ⟨d, rfl⟩ := Nat.exists_eq_add_one_of_ne_zero (Nat.ne_zero_of_lt hd)
    have hdepth := Json.depthItems_le_iff.1 (Nat.le_of_succ_le_succ hd)
    have hsize : items.length < maxSize := hsized _ .self
    have hitems : List.Forall₂ (Written (value d)) (items.map write) items :=
      List.forall₂_map_left_iff.2 (List.forall₂_same.2 fun x hx =>
        ih x hx (fun members hm => hnames members (.item hx hm))
          (fun y hy => hsized y (.item hx hy)) d (hdepth x hx))
    have hbound := length_le_flatten hitems
    refine ⟨List.append_ne_nil_of_left_ne_nil (Header.head_ne_nil _ _) _, fun c rest hc => ?_⟩
    rw [write, writeItems_eq_map, writeList, List.length_map, List.append_assoc] at hc
    rw [value, item, hc.take (.array hsize), ok_bind]
    simp only [container, Cursor.left]
    rw [items_flatten hitems _ (by rw [List.length_append]; omega)]
    rfl
  | @object members hascending h ih =>
    intro hnames hsized d hd
    rw [Json.depth] at hd
    obtain ⟨d, rfl⟩ := Nat.exists_eq_add_one_of_ne_zero (Nat.ne_zero_of_lt hd)
    have hdepth := Json.depthMembers_le_iff.1 (Nat.le_of_succ_le_succ hd)
    have hsize : members.length < maxSize := hsized _ .self
    have hshort : ∀ m ∈ members, (Utf8.encode m.1).length ≤ chunkLength := hnames _ .self
    -- only the first name is read by the short reader; here all of them could be
    have hfirst : ∀ m ∈ members, Written shortText (writeText m.1) m.1 :=
      fun m hm => written_shortText (hshort m hm)
    have hkey : ∀ m ∈ members, Written text (writeText m.1) m.1 :=
      fun m hm => written_text (Nat.lt_of_le_of_lt (hshort m hm) (by decide))
    have hvalue : ∀ m ∈ members, Written (value d) (write m.2) m.2 := fun m hm =>
      ih m hm (fun members hm' => hnames members (.member hm hm'))
        (fun y hy => hsized y (.member hm hy)) d (hdepth m hm)
    have hbound := length_le_flatMap write hkey
    refine ⟨List.append_ne_nil_of_left_ne_nil (Header.head_ne_nil _ _) _, fun c rest hc => ?_⟩
    rw [write, writeMembers_eq_map, writeMap_map, List.append_assoc] at hc
    rw [value, item, hc.take (.map hsize), ok_bind]
    simp only [container, Cursor.left]
    rw [entries_flatMap Json.insert writeText write members shortText hfirst hkey hvalue _ _
      (by rw [List.length_append]; omega)]
    have hmembers : members.foldl (fun ms m => Json.insert m.1 m.2 ms) [] = members :=
      foldl_insertAscending String.lt_irrefl (fun _ _ _ => String.lt_trans) hascending
    rw [hmembers]
    rfl

/-! ## Shapes -/

/-- A value of a shape is read back. -/
theorem written_shape : ∀ (σ : Shape) (v : σ.Val), σ.Carried v →
    Written (shape σ) (writeShape σ v) v
  | .json, (x : Json), h =>
    written_value h.exact h.named h.sized _ (Nat.le_trans h.shallow (by decide))
  | .flow, f, h => written_flow h.sized.1 h.sized.2.1 h.sized.2.2.1 h.sized.2.2.2
  | .text, s, h => written_text h.sized
  | .boolean, b, _ => written_boolean b
  | .integer _, n, _ => written_integer n
  | .float, _, h => h.exact.elim
  | .optionalInteger _, o, _ => written_optionalInteger o
  | .integers _, ns, h => written_integers h.sized
  | .tuple, t, h => written_tuple h.sized.1 h.sized.2
  | .byteMap, m, h => written_byteMap h.sized.1 h.sized.2

theorem Written.first {α : Type} {read : Reader α} {text : Bytes} {x : α} (h : Written read text x)
    (rest : Bytes) : first read (text ++ rest) = .ok x := by
  rw [Cbor.first, Cursor.start, h.reads _ rest (.start _)]
  rfl

end Reader

end Cbor

namespace Serializer

theorem cbor_deserialize_append {σ : Shape} {v : σ.Val} (h : σ.Carried v) (rest : Bytes) :
    cbor.deserialize σ (Cbor.writeShape σ v ++ rest) = .ok v := by
  simp only [cbor, (Cbor.Reader.written_shape σ v h).first rest]

/-- CBOR items give back every value they carry, whatever follows them; so
no item begins the item of another value. -/
theorem cbor_round_trip {σ : Shape} {v : σ.Val} (h : σ.Carried v) : ∃ b,
    cbor.serialize σ v = .ok b ∧ (∀ rest, cbor.deserialize σ (b ++ rest) = .ok v) ∧
      ∀ (w : σ.Val) (rest : Bytes), σ.Carried w → cbor.serialize σ w = .ok (b ++ rest) →
        w = v ∧ rest = [] := by
  refine ⟨Cbor.writeShape σ v, rfl, cbor_deserialize_append h, fun w rest hw heq => ?_⟩
  have hitem : Cbor.writeShape σ w = Cbor.writeShape σ v ++ rest := Except.ok.inj heq
  have hread := cbor_deserialize_append hw []
  rw [List.append_nil, hitem, cbor_deserialize_append h rest] at hread
  cases hread
  exact ⟨rfl, List.self_eq_append_right.1 hitem⟩

/-- An object with a list in it. -/
def carriedSample : Json :=
  .object [("k", .list [.number (.integer ⟨-0x8000000000000000, by decide⟩), .text "\u20ac"])]

theorem cbor_round_trip_sample : Shape.Carried .json carriedSample ∧
    ∃ b, cbor.serialize .json carriedSample = .ok b ∧
      ∀ rest, cbor.deserialize .json (b ++ rest) = .ok carriedSample := by
  have hexact : Json.Exact carriedSample := by
    refine .object (List.pairwise_singleton _ _) (List.forall_mem_singleton.2 (.list ?_))
    exact List.forall_mem_cons.2 ⟨.integer _, List.forall_mem_singleton.2 (.text _)⟩
  have hnamed : Json.ShortNames carriedSample := by
    intro members h m hm
    unfold carriedSample at h
    cases h with
    | self =>
      cases List.mem_singleton.1 hm
      decide
    | member hmem h =>
      cases List.mem_singleton.1 hmem
      cases h with
      | item hmem h =>
        simp only [List.mem_cons, List.not_mem_nil, or_false] at hmem
        rcases hmem with rfl | rfl <;> cases h
  have hsized : Json.Sized carriedSample := by
    intro y h
    unfold carriedSample at h
    cases h with
    | self => decide
    | member hmem h =>
      cases List.mem_singleton.1 hmem
      cases h with
      | self => decide
      | item hmem h =>
        simp only [List.mem_cons, List.not_mem_nil, or_false] at hmem
        rcases hmem with rfl | rfl <;> cases h <;> decide
  have hcarried : Shape.Carried .json carriedSample := ⟨hexact, by decide, hnamed, hsized⟩
  obtain ⟨b, hb, hread, -⟩ := cbor_round_trip hcarried
  exact ⟨hcarried, b, hb, hread⟩

end Serializer

end SealedState
