/-
SealedState.Proofs.CborContainers — lists, tuples and maps in CBOR, and
values that may be missing.

Containers begin with the number of their elements, so their readers stop
without looking at what follows (`items_flatten`, `entries_flatMap`). A
value that is there is told from one that is missing by its first header
(`Written.some`).
-/
import Mathlib.Data.List.Forall2
import SealedState.Proofs.CborIntegers

namespace SealedState

namespace Cbor.Reader

variable {α β κ σ : Type} {rest : Bytes}

/-- The size of a string or of a container fits into a header. -/
def maxSize : Nat := 0x10000000000000000

/-! ## Texts and values that may be missing -/

theorem written_text {s : String} (h : (Utf8.encode s).length < maxSize) :
    Written text (writeText s) s := by
  refine .of_dispatch (.text h) ?_ fun start rest => textAfter_encode s rest
  rintro n ⟨⟩

theorem written_shortText {s : String} (h : (Utf8.encode s).length ≤ chunkLength) :
    Written shortText (writeText s) s := by
  refine .of_dispatch (.text (Nat.lt_of_le_of_lt h (by decide))) ?_ fun start rest => ?_
  · rintro n ⟨⟩
  · simp only [if_pos h, textSegment_encode, ok_bind, String.ofList_toList]
    rfl

theorem written_fieldName {s : String} (h : (Utf8.encode s).length ≤ chunkLength) :
    Written fieldName (writeText s) (some s) := by
  refine .of_dispatch (.text (Nat.lt_of_le_of_lt h (by decide))) ?_ fun start rest => ?_
  · rintro n ⟨⟩
  · simp only [if_pos h, textSegment_encode, ok_bind, String.ofList_toList]
    rfl

theorem written_none (read : Reader α) : Written (option read) writeNull none where
  nonempty := Header.head_ne_nil 7 22
  reads c rest hc := by
    rw [option, hc.take (.simple (by decide))]
    rfl

/-- A value whose item begins as no simple value does is read back as one
that is there. -/
theorem Written.some {read : Reader α} {h : Header} {text : Bytes} {x : α}
    (hread : Written read (h.write ++ text) x) (hfits : h.Fits)
    (hnull : h ≠ Header.null ∧ h ≠ Header.undefined) :
    Written (option read) (h.write ++ text) (some x) where
  nonempty := hread.nonempty
  reads c rest hc := by
    have hahead := hread.reads ⟨Option.some h, text ++ rest⟩ rest (by
      rw [List.append_assoc]
      exact .ahead hfits _)
    rw [List.append_assoc] at hc
    rw [option, hc.take hfits, ok_bind]
    simp only
    split
    · exact absurd rfl hnull.1
    · exact absurd rfl hnull.2
    · rw [hahead]
      rfl

/-! ## Lists -/

theorem next_succ (n : Nat) (c : Cursor) :
    next (Option.some (n + 1)) c = .ok (Option.some (Option.some n), c) := rfl

theorem items_flatten {read : Reader α} {texts : List Bytes} {xs : List α}
    (h : List.Forall₂ (Written read) texts xs) : ∀ bound, xs.length < bound →
    items read bound (some xs.length) ⟨none, texts.flatten ++ rest⟩ = .ok (xs, ⟨none, rest⟩) := by
  induction h with
  | nil =>
    intro bound hbound
    obtain ⟨bound, rfl⟩ := Nat.exists_eq_add_one_of_ne_zero (Nat.ne_zero_of_lt hbound)
    rfl
  | @cons text x texts xs htext _ ih =>
    intro bound hbound
    obtain ⟨bound, rfl⟩ := Nat.exists_eq_add_one_of_ne_zero (Nat.ne_zero_of_lt hbound)
    have hread := htext.reads ⟨none, text ++ (texts.flatten ++ rest)⟩ _ (.start _)
    rw [List.flatten_cons, List.append_assoc, items, List.length_cons]
    simp only [next_succ, hread, ok_bind, ih bound (Nat.lt_of_succ_lt_succ hbound)]
    rfl

theorem length_le_flatten {read : Reader α} {texts : List Bytes} {xs : List α}
    (h : List.Forall₂ (Written read) texts xs) : xs.length ≤ texts.flatten.length := by
  induction h with
  | nil => exact Nat.zero_le 0
  | cons htext _ ih =>
    have hpos := List.length_pos_iff.2 htext.nonempty
    rw [List.flatten_cons, List.length_append, List.length_cons]
    omega

theorem sequence_before {n : Nat} (hn : n < maxSize) {c : Cursor}
    (hc : c.Before ((Header.array (some n)).write ++ rest)) :
    sequence c = .ok (.array (some n), ⟨none, rest⟩) := by
  have hwritten : Written sequence ((Header.array (some n)).write ++ []) (.array (some n)) := by
    refine .of_dispatch (.array hn) ?_ fun start rest => rfl
    rintro n ⟨⟩
  exact hwritten.reads c rest (by rwa [List.append_nil])

theorem written_integers {k : IntegerKind} {ns : List k.Value} (h : ns.length < maxSize) :
    Written (integers k) (writeList (ns.map (writeInteger ·.val))) ns where
  nonempty := List.append_ne_nil_of_left_ne_nil (Header.head_ne_nil _ _) _
  reads c rest hc := by
    have hns : List.Forall₂ (Written (integer k)) (ns.map (writeInteger ·.val)) ns :=
      List.forall₂_map_left_iff.2 (List.forall₂_same.2 fun n _ => written_integer n)
    have hbound := length_le_flatten hns
    rw [writeList, List.length_map, List.append_assoc] at hc
    rw [integers, sequence_before h hc, ok_bind]
    simp only [Cursor.left]
    exact items_flatten hns _ (by rw [List.length_append]; omega)

/-! ## Elements of a whole -/

theorem element_some {read : Reader α} {text : Bytes} {x : α} (h : Written read text x)
    (index remaining : Nat) (whole : String) :
    element read index whole (some (remaining + 1)) ⟨none, text ++ rest⟩
      = .ok ((x, some remaining), ⟨none, rest⟩) := by
  rw [element, next_succ, ok_bind]
  simp only [h.reads _ rest (.start _), ok_bind]
  rfl

theorem written_optionalBoolean : ∀ o : Option Bool,
    Written (option boolean) (writeOption writeBoolean o) o
  | none => written_none boolean
  | some b => by
      have hb : Written boolean ((Header.boolean b).write ++ []) b := by
        rw [List.append_nil]
        exact written_boolean b
      have hfits : (Header.boolean b).Fits := by cases b <;> exact .simple (by decide)
      have hsome := hb.some hfits (by cases b <;> exact ⟨by rintro ⟨⟩, by rintro ⟨⟩⟩)
      rwa [List.append_nil] at hsome

theorem written_optionalText : ∀ {o : Option String},
    (∀ s ∈ o, (Utf8.encode s).length < maxSize) →
    Written (option text) (writeOption writeText o) o
  | none, _ => written_none text
  | some s, h => (written_text (h s rfl)).some (.text (h s rfl)) ⟨by rintro ⟨⟩, by rintro ⟨⟩⟩

theorem exists_writeNatural {header : Nat → Header} {bigTag n : Nat} (htag : bigTag < maxSize)
    (hfits : ∀ n, n < maxSize → (header n).Fits)
    (hnull : ∀ n, header n ≠ Header.null ∧ header n ≠ Header.undefined) : ∃ h text,
    writeNatural header bigTag n = Header.write h ++ text ∧ h.Fits ∧ h ≠ Header.null ∧
      h ≠ Header.undefined := by
  rw [writeNatural]
  split
  · exact ⟨header n, [], by rw [List.append_nil], hfits n ‹_›, hnull n⟩
  · exact ⟨.tag bigTag, _, List.append_assoc _ _ _, .tag htag, by rintro ⟨⟩, by rintro ⟨⟩⟩

theorem exists_writeInteger (v : Int) : ∃ h text, writeInteger v = Header.write h ++ text ∧
    h.Fits ∧ h ≠ Header.null ∧ h ≠ Header.undefined := by
  cases v with
  | ofNat n =>
    exact exists_writeNatural (by decide) (fun n hn => .positive hn)
      fun n => ⟨by rintro ⟨⟩, by rintro ⟨⟩⟩
  | negSucc n =>
    exact exists_writeNatural (by decide) (fun n hn => .negative hn)
      fun n => ⟨by rintro ⟨⟩, by rintro ⟨⟩⟩

theorem written_optionalInteger {k : IntegerKind} : ∀ o : Option k.Value,
    Written (option (integer k)) (writeOption (fun n : k.Value => writeInteger n.val) o) o
  | none => written_none _
  | some v => by
      obtain ⟨h, text, htext, hfits, hnull⟩ := exists_writeInteger v.val
      have hwritten := written_integer v
      rw [htext] at hwritten
      rw [writeOption, htext]
      exact hwritten.some hfits hnull

theorem written_tuple {t : Tuple} (htext : (Utf8.encode t.1).length < maxSize)
    (hlist : t.2.2.1.length < maxSize) : Written tuple (writeTuple t) t where
  nonempty := List.append_ne_nil_of_left_ne_nil (Header.head_ne_nil 4 4) _
  reads c rest hc := by
    obtain ⟨s, n, ns, o⟩ := t
    have hc : c.Before ((Header.array (some 4)).write ++ (writeText s ++ (writeInteger n.val
        ++ (writeList (ns.map (writeInteger ·.val))
          ++ (writeOption writeBoolean o ++ rest))))) := by
      simpa [writeTuple, writeList] using hc
    rw [tuple, sequence_before (by decide) hc, ok_bind]
    simp only [element_some (written_text htext), element_some (written_integer n),
      element_some (written_integers hlist), element_some (written_optionalBoolean o), ok_bind]
    rfl

/-! ## Maps -/

theorem mapStart_before {n : Nat} (hn : n < maxSize) {c : Cursor}
    (hc : c.Before ((Header.map (some n)).write ++ rest)) :
    mapStart c = .ok (some n, ⟨none, rest⟩) := by
  have hwritten : Written mapStart ((Header.map (some n)).write ++ []) (some n) := by
    refine .of_dispatch (.map hn) ?_ fun start rest => rfl
    rintro n ⟨⟩
  exact hwritten.reads c rest (by rwa [List.append_nil])

/-- Entries are read back one after another. -/
theorem entries_flatMap {key : Reader κ} {value : Reader α} (add : κ → α → σ → σ)
    (writeKey : κ → Bytes) (writeValue : α → Bytes) (es : List (κ × α)) :
    ∀ firstKey : Reader κ, (∀ e ∈ es, Written firstKey (writeKey e.1) e.1) →
    (∀ e ∈ es, Written key (writeKey e.1) e.1) →
    (∀ e ∈ es, Written value (writeValue e.2) e.2) → ∀ (bound : Nat) (s : σ), es.length < bound →
    entries firstKey key value add bound (some es.length) s
        ⟨none, es.flatMap (fun e => writeKey e.1 ++ writeValue e.2) ++ rest⟩
      = .ok (es.foldl (fun s e => add e.1 e.2 s) s, ⟨none, rest⟩) := by
  induction es with
  | nil =>
    intro _ _ _ _ bound s hbound
    obtain ⟨bound, rfl⟩ := Nat.exists_eq_add_one_of_ne_zero (Nat.ne_zero_of_lt hbound)
    rfl
  | cons e es ih =>
    intro firstKey hfirst hkey hvalue bound s hbound
    obtain ⟨bound, rfl⟩ := Nat.exists_eq_add_one_of_ne_zero (Nat.ne_zero_of_lt hbound)
    obtain ⟨hfirst, -⟩ := List.forall_mem_cons.1 hfirst
    obtain ⟨-, hkeys⟩ := List.forall_mem_cons.1 hkey
    obtain ⟨hvalue, hvalues⟩ := List.forall_mem_cons.1 hvalue
    -- behind the first entry, the reader of keys is the same for all
    have ih := ih key hkeys hkeys hvalues bound (add e.1 e.2 s) (Nat.lt_of_succ_lt_succ hbound)
    rw [List.flatMap_cons, List.append_assoc, List.append_assoc, entries, List.length_cons]
    simp only [next_succ, hfirst.reads _ _ (.start _), hvalue.reads _ _ (.start _), ok_bind, ih,
      List.foldl_cons]

theorem length_le_flatMap {key : Reader κ} {writeKey : κ → Bytes} (writeValue : α → Bytes)
    {es : List (κ × α)} (h : ∀ e ∈ es, Written key (writeKey e.1) e.1) :
    es.length ≤ (es.flatMap fun e => writeKey e.1 ++ writeValue e.2).length := by
  induction es with
  | nil => exact Nat.zero_le 0
  | cons e es ih =>
    obtain ⟨he, hes⟩ := List.forall_mem_cons.1 h
    have ih := ih hes
    have hpos := List.length_pos_iff.2 he.nonempty
    rw [List.flatMap_cons, List.length_append, List.length_append, List.length_cons]
    omega

theorem writeMap_map (writeKey : κ → Bytes) (writeValue : α → Bytes) (es : List (κ × α)) :
    writeMap (es.map fun e => (writeKey e.1, writeValue e.2)) = (Header.map es.length).write
      ++ es.flatMap fun e => writeKey e.1 ++ writeValue e.2 := by
  rw [writeMap, List.length_map, List.flatMap_map]

end Cbor.Reader

end SealedState
