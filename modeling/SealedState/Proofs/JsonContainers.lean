/-
SealedState.Proofs.JsonContainers — lists and the members of objects in
JSON text.

The writer joins texts with commas; the reader meets a comma in front of
each but the first. `listed` is the text as the reader meets it, and
`items_listed` is the induction over it: items are read back one by one
until the bracket that closes them. The bound that the reader counts down
is never used up, since no text is empty (`items_length_bound`).
-/
import Mathlib.Data.List.Forall2
import SealedState.Proofs.JsonScalars

namespace SealedState.Json.Reader

variable {α σ : Type} {rest : Bytes} {first : Bool}

/-! ## Items -/

/-- What stands in front of an item. -/
def lead (first : Bool) : Bytes := if first then [] else [Ascii.comma]

/-- Texts with a comma in front of each, the first perhaps apart. -/
def listed : (first : Bool) → List Bytes → Bytes
  | _, [] => []
  | first, text :: texts => lead first ++ text ++ listed false texts

theorem joinWith_eq_listed : ∀ texts : List Bytes, joinWith Ascii.comma texts = listed true texts
  | [] => rfl
  | [text] => by simp [joinWith, listed, lead]
  | text :: next :: texts => by
      have ih := joinWith_eq_listed (next :: texts)
      rw [joinWith, ih]
      simp [listed, lead]

theorem length_le_listed : ∀ {texts : List Bytes} (first : Bool), (∀ text ∈ texts, text ≠ []) →
    texts.length ≤ (listed first texts).length
  | [], _, _ => Nat.le_refl 0
  | text :: texts, first, h => by
      have ih := length_le_listed false fun t ht => h t (List.mem_cons_of_mem text ht)
      have hpos := List.length_pos_iff.2 (h text List.mem_cons_self)
      simp only [listed, List.length_append, List.length_cons]
      omega

/-- The texts and the byte that closes the container do not continue a
number. -/
theorem ends_listed {closing : UInt8} (h : Ends [closing]) (rest : Bytes) : ∀ texts : List Bytes,
    Ends (listed false texts ++ closing :: rest)
  | [] => fun b hb => h b hb
  | _ :: _ => ends_cons (by decide)

theorem ends_closeBracket : Ends [Ascii.closeBracket] := ends_cons (by decide)

theorem ends_closeBrace : Ends [Ascii.closeBrace] := ends_cons (by decide)

theorem nextItem_lead {b : UInt8} (h : beginsValue b = true) :
    nextItem first (lead first ++ b :: rest) = .ok (.more () (b :: rest)) := by
  obtain ⟨hskip, hbracket, -⟩ := of_beginsValue h
  cases first with
  | false =>
    have hcomma : skipBlank (Ascii.comma :: b :: rest) = Ascii.comma :: b :: rest := rfl
    have hopen : ¬ Ascii.comma = Ascii.closeBracket := by decide
    rw [lead, if_neg Bool.false_ne_true, List.singleton_append, nextItem, hcomma]
    simp only [hopen, if_false, Bool.false_eq_true, if_true, hskip, hbracket]
  | true =>
    rw [lead, if_pos rfl, List.nil_append, nextItem]
    simp only [hskip, hbracket, if_false, if_true]

theorem items_closed {read : Reader α} {bound : Nat} :
    items read (bound + 1) first (Ascii.closeBracket :: rest) = .ok ([], rest) := rfl

theorem items_more {read : Reader α} {bound : Nat} {text start : Bytes}
    (hnext : nextItem first text = .ok (.more () start)) :
    items read (bound + 1) first text = (do
      let (x, rest) ← read start
      let (xs, rest) ← items read bound false rest
      return (x :: xs, rest)) := by
  rw [items]
  simp only [hnext, ok_bind]

/-- Items are read back up to the end of the list. -/
theorem items_listed {read : Reader α} {texts : List Bytes} {xs : List α}
    (h : List.Forall₂ (Written read) texts xs) : ∀ (bound : Nat) (first : Bool),
    texts.length < bound →
    items read bound first (listed first texts ++ Ascii.closeBracket :: rest) = .ok (xs, rest) := by
  induction h with
  | nil =>
    intro bound first hbound
    obtain ⟨bound, rfl⟩ := Nat.exists_eq_add_one_of_ne_zero (Nat.ne_zero_of_lt hbound)
    rw [listed, List.nil_append, items_closed]
  | @cons text x texts xs htext _ ih =>
    intro bound first hbound
    obtain ⟨bound, rfl⟩ := Nat.exists_eq_add_one_of_ne_zero (Nat.ne_zero_of_lt hbound)
    obtain ⟨b, tail, rfl, hb⟩ := htext.begins
    have hread := htext.reads _ (ends_listed ends_closeBracket rest texts)
    rw [listed, List.append_assoc, List.append_assoc, List.cons_append,
      items_more (nextItem_lead hb), ← List.cons_append, hread, ok_bind]
    simp only
    rw [ih bound false (Nat.lt_of_succ_lt_succ hbound)]
    rfl

theorem ne_nil_of_written {read : Reader α} {texts : List Bytes} {xs : List α}
    (h : List.Forall₂ (Written read) texts xs) : ∀ text ∈ texts, text ≠ [] := by
  induction h with
  | nil => simp
  | cons htext _ ih =>
    obtain ⟨b, tail, rfl, -⟩ := htext.begins
    intro text hmem
    rcases List.mem_cons.1 hmem with rfl | hmem
    · exact List.cons_ne_nil b tail
    · exact ih text hmem

theorem writeList_append (texts : List Bytes) : writeList texts ++ rest
    = Ascii.openBracket :: (listed true texts ++ Ascii.closeBracket :: rest) := by
  simp [writeList, joinWith_eq_listed]

theorem items_length_bound (closing : UInt8) (rest : Bytes) {texts : List Bytes}
    (h : ∀ text ∈ texts, text ≠ []) :
    texts.length < (listed true texts ++ closing :: rest).length + 1 := by
  have hle := length_le_listed true h
  rw [List.length_append]
  omega

/-- A list is read back. -/
theorem written_list {read : Reader α} {texts : List Bytes} {xs : List α}
    (h : List.Forall₂ (Written read) texts xs) : Written (list read) (writeList texts) xs := by
  refine ⟨⟨Ascii.openBracket, _, rfl, by decide⟩, fun rest _ => ?_⟩
  rw [writeList_append, list, dispatch_cons (by decide), if_pos rfl,
    items_listed h _ _ (items_length_bound _ _ (ne_nil_of_written h))]

theorem written_list_map {read : Reader α} {write : α → Bytes} {xs : List α}
    (h : ∀ x ∈ xs, Written read (write x) x) : Written (list read) (writeList (xs.map write)) xs :=
  written_list (List.forall₂_map_left_iff.2 (List.forall₂_same.2 h))

/-! ## Members -/

theorem nextMember_lead (name : String) :
    nextMember first (lead first ++ (writeText name ++ rest)) = .ok (.more name rest) := by
  have hname : nextMember.name ((Utf8.encode name).flatMap escapeByte ++ Ascii.quote :: rest)
      = .ok (.more name rest) := by
    rw [nextMember.name, text_escaped]
    rfl
  rw [writeText_append, ← hname]
  cases first <;> rfl

theorem colon_cons : colon (Ascii.colon :: rest) = .ok rest := rfl

theorem writeMember_append (name : String) (text : Bytes) : writeMember name text ++ rest
    = writeText name ++ Ascii.colon :: (text ++ rest) := by
  simp [writeMember]

theorem writeObject_append (texts : List Bytes) : writeObject texts ++ rest
    = Ascii.openBrace :: (listed true texts ++ Ascii.closeBrace :: rest) := by
  simp [writeObject, joinWith_eq_listed]

end SealedState.Json.Reader
