/-
SealedState.Proofs.TrimTheorems — texts without the characters of a class at
their two ends.

What stands at the ends and belongs to the class has no part in the trimmed
text (`trimBy_append_left`, `trimBy_append_right`), and a text that neither
begins nor ends with such a character is kept (`trimBy_of_trimmed`). A text
with a character outside of the class in it is trimmed on the left of it and
on the right of it, each side on its own (`trimBy_append_cons`).
-/
import Mathlib.Data.List.DropRight
import SealedState.Text.Blank

namespace SealedState

variable {p : Char → Bool} {w w' cs : List Char}

/-- The text neither begins nor ends with a character of the class. -/
structure Trimmed (p : Char → Bool) (cs : List Char) : Prop where
  head : ∀ c ∈ cs.head?, p c = false
  last : ∀ c ∈ cs.getLast?, p c = false

theorem trimmed_of_forall (h : ∀ c ∈ cs, p c = false) : Trimmed p cs where
  head c hc := h c (List.mem_of_mem_head? hc)
  last c hc := h c (List.mem_of_getLast? hc)

/-- Trimming is to drop on the left, and then on the right. -/
theorem trimBy_eq_rdropWhile : trimBy p cs = (cs.dropWhile p).rdropWhile p := rfl

theorem mem_of_mem_trimBy {c : Char} (h : c ∈ trimBy p cs) : c ∈ cs := by
  rw [trimBy_eq_rdropWhile] at h
  have hdrop := (List.rdropWhile_prefix p _).subset h
  exact (List.dropWhile_suffix p).subset hdrop

/-! ## The ends -/

theorem rdropWhile_append_of_pos (hw : ∀ c ∈ w, p c = true) :
    (cs ++ w).rdropWhile p = cs.rdropWhile p := by
  have hrev : ∀ c ∈ w.reverse, p c = true := fun c hc => hw c (List.mem_reverse.1 hc)
  rw [List.rdropWhile, List.reverse_append, List.dropWhile_append_of_pos hrev, List.rdropWhile]

theorem trimBy_append_left (hw : ∀ c ∈ w, p c = true) : trimBy p (w ++ cs) = trimBy p cs := by
  rw [trimBy_eq_rdropWhile, List.dropWhile_append_of_pos hw, trimBy_eq_rdropWhile]

theorem trimBy_append_right (hw : ∀ c ∈ w, p c = true) : trimBy p (cs ++ w) = trimBy p cs := by
  rw [trimBy_eq_rdropWhile, trimBy_eq_rdropWhile, List.dropWhile_append]
  split
  · rename_i hempty
    rw [List.isEmpty_iff.1 hempty, List.dropWhile_eq_nil_iff.2 hw]
  · exact rdropWhile_append_of_pos hw

theorem trimBy_rdropWhile : trimBy p (cs.rdropWhile p) = trimBy p cs := by
  have hcut : cs.rdropWhile p ++ cs.rtakeWhile p = cs := List.rdropWhile_append_rtakeWhile
  have htail : ∀ c ∈ cs.rtakeWhile p, p c = true := fun c hc => List.mem_rtakeWhile_imp hc
  calc trimBy p (cs.rdropWhile p)
      = trimBy p (cs.rdropWhile p ++ cs.rtakeWhile p) := (trimBy_append_right htail).symm
    _ = trimBy p cs := by rw [hcut]

theorem trimBy_of_trimmed (h : Trimmed p cs) : trimBy p cs = cs := by
  have hleft : cs.dropWhile p = cs := by
    cases cs with
    | nil => rfl
    | cons c cs => exact List.dropWhile_cons_of_neg (by simp [h.head c rfl])
  have hright : cs.rdropWhile p = cs := by
    rw [List.rdropWhile_eq_self_iff]
    intro hne
    simp [h.last _ (List.getLast?_eq_some_getLast hne)]
  rw [trimBy_eq_rdropWhile, hleft, hright]

/-- What is trimmed off is what stands around a text. -/
theorem trimBy_around (hw : ∀ c ∈ w, p c = true) (hw' : ∀ c ∈ w', p c = true)
    (h : Trimmed p cs) : trimBy p (w ++ cs ++ w') = cs := by
  rw [trimBy_append_right hw', trimBy_append_left hw, trimBy_of_trimmed h]

/-! ## The two sides of a character -/

theorem dropWhile_append_cons {x : Char} {after : List Char} (hx : p x = false) :
    (cs ++ x :: after).dropWhile p = cs.dropWhile p ++ x :: after := by
  have hstop : (x :: after).dropWhile p = x :: after :=
    List.dropWhile_cons_of_neg (by simp [hx])
  rw [List.dropWhile_append]
  split
  · rename_i hempty
    rw [List.isEmpty_iff.1 hempty, hstop, List.nil_append]
  · rfl

theorem rdropWhile_append_cons {x : Char} {before : List Char} (hx : p x = false) :
    (before ++ x :: cs).rdropWhile p = before ++ x :: cs.rdropWhile p := by
  have hrev : (before ++ x :: cs).reverse = cs.reverse ++ x :: before.reverse := by simp
  rw [List.rdropWhile, hrev, dropWhile_append_cons hx, List.rdropWhile]
  simp

/-- A character outside of the class keeps the two sides of it apart. -/
theorem trimBy_append_cons {x : Char} {before after : List Char} (hx : p x = false) :
    trimBy p (before ++ x :: after) = before.dropWhile p ++ x :: after.rdropWhile p := by
  rw [trimBy_eq_rdropWhile, dropWhile_append_cons hx, rdropWhile_append_cons hx]

theorem trimBy_dropWhile : trimBy p (cs.dropWhile p) = trimBy p cs := by
  rw [trimBy_eq_rdropWhile, trimBy_eq_rdropWhile, List.dropWhile_idempotent]

end SealedState
