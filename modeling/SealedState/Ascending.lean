/-
SealedState.Ascending — lists of pairs in ascending order of their keys.

`insertAscending` puts a pair in its place and lets it replace the pair
that has the same key, so a list that is built by insertion holds every
key once and does not depend on the order in which keys came.

Objects of JSON and maps from byte strings are kept so, in both formats of
SPEC_FULL.md §4.3.
-/
namespace SealedState

variable {κ α : Type} [LT κ]

/-- Every key is less than the keys after it. -/
def Ascending (pairs : List (κ × α)) : Prop := pairs.Pairwise fun p q => p.1 < q.1

/-- Puts a pair in its place; the pair with the same key gives way. -/
def insertAscending [DecidableEq κ] [DecidableRel (α := κ) (· < ·)] (key : κ) (value : α) :
    List (κ × α) → List (κ × α)
  | [] => [(key, value)]
  | pair :: pairs =>
    if key = pair.1 then (key, value) :: pairs
    else if key < pair.1 then (key, value) :: pair :: pairs
    else pair :: insertAscending key value pairs

/-- What is inserted behind all other keys becomes the last pair. -/
theorem insertAscending_of_forall_lt [DecidableEq κ] [DecidableRel (α := κ) (· < ·)]
    (irrefl : ∀ a : κ, ¬ a < a) (trans : ∀ a b c : κ, a < b → b < c → a < c) {key : κ} {value : α} :
    ∀ {pairs : List (κ × α)}, (∀ p ∈ pairs, p.1 < key) →
    insertAscending key value pairs = pairs ++ [(key, value)]
  | [], _ => rfl
  | pair :: pairs, h => by
      obtain ⟨hfirst, hrest⟩ := List.forall_mem_cons.1 h
      have hne : key ≠ pair.1 := fun heq => irrefl _ (heq ▸ hfirst)
      have hge : ¬ key < pair.1 := fun hlt => irrefl _ (trans _ _ _ hlt hfirst)
      rw [insertAscending, if_neg hne, if_neg hge, insertAscending_of_forall_lt irrefl trans hrest]
      rfl

/-- Insertion of pairs in ascending order puts one behind the other. -/
theorem foldl_insertAscending [DecidableEq κ] [DecidableRel (α := κ) (· < ·)]
    (irrefl : ∀ a : κ, ¬ a < a) (trans : ∀ a b c : κ, a < b → b < c → a < c) :
    ∀ {pairs before : List (κ × α)}, Ascending (before ++ pairs) →
    pairs.foldl (fun pairs p => insertAscending p.1 p.2 pairs) before = before ++ pairs
  | [], before, _ => by rw [List.foldl_nil, List.append_nil]
  | p :: pairs, before, h => by
      have hlast := (List.pairwise_append.1 h).2.2
      rw [List.foldl_cons, insertAscending_of_forall_lt irrefl trans
        fun q hq => hlast q hq p List.mem_cons_self]
      have hascending : Ascending ((before ++ [p]) ++ pairs) := by rwa [List.append_assoc]
      rw [foldl_insertAscending irrefl trans hascending, List.append_assoc]
      rfl

/-- The keys after an insertion are the inserted one and those before. -/
theorem mem_insertAscending [DecidableEq κ] [DecidableRel (α := κ) (· < ·)] {key : κ}
    {value : α} {p : κ × α} : ∀ {pairs : List (κ × α)},
    p ∈ insertAscending key value pairs → p = (key, value) ∨ p ∈ pairs
  | [], h => by simpa [insertAscending] using h
  | pair :: pairs, h => by
      rw [insertAscending] at h
      split at h
      · rcases List.mem_cons.1 h with h | h
        · exact .inl h
        · exact .inr (List.mem_cons_of_mem _ h)
      · split at h
        · exact List.mem_cons.1 h
        · rcases List.mem_cons.1 h with h | h
          · exact .inr (h ▸ List.mem_cons_self)
          · rcases mem_insertAscending h with h | h
            · exact .inl h
            · exact .inr (List.mem_cons_of_mem _ h)

/-- Insertion keeps the order, where the keys are totally ordered. -/
theorem Ascending.insert [DecidableEq κ] [DecidableRel (α := κ) (· < ·)]
    (trans : ∀ a b c : κ, a < b → b < c → a < c)
    (total : ∀ a b : κ, a ≠ b → ¬ a < b → b < a) (key : κ) (value : α) :
    ∀ {pairs : List (κ × α)}, Ascending pairs → Ascending (insertAscending key value pairs)
  | [], _ => by simp [insertAscending, Ascending]
  | pair :: pairs, h => by
      obtain ⟨hfirst, hrest⟩ := List.pairwise_cons.1 h
      rw [insertAscending]
      split
      · rename_i heq
        exact List.pairwise_cons.2 ⟨fun q hq => by simpa [heq] using hfirst q hq, hrest⟩
      · rename_i hne
        split
        · rename_i hlt
          refine List.pairwise_cons.2 ⟨fun q hq => ?_, h⟩
          rcases List.mem_cons.1 hq with rfl | hq
          · exact hlt
          · exact trans _ _ _ hlt (hfirst q hq)
        · rename_i hge
          refine List.pairwise_cons.2 ⟨fun q hq => ?_, Ascending.insert trans total key value hrest⟩
          rcases mem_insertAscending hq with rfl | hq
          · exact total _ _ hne hge
          · exact hfirst q hq

end SealedState
