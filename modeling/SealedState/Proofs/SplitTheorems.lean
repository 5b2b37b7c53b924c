/-
SealedState.Proofs.SplitTheorems — cutting a text at a character and
joining the parts again undo each other.

`joinWith_splitAll` says that cutting loses nothing. Here is the other
direction: parts that do not hold the separator come back from the joined
text (`splitAll_joinWith`), and the parts of a cut text never hold it
(`not_mem_of_mem_splitAll`), so the two are inverse on such parts. Parts that
do hold it are cut further (`splitAll_joinWith_eq_flatMap`).

`splitLast?` cuts at the last occurrence only.
-/
import SealedState.Text.Split

namespace SealedState

variable {α : Type}

/-! ## Joining -/

/-- Joining is an append for the last part. -/
theorem joinWith_concat {sep : α} (last : List α) : ∀ {parts : List (List α)}, parts ≠ [] →
    joinWith sep (parts ++ [last]) = joinWith sep parts ++ sep :: last
  | [], hne => absurd rfl hne
  | [_], _ => rfl
  | part :: next :: parts, _ => by
      have ih : joinWith sep (next :: parts ++ [last])
          = joinWith sep (next :: parts) ++ sep :: last :=
        joinWith_concat last (List.cons_ne_nil next parts)
      simp only [List.cons_append] at ih
      simp only [List.cons_append, joinWith, ih, List.append_assoc]

/-- A separator inside of the first part is one between two parts. -/
theorem joinWith_append_cons {sep : α} {first second : List α} {parts : List (List α)} :
    joinWith sep ((first ++ sep :: second) :: parts) = joinWith sep (first :: second :: parts) := by
  cases parts with
  | nil => rfl
  | cons next parts => simp [joinWith]

/-- Joined parts hold nothing but separators and what the parts hold. -/
theorem mem_joinWith {c sep : α} : ∀ {parts : List (List α)}, c ∈ joinWith sep parts →
    c = sep ∨ ∃ part ∈ parts, c ∈ part
  | [], h => by simp [joinWith] at h
  | [part], h => .inr ⟨part, List.mem_cons_self, h⟩
  | part :: next :: parts, h => by
      rw [joinWith, List.mem_append, List.mem_cons] at h
      rcases h with hpart | hsep | hrest
      · exact .inr ⟨part, List.mem_cons_self, hpart⟩
      · exact .inl hsep
      · rcases mem_joinWith hrest with hsep | ⟨p, hp, hc⟩
        · exact .inl hsep
        · exact .inr ⟨p, List.mem_cons_of_mem part hp, hc⟩

/-! ## Cutting at every occurrence -/

variable [DecidableEq α]

/-- A text without the separator is its only part. -/
theorem splitAll_of_not_mem {sep : α} : ∀ {cs : List α}, sep ∉ cs → splitAll sep cs = [cs]
  | [], _ => rfl
  | c :: cs, h => by
      have hc : c ≠ sep := fun heq => h (heq ▸ List.mem_cons_self)
      have ih := splitAll_of_not_mem (fun hmem => h (List.mem_cons_of_mem c hmem))
      rw [splitAll, if_neg hc, ih]

/-- What stands before the first separator is the first part. -/
theorem splitAll_append {sep : α} (rest : List α) : ∀ {part : List α}, sep ∉ part →
    splitAll sep (part ++ sep :: rest) = part :: splitAll sep rest
  | [], _ => by rw [List.nil_append, splitAll, if_pos rfl]
  | c :: part, h => by
      have hc : c ≠ sep := fun heq => h (heq ▸ List.mem_cons_self)
      have ih := splitAll_append rest (fun hmem => h (List.mem_cons_of_mem c hmem))
      rw [List.cons_append, splitAll, if_neg hc, ih]

/-- Parts without the separator come back from the joined text. -/
theorem splitAll_joinWith {sep : α} : ∀ {parts : List (List α)}, parts ≠ [] →
    (∀ part ∈ parts, sep ∉ part) → splitAll sep (joinWith sep parts) = parts
  | [], hne, _ => absurd rfl hne
  | [part], _, h => splitAll_of_not_mem (h part List.mem_cons_self)
  | part :: next :: parts, _, h => by
      have ih : splitAll sep (joinWith sep (next :: parts)) = next :: parts :=
        splitAll_joinWith (List.cons_ne_nil next parts)
          (fun p hp => h p (List.mem_cons_of_mem part hp))
      rw [joinWith, splitAll_append _ (h part List.mem_cons_self), ih]

/-- What stands behind joined parts is cut on its own. -/
theorem splitAll_joinWith_append {sep : α} (rest : List α) : ∀ {parts : List (List α)},
    parts ≠ [] → (∀ part ∈ parts, sep ∉ part) →
    splitAll sep (joinWith sep parts ++ sep :: rest) = parts ++ splitAll sep rest
  | [], hne, _ => absurd rfl hne
  | [part], _, h => splitAll_append rest (h part List.mem_cons_self)
  | part :: next :: parts, _, h => by
      have ih : splitAll sep (joinWith sep (next :: parts) ++ sep :: rest)
          = next :: parts ++ splitAll sep rest :=
        splitAll_joinWith_append rest (List.cons_ne_nil next parts)
          (fun p hp => h p (List.mem_cons_of_mem part hp))
      rw [joinWith, List.append_assoc, List.cons_append,
        splitAll_append _ (h part List.mem_cons_self), ih]
      rfl

/-- No part of a cut text holds the separator. -/
theorem not_mem_of_mem_splitAll {sep : α} : ∀ {cs part : List α},
    part ∈ splitAll sep cs → sep ∉ part
  | [], part, h => by
      rw [splitAll, List.mem_singleton] at h
      simp [h]
  | c :: cs, part, h => by
      rw [splitAll] at h
      split at h
      · rcases List.mem_cons.1 h with rfl | h
        · exact List.not_mem_nil
        · exact not_mem_of_mem_splitAll h
      · rename_i hc
        cases hparts : splitAll sep cs with
        | nil => exact absurd hparts (splitAll_ne_nil sep cs)
        | cons first parts =>
          have hmem : ∀ p ∈ first :: parts, sep ∉ p := by
            intro p hp
            rw [← hparts] at hp
            exact not_mem_of_mem_splitAll hp
          rw [hparts] at h
          rcases List.mem_cons.1 h with rfl | h
          · simpa [Ne.symm hc] using hmem first List.mem_cons_self
          · exact hmem part (List.mem_cons_of_mem first h)

/-- Both sides of a separator are cut on their own. -/
theorem splitAll_append_cons (sep : α) (before after : List α) :
    splitAll sep (before ++ sep :: after) = splitAll sep before ++ splitAll sep after := by
  have hcut := splitAll_joinWith_append after (splitAll_ne_nil sep before)
    fun _ hpart => not_mem_of_mem_splitAll hpart
  rwa [joinWith_splitAll] at hcut

/-- Joined texts are cut where they were joined, and each of them on its
own. -/
theorem splitAll_joinWith_eq_flatMap {sep : α} : ∀ {parts : List (List α)}, parts ≠ [] →
    splitAll sep (joinWith sep parts) = parts.flatMap (splitAll sep)
  | [], hne => absurd rfl hne
  | [part], _ => by rw [joinWith, List.flatMap_singleton]
  | part :: next :: parts, _ => by
      have ih : splitAll sep (joinWith sep (next :: parts))
          = (next :: parts).flatMap (splitAll sep) :=
        splitAll_joinWith_eq_flatMap (List.cons_ne_nil next parts)
      rw [joinWith, splitAll_append_cons, ih]
      exact List.flatMap_cons.symm

theorem flatMap_splitAll {sep : α} : ∀ {parts : List (List α)}, (∀ part ∈ parts, sep ∉ part) →
    parts.flatMap (splitAll sep) = parts
  | [], _ => rfl
  | part :: parts, h => by
      obtain ⟨hpart, hparts⟩ := List.forall_mem_cons.1 h
      rw [List.flatMap_cons, splitAll_of_not_mem hpart, flatMap_splitAll hparts]
      rfl

/-- There is one part more than there are separators. -/
theorem length_splitAll (sep : α) : ∀ cs : List α,
    (splitAll sep cs).length = cs.count sep + 1
  | [] => rfl
  | c :: cs => by
      have ih := length_splitAll sep cs
      rw [splitAll]
      split
      · rename_i hc
        rw [hc, List.count_cons_self, List.length_cons, ih]
      · rename_i hc
        cases hparts : splitAll sep cs with
        | nil => exact absurd hparts (splitAll_ne_nil sep cs)
        | cons part parts =>
          rw [hparts] at ih
          rw [List.count_cons_of_ne hc]
          exact ih

/-! ## Cutting at the first and at the last occurrence -/

theorem splitFirst?_append {sep : α} (after : List α) : ∀ {before : List α}, sep ∉ before →
    splitFirst? sep (before ++ sep :: after) = some (before, after)
  | [], _ => by rw [List.nil_append, splitFirst?, if_pos rfl]
  | c :: before, h => by
      have hc : c ≠ sep := fun heq => h (heq ▸ List.mem_cons_self)
      have ih := splitFirst?_append after (fun hmem => h (List.mem_cons_of_mem c hmem))
      rw [List.cons_append, splitFirst?, if_neg hc, ih]
      rfl

theorem of_splitFirst?_eq_some {sep : α} : ∀ {cs before after : List α},
    splitFirst? sep cs = some (before, after) → cs = before ++ sep :: after ∧ sep ∉ before
  | [], _, _, h => by cases h
  | c :: cs, before, after, h => by
      rw [splitFirst?] at h
      split at h
      · rename_i hc
        cases h
        exact ⟨by rw [hc, List.nil_append], List.not_mem_nil⟩
      · rename_i hc
        obtain ⟨⟨front, rest⟩, hcut, heq⟩ := Option.map_eq_some_iff.1 h
        cases heq
        obtain ⟨ih, hfront⟩ := of_splitFirst?_eq_some hcut
        refine ⟨by rw [ih, List.cons_append], ?_⟩
        simpa [Ne.symm hc] using hfront

theorem splitFirst?_eq_some_iff {sep : α} {cs before after : List α} :
    splitFirst? sep cs = some (before, after) ↔ cs = before ++ sep :: after ∧ sep ∉ before := by
  constructor
  · exact of_splitFirst?_eq_some
  · rintro ⟨rfl, h⟩
    exact splitFirst?_append after h

theorem splitFirst?_eq_none_iff {sep : α} {cs : List α} :
    splitFirst? sep cs = none ↔ sep ∉ cs := by
  constructor
  · intro h hmem
    obtain ⟨before, after, rfl, hbefore⟩ := List.eq_append_cons_of_mem hmem
    rw [splitFirst?_append after hbefore] at h
    cases h
  · intro h
    cases hcut : splitFirst? sep cs with
    | none => rfl
    | some parts =>
      obtain ⟨rfl, -⟩ := of_splitFirst?_eq_some hcut
      simp at h

/-- The texts before and after the last occurrence of a character. -/
def splitLast? (sep : α) (cs : List α) : Option (List α × List α) :=
  (splitFirst? sep cs.reverse).map fun (after, before) => (before.reverse, after.reverse)

theorem splitLast?_eq_some_iff {sep : α} {cs before after : List α} :
    splitLast? sep cs = some (before, after) ↔ cs = before ++ sep :: after ∧ sep ∉ after := by
  rw [splitLast?, Option.map_eq_some_iff]
  constructor
  · rintro ⟨⟨back, front⟩, hcut, heq⟩
    cases heq
    obtain ⟨hrev, hback⟩ := splitFirst?_eq_some_iff.1 hcut
    refine ⟨?_, by simpa using hback⟩
    rw [← List.reverse_reverse cs, hrev]
    simp
  · rintro ⟨rfl, h⟩
    refine ⟨(after.reverse, before.reverse), splitFirst?_eq_some_iff.2 ⟨by simp, ?_⟩, by simp⟩
    rwa [List.mem_reverse]

end SealedState
