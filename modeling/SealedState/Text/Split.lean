/-
SealedState.Text.Split — texts cut at a character.

`splitAll` cuts at every occurrence and `joinWith` undoes it, for texts
of characters and of bytes alike;
`splitFirst?` cuts at the first one only.

Tokens are cut at bars (SPEC_FULL.md §3) and headers at semicolons (§4.2).
-/
namespace SealedState

/-- The parts of a text between the occurrences of a character; there is
one part more than there are occurrences. -/
def splitAll {α : Type} [DecidableEq α] (sep : α) : List α → List (List α)
  | [] => [[]]
  | c :: cs =>
    if c = sep then [] :: splitAll sep cs
    else match splitAll sep cs with
      | [] => [[c]]
      | part :: parts => (c :: part) :: parts

/-- The parts with a character between each two. -/
def joinWith {α : Type} (sep : α) : List (List α) → List α
  | [] => []
  | [part] => part
  | part :: next :: parts => part ++ sep :: joinWith sep (next :: parts)

/-- The texts before and after the first occurrence of a character. -/
def splitFirst? {α : Type} [DecidableEq α] (sep : α) : List α → Option (List α × List α)
  | [] => none
  | c :: cs =>
    if c = sep then some ([], cs)
    else (splitFirst? sep cs).map fun (before, after) => (c :: before, after)

theorem splitAll_ne_nil {α : Type} [DecidableEq α] (sep : α) (cs : List α) :
    splitAll sep cs ≠ [] := by
  cases cs with
  | nil => simp [splitAll]
  | cons c cs =>
    rw [splitAll]
    split
    · simp
    · split <;> simp

/-- Cutting loses nothing. -/
theorem joinWith_splitAll {α : Type} [DecidableEq α] (sep : α) : ∀ cs : List α,
    joinWith sep (splitAll sep cs) = cs
  | [] => rfl
  | c :: cs => by
      have ih := joinWith_splitAll sep cs
      have hne := splitAll_ne_nil sep cs
      rw [splitAll]
      cases hparts : splitAll sep cs with
      | nil => exact absurd hparts hne
      | cons part parts =>
        rw [hparts] at ih
        split
        · rename_i hc
          simp [joinWith, ih, hc]
        · cases parts with
          | nil => simpa [joinWith] using ih
          | cons next parts => simpa [joinWith] using ih

end SealedState
