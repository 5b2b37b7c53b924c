/-
SealedState.Text.Blank — the characters with the Unicode property
White_Space, and texts without them at either end.

`from_header` of SPEC_FULL.md §4.2 trims such characters.
-/
namespace SealedState

/-- The character has the property White_Space. -/
def isBlank (c : Char) : Bool :=
  let n := c.toNat
  (0x09 ≤ n && n ≤ 0x0d) || n == 0x20 || n == 0x85 || n == 0xa0 || n == 0x1680
    || (0x2000 ≤ n && n ≤ 0x200a) || n == 0x2028 || n == 0x2029 || n == 0x202f
    || n == 0x205f || n == 0x3000

/-- A text without the characters of a class at its two ends. -/
def trimBy (p : Char → Bool) (cs : List Char) : List Char :=
  ((cs.dropWhile p).reverse.dropWhile p).reverse

/-- A text without blanks at its two ends. -/
def trim (cs : List Char) : List Char := trimBy isBlank cs

end SealedState
