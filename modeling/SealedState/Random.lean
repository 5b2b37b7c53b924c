/-
SealedState.Random — where initialisation vectors come from.

A source of randomness is an endless sequence of draws, each of which
gives an initialisation vector or fails; it counts the draws that were
taken, and never goes back.

This is `RandomSource` of SPEC_FULL.md §4.3; that the vector is drawn anew for
every token is an invariant of §3.
-/
import SealedState.Crypto.Cipher
import SealedState.StateError

namespace SealedState

/-- An initialisation vector. -/
abbrev Iv : Type := { b : Bytes // b.length = ivLength }

/-- A sequence of draws, and the number of those taken. -/
structure RandomSource where
  draw : Nat → Except StateError Iv
  taken : Nat

namespace RandomSource

/-- A source whose draws are those of a list, over and over. -/
def cycle (first : Except StateError Iv) (others : List (Except StateError Iv)) : RandomSource where
  draw n := (first :: others).getD (n % (others.length + 1)) first
  taken := 0

/-- The next draw, and the source after it. -/
def next (r : RandomSource) : Except StateError Iv × RandomSource :=
  (r.draw r.taken, { r with taken := r.taken + 1 })

end RandomSource

end SealedState
