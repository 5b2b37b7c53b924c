/-
SealedState.Integer — integers of bounded kinds.

A value of a kind is an integer together with the proof that it lies
between the bounds of the kind, so it never needs to be checked again.

SPEC_FULL.md §3 has times as signed integers of 64 bits, in decimal.
-/
namespace SealedState

/-- The least and the greatest of some integers. -/
structure Bounds where
  least : Int
  greatest : Int

namespace Bounds

/-- An integer between bounds. -/
abbrev Value (b : Bounds) : Type := { n : Int // b.least ≤ n ∧ n ≤ b.greatest }

/-- The integer as a value between bounds, if it is one. -/
def ofInt? (b : Bounds) (n : Int) : Option b.Value :=
  if h : b.least ≤ n ∧ n ≤ b.greatest then some ⟨n, h⟩ else none

@[simp] theorem ofInt?_val (b : Bounds) (v : b.Value) : b.ofInt? v.val = some v := by
  simp [ofInt?, v.property]

end Bounds

/-- A kind of integer, by its sign and its number of bits. -/
inductive IntegerKind
  | u8
  | u32
  | u64
  | i32
  | i64
  | i128
  deriving DecidableEq

namespace IntegerKind

def name : IntegerKind → String
  | u8 => "u8"
  | u32 => "u32"
  | u64 => "u64"
  | i32 => "i32"
  | i64 => "i64"
  | i128 => "i128"

def bounds : IntegerKind → Bounds
  | u8 => ⟨0, 0xff⟩
  | u32 => ⟨0, 0xffffffff⟩
  | u64 => ⟨0, 0xffffffffffffffff⟩
  | i32 => ⟨-0x80000000, 0x7fffffff⟩
  | i64 => ⟨-0x8000000000000000, 0x7fffffffffffffff⟩
  | i128 => ⟨-0x80000000000000000000000000000000, 0x7fffffffffffffffffffffffffffffff⟩

def isSigned : IntegerKind → Bool
  | u8 | u32 | u64 => false
  | i32 | i64 | i128 => true

/-- An integer of a kind. -/
abbrev Value (k : IntegerKind) : Type := k.bounds.Value

end IntegerKind

/-- An integer in decimal: a sign if it is negative, and no leading
zero. -/
def decimalText : Int → List Char
  | .ofNat n => Nat.toDigits 10 n
  | .negSucc n => '-' :: Nat.toDigits 10 (n + 1)

end SealedState
