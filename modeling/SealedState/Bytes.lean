/-
SealedState.Bytes — byte strings, and the numbers written in them.

A byte string is a list of octets. Every reader of this library is a
recursion on such a list that hands back the part it has not read, so
what a reader consumes is always a prefix of what it was given.

* `Bytes.bigEndian` and `Bytes.toNat` write and read a number, most
  significant byte first; `toNat_bigEndian` says that they agree.
* `Bytes.split?` takes an exact count of bytes off the front.
-/
namespace SealedState

/-- A byte string. -/
abbrev Bytes := List UInt8

namespace Bytes

/-! ## Numbers -/

/-- The last `n` digits of `k` in base 256, most significant first. -/
def bigEndian : Nat → Nat → Bytes
  | 0, _ => []
  | n + 1, k => bigEndian n (k / 256) ++ [UInt8.ofNat k]

/-- The number that a byte string spells in base 256, most significant
byte first. -/
def toNat (b : Bytes) : Nat := b.foldl (fun n x => n * 256 + x.toNat) 0

@[simp] theorem length_bigEndian : ∀ n k : Nat, (bigEndian n k).length = n
  | 0, _ => rfl
  | n + 1, k => by simp [bigEndian, length_bigEndian n]

theorem toNat_concat (b : Bytes) (x : UInt8) :
    toNat (b ++ [x]) = toNat b * 256 + x.toNat := by
  simp [toNat]

/-- Writing keeps a number up to the width it is written in. -/
theorem toNat_bigEndian : ∀ n k : Nat, toNat (bigEndian n k) = k % 1 <<< (8 * n)
  | 0, k => by simp [bigEndian, toNat, Nat.mod_one]
  | n + 1, k => by
      have ih := toNat_bigEndian n (k / 256)
      have hpow : 1 <<< (8 * (n + 1)) = 256 * 1 <<< (8 * n) := by
        rw [Nat.one_shiftLeft, Nat.one_shiftLeft, Nat.mul_add, Nat.pow_add, Nat.mul_comm]
      rw [bigEndian, toNat_concat, ih, hpow, Nat.mod_mul]
      simp
      omega

/-! ## Splitting -/

/-- The first `n` bytes and the rest, where there are that many. -/
def split? (n : Nat) (b : Bytes) : Option (Bytes × Bytes) :=
  if n ≤ b.length then some (b.take n, b.drop n) else none

theorem split?_append (b rest : Bytes) : split? b.length (b ++ rest) = some (b, rest) := by
  simp [split?]

/-! ## Exclusive or -/

/-- Bytewise exclusive or, as long as the shorter operand. -/
def xor (a b : Bytes) : Bytes := List.zipWith (· ^^^ ·) a b

@[simp] theorem length_xor (a b : Bytes) : (xor a b).length = min a.length b.length := by
  simp [xor]

/-- A mask that is long enough cancels itself. -/
theorem xor_xor_cancel : ∀ (a mask : Bytes), a.length ≤ mask.length →
    xor (xor a mask) mask = a
  | [], _, _ => by simp [xor]
  | _ :: _, [], h => by simp at h
  | x :: a, m :: mask, h => by
      have ih := xor_xor_cancel a mask (by simpa using h)
      simp only [xor, List.zipWith_cons_cons, UInt8.xor_assoc, UInt8.xor_self,
        UInt8.xor_zero] at ih ⊢
      rw [ih]

end Bytes

end SealedState
