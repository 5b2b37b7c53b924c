/-
SealedState.Crypto.Hkdf — key derivation (HKDF) with HMAC-SHA256.

A derivation first turns the input into one pseudorandom key, then writes
blocks that each depend on the one before, the purpose label and a
counter of one byte; so there are at most 255 blocks.

This is the derivation of SPEC_FULL.md §2 and §4.3 (`hkdf_derive`).
-/
import SealedState.Crypto.Error
import SealedState.Crypto.Hmac

namespace SealedState.Hkdf

/-- The length of a block of output. -/
def blockLength : Nat := Sha2.sha256.digestLength

/-- The longest output. -/
def maxLength : Nat := 255 * blockLength

/-- The pseudorandom key of an input under a salt. -/
def extract (salt input : Bytes) : Bytes := Hmac.tag Sha2.sha256 salt input

/-- `n` blocks of output, the first with the number `index` and after the
block `previous`. -/
def blocks (key label : Bytes) : (n index : Nat) → (previous : Bytes) → Bytes
  | 0, _, _ => []
  | n + 1, index, previous =>
    let block := Hmac.tag Sha2.sha256 key (previous ++ label ++ [UInt8.ofNat index])
    block ++ blocks key label n (index + 1) block

/-- The first `length` bytes of the output. -/
def expand (key label : Bytes) (length : Nat) : Bytes :=
  (blocks key label ((length + blockLength - 1) / blockLength) 1 []).take length

/-- Derives `length` bytes from an input; distinct labels give independent
keys. -/
def derive (input salt label : Bytes) (length : Nat) : Except CryptoError Bytes :=
  if length ≤ maxLength then .ok (expand (extract salt input) label length)
  else .error (.keyDerivationFailed
    "HKDF expand failed: invalid number of blocks, too large output")

@[simp] theorem length_blocks (key label : Bytes) : ∀ n index previous,
    (blocks key label n index previous).length = n * blockLength
  | 0, _, _ => by simp [blocks]
  | n + 1, index, previous => by
      simp only [blocks, List.length_append, Hmac.length_tag, length_blocks key label n]
      rw [Nat.succ_mul, Nat.add_comm]
      rfl

/-- The output has the length that was asked for. -/
@[simp] theorem length_expand (key label : Bytes) (length : Nat) :
    (expand key label length).length = length := by
  have h32 : blockLength = 32 := rfl
  simp only [expand, List.length_take, length_blocks, h32]
  omega

end SealedState.Hkdf
