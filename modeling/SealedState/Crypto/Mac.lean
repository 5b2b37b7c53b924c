/-
SealedState.Crypto.Mac — the message authentication codes that bind the
fields of a token together.

Identifiers are those of SPEC_FULL.md §4.4; `compute` and `verify` are step 6
of `encode` and step 2 of `decode` in §4.1.
-/
import SealedState.Crypto.Error
import SealedState.Crypto.Hmac

namespace SealedState

/-- A message authentication code. -/
inductive Mac
  | hmacSha256
  | hmacSha512
  deriving DecidableEq

namespace Mac

/-- The length below which a key is refused. -/
def minKeyLength : Nat := 32

/-- The code that is used where none is named. -/
def standard : Mac := hmacSha256

/-- The identifier of a code. -/
def id : Mac → String
  | hmacSha256 => "HMAC-SHA256"
  | hmacSha512 => "HMAC-SHA512"

/-- The name of a code in diagnostics. -/
def name : Mac → String
  | hmacSha256 => "HmacSha256"
  | hmacSha512 => "HmacSha512"

/-- The hash function under a code. -/
def hash : Mac → Sha2.Variant
  | hmacSha256 => Sha2.sha256
  | hmacSha512 => Sha2.sha512

/-- The length of a tag. -/
def outputLength : Mac → Nat
  | hmacSha256 => 32
  | hmacSha512 => 64

/-- The code with an identifier. -/
def ofId (id : String) : Except CryptoError Mac :=
  if id = hmacSha256.id then .ok hmacSha256
  else if id = hmacSha512.id then .ok hmacSha512
  else .error (.unsupportedAlgorithm id)

/-- The tag of a message under a key that is long enough. -/
def compute (m : Mac) (key message : Bytes) : Except CryptoError Bytes :=
  if key.length < minKeyLength then .error (.invalidKeyLength minKeyLength key.length)
  else .ok (Hmac.tag m.hash key message)

/-- Whether a tag is the one of a message. -/
def verify (m : Mac) (key message tag : Bytes) : Except CryptoError Bool := do
  let right ← m.compute key message
  return right == tag

/-- A tag has the length that its code says. -/
theorem length_of_compute {m : Mac} {key message tag : Bytes}
    (h : m.compute key message = .ok tag) : tag.length = m.outputLength := by
  rw [compute] at h
  split at h
  · cases h
  · cases h
    cases m <;> simp [hash, outputLength, Sha2.Variant.digestLength, Sha2.sha256, Sha2.sha512]

end Mac

end SealedState
