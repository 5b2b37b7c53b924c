/-
SealedState.Crypto.Error — what can go wrong in a cryptographic
operation, and the words for it.

This is `CryptoError` of SPEC_FULL.md §7.
-/
namespace SealedState

/-- Why a cryptographic operation gave no result. -/
inductive CryptoError
  | invalidKeyLength (expected got : Nat)
  | invalidIvLength (expected got : Nat)
  | unsupportedAlgorithm (id : String)
  | encryptionFailed (reason : String)
  | decryptionFailed (reason : String)
  | macFailed (reason : String)
  | keyDerivationFailed (reason : String)
  | base64Decode (reason : String)
  | rngFailed (reason : String)
  deriving DecidableEq

namespace CryptoError

/-- A count of bytes that differs from the one that is needed. -/
def lengthMessage (expected got : Nat) : String :=
  "expected " ++ Nat.repr expected ++ " bytes, got " ++ Nat.repr got

/-- The words for an error. -/
def message : CryptoError → String
  | invalidKeyLength expected got => "Invalid key length: " ++ lengthMessage expected got
  | invalidIvLength expected got => "Invalid IV length: " ++ lengthMessage expected got
  | unsupportedAlgorithm id => "Unsupported algorithm: " ++ id
  | encryptionFailed reason => "Encryption failed: " ++ reason
  | decryptionFailed reason => "Decryption failed: " ++ reason
  | macFailed reason => "MAC computation failed: " ++ reason
  | keyDerivationFailed reason => "Key derivation failed: " ++ reason
  | base64Decode reason => "Base64 decode error: " ++ reason
  | rngFailed reason => "Random number generation failed: " ++ reason

end CryptoError

end SealedState
