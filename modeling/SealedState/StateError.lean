/-
SealedState.StateError — why a token could not be made or accepted.

Every failure of the library is one of these; a value that is decoded in
part is never given out. `isSecurityRelevant` tells failures that point at
tampering from those of an ordinary session.

The errors and their words are those of `StateError` in SPEC_FULL.md §7.
-/
import SealedState.Calendar
import SealedState.Expiry

namespace SealedState

/-- Why a token could not be made or accepted. -/
inductive StateError
  | malformedToken (reason : String)
  | authenticity
  | expired (issuedAt : Int64) (timeout : UInt64)
  | tenantMismatch (given expected : String)
  | cryptoConfiguration (reason : String)
  | serialization (reason : String)
  | configuration (reason : String)
  deriving DecidableEq

namespace StateError

/-- The words for an error. -/
def message : StateError → String
  | malformedToken reason => "Malformed state token: " ++ reason
  | authenticity => "State token fails authenticity check"
  | expired issuedAt timeout =>
    "State token expired at: " ++ instantText (expiry issuedAt timeout)
  | tenantMismatch given expected =>
    "Given TID `" ++ given ++ "` mismatches current TID `" ++ expected ++ "`"
  | cryptoConfiguration reason => "Crypto configuration error: " ++ reason
  | serialization reason => "Serialization error: " ++ reason
  | configuration reason => "Invalid settings: " ++ reason

/-- The error points at tampering or at a token that went astray. -/
def isSecurityRelevant : StateError → Bool
  | authenticity => true
  | tenantMismatch .. => true
  | _ => false

end StateError

end SealedState
