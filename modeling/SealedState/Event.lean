/-
SealedState.Event — what a codec reports to a log.

An event names what happened and holds the times, the length or the
tenants that belong to it, never a key or a part of a token. Failures that
point at tampering are warnings.

The events and their levels are those of SPEC_FULL.md §8.
-/
import SealedState.StateError

namespace SealedState

/-- How urgent an event is. -/
inductive Level
  | debug
  | warn
  deriving DecidableEq

/-- What happened to a token. -/
inductive Event
  | encoded (issuedAt : Int64) (length : Nat)
  | rejected (error : StateError)
  | inauthentic
  | expired (issuedAt now : Int64)
  | otherTenant (given expected : String)
  | decoded (issuedAt : Int64)
  deriving DecidableEq

namespace Event

def level : Event → Level
  | inauthentic => .warn
  | otherTenant .. => .warn
  | _ => .debug

/-- The words for an event. -/
def message : Event → String
  | encoded .. => "encoded client-side state"
  | rejected .. => "rejected state token"
  | inauthentic => "state token fails authenticity check"
  | expired .. => "state token expired"
  | otherTenant .. => "state token issued for another tenant"
  | decoded .. => "decoded client-side state"

/-- A time in decimal. -/
def timeText (t : Int64) : String := String.ofList (decimalText t.toInt)

/-- The values that belong to an event, with their names. -/
def fields : Event → List (String × String)
  | encoded issuedAt length => [("issued_at", timeText issuedAt), ("len", Nat.repr length)]
  | rejected error => [("error", error.message)]
  | inauthentic => []
  | expired issuedAt now => [("issued_at", timeText issuedAt), ("now", timeText now)]
  | otherTenant given expected => [("given", given), ("expected", expected)]
  | decoded issuedAt => [("issued_at", timeText issuedAt)]

end Event

end SealedState
