/-
SealedState.Expiry — when a state expires.

Times are 64-bit integers, lifetimes are 64-bit natural numbers. Neither a
lifetime nor its sum with a time may leave the range of times; what does
is cut off at its end.

This is step 3 of `decode` in SPEC_FULL.md §4.1 (`is_expired`); the notice of
§7 shows the same sum.
-/
namespace SealedState

/-- The last time. -/
def lastTime : Int := 0x7fffffffffffffff

/-- The last time at which a state is valid. -/
def expiry (issuedAt : Int64) (timeout : UInt64) : Int :=
  min lastTime (issuedAt.toInt + min (timeout.toNat : Int) lastTime)

/-- A state is no longer valid. -/
def isExpired (issuedAt : Int64) (timeout : UInt64) (now : Int64) : Bool :=
  expiry issuedAt timeout < now.toInt

theorem isExpired_eq_true_iff {issuedAt now : Int64} {timeout : UInt64} :
    isExpired issuedAt timeout now = true ↔
      min lastTime (issuedAt.toInt + min (timeout.toNat : Int) lastTime) < now.toInt :=
  decide_eq_true_iff

end SealedState
