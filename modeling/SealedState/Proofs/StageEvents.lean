/-
SealedState.Proofs.StageEvents — what the log is told at each stage of
decoding (SPEC_FULL.md §8).

`Codec.stage` says at which stage a call ends, and `Logged.outcome` what
kind of end it is. Both are read off the stop that the call comes to, and
so is what is told of it. What the log is told of a well-formed token is
determined by the stage, the kind of end, the two times and the two tenants
(`decode_events`).
-/
import SealedState.Proofs.Noninterference
import SealedState.Proofs.TokenFaults

namespace SealedState

/-! ## Ends of calls -/

/-- The stages of decoding, in order. A call ends at the first that fails,
or it is done. -/
inductive Stage
  | form
  | tag
  | lifetime
  | tenant
  | vector
  | ciphertext
  | value
  | done
  deriving DecidableEq

/-- The kinds of ends: a value, or an error without its data. -/
inductive Outcome
  | value
  | malformedToken
  | authenticity
  | expired
  | tenantMismatch
  | cryptoConfiguration
  | serialization
  | configuration
  deriving DecidableEq

/-- The kind of an error. -/
def StateError.outcome : StateError → Outcome
  | malformedToken _ => .malformedToken
  | authenticity => .authenticity
  | expired _ _ => .expired
  | tenantMismatch _ _ => .tenantMismatch
  | cryptoConfiguration _ => .cryptoConfiguration
  | serialization _ => .serialization
  | configuration _ => .configuration

/-- The kind of end that a call has come to. -/
def Logged.outcome {α : Type} (l : Logged α) : Outcome :=
  match l.result with
  | .ok _ => .value
  | .error e => e.outcome

/-- The stage at which a call stops. -/
def Stop.stage : Stop → Stage
  | form _ => .form
  | key _ | tag => .tag
  | lifetime .. => .lifetime
  | tenant .. => .tenant
  | vector _ => .vector
  | ciphertext _ => .ciphertext
  | value _ => .value

namespace Stage

/-- What the log is told of a well-formed token. -/
def events (stage : Stage) (outcome : Outcome) (issuedAt now : Int64) (given expected : Bytes) :
    List Event :=
  match stage, outcome with
  | .tag, .authenticity => [.inauthentic]
  | .lifetime, _ => [.expired issuedAt now]
  | .tenant, _ => [.otherTenant (Hex.encode given) (Hex.encode expected)]
  | .done, _ => [.decoded issuedAt]
  | _, _ => []

end Stage

namespace Codec

variable {c : Codec} {now : Int64} {σ : Shape} {text : String} {t : Token} {e : StateError}

/-- The stage at which the decoding of a text ends. -/
def stage (c : Codec) (now : Int64) (σ : Shape) (text : String) : Stage :=
  match c.stages now σ text with
  | .error s => s.stage
  | .ok _ => .done

/-! ## What the log is told -/

/-- A text that is no token is told by the words for what is wrong with
it. -/
theorem decode_of_faulty {cause : Token.Malformation} (h : Token.Faulty text cause) :
    c.decode now σ text
      = ⟨.error (.malformedToken cause.message), [.rejected (.malformedToken cause.message)]⟩ :=
  decode_of_stopsAt (.form (Token.parse_eq_error_iff.2 h))

/-- A stop tells the log of the token and the call that it comes from. -/
theorem StopsAt.events_eq {s : Stop} (h : c.StopsAt now σ text s)
    (hparse : Token.parse text = .ok t) :
    s.events = s.stage.events s.error.outcome t.issuedAt now t.tenantId c.provider.tenantId := by
  cases h with
  | form hform => cases hparse.symm.trans hform
  | key => rfl
  | tag => rfl
  | lifetime hform =>
    cases hparse.symm.trans hform
    rfl
  | tenant hform =>
    cases hparse.symm.trans hform
    rfl
  | vector => rfl
  | ciphertext => rfl
  | value passes opens hread => rfl

/-- The stage, the kind of end, the times and the tenants determine what the
log is told. -/
theorem decode_events (c : Codec) (now : Int64) (σ : Shape) (hparse : Token.parse text = .ok t) :
    (c.decode now σ text).events = (c.stage now σ text).events (c.decode now σ text).outcome
      t.issuedAt now t.tenantId c.provider.tenantId := by
  rw [stage, decode_eq_stages]
  cases hstages : c.stages now σ text with
  | error s => exact (stopsAt_of_stages hstages).events_eq hparse
  | ok p =>
    obtain ⟨hpasses, -⟩ := stages_eq_ok_iff.1 hstages
    cases hparse.symm.trans hpasses.form
    rfl

end Codec

end SealedState
