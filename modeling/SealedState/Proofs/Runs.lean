/-
SealedState.Proofs.Runs — a codec in use.

A session is a codec with its clock and its source of randomness. A call
gives an answer and the session after it; the trace of a run has every call
with the session that it met.

A call that seals a value takes one draw when the value is serialized, and
its token is the one that is issued for that draw (`step_of_clear`). All
other calls leave the source of randomness as it is (`step_of_no_clear`).
By induction on the calls, a call of a run meets the source with one draw
taken for each earlier call that serialized a value
(`random_of_trace_eq`), and what a call leaves has been taken for all
later ones (`trace_ordered`).

The methods are those of the codec in SPEC_FULL.md §4.1 and §4.2, builders
included, the clock and the source those of §4.3.
-/
import SealedState.Proofs.CodecTheorems

namespace SealedState

/-- A codec in use. -/
structure Session where
  codec : Codec
  now : Int64
  random : RandomSource

/-- What a session can be asked for. -/
inductive Call where
  | encode (σ : Shape) (v : σ.Val)
  | persist (name path : String) (σ : Shape) (v : σ.Val)
  | decode (σ : Shape) (text : String)
  | restore (σ : Shape) (cookie : Cookie)
  | setClock (now : Int64)
  | withTimeout (seconds : UInt64)
  | withSerializer (serializer : Serializer)

/-- The value that a call is to seal. -/
def Call.value? : Call → Option (Σ σ : Shape, σ.Val)
  | .encode σ v | .persist _ _ σ v => some ⟨σ, v⟩
  | .decode _ _ | .restore _ _ | .setClock _ | .withTimeout _ | .withSerializer _ => none

/-- What a call gives. -/
inductive Answer where
  | token (given : Logged String)
  | cookie (given : Logged Cookie)
  | value (σ : Shape) (given : Logged σ.Val)
  | done

namespace Answer

/-- The outcome of a call that was to seal a value: the token, which may
stand in a cookie, or the error. -/
def sealed? : Answer → Option (Except StateError String)
  | .token given => some given.result
  | .cookie given => some (given.result.map Cookie.value)
  | .value _ _ | .done => none

/-- The token that a call gives. -/
def token? (a : Answer) : Option String := a.sealed?.bind Except.toOption

theorem token?_eq_some_iff {a : Answer} {token : String} :
    a.token? = some token ↔ a.sealed? = some (.ok token) := by
  rw [token?, Option.bind_eq_some_iff]
  constructor
  · rintro ⟨outcome, hsealed, htoken⟩
    rw [hsealed, toOption_eq_some_iff.1 htoken]
  · intro hsealed
    exact ⟨.ok token, hsealed, rfl⟩

end Answer

namespace Session

/-! ## Steps -/

/-- The answer to a call, and the session after it. -/
def step (s : Session) : Call → Answer × Session
  | .encode _ v =>
    let (given, random) := s.codec.encode s.now s.random v
    (.token given, { s with random })
  | .persist name path _ v =>
    let (given, random) := s.codec.persist s.now s.random name path v
    (.cookie given, { s with random })
  | .decode σ text => (.value σ (s.codec.decode s.now σ text), s)
  | .restore σ cookie => (.value σ (s.codec.restore s.now σ cookie), s)
  | .setClock now => (.done, { s with now })
  | .withTimeout seconds => (.done, { s with codec := s.codec.withTimeout seconds })
  | .withSerializer serializer => (.done, { s with codec := s.codec.withSerializer serializer })

/-- The bytes that a call seals: those of its value, if it has one and the
serializer takes it. -/
def clear? (s : Session) (call : Call) : Option Bytes :=
  call.value?.bind fun ⟨σ, v⟩ => (s.codec.serializer.serialize σ v).toOption

/-- The next draw, and the token that is issued for it. -/
def issueNext (s : Session) (clear : Bytes) : Except StateError String := do
  let iv ← s.random.draw s.random.taken
  s.codec.issue clear iv s.now

end Session

/-! ## Runs -/

/-- The source after `n` more draws. -/
def RandomSource.skip (n : Nat) (r : RandomSource) : RandomSource := { r with taken := r.taken + n }

theorem RandomSource.skip_skip (m n : Nat) (r : RandomSource) :
    (r.skip m).skip n = r.skip (m + n) := by
  simp [skip, Nat.add_assoc]

/-- A call of a run, with the session that it met. -/
structure Entry where
  before : Session
  call : Call

namespace Entry

def answer (e : Entry) : Answer := (e.before.step e.call).1

def after (e : Entry) : Session := (e.before.step e.call).2

def clear? (e : Entry) : Option Bytes := e.before.clear? e.call

/-- The call is one that seals a value, and the value was serialized. -/
def serializes (e : Entry) : Bool := e.clear?.isSome

end Entry

namespace Session

/-- The session after a run. -/
def after (s : Session) : List Call → Session
  | [] => s
  | call :: calls => (s.step call).2.after calls

/-- The calls of a run, each with the session that it met. -/
def trace (s : Session) : List Call → List Entry
  | [] => []
  | call :: calls => ⟨s, call⟩ :: (s.step call).2.trace calls

/-- The tokens that the calls of a run give. -/
def tokens (s : Session) (calls : List Call) : List String :=
  (s.trace calls).filterMap (·.answer.token?)

/-! ## What a step does -/

variable {s : Session} {call : Call} {clear : Bytes}

/-- A call that is to seal a value encodes it; a cookie carries the token as
it is. -/
theorem step_of_value {σ : Shape} {v : σ.Val} (h : call.value? = some ⟨σ, v⟩) :
    (s.step call).1.sealed? = some (s.codec.encode s.now s.random v).1.result ∧
      (s.step call).2.random = (s.codec.encode s.now s.random v).2 := by
  cases call with
  | encode =>
    cases h
    exact ⟨rfl, rfl⟩
  | persist =>
    cases h
    refine ⟨?_, rfl⟩
    simp only [step, Codec.persist, Answer.sealed?]
    cases (s.codec.encode s.now s.random v).1.result <;> rfl
  | decode | restore | setClock | withTimeout | withSerializer => cases h

/-- All other calls give no token and leave the source of randomness as it
is. -/
theorem step_of_no_value (h : call.value? = none) :
    (s.step call).1.sealed? = none ∧ (s.step call).2.random = s.random := by
  cases call with
  | encode | persist => cases h
  | decode | restore | setClock | withTimeout | withSerializer => exact ⟨rfl, rfl⟩

/-- A call whose value is serialized takes the next draw and gives what is
issued for it. -/
theorem step_of_clear (h : s.clear? call = some clear) :
    (s.step call).1.sealed? = some (s.issueNext clear) ∧
      (s.step call).2.random = s.random.next.2 := by
  obtain ⟨⟨σ, v⟩, hvalue, hclear⟩ := Option.bind_eq_some_iff.1 h
  obtain ⟨hsealed, hrandom⟩ := step_of_value (s := s) hvalue
  obtain ⟨hresult, hnext⟩ := Codec.encode_of_serialize (toOption_eq_some_iff.1 hclear)
  rw [hsealed, hrandom, hresult, hnext]
  exact ⟨rfl, rfl⟩

/-- A call without such a value gives no token and takes no draw. -/
theorem step_of_no_clear (h : s.clear? call = none) :
    (s.step call).1.token? = none ∧ (s.step call).2.random = s.random := by
  cases hvalue : call.value? with
  | none =>
    obtain ⟨hsealed, hrandom⟩ := step_of_no_value (s := s) hvalue
    rw [Answer.token?, hsealed]
    exact ⟨rfl, hrandom⟩
  | some value =>
    obtain ⟨σ, v⟩ := value
    obtain ⟨hsealed, hrandom⟩ := step_of_value (s := s) hvalue
    rw [clear?, hvalue, Option.bind_some] at h
    obtain ⟨e, hserialize⟩ := toOption_eq_none_iff.1 h
    rw [Codec.encode_of_serialize_error hserialize] at hsealed hrandom
    rw [Answer.token?, hsealed]
    exact ⟨rfl, hrandom⟩

end Session

/-- A call takes one draw if it serializes a value, and none otherwise. -/
theorem Entry.after_random (e : Entry) :
    e.after.random = e.before.random.skip ([e].countP Entry.serializes) := by
  cases hclear : e.clear? with
  | none =>
    have hcount : [e].countP Entry.serializes = 0 := by simp [serializes, hclear]
    rw [hcount]
    exact (Session.step_of_no_clear hclear).2
  | some clear =>
    have hcount : [e].countP Entry.serializes = 1 := by simp [serializes, hclear]
    rw [hcount]
    exact (Session.step_of_clear hclear).2

namespace Session

/-! ## What a run does -/

/-- A run takes one draw for each call that serializes a value. -/
theorem after_random (s : Session) (calls : List Call) :
    (s.after calls).random = s.random.skip ((s.trace calls).countP Entry.serializes) := by
  induction calls generalizing s with
  | nil => rfl
  | cons call calls ih =>
    have hstep := Entry.after_random ⟨s, call⟩
    rw [after, ih, trace, ← List.singleton_append, List.countP_append, ← RandomSource.skip_skip]
    exact congrArg _ hstep

/-- A call of a run meets the source with one draw taken for each earlier
call that serialized a value. -/
theorem random_of_trace_eq {s : Session} {calls : List Call} {earlier later : List Entry}
    {e : Entry} (h : s.trace calls = earlier ++ e :: later) :
    e.before.random = s.random.skip (earlier.countP Entry.serializes) := by
  induction earlier generalizing s calls with
  | nil =>
    cases calls with
    | nil => cases h
    | cons call calls =>
      cases h
      rfl
  | cons first earlier ih =>
    cases calls with
    | nil => cases h
    | cons call calls =>
      obtain ⟨rfl, hrest⟩ := List.cons.inj h
      have hstep := Entry.after_random ⟨s, call⟩
      rw [← List.singleton_append, List.countP_append, ← RandomSource.skip_skip, ← hstep]
      exact ih hrest

/-- What a call leaves of the source has been taken for all later calls. -/
theorem trace_ordered (s : Session) (calls : List Call) :
    (s.trace calls).Pairwise fun e f => e.after.random.taken ≤ f.before.random.taken := by
  induction calls generalizing s with
  | nil => exact List.Pairwise.nil
  | cons call calls ih =>
    refine List.pairwise_cons.2 ⟨fun f hf => ?_, ih _⟩
    obtain ⟨earlier, later, htrace⟩ := List.append_of_mem hf
    rw [random_of_trace_eq htrace]
    exact Nat.le_add_right _ _

end Session

end SealedState
