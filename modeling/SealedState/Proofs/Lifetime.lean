/-
SealedState.Proofs.Lifetime — how long a token lives.

A token is expired when the clock stands behind the sum of its time of
issue and the lifetime. Both the lifetime and the sum are cut off at the
last time. To cut off the sum changes nothing, as no clock goes beyond the
last time (`isExpired_iff_lt`). To cut off the lifetime does: a token that
was issued before the year 1970 for a lifetime longer than the last time is
found expired while it should be alive, at the clocks of `CutOff` and at no
others (`decode_expired_iff_lt`).

SPEC_FULL.md §4.1, step 3 of `decode`, has the sum without a limit, and §10
the two times around it.
-/
import SealedState.Proofs.Noninterference

namespace SealedState

/-! ## The two ends -/

variable {issuedAt now : Int64} {timeout : UInt64}

theorem toInt_le_lastTime (t : Int64) : t.toInt ≤ lastTime := by
  have hlt := t.toInt_lt
  rw [lastTime]
  omega

/-- No clock stands behind the last time, so the sum may go beyond it. -/
theorem isExpired_iff_lt : isExpired issuedAt timeout now = true ↔
    issuedAt.toInt + min (timeout.toNat : Int) lastTime < now.toInt := by
  have hnow := toInt_le_lastTime now
  rw [isExpired_eq_true_iff]
  omega

/-- The clock stands in the part of a lifetime that is cut off: behind the
sum with the last time, and not yet behind the sum with the lifetime. -/
def CutOff (issuedAt : Int64) (timeout : UInt64) (now : Int64) : Prop :=
  issuedAt.toInt + lastTime < now.toInt ∧ now.toInt ≤ issuedAt.toInt + timeout.toNat

/-- The verdict is the one of the sum in unbounded integers but for the
part of the lifetime that is cut off. -/
theorem isExpired_exact_iff :
    (isExpired issuedAt timeout now = true ↔ issuedAt.toInt + timeout.toNat < now.toInt) ↔
      ¬ CutOff issuedAt timeout now := by
  rw [isExpired_iff_lt, CutOff]
  omega

theorem not_cutOff_of_nonneg (h : 0 ≤ issuedAt.toInt) : ¬ CutOff issuedAt timeout now := by
  have hnow := toInt_le_lastTime now
  rintro ⟨hlt, -⟩
  omega

theorem not_cutOff_of_le (h : (timeout.toNat : Int) ≤ lastTime) :
    ¬ CutOff issuedAt timeout now := by
  rintro ⟨hlt, hle⟩
  omega

/-! ## Decoding -/

namespace Codec

variable {c : Codec} {σ : Shape} {text : String} {t : Token}

/-- The call ends with the notice that the token is expired. -/
def FindsExpired (c : Codec) (now : Int64) (σ : Shape) (text : String) : Prop :=
  ∃ issuedAt timeout, (c.decode now σ text).result = .error (.expired issuedAt timeout)

/-- A token with the right tag is found expired by its lifetime alone. -/
theorem findsExpired_iff (hparse : Token.parse text = .ok t)
    (htag : c.mac.compute c.provider.authenticationKey (Utf8.encode t.signed) = .ok t.tag)
    (hown : ∀ issuedAt timeout, ¬ c.serializer.Reports σ (.expired issuedAt timeout)) :
    c.FindsExpired now σ text ↔ isExpired t.issuedAt c.timeout now = true := by
  constructor
  · rintro ⟨issuedAt, timeout, hstop⟩
    cases stopsAt_lifetime (hown issuedAt timeout) hstop with
    | lifetime hparse' _ hexpired =>
      cases hparse.symm.trans hparse'
      exact hexpired
  · intro hexpired
    exact ⟨t.issuedAt, c.timeout,
      decode_eq_error_iff.2 ⟨_, .lifetime hparse htag hexpired, rfl⟩⟩

/-- A token with the right tag is found expired when the clock stands behind
its time of issue and its lifetime, the latter cut off at the last time; so
the verdict is that of the unbounded sum unless the clock stands in the part
that is cut off. There is no such part where the time of issue is not
negative, nor where the lifetime does not exceed the last time. -/
theorem decode_expired_iff_lt (hparse : Token.parse text = .ok t)
    (htag : c.mac.compute c.provider.authenticationKey (Utf8.encode t.signed) = .ok t.tag)
    (hown : ∀ issuedAt timeout, ¬ c.serializer.Reports σ (.expired issuedAt timeout))
    (now : Int64) :
    (c.FindsExpired now σ text ↔
      t.issuedAt.toInt + min (c.timeout.toNat : Int) lastTime < now.toInt) ∧
    ((c.FindsExpired now σ text ↔ t.issuedAt.toInt + c.timeout.toNat < now.toInt) ↔
      ¬ CutOff t.issuedAt c.timeout now) ∧
    (0 ≤ t.issuedAt.toInt ∨ (c.timeout.toNat : Int) ≤ lastTime →
      (c.FindsExpired now σ text ↔ t.issuedAt.toInt + c.timeout.toNat < now.toInt)) := by
  have hexact : (c.FindsExpired now σ text ↔ t.issuedAt.toInt + c.timeout.toNat < now.toInt) ↔
      ¬ CutOff t.issuedAt c.timeout now := by
    rw [findsExpired_iff hparse htag hown, isExpired_exact_iff]
  refine ⟨?_, hexact, ?_⟩
  · rw [findsExpired_iff hparse htag hown, isExpired_iff_lt]
  · rintro (hissuedAt | htimeout)
    · exact hexact.2 (not_cutOff_of_nonneg hissuedAt)
    · exact hexact.2 (not_cutOff_of_le htimeout)

/-- A token of the last seconds of 1969 lives for its fifteen minutes. -/
theorem decode_expired_iff_lt_sample : ∃ token,
    ((sample [] 900).encode (-5) sampleRandom sampleValue).1.result = .ok token ∧
    (sample [] 900).FindsExpired 896 .json token ∧
    ¬ (sample [] 900).FindsExpired 895 .json token := by
  obtain ⟨token, hencode⟩ := exists_sample_token [] 900 (-5)
  obtain ⟨m, htoken, hissuedAt, -⟩ := exists_minting_of_encode hencode
  have hissued : m.parsed.issuedAt = -5 := hissuedAt
  have hown : ∀ issuedAt timeout,
      ¬ (sample [] 900).serializer.Reports .json (.expired issuedAt timeout) :=
    Serializer.not_json_reports_expired
  subst htoken
  obtain ⟨hlast, -, -⟩ := decode_expired_iff_lt m.parse_token m.authenticates hown 895
  obtain ⟨hnext, -, -⟩ := decode_expired_iff_lt m.parse_token m.authenticates hown 896
  rw [hissued] at hlast hnext
  exact ⟨m.token, hencode, hnext.2 (by decide), fun h => absurd (hlast.1 h) (by decide)⟩

/-- A token that was issued five seconds before 1970, for the longest
lifetime, is found expired long before the two have passed. -/
theorem findsExpired_before_end : ∃ token,
    ((sample [] 0xffffffffffffffff).encode (-5) sampleRandom sampleValue).1.result = .ok token ∧
    (sample [] 0xffffffffffffffff).FindsExpired 0x7fffffffffffffff .json token ∧
    ¬ ((-5 : Int64).toInt + (0xffffffffffffffff : UInt64).toNat
      < (0x7fffffffffffffff : Int64).toInt) := by
  obtain ⟨token, hencode⟩ := exists_sample_token [] 0xffffffffffffffff (-5)
  have hexpired : isExpired (-5) (sample [] 0xffffffffffffffff).timeout 0x7fffffffffffffff
      = true := by decide
  refine ⟨token, hencode, ⟨-5, 0xffffffffffffffff, ?_⟩, by decide⟩
  exact decode_encoded_of_expired (SignsAlike.refl _) hencode hexpired

end Codec

end SealedState
