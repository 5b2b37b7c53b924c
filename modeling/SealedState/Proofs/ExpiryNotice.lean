/-
SealedState.Proofs.ExpiryNotice — the notice of expiry names the last
instant of a token.

A token is judged by `isExpired`, and the notice that it is expired is
worded by `StateError.message`, each from the time of issue and the lifetime
alone. Both cut off in the same way: the instant that the notice shows is
the last at which the codec does not find the token expired
(`decode_expired_tells_instant`).

The notice is that of `Expired` in SPEC_FULL.md §7, the verdict step 3 of
`decode` in §4.1.
-/
import SealedState.Proofs.InstantTexts
import SealedState.Proofs.Lifetime

namespace SealedState

/-- The words of a notice of expiry show an instant. -/
def NoticeShows (message : String) (seconds : Int) : Prop :=
  ∃ shown : String, message = "State token expired at: " ++ shown ∧ Shows shown seconds

variable {issuedAt issuedAt' : Int64} {timeout timeout' : UInt64}

/-- The instant of a notice is the sum of the time of issue and the
lifetime, cut off at the last time. -/
theorem noticeShows_iff {seconds : Int} :
    NoticeShows (StateError.expired issuedAt timeout).message seconds ↔
      seconds = expiry issuedAt timeout := by
  rw [← shows_instantText_iff]
  constructor
  · rintro ⟨shown, hmessage, hshows⟩
    have hshown : instantText (expiry issuedAt timeout) = shown :=
      (String.append_right_inj _).1 hmessage
    rwa [hshown]
  · intro hshows
    exact ⟨_, rfl, hshows⟩

namespace Codec

/-- The notice that a token is expired shows the last instant of its life:
the clock stands behind this instant, and the codec finds the token expired
at the clocks behind it and at no others. So it is with every serializer that
does not call its own failures expiry (SPEC_FULL.md §4.1, step 6 of `decode`).
Every notice shows the sum of the time of issue and the lifetime, cut off at
the last time, as the date and time that the calendar counts to it or,
outside of the years -262143 to 262142, in decimal; so the notices of two
instants differ. -/
theorem decode_expired_tells_instant :
    (∀ (c : Codec) (σ : Shape),
      (∀ issuedAt timeout, ¬ c.serializer.Reports σ (.expired issuedAt timeout)) →
      ∀ (text : String) (now issuedAt : Int64) (timeout : UInt64),
      (c.decode now σ text).result = .error (.expired issuedAt timeout) →
      ∃ last, (∀ seconds, NoticeShows (StateError.expired issuedAt timeout).message seconds ↔
          seconds = last) ∧
        last < now.toInt ∧
        ∀ now' : Int64, c.FindsExpired now' σ text ↔ last < now'.toInt) ∧
    (∀ (issuedAt : Int64) (timeout : UInt64), ∃ shown last,
      (StateError.expired issuedAt timeout).message = "State token expired at: " ++ shown ∧
      last = min lastTime (issuedAt.toInt + min (timeout.toNat : Int) lastTime) ∧
      (Dated last → ∃ t, DateTime.ofText? shown.toList = some t ∧ t.IsValid ∧
        t.HasNumber last) ∧
      (shown = String.ofList (decimalText last) ↔ ¬ Dated last)) ∧
    (∀ (issuedAt issuedAt' : Int64) (timeout timeout' : UInt64),
      (StateError.expired issuedAt timeout).message
          = (StateError.expired issuedAt' timeout').message →
        expiry issuedAt timeout = expiry issuedAt' timeout') := by
  refine ⟨?_, ?_, ?_⟩
  · intro c σ hown text now issuedAt timeout h
    cases stopsAt_lifetime (hown issuedAt timeout) h with
    | @lifetime t hparse htag hexpired =>
      refine ⟨expiry t.issuedAt c.timeout, fun _ => noticeShows_iff, of_decide_eq_true hexpired, ?_⟩
      intro now'
      rw [findsExpired_iff hparse htag hown]
      exact decide_eq_true_iff
  · intro issuedAt timeout
    refine ⟨_, expiry issuedAt timeout, rfl, rfl, ?_, instantText_eq_decimal_iff⟩
    intro hdated
    obtain ⟨t, hread, hnumber⟩ := instantText_of_dated hdated
    exact ⟨t, hread, hnumber.isValid, hnumber⟩
  · intro issuedAt issuedAt' timeout timeout' hmessage
    exact instantText_injective ((String.append_right_inj _).1 hmessage)

/-- A token of the second 1000 with a life of fifteen minutes is found
expired at the second 1901, with the notice that it was valid up to the
second 1900. -/
theorem decode_expired_tells_instant_sample : ∃ token,
    ((sample [] 900).decode 1901 .json token).result = .error (.expired 1000 900) ∧
    NoticeShows (StateError.expired 1000 900).message 1900 ∧
    ¬ (sample [] 900).FindsExpired 1900 .json token := by
  obtain ⟨token, hencode⟩ := exists_sample_token [] 900 1000
  have hexpired : ((sample [] 900).decode 1901 .json token).result = .error (.expired 1000 900) :=
    decode_encoded_of_expired (SignsAlike.refl _) hencode (by decide)
  have hown : ∀ issuedAt timeout,
      ¬ (sample [] 900).serializer.Reports .json (.expired issuedAt timeout) :=
    Serializer.not_json_reports_expired
  have hshows : NoticeShows (StateError.expired 1000 900).message 1900 :=
    noticeShows_iff.2 (by decide)
  obtain ⟨last, hlast, -, hfinds⟩ :=
    decode_expired_tells_instant.1 (sample [] 900) .json hown token 1901 1000 900 hexpired
  obtain rfl := (hlast 1900).1 hshows
  exact ⟨token, hexpired, hshows, fun h => absurd ((hfinds 1900).1 h) (by decide)⟩

end Codec

end SealedState
