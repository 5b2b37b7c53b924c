/-
SealedState.Proofs.Noninterference — nothing behind a check that fails
has a part in the outcome.

Two codecs that sign alike may differ in all else: clock, lifetime, tenant,
cipher, encryption key, serializer, and the shape that is asked for. What
one of them refuses for its form or its tag, the other refuses in the same
way; with one lifetime and one clock the same goes for what is expired, and
with one tenant too for all that is refused before the ciphertext is opened
(`decode_stops_alike`).

An error tells where it comes from, but for two kinds: a cipher that fails
is told like an authentication key that is too short, and a serializer may
give any error it likes. The two that come with this library call
each of their failures one of serialization (`json_reports`,
`cbor_reports`).

The order of checks is that of `decode` in SPEC_FULL.md §4.1, which is to fail
fast.
-/
import SealedState.Proofs.StageTheorems

namespace SealedState

/-! ## Serializers -/

namespace Serializer

/-- The serializer gives an error for some bytes. -/
def Reports (s : Serializer) (σ : Shape) (e : StateError) : Prop :=
  ∃ clear, s.deserialize σ clear = .error e

theorem json_reports {σ : Shape} {e : StateError} (h : json.Reports σ e) :
    ∃ reason, e = .serialization reason := by
  obtain ⟨clear, h⟩ := h
  simp only [json] at h
  split at h
  · cases h
  · cases h
    exact ⟨_, rfl⟩

theorem not_json_reports_expired {σ : Shape} (issuedAt : Int64) (timeout : UInt64) :
    ¬ json.Reports σ (.expired issuedAt timeout) := by
  intro h
  obtain ⟨reason, hreason⟩ := json_reports h
  cases hreason

theorem cbor_reports {σ : Shape} {e : StateError} (h : cbor.Reports σ e) :
    ∃ reason, e = .serialization reason := by
  obtain ⟨clear, h⟩ := h
  simp only [cbor] at h
  split at h
  · cases h
  · cases h
    exact ⟨_, rfl⟩

end Serializer

namespace Codec

variable {a b c : Codec} {now now' : Int64} {σ τ : Shape} {text : String} {e : StateError}

/-! ## Codecs that agree -/

/-- The text has the form of a token, and its tag is found right. -/
def Verifies (c : Codec) (text : String) : Prop :=
  ∃ t, Token.parse text = .ok t ∧
    c.mac.verify c.provider.authenticationKey (Utf8.encode t.signed) t.tag = .ok true

theorem StopsAt.reports (h : c.StopsAt now σ text (.value e)) : c.serializer.Reports σ e := by
  cases h with
  | value _ _ hread => exact ⟨_, hread⟩

/-- Both calls end in one error, with the same events. -/
def StopAlike {α β : Type} (x : Logged α) (y : Logged β) : Prop :=
  ∃ s : Stop, x = s.logged ∧ y = s.logged

theorem checked_congr (h : SignsAlike a b) (htimeout : a.timeout = b.timeout)
    (htenant : a.provider.tenantId = b.provider.tenantId) :
    a.checked now text = b.checked now text := by
  rw [checked, checked, h.mac, h.authenticationKey, htimeout, htenant]

/-! ## One check after the other -/

theorem stopAlike_of_not_verifies (h : SignsAlike a b) (hnot : ¬ a.Verifies text) :
    StopAlike (a.decode now σ text) (b.decode now' τ text) := by
  cases hauth : authenticate a.mac a.provider.authenticationKey text with
  | ok t =>
    obtain ⟨hparse, htag⟩ := authenticate_eq_ok_iff.1 hauth
    exact absurd ⟨t, hparse, Mac.verify_eq_true_iff.2 htag⟩ hnot
  | error s =>
    refine ⟨s, decode_of_authenticate_error hauth, decode_of_authenticate_error ?_⟩
    rw [← h.mac, ← h.authenticationKey, hauth]

/-- The notice of expiry is one of the check of the lifetime, unless the
serializer gives it. -/
theorem stopsAt_lifetime {issuedAt : Int64} {timeout : UInt64}
    (hown : ¬ c.serializer.Reports σ (.expired issuedAt timeout))
    (hstop : (c.decode now σ text).result = .error (.expired issuedAt timeout)) :
    c.StopsAt now σ text (.lifetime issuedAt timeout now) := by
  obtain ⟨s, hs, he⟩ := decode_eq_error_iff.1 hstop
  rcases Stop.error_eq_expired_iff.1 he with ⟨now', rfl⟩ | rfl
  · cases hs with
    | lifetime hform htag hexpired => exact .lifetime hform htag hexpired
  · exact absurd hs.reports hown

theorem stopAlike_of_expired (h : SignsAlike a b) (htimeout : a.timeout = b.timeout)
    {issuedAt : Int64} {timeout : UInt64}
    (hown : ¬ a.serializer.Reports σ (.expired issuedAt timeout))
    (hstop : (a.decode now σ text).result = .error (.expired issuedAt timeout)) :
    StopAlike (a.decode now σ text) (b.decode now τ text) := by
  have hs := stopsAt_lifetime hown hstop
  refine ⟨_, decode_of_stopsAt hs, ?_⟩
  cases hs with
  | lifetime hform htag hexpired =>
    rw [htimeout] at hexpired ⊢
    exact decode_of_stopsAt (.lifetime hform (h.authentic_iff.1 htag) hexpired)

theorem stopAlike_of_refused (h : SignsAlike a b) (htimeout : a.timeout = b.timeout)
    (htenant : a.provider.tenantId = b.provider.tenantId)
    (hown : ¬ a.serializer.Reports σ e) (hcipher : ∀ reason, e ≠ .cryptoConfiguration reason)
    (hstop : (a.decode now σ text).result = .error e) :
    StopAlike (a.decode now σ text) (b.decode now τ text) := by
  obtain ⟨s, hs, rfl⟩ := decode_eq_error_iff.1 hstop
  rcases bind_eq_error_iff.1 (stages_of_stopsAt hs) with hchecked | ⟨t, -, h⟩
  · refine ⟨s, decode_of_checked_error hchecked, decode_of_checked_error ?_⟩
    rw [← checked_congr h htimeout htenant, hchecked]
  -- behind the checks there are the cipher and the serializer only
  rcases bind_eq_error_iff.1 h with hreveal | ⟨v, -, h⟩
  · rcases reveal_eq_error_iff.1 hreveal with ⟨fault, -, rfl⟩ | ⟨_, -, e, -, rfl⟩
    · exact absurd rfl (hcipher _)
    · exact absurd hs.reports hown
  · cases h

/-! ## All checks -/

/-- Where one codec stops at a check, another one that agrees with it on
what has been looked at by then stops in the same way. Serializers come from
outside; that they call each of their failures one of serialization is
specified of them (SPEC_FULL.md §4.1, step 6 of `decode`), and what one
`Reports` in breach of this is left out. -/
theorem decode_stops_alike (h : SignsAlike a b) (text : String) (σ τ : Shape) :
    (¬ a.Verifies text → ∀ now now',
      StopAlike (a.decode now σ text) (b.decode now' τ text)) ∧
    (a.timeout = b.timeout → ∀ now issuedAt timeout,
      ¬ a.serializer.Reports σ (.expired issuedAt timeout) →
      (a.decode now σ text).result = .error (.expired issuedAt timeout) →
      StopAlike (a.decode now σ text) (b.decode now τ text)) ∧
    (a.timeout = b.timeout → a.provider.tenantId = b.provider.tenantId → ∀ now e,
      ¬ a.serializer.Reports σ e → (∀ reason, e ≠ .cryptoConfiguration reason) →
      (a.decode now σ text).result = .error e →
      StopAlike (a.decode now σ text) (b.decode now τ text)) ∧
    (∀ t, Token.parse text = .ok t →
      Mac.minKeyLength ≤ a.provider.authenticationKey.length →
      a.mac.compute a.provider.authenticationKey (Utf8.encode t.signed) ≠ .ok t.tag →
      ∀ now, (a.decode now σ text).result = .error .authenticity) := by
  refine ⟨?_, ?_, ?_, ?_⟩
  · intro hnot now now'
    exact stopAlike_of_not_verifies h hnot
  · intro htimeout now issuedAt timeout hown hstop
    exact stopAlike_of_expired h htimeout hown hstop
  · intro htimeout htenant now e hown hcipher hstop
    exact stopAlike_of_refused h htimeout htenant hown hcipher hstop
  · intro t hparse hkey htag now
    exact decode_eq_error_iff.2 ⟨_, .of_not_authentic hparse hkey htag, rfl⟩

/-- A codec of another tenant, with another cipher, encryption key and
serializer, that signs like the sample. -/
def stranger (timeout : UInt64) : Codec where
  provider := { (sample [0x7c] timeout).provider with encryptionKey := List.replicate 16 0x44 }
  cipher := .aes128Gcm
  mac := Mac.standard
  serializer := .cbor
  timeout := timeout

/-- What is no token is none for either of two codecs, and what is expired
for one is expired for the other. -/
theorem decode_stops_alike_sample :
    StopAlike ((sample [] 900).decode 0 .json "||||") ((stranger 60).decode 5000 .text "||||") ∧
    ∃ token, ((sample [] 900).encode 1000 sampleRandom sampleValue).1.result = .ok token ∧
      ((stranger 900).decode 1901 .text token).result = .error (.expired 1000 900) := by
  refine ⟨?_, ?_⟩
  · obtain ⟨hform, -, -, -⟩ := decode_stops_alike (a := sample [] 900) (b := stranger 60)
      ⟨rfl, rfl⟩ "||||" .json .text
    refine hform ?_ 0 5000
    rintro ⟨t, hparse, -⟩
    have hrefused : Token.parse "||||" = .error .notDecimal := rfl
    rw [hrefused] at hparse
    cases hparse
  · obtain ⟨token, hencode⟩ := exists_sample_token [] 900 1000
    obtain ⟨-, hlifetime, -, -⟩ := decode_stops_alike (a := sample [] 900) (b := stranger 900)
      ⟨rfl, rfl⟩ token .json .text
    have hexpired : ((sample [] 900).decode 1901 .json token).result
        = .error (.expired 1000 900) :=
      decode_encoded_of_expired (SignsAlike.refl _) hencode (by decide)
    have hown : ¬ (sample [] 900).serializer.Reports .json (.expired 1000 900) :=
      Serializer.not_json_reports_expired 1000 900
    obtain ⟨s, hsample, hstranger⟩ := hlifetime rfl 1901 1000 900 hown hexpired
    refine ⟨token, hencode, ?_⟩
    rw [hsample] at hexpired
    rw [hstranger]
    exact congrArg Except.error (Except.error.inj hexpired)

end Codec

end SealedState
