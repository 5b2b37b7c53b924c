/-
SealedState.Proofs.MalformedReports — which malformed tokens the log is
told of.

Two stages call a token malformed: that of its form and, behind the checks
of tag, lifetime and tenant, that of its initialisation vector. The first
tells the log of it, in the words of the error. The second tells it
nothing: a token that is malformed for its vector alone leaves no trace in
the log (`decode_malformed_reported_iff`, `decode_malformed_unreported`).

SPEC_FULL.md §8 has an event for every malformed token; step 5 of `decode` in
§4.1 is where the vector is looked at.
-/
import SealedState.Proofs.StageEvents

namespace SealedState

/-- The log is told of one rejected token, in the words of the error. -/
def ReportsRejection (events : List Event) (e : StateError) : Prop :=
  ∃ event : Event, events = [event] ∧ event.level = .debug ∧
    event.message = "rejected state token" ∧ event.fields = [("error", e.message)]

theorem reportsRejection_rejected (e : StateError) : ReportsRejection [.rejected e] e :=
  ⟨.rejected e, rfl, rfl, rfl, rfl⟩

theorem not_reportsRejection_nil (e : StateError) : ¬ ReportsRejection [] e := by
  rintro ⟨event, hevents, -⟩
  cases hevents

namespace Codec

variable {c : Codec} {now : Int64} {σ : Shape} {text reason : String}

/-- A well-formed token is found malformed in silence: for its vector, or
by the serializer. -/
theorem silent_of_malformed {t : Token} (hparse : Token.parse text = .ok t)
    (h : (c.decode now σ text).result = .error (.malformedToken reason)) :
    (c.decode now σ text).events = [] ∧
      (c.MissesVector now text t ∨ c.serializer.Reports σ (.malformedToken reason)) := by
  obtain ⟨s, hs, he⟩ := decode_eq_error_iff.1 h
  rw [decode_of_stopsAt hs]
  cases hs with
  | form hform => cases hparse.symm.trans hform
  | vector hmisses =>
    cases hparse.symm.trans hmisses.form
    exact ⟨rfl, .inl hmisses⟩
  | value _ _ hread =>
    cases he
    exact ⟨rfl, .inr ⟨_, hread⟩⟩
  | key => cases he
  | tag => cases he
  | lifetime => cases he
  | tenant => cases he
  | ciphertext => cases he

/-- Of the calls that find a token malformed, those that find fault with its
form tell the log of it, in the words of the error; the others tell it
nothing. Unless the serializer has such errors of its own, the others are
those for the tokens that stand up to the checks of tag, lifetime and tenant
and have a vector of the wrong length. -/
theorem decode_malformed_reported_iff
    (h : (c.decode now σ text).result = .error (.malformedToken reason)) :
    (ReportsRejection (c.decode now σ text).events (.malformedToken reason) ↔
      ∃ cause, Token.Faulty text cause) ∧
    ((c.decode now σ text).events = [] ↔ ∃ t, Token.parse text = .ok t) ∧
    ((∀ why, ¬ c.serializer.Reports σ (.malformedToken why)) →
      ((c.decode now σ text).events = [] ↔ ∃ t, c.MissesVector now text t)) := by
  obtain ⟨t, hparse⟩ | ⟨cause, hfaulty⟩ := Token.parsed_or_faulty text
  · obtain ⟨hsilent, hwhy⟩ := silent_of_malformed hparse h
    have hfine : ¬ ∃ cause, Token.Faulty text cause := fun ⟨_, hfaulty⟩ =>
      hfaulty.parse_ne_ok t hparse
    rw [hsilent]
    refine ⟨iff_of_false (not_reportsRejection_nil _) hfine, iff_of_true rfl ⟨t, hparse⟩, ?_⟩
    intro hown
    exact iff_of_true rfl ⟨t, hwhy.resolve_right (hown reason)⟩
  · have hnone : ¬ ∃ t, Token.parse text = .ok t := fun ⟨t, hparse⟩ =>
      hfaulty.parse_ne_ok t hparse
    rw [decode_of_faulty hfaulty] at h ⊢
    cases h
    refine ⟨iff_of_true (reportsRejection_rejected _) ⟨cause, hfaulty⟩,
      iff_of_false (List.cons_ne_nil _ _) hnone, ?_⟩
    intro _
    exact iff_of_false (List.cons_ne_nil _ _) fun ⟨t, hmisses⟩ => hnone ⟨t, hmisses.form⟩

/-- Two fields are too few, and the log is told so. -/
theorem decode_malformed_reported_iff_sample :
    ((sample [] 900).decode 1000 .json "a|b").result
      = .error (.malformedToken "expected 5 fields, got 2") ∧
    ReportsRejection ((sample [] 900).decode 1000 .json "a|b").events
      (.malformedToken "expected 5 fields, got 2") := by
  have hparse : Token.parse "a|b" = .error (.fields 2) := rfl
  have h : ((sample [] 900).decode 1000 .json "a|b").result
      = .error (.malformedToken "expected 5 fields, got 2") :=
    decode_eq_error_iff.2 ⟨_, .form hparse, rfl⟩
  obtain ⟨hreported, -, -⟩ := decode_malformed_reported_iff h
  exact ⟨h, hreported.2 ⟨.fields 2, Token.parse_eq_error_iff.1 hparse⟩⟩

/-- The log is not told of a token with the right tag, in time and of the
right tenant, whose vector is eight bytes long. -/
theorem decode_malformed_unreported : ∃ text,
    ((sample [] 900).decode 1000 .json text).result
      = .error (.malformedToken "iv must be 16 bytes, got 8") ∧
    ¬ ReportsRejection ((sample [] 900).decode 1000 .json text).events
      (.malformedToken "iv must be 16 bytes, got 8") := by
  let signed := Token.framed [] (Token.timeText 1000) [] (List.replicate 8 0x33)
  let tag := Hmac.tag Sha2.sha256 (List.replicate 32 0x22) (Utf8.encode signed)
  let t : Token :=
    { signed, ciphertext := [], issuedAt := 1000, tenantId := [], iv := List.replicate 8 0x33,
      tag }
  have hmisses : (sample [] 900).MissesVector 1000 (Token.withTag signed tag) t :=
    { form := Token.parse_withTag_framed (Token.decimal_timeText 1000)
      tag := Mac.compute_eq_ok_iff.2 ⟨Nat.le_refl 32, rfl⟩
      live := by decide
      tenantId := rfl
      iv := by decide }
  have hwords : (Stop.vector 8).error = .malformedToken "iv must be 16 bytes, got 8" := by decide
  refine ⟨Token.withTag signed tag, ?_⟩
  rw [decode_of_stopsAt (.vector hmisses)]
  exact ⟨congrArg Except.error hwords, not_reportsRejection_nil _⟩

end Codec

end SealedState
