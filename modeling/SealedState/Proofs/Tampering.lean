/-
SealedState.Proofs.Tampering — a text that was changed is refused.

A codec whose authentication key is long enough refuses a text for its
form or for its tag, before it looks at anything else, unless the text
ends in the very tag that the key gives for what stands before it
(`refused_or_tagged`). A change to an encoded token that does not forge a
tag is therefore refused (`decode_of_tampered`): a change to the tag field
alone always, and a change that leaves the tag field alone unless the two
signed texts have one tag.

The clock is not among the hypotheses. A changed token is never called
expired, or of another tenant.

This is the tamper sensitivity of SPEC_FULL.md §10.
-/
import SealedState.Proofs.StageTheorems

namespace SealedState.Codec

/-- The text was refused for its form or for its tag. -/
inductive Refused {α : Type} : Except StateError α → Prop
  | malformed (cause : Token.Malformation) : Refused (.error (.malformedToken cause.message))
  | inauthentic : Refused (.error .authenticity)

variable {c : Codec} {now : Int64} {σ τ : Shape}

/-! ## Any text -/

/-- A text that is not refused is a token with the tag that the key gives
for it. -/
theorem refused_or_parsed (hkey : Mac.minKeyLength ≤ c.provider.authenticationKey.length)
    (text : String) :
    Refused (c.decode now σ text).result ∨ ∃ t, Token.parse text = .ok t ∧ c.Authentic t := by
  cases hparse : Token.parse text with
  | error cause =>
    left
    rw [decode_of_stopsAt (.form hparse)]
    exact .malformed cause
  | ok t =>
    by_cases htag : c.Authentic t
    · exact .inr ⟨t, rfl, htag⟩
    · left
      rw [decode_of_stopsAt (.of_not_authentic hparse hkey htag)]
      exact .inauthentic

theorem refused_or_tagged (hkey : Mac.minKeyLength ≤ c.provider.authenticationKey.length)
    (text : String) :
    Refused (c.decode now σ text).result ∨ ∃ signed tag, text = Token.withTag signed tag ∧
      c.mac.compute c.provider.authenticationKey (Utf8.encode signed) = .ok tag := by
  rcases refused_or_parsed hkey text with hrefused | ⟨t, hparse, htag⟩
  · exact .inl hrefused
  · obtain ⟨time, -, -, htext⟩ := Token.parse_eq_ok_iff.1 hparse
    exact .inr ⟨t.signed, t.tag, htext, htag⟩

/-! ## Changed tokens -/

namespace Minting

/-- A codec that mints has a key that authenticates. -/
theorem minKeyLength_le (m : c.Minting) :
    Mac.minKeyLength ≤ c.provider.authenticationKey.length :=
  (Mac.compute_eq_ok_iff.1 m.authenticates).1

/-- One text has one tag. -/
theorem tag_unique (m : c.Minting) {tag : Bytes}
    (h : c.mac.compute c.provider.authenticationKey (Utf8.encode m.signed) = .ok tag) :
    tag = m.tag :=
  Except.ok.inj (h.symm.trans m.authenticates)

/-- What is not refused, and is not the token, carries the tag of another
text. -/
theorem refused_or_forged (m : c.Minting) {text : String} (hne : text ≠ m.token) :
    Refused (c.decode now σ text).result ∨ ∃ signed tag, text = Token.withTag signed tag ∧
      signed ≠ m.signed ∧
      c.mac.compute c.provider.authenticationKey (Utf8.encode signed) = .ok tag := by
  rcases refused_or_tagged m.minKeyLength_le text with hrefused | ⟨signed, tag, rfl, htag⟩
  · exact .inl hrefused
  · refine .inr ⟨signed, tag, rfl, ?_, htag⟩
    rintro rfl
    exact hne (by rw [m.tag_unique htag, token])

/-- A token whose tag field alone was changed is refused, whatever the
field is now. -/
theorem refused_of_tag_changed (m : c.Minting) {field : String}
    (hne : m.signed ++ "|" ++ field ≠ m.token) :
    Refused (c.decode now σ (m.signed ++ "|" ++ field)).result := by
  rcases refused_or_parsed m.minKeyLength_le (m.signed ++ "|" ++ field) with
    hrefused | ⟨t, hparse, htag⟩
  · exact hrefused
  · -- the new field may hold separators, so the signed text needs the parser
    have hsigned : t.signed = m.signed := Token.signed_of_parse hparse
    rw [Authentic, hsigned] at htag
    obtain ⟨time, -, -, htext⟩ := Token.parse_eq_ok_iff.1 hparse
    rw [hsigned, m.tag_unique htag] at htext
    exact absurd htext hne

/-- A token whose tag field alone was kept is refused, unless what stands
before it has the tag of the old text. -/
theorem refused_of_tag_kept (m : c.Minting) {signed : String}
    (hne : signed ++ "|" ++ Base64url.encode m.tag ≠ m.token) :
    Refused (c.decode now σ (signed ++ "|" ++ Base64url.encode m.tag)).result ∨
      c.mac.compute c.provider.authenticationKey (Utf8.encode signed)
        = c.mac.compute c.provider.authenticationKey (Utf8.encode m.signed) := by
  rcases m.refused_or_forged hne with hrefused | ⟨signed', tag, htext, -, htag⟩
  · exact .inl hrefused
  · rw [← Token.withTag_eq_append] at htext
    obtain ⟨rfl, rfl⟩ := Token.withTag_injective htext
    exact .inr (htag.trans m.authenticates.symm)

end Minting

/-- A text other than an encoded token is refused for its form or its tag,
unless it ends in the tag of a text that was not signed. -/
theorem decode_of_tampered {issuedAt : Int64} {random : RandomSource} {v : σ.Val}
    {token : String} (h : (c.encode issuedAt random v).1.result = .ok token) :
    ∃ signed field, Token.cutLast? token = some (signed, field) ∧
      ∀ (now : Int64) (τ : Shape) (text : String), text ≠ token →
        (Refused (c.decode now τ text).result ∨ ∃ signed' tag,
          Token.cutLast? text = some (signed', Base64url.encode tag) ∧ signed' ≠ signed ∧
          c.mac.compute c.provider.authenticationKey (Utf8.encode signed') = .ok tag) ∧
        (∀ field', text = signed ++ "|" ++ field' → Refused (c.decode now τ text).result) ∧
        (∀ signed', text = signed' ++ "|" ++ field →
          Refused (c.decode now τ text).result ∨
          c.mac.compute c.provider.authenticationKey (Utf8.encode signed')
            = c.mac.compute c.provider.authenticationKey (Utf8.encode signed)) := by
  obtain ⟨m, rfl, -, -⟩ := exists_minting_of_encode h
  refine ⟨m.signed, Base64url.encode m.tag, Token.cutLast?_withTag m.signed m.tag, ?_⟩
  intro now τ text hne
  refine ⟨?_, ?_, ?_⟩
  · rcases m.refused_or_forged hne with hrefused | ⟨signed, tag, rfl, hsigned, htag⟩
    · exact .inl hrefused
    · exact .inr ⟨signed, tag, Token.cutLast?_withTag signed tag, hsigned, htag⟩
  · rintro field' rfl
    exact m.refused_of_tag_changed hne
  · rintro signed' rfl
    exact m.refused_of_tag_kept hne

/-- A letter behind a token is a change to its tag field. -/
theorem decode_of_tampered_sample : ∃ token,
    ((sample [] 900).encode 1000 sampleRandom sampleValue).1.result = .ok token ∧
    Refused ((sample [] 900).decode 2000 .json (token ++ "A")).result := by
  obtain ⟨token, hencode⟩ := exists_sample_token [] 900 1000
  obtain ⟨signed, field, hcut, htampered⟩ := decode_of_tampered hencode
  obtain ⟨htoken, -⟩ := Token.cutLast?_eq_some_iff.1 hcut
  have hne : token ++ "A" ≠ token := by
    intro heq
    have hlength := congrArg String.length heq
    simp at hlength
  obtain ⟨-, hfield, -⟩ := htampered 2000 .json (token ++ "A") hne
  refine ⟨token, hencode, hfield (field ++ "A") ?_⟩
  rw [htoken, String.append_assoc]

end SealedState.Codec
