/-
SealedState.Proofs.LogSecrecy — what the log may tell.

A log is read by more people than may know keys, tokens or values. Two calls
that end at the same stage in the same kind of end, for tokens with the same
time of issue and tenant, at the same clock and for the same tenant of the
codec, tell the log the same, whatever else they differ in
(`SeenAlike.events_eq`); of a text that is no token the log is told what is
wrong with it, which is a number of fields, a field or a kind of flaw. A
warning is given if and only if the call ends in an error that points at
tampering (`decode_level_eq_warn_iff`). Encoding tells the log the time and
the length of a token (`encode_events`). `log_keeps_secrets` has it all.

A serializer may give any error it likes, and its errors are not logged. So
one that reports tampering does so without a warning; those of this library
never report it.

SPEC_FULL.md §8 has the events of each kind of end, and that contents of
tokens and keys are never among them.
-/
import SealedState.Proofs.StageEvents

namespace SealedState

/-! ## The length of a token -/

/-- A text of ASCII characters has as many octets as characters. -/
theorem Ascii.utf8ByteSize_ofList : ∀ {cs : List Char}, (∀ ch ∈ cs, ch.val ≤ 127) →
    (String.ofList cs).utf8ByteSize = cs.length
  | [], _ => rfl
  | ch :: cs, h => by
      have hsize : ch.utf8Size = 1 := Char.utf8Size_eq_one_iff.2 (h ch List.mem_cons_self)
      have ih := utf8ByteSize_ofList fun d hd => h d (List.mem_cons_of_mem ch hd)
      rw [String.ofList_cons, String.utf8ByteSize_append, String.utf8ByteSize_singleton, hsize, ih,
        List.length_cons, Nat.add_comm]

theorem Base64url.val_le_of_mem_alphabet {ch : Char} (h : ch ∈ alphabet) : ch.val ≤ 127 := by
  obtain ⟨v, hv⟩ := mem_alphabet_iff.1 h
  obtain ⟨hlt, rfl⟩ := digit_of_value? hv
  have hcode : (digit v).val.toNat = _ := toNat_digit hlt
  rw [UInt32.le_iff_toNat_le, hcode]
  grind

theorem Token.utf8ByteSize_withTag_framed (ciphertext time tenantId iv tag : Bytes) :
    (withTag (framed ciphertext time tenantId iv) tag).utf8ByteSize
      = (withTag (framed ciphertext time tenantId iv) tag).length := by
  have hascii : ∀ ch ∈ (withTag (framed ciphertext time tenantId iv) tag).toList, ch.val ≤ 127 := by
    intro ch hch
    rcases mem_withTag_framed hch with rfl | halphabet
    · decide
    · exact Base64url.val_le_of_mem_alphabet halphabet
  have hsize := Ascii.utf8ByteSize_ofList hascii
  rwa [String.ofList_toList, String.length_toList] at hsize

/-! ## Warnings and failures -/

/-- The call ended in an error that points at tampering. -/
def Logged.FailsSecurity {α : Type} (l : Logged α) : Prop :=
  ∃ e, l.result = .error e ∧ e.isSecurityRelevant = true

/-- The call has left a warning in the log. -/
def Logged.Warns {α : Type} (l : Logged α) : Prop := ∃ event ∈ l.events, event.level = .warn

namespace Stop

variable {α : Type}

theorem failsSecurity_iff {s : Stop} :
    (s.logged (α := α)).FailsSecurity ↔ s.error.isSecurityRelevant = true := by
  simp [Logged.FailsSecurity, logged]

theorem length_events_le (s : Stop) : s.events.length ≤ 1 := by
  cases s <;> simp [events]

/-- The events of a stop are warnings where its error points at tampering. -/
theorem level_eq_warn_iff (s : Stop) {event : Event} (h : event ∈ s.events) :
    event.level = .warn ↔ (s.logged (α := α)).FailsSecurity := by
  rw [failsSecurity_iff]
  cases s <;> simp_all [events, error, Event.level, StateError.isSecurityRelevant]

/-- A warning and an error that points at tampering come together, but for
the errors of the serializer. -/
theorem warns_iff (s : Stop) :
    (s.logged (α := α)).Warns ↔ (s.logged (α := α)).FailsSecurity ∧ ∀ e, s ≠ .value e := by
  rw [failsSecurity_iff, Logged.Warns]
  cases s <;> simp [logged, events, error, Event.level, StateError.isSecurityRelevant]

end Stop

namespace Codec

variable {a b c : Codec} {now : Int64} {σ τ : Shape} {text text' : String} {t : Token}

/-! ## Levels -/

/-- One event at most is told, and it is a warning if and only if the call
ends in an error that points at tampering. -/
theorem decode_level_eq_warn_iff (c : Codec) (now : Int64) (σ : Shape) (text : String) :
    (c.decode now σ text).events.length ≤ 1 ∧
    ∀ event ∈ (c.decode now σ text).events,
      (event.level = .warn ↔ (c.decode now σ text).FailsSecurity) := by
  rw [decode_eq_stages]
  cases c.stages now σ text with
  | error s => exact ⟨s.length_events_le, fun _ hevent => s.level_eq_warn_iff hevent⟩
  | ok p => simp [Logged.ofStages, Logged.FailsSecurity, Event.level]

/-- No error that points at tampering goes without a warning, unless the
serializer has such errors of its own. -/
theorem decode_warns_iff (hown : ∀ e, c.serializer.Reports σ e → e.isSecurityRelevant = false) :
    (c.decode now σ text).Warns ↔ (c.decode now σ text).FailsSecurity := by
  rw [decode_eq_stages]
  cases hstages : c.stages now σ text with
  | ok p => simp [Logged.ofStages, Logged.Warns, Logged.FailsSecurity, Event.level]
  | error s =>
    refine s.warns_iff.trans (and_iff_left_of_imp ?_)
    rintro hsecurity e rfl
    have hs := stopsAt_of_stages hstages
    rw [Stop.failsSecurity_iff, Stop.error, hown e hs.reports] at hsecurity
    cases hsecurity

/-! ## Two calls -/

/-- Two calls for well-formed tokens differ in nothing that the log is told
of: they end at the same stage in the same kind of end, and the tokens have
the same time of issue and tenant, and the codecs the same tenant. -/
structure SeenAlike (a b : Codec) (now : Int64) (σ τ : Shape) (text text' : String) : Prop where
  stage : a.stage now σ text = b.stage now τ text'
  outcome : (a.decode now σ text).outcome = (b.decode now τ text').outcome
  given : ∃ t t', Token.parse text = .ok t ∧ Token.parse text' = .ok t' ∧
    t.issuedAt = t'.issuedAt ∧ t.tenantId = t'.tenantId
  expected : a.provider.tenantId = b.provider.tenantId

theorem SeenAlike.events_eq (h : SeenAlike a b now σ τ text text') :
    (a.decode now σ text).events = (b.decode now τ text').events := by
  obtain ⟨t, t', hparse, hparse', hissuedAt, htenantId⟩ := h.given
  rw [decode_events a now σ hparse, decode_events b now τ hparse', h.stage, h.outcome,
    hissuedAt, htenantId, h.expected]

/-! ## Encoding -/

theorem utf8ByteSize_of_issue {clear : Bytes} {iv : Iv} {token : String}
    (h : c.issue clear iv now = .ok token) : token.utf8ByteSize = token.length := by
  obtain ⟨ciphertext, tag, -, -, rfl⟩ := issue_eq_ok_iff.1 h
  rw [Token.signedText_eq_framed]
  exact Token.utf8ByteSize_withTag_framed _ _ _ _ _

/-- The log is told the time and the length of a token, and nothing of a
value for which there is none. -/
theorem encode_events {random : RandomSource} {v : σ.Val} :
    (c.encode now random v).1.events =
      match (c.encode now random v).1.result with
      | .ok token => [.encoded now token.length]
      | .error _ => [] := by
  unfold encode
  cases c.serializer.serialize σ v with
  | error e => rfl
  | ok clear =>
    simp only
    rcases random.next with ⟨draw, random⟩
    cases draw with
    | error e => rfl
    | ok iv =>
      simp only
      cases hissue : c.issue clear iv now with
      | error e => rfl
      | ok token => simp only [utf8ByteSize_of_issue hissue]

/-! ## All of it -/

/-- What the log may tell. Decoding tells it of one event at most, which is a
warning if and only if the call ends in an error that points at tampering;
and there is a warning for every such error that is not one of the
serializer. Two calls for well-formed tokens that are alike in stage, kind of
end, times and tenants tell the same, whatever keys, vectors, ciphertexts,
tags, values, shapes and serializers they are made of. Of a text that is no
token the log is told what is wrong with it and nothing else. Two calls that
encode at one time tell the same for tokens of one length, and a call that
fails to encode tells nothing. -/
theorem log_keeps_secrets :
    (∀ (c : Codec) (now : Int64) (σ : Shape) (text : String),
      ((c.decode now σ text).events.length ≤ 1 ∧
        ∀ event ∈ (c.decode now σ text).events,
          (event.level = .warn ↔ (c.decode now σ text).FailsSecurity)) ∧
      ((∀ e, c.serializer.Reports σ e → e.isSecurityRelevant = false) →
        ((c.decode now σ text).Warns ↔ (c.decode now σ text).FailsSecurity))) ∧
    (∀ (a b : Codec) (now : Int64) (σ τ : Shape) (text text' : String),
      SeenAlike a b now σ τ text text' →
      (a.decode now σ text).events = (b.decode now τ text').events) ∧
    (∀ text, (∃ t, Token.parse text = .ok t) ∨ ∃ cause, Token.Faulty text cause) ∧
    (∀ text cause, Token.Faulty text cause → ∀ (c : Codec) (now : Int64) (σ : Shape),
      (c.decode now σ text).events = [.rejected (.malformedToken cause.message)]) ∧
    (∀ (a b : Codec) (now : Int64) (random random' : RandomSource) (σ τ : Shape) (v : σ.Val)
      (w : τ.Val) (token token' : String), (a.encode now random v).1.result = .ok token →
      (b.encode now random' w).1.result = .ok token' → token.length = token'.length →
      (a.encode now random v).1.events = (b.encode now random' w).1.events) ∧
    (∀ (c : Codec) (now : Int64) (random : RandomSource) (σ : Shape) (v : σ.Val) (e : StateError),
      (c.encode now random v).1.result = .error e → (c.encode now random v).1.events = []) := by
  refine ⟨?_, ?_, ?_, ?_, ?_, ?_⟩
  · intro c now σ text
    exact ⟨decode_level_eq_warn_iff c now σ text, decode_warns_iff⟩
  · intro a b now σ τ text text' h
    exact h.events_eq
  · intro text
    exact Token.parsed_or_faulty text
  · intro text cause h c now σ
    rw [decode_of_faulty h]
  · intro a b now random random' σ τ v w token token' h h' hlength
    rw [encode_events, encode_events, h, h']
    simp only [hlength]
  · intro c now random σ v e h
    rw [encode_events, h]

/-- An empty tag is never the right one. -/
theorem not_authentic_of_tag_nil (h : t.tag = []) : ¬ c.Authentic t := by
  intro hauthentic
  have hlength := Mac.length_of_compute hauthentic
  rw [h] at hlength
  cases hmac : c.mac <;> rw [hmac] at hlength <;> cases hlength

/-- A token whose tag is empty is warned of in the same way, whatever else is
in it and whatever codec is asked. -/
theorem log_keeps_secrets_sample :
    ((sample [0x7c] 900).decode 0 .json "|MA|||").events
      = ((stranger 60).decode 0 .text "YQ|MA|||").events := by
  have hparse : Token.parse "|MA|||" = .ok ⟨"|MA||", [], 0, [], [], []⟩ := rfl
  have hparse' : Token.parse "YQ|MA|||" = .ok ⟨"YQ|MA||", [0x61], 0, [], [], []⟩ := rfl
  have hstop : (sample [0x7c] 900).StopsAt 0 .json "|MA|||" .tag :=
    .of_not_authentic hparse (Nat.le_refl 32) (not_authentic_of_tag_nil rfl)
  have hstop' : (stranger 60).StopsAt 0 .text "YQ|MA|||" .tag :=
    .of_not_authentic hparse' (Nat.le_refl 32) (not_authentic_of_tag_nil rfl)
  obtain ⟨-, htwo, -⟩ := log_keeps_secrets
  refine htwo (sample [0x7c] 900) (stranger 60) 0 .json .text "|MA|||" "YQ|MA|||"
    { stage := ?_
      outcome := ?_
      given := ⟨_, _, hparse, hparse', rfl, rfl⟩
      expected := rfl }
  · rw [stage, stage, stages_of_stopsAt hstop, stages_of_stopsAt hstop']
  · rw [decode_of_stopsAt hstop, decode_of_stopsAt hstop']
    rfl

end Codec

end SealedState
