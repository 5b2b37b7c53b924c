/-
SealedState.Proofs.TokenGrammar — the texts that are tokens.

A token is five base64url texts with a bar between each two, the second of
which spells the decimal text of a 64-bit time. `Fields.Grammatical` says
so of five texts without the parser, `Fields.Spell` says what they stand
for. The parser accepts the texts of such fields and no others, and gives
what they spell (`parse_accepts_grammar`).

The writer and the parser are inverse up to the spelling of the time: what
is framed is parsed back, and what is parsed is framed back if its time has
no superfluous zero and no superfluous sign.

The grammar is the wire format of SPEC_FULL.md §3, as step 1 of `decode` in
§4.1 reads it.
-/
import Mathlib.Algebra.Group.Int.Defs
import SealedState.Proofs.StageTheorems

namespace SealedState.Token

/-! ## Fields -/

/-- The five fields of a token, as they are written. -/
structure Fields where
  ciphertext : String
  issuedAt : String
  tenantId : String
  iv : String
  tag : String

namespace Fields

/-- The first four fields with their bars. -/
def signed (f : Fields) : String :=
  f.ciphertext ++ "|" ++ f.issuedAt ++ "|" ++ f.tenantId ++ "|" ++ f.iv

/-- All fields with their bars. -/
def text (f : Fields) : String := f.signed ++ "|" ++ f.tag

/-- The fields are canonical base64url, and the second spells a sign, which
may be missing, and digits, for a number of 64 bits. -/
structure Grammatical (f : Fields) : Prop where
  ciphertext : Base64url.Canonical f.ciphertext.toList
  issuedAt : Base64url.Canonical f.issuedAt.toList
  tenantId : Base64url.Canonical f.tenantId.toList
  iv : Base64url.Canonical f.iv.toList
  tag : Base64url.Canonical f.tag.toList
  time : ∃ digits n, Base64url.decode f.issuedAt = .ok digits ∧ Decimal digits n ∧
    -2 ^ 63 ≤ n ∧ n ≤ 2 ^ 63 - 1

/-- What the fields stand for. -/
structure Spell (f : Fields) (t : Token) : Prop where
  signed : t.signed = f.signed
  ciphertext : Base64url.decode f.ciphertext = .ok t.ciphertext
  time : ∃ digits, Base64url.decode f.issuedAt = .ok digits ∧ Decimal digits t.issuedAt.toInt
  tenantId : Base64url.decode f.tenantId = .ok t.tenantId
  iv : Base64url.decode f.iv = .ok t.iv
  tag : Base64url.decode f.tag = .ok t.tag

/-- The fields that are written for some bytes. -/
def ofBytes (ciphertext time tenantId iv tag : Bytes) : Fields where
  ciphertext := Base64url.encode ciphertext
  issuedAt := Base64url.encode time
  tenantId := Base64url.encode tenantId
  iv := Base64url.encode iv
  tag := Base64url.encode tag

variable {f : Fields} {t : Token} {ciphertext time tenantId iv tag : Bytes}

theorem signed_ofBytes :
    (ofBytes ciphertext time tenantId iv tag).signed = framed ciphertext time tenantId iv := by
  rw [← String.toList_inj]
  simp [signed, ofBytes, framed, joinWith, Base64url.encode, separator]

theorem text_ofBytes : (ofBytes ciphertext time tenantId iv tag).text
    = withTag (framed ciphertext time tenantId iv) tag := by
  rw [text, signed_ofBytes, withTag_eq_append]
  rfl

/-- Fields spell a token if they are written for its bytes and for a text
of its time. -/
theorem spell_iff : f.Spell t ↔ ∃ time, Decimal time t.issuedAt.toInt ∧
    f = ofBytes t.ciphertext time t.tenantId t.iv t.tag ∧
    t.signed = framed t.ciphertext time t.tenantId t.iv := by
  constructor
  · rintro ⟨hsigned, hciphertext, ⟨time, htime, hdecimal⟩, htenantId, hiv, htag⟩
    rw [Base64url.decode_eq_ok_iff] at hciphertext htime htenantId hiv htag
    have hf : f = ofBytes t.ciphertext time t.tenantId t.iv t.tag := by
      rw [ofBytes, ← hciphertext, ← htime, ← htenantId, ← hiv, ← htag]
    refine ⟨time, hdecimal, hf, ?_⟩
    rw [hsigned, hf, signed_ofBytes]
  · rintro ⟨time, hdecimal, rfl, hsigned⟩
    exact
      { signed := by rw [hsigned, signed_ofBytes]
        ciphertext := Base64url.decode_eq_ok_iff.2 rfl
        time := ⟨time, Base64url.decode_eq_ok_iff.2 rfl, hdecimal⟩
        tenantId := Base64url.decode_eq_ok_iff.2 rfl
        iv := Base64url.decode_eq_ok_iff.2 rfl
        tag := Base64url.decode_eq_ok_iff.2 rfl }

/-- The grammar admits the fields that spell a token. -/
theorem grammatical_iff : f.Grammatical ↔ ∃ t, f.Spell t := by
  constructor
  · rintro ⟨hciphertext, -, htenantId, hiv, htag, digits, n, htime, hdecimal, hleast, hgreatest⟩
    obtain ⟨ciphertext, hciphertext⟩ := Base64url.exists_decode_iff_canonical.2 hciphertext
    obtain ⟨tenantId, htenantId⟩ := Base64url.exists_decode_iff_canonical.2 htenantId
    obtain ⟨iv, hiv⟩ := Base64url.exists_decode_iff_canonical.2 hiv
    obtain ⟨tag, htag⟩ := Base64url.exists_decode_iff_canonical.2 htag
    have hn : (Int64.ofInt n).toInt = n := Int64.toInt_ofInt_of_le (by omega) (by omega)
    exact ⟨⟨f.signed, ciphertext, Int64.ofInt n, tenantId, iv, tag⟩,
      { signed := rfl
        ciphertext := hciphertext
        time := ⟨digits, htime, by rwa [hn]⟩
        tenantId := htenantId
        iv := hiv
        tag := htag }⟩
  · rintro ⟨t, -, hciphertext, ⟨digits, htime, hdecimal⟩, htenantId, hiv, htag⟩
    have hle := t.issuedAt.le_toInt
    have hlt := t.issuedAt.toInt_lt
    exact
      { ciphertext := Base64url.exists_decode_iff_canonical.1 ⟨_, hciphertext⟩
        issuedAt := Base64url.exists_decode_iff_canonical.1 ⟨_, htime⟩
        tenantId := Base64url.exists_decode_iff_canonical.1 ⟨_, htenantId⟩
        iv := Base64url.exists_decode_iff_canonical.1 ⟨_, hiv⟩
        tag := Base64url.exists_decode_iff_canonical.1 ⟨_, htag⟩
        time := ⟨digits, t.issuedAt.toInt, htime, hdecimal, by omega, by omega⟩ }

end Fields

/-! ## Framing -/

/-- A framed text gives back its four fields. -/
theorem framed_inj {ciphertext time tenantId iv ciphertext' time' tenantId' iv' : Bytes} :
    framed ciphertext time tenantId iv = framed ciphertext' time' tenantId' iv' ↔
      ciphertext = ciphertext' ∧ time = time' ∧ tenantId = tenantId' ∧ iv = iv' := by
  constructor
  · intro h
    have hcut := splitAll_withTag_framed ciphertext time tenantId iv []
    rw [h, splitAll_withTag_framed] at hcut
    simp only [List.map_cons, List.cons.injEq] at hcut
    obtain ⟨hciphertext, htime, htenantId, hiv, -⟩ := hcut
    exact ⟨Base64url.encodeChars_injective hciphertext.symm,
      Base64url.encodeChars_injective htime.symm, Base64url.encodeChars_injective htenantId.symm,
      Base64url.encodeChars_injective hiv.symm⟩
  · rintro ⟨rfl, rfl, rfl, rfl⟩
    rfl

/-- A time is told by its text. -/
theorem timeText_injective {t t' : Int64} (h : timeText t = timeText t') : t = t' := by
  have hread := parseTime_timeText t
  rw [h, parseTime_timeText] at hread
  exact (Except.ok.inj hread).symm

theorem signedText_inj {ciphertext tenantId iv ciphertext' tenantId' iv' : Bytes}
    {issuedAt issuedAt' : Int64} :
    signedText ciphertext issuedAt tenantId iv = signedText ciphertext' issuedAt' tenantId' iv' ↔
      ciphertext = ciphertext' ∧ issuedAt = issuedAt' ∧ tenantId = tenantId' ∧ iv = iv' := by
  rw [signedText_eq_framed, signedText_eq_framed, framed_inj]
  constructor
  · rintro ⟨hciphertext, htime, htenantId, hiv⟩
    exact ⟨hciphertext, timeText_injective htime, htenantId, hiv⟩
  · rintro ⟨hciphertext, hissuedAt, htenantId, hiv⟩
    exact ⟨hciphertext, by rw [hissuedAt], htenantId, hiv⟩

/-! ## Parsing -/

theorem parse_eq_ok_iff_spell {text : String} {t : Token} :
    parse text = .ok t ↔ ∃ f : Fields, f.Spell t ∧ text = f.text := by
  simp only [parse_eq_ok_iff, Fields.spell_iff]
  constructor
  · rintro ⟨time, hdecimal, hsigned, rfl⟩
    exact ⟨_, ⟨time, hdecimal, rfl, hsigned⟩, by rw [Fields.text_ofBytes, hsigned]⟩
  · rintro ⟨_, ⟨time, hdecimal, rfl, hsigned⟩, rfl⟩
    exact ⟨time, hdecimal, hsigned, by rw [Fields.text_ofBytes, hsigned]⟩

theorem exists_parse_iff_grammatical {text : String} :
    (∃ t, parse text = .ok t) ↔ ∃ f : Fields, f.Grammatical ∧ text = f.text := by
  simp only [parse_eq_ok_iff_spell, Fields.grammatical_iff]
  constructor
  · rintro ⟨t, f, hspell, htext⟩
    exact ⟨f, ⟨t, hspell⟩, htext⟩
  · rintro ⟨f, ⟨t, hspell⟩, htext⟩
    exact ⟨t, f, hspell, htext⟩

/-- What is read in fields is written as the same fields if the time was
written as the writer does it. -/
theorem reframed_eq_iff {f : Fields} {t : Token} (h : f.Spell t) :
    withTag (signedText t.ciphertext t.issuedAt t.tenantId t.iv) t.tag = f.text ↔
      Base64url.decode f.issuedAt = .ok (timeText t.issuedAt) := by
  obtain ⟨time, -, rfl, -⟩ := Fields.spell_iff.1 h
  rw [Fields.text_ofBytes, Base64url.decode_eq_ok_iff, signedText_eq_framed]
  constructor
  · intro heq
    obtain ⟨hframed, -⟩ := withTag_injective heq
    obtain ⟨-, htime, -, -⟩ := framed_inj.1 hframed
    rw [htime]
    rfl
  · intro heq
    have htime : time = timeText t.issuedAt :=
      Base64url.encodeChars_injective (String.ofList_injective heq)
    rw [htime]

/-- A text outside the grammar is refused as malformed. -/
theorem malformed_of_not_grammatical {text : String}
    (h : ¬ ∃ f : Fields, f.Grammatical ∧ text = f.text) :
    ∃ cause, parse text = .error cause ∧ ∀ (c : Codec) (now : Int64) (σ : Shape),
      (c.decode now σ text).result = .error (.malformedToken cause.message) := by
  rw [← exists_parse_iff_grammatical] at h
  cases hparse : parse text with
  | ok t => exact absurd ⟨t, hparse⟩ h
  | error cause =>
    refine ⟨cause, rfl, fun c now σ => ?_⟩
    exact Codec.decode_eq_error_iff.2 ⟨_, .form hparse, rfl⟩

/-- The parser undoes the framing, accepts the texts of the grammar and no
others, and its result is framed as the text it was read from if the time
has its shortest text. -/
theorem parse_accepts_grammar :
    (∀ (ciphertext tenantId iv tag : Bytes) (issuedAt : Int64),
      parse (withTag (signedText ciphertext issuedAt tenantId iv) tag) = .ok
        { signed := signedText ciphertext issuedAt tenantId iv
          ciphertext, issuedAt, tenantId, iv, tag }) ∧
    (∀ (ciphertext tenantId iv ciphertext' tenantId' iv' : Bytes) (issuedAt issuedAt' : Int64),
      signedText ciphertext issuedAt tenantId iv
          = signedText ciphertext' issuedAt' tenantId' iv' ↔
        ciphertext = ciphertext' ∧ issuedAt = issuedAt' ∧ tenantId = tenantId' ∧ iv = iv') ∧
    (∀ text, (∃ t, parse text = .ok t) ↔ ∃ f : Fields, f.Grammatical ∧ text = f.text) ∧
    (∀ text t, parse text = .ok t ↔
      ∃ f : Fields, f.Spell t ∧ text = t.signed ++ "|" ++ f.tag) ∧
    (∀ text, (¬ ∃ f : Fields, f.Grammatical ∧ text = f.text) ↔
      ∃ cause, parse text = .error cause ∧ ∀ (c : Codec) (now : Int64) (σ : Shape),
        (c.decode now σ text).result = .error (.malformedToken cause.message)) ∧
    (∀ (f : Fields) (t : Token), f.Spell t →
      (withTag (signedText t.ciphertext t.issuedAt t.tenantId t.iv) t.tag = f.text ↔
        Base64url.decode f.issuedAt = .ok (timeText t.issuedAt))) := by
  refine ⟨?_, ?_, fun text => exists_parse_iff_grammatical, ?_, ?_, ?_⟩
  · intro ciphertext tenantId iv tag issuedAt
    exact parse_withTag_framed (decimal_timeText issuedAt)
  · intro ciphertext tenantId iv ciphertext' tenantId' iv' issuedAt issuedAt'
    exact signedText_inj
  · intro text t
    rw [parse_eq_ok_iff_spell]
    refine exists_congr fun f => and_congr_right fun hspell => ?_
    rw [Fields.text, hspell.signed]
  · intro text
    refine ⟨malformed_of_not_grammatical, ?_⟩
    rintro ⟨cause, hparse, -⟩ hgrammatical
    obtain ⟨t, ht⟩ := exists_parse_iff_grammatical.2 hgrammatical
    rw [hparse] at ht
    cases ht
  · intro f t hspell
    exact reframed_eq_iff hspell

end SealedState.Token
