/-
SealedState.Proofs.TokenOutline — what the look of a token tells of the value
in it.

Whoever has no key reads off a token how long its fields are, and three of
them as they are written: the time, the tenant and the vector. This is the
`Outline` of the token. The one of an encoded token depends on the codec, the
time, the vector and the number of bytes that the value is serialized to
(`outline?_of_encode`). So two values with equally many bytes, encoded at one
time under one vector, have tokens that look alike, or fail alike
(`encode_shows_length`). The length of a token is counted field by field.

The fields are those of the wire format in SPEC_FULL.md §3, put together by
`encode` of §4.1.
-/
import Mathlib.Algebra.Order.Floor.Div
import SealedState.Proofs.Base64urlBijection
import SealedState.Proofs.CipherInverse
import SealedState.Proofs.KeyChecks
import SealedState.Proofs.LogSecrecy

namespace SealedState

/-! ## Outlines -/

/-- The number of digits that spell `n` bytes. -/
def Base64url.width (n : Nat) : Nat := 4 * n ⌈/⌉ 3

theorem Base64url.length_encodeChars_eq_width (b : Bytes) :
    (encodeChars b).length = width b.length := by
  rw [length_encodeChars, width, Nat.ceilDiv_eq_add_pred_div]
  rfl

namespace Token

/-- What can be seen of a token: the texts of three fields, and how many
characters the two others have. -/
structure Outline where
  ciphertextWidth : Nat
  issuedAt : List Char
  tenantId : List Char
  iv : List Char
  tagWidth : Nat
  deriving DecidableEq

/-- The characters of the fields, and the separators between them. -/
def Outline.length (o : Outline) : Nat :=
  o.ciphertextWidth + o.issuedAt.length + o.tenantId.length + o.iv.length + o.tagWidth + 4

/-- The outline of a text of five fields. -/
def outline? (text : String) : Option Outline :=
  match parts text with
  | [ciphertext, issuedAt, tenantId, iv, tag] =>
    some { ciphertextWidth := ciphertext.length, issuedAt, tenantId, iv, tagWidth := tag.length }
  | _ => none

theorem outline?_withTag_framed (ciphertext time tenantId iv tag : Bytes) :
    outline? (withTag (framed ciphertext time tenantId iv) tag) = some
      { ciphertextWidth := Base64url.width ciphertext.length
        issuedAt := Base64url.encodeChars time
        tenantId := Base64url.encodeChars tenantId
        iv := Base64url.encodeChars iv
        tagWidth := Base64url.width tag.length } := by
  rw [outline?, parts, splitAll_withTag_framed]
  simp only [List.map_cons, List.map_nil, Base64url.length_encodeChars_eq_width]

/-- A text with an outline is as long as the outline says, and has four
separators. -/
theorem length_of_outline? {text : String} {o : Outline} (h : outline? text = some o) :
    text.length = o.length ∧ text.toList.count separator = 4 := by
  have hjoin := joinWith_splitAll separator text.toList
  have hcount := length_splitAll separator text.toList
  unfold outline? parts at h
  split at h
  · rename_i hparts
    cases h
    rw [hparts] at hjoin hcount
    -- The text is its five parts with four separators between them.
    refine ⟨?_, (Nat.succ.inj hcount).symm⟩
    rw [← String.length_toList, ← hjoin]
    simp only [joinWith, List.length_append, List.length_cons, Outline.length]
    omega
  · cases h

end Token

/-- What is said under a name in the events of a call. -/
def Logged.told {α : Type} (l : Logged α) (name : String) : List String :=
  l.events.filterMap fun event => event.fields.lookup name

namespace Codec

variable {c : Codec} {now : Int64} {σ τ : Shape} {v : σ.Val} {w : τ.Val} {token : String}
  {random random' : RandomSource} {clear clear' : Bytes} {iv : Iv} {e : StateError}

/-! ## Failures -/

/-- Of a text only its length decides whether there is a token for it, and why
there is none. -/
theorem issue_eq_error_congr (hlength : clear.length = clear'.length) :
    c.issue clear iv now = .error e ↔ c.issue clear' iv now = .error e := by
  have hok : (∃ ciphertext,
      c.cipher.encrypt c.provider.encryptionKey iv.val clear = .ok ciphertext) ↔
      ∃ ciphertext, c.cipher.encrypt c.provider.encryptionKey iv.val clear' = .ok ciphertext := by
    simp only [Cipher.encrypt_eq_ok_iff, hlength, exists_and_left, exists_eq]
  simp only [issue_eq_error_iff, hok, Cipher.encrypt_eq_error_congr hlength]

/-! ## The outline of an encoded token -/

/-- The outline of the tokens that a codec makes of `n` bytes. -/
def outline (c : Codec) (now : Int64) (iv : Iv) (n : Nat) : Token.Outline where
  ciphertextWidth := Base64url.width (n + Gcm.tagLength)
  issuedAt := Base64url.encodeChars (Token.timeText now)
  tenantId := Base64url.encodeChars c.provider.tenantId
  iv := Base64url.encodeChars iv.val
  tagWidth := Base64url.width c.mac.outputLength

theorem length_outline (c : Codec) (now : Int64) (iv : Iv) (n : Nat) :
    (c.outline now iv n).length = Base64url.width (n + 16)
      + Base64url.width (decimalText now.toInt).length
      + Base64url.width c.provider.tenantId.length + 22
      + Base64url.width c.mac.outputLength + 4 := by
  have htime : (Token.timeText now).length = (decimalText now.toInt).length := List.length_map _
  have hiv : Base64url.width iv.val.length = 22 := by
    rw [iv.property]
    rfl
  simp only [Token.Outline.length, outline, Base64url.length_encodeChars_eq_width, htime, hiv,
    Gcm.tagLength]

theorem outline?_of_issue (h : c.issue clear iv now = .ok token) :
    Token.outline? token = some (c.outline now iv clear.length) := by
  obtain ⟨ciphertext, tag, hseal, htag, rfl⟩ := issue_eq_ok_iff.1 h
  rw [Token.signedText_eq_framed, Token.outline?_withTag_framed,
    Cipher.length_of_encrypt hseal, Mac.length_of_compute htag]
  rfl

theorem outline?_of_encode (h : (c.encode now random v).1.result = .ok token) :
    ∃ clear iv, c.serializer.serialize σ v = .ok clear ∧ random.draw random.taken = .ok iv ∧
      Token.outline? token = some (c.outline now iv clear.length) := by
  obtain ⟨clear, iv, hclear, hdraw, hissue⟩ := encode_eq_ok_iff.1 h
  exact ⟨clear, iv, hclear, hdraw, outline?_of_issue hissue⟩

/-- The log is told the length of a token. -/
theorem told_len_of_encode (h : (c.encode now random v).1.result = .ok token) :
    (c.encode now random v).1.told "len" = [Nat.repr token.length] := by
  rw [Logged.told, encode_events, h]
  rfl

/-- Values with equally many bytes, with one draw, fail alike. -/
theorem encode_failsAs_of_length (hclear : c.serializer.serialize σ v = .ok clear)
    (hclear' : c.serializer.serialize τ w = .ok clear') (hlength : clear.length = clear'.length)
    (hdraw : random.draw random.taken = random'.draw random'.taken) :
    FailsAs (c.encode now random v).1.result (c.encode now random' w).1.result := by
  refine failsAs_of_error_iff fun e => ?_
  rw [(encode_of_serialize hclear).1, (encode_of_serialize hclear').1, hdraw]
  cases random'.draw random'.taken with
  | error e' => rfl
  | ok iv => exact issue_eq_error_congr hlength

/-- A token has its five fields and no more: the ciphertext is sixteen bytes
longer than the bytes of the value, time, tenant and vector are those of the
call, and the tag is as long as the code says. This gives the number of its
characters, which the log is told. Two values with equally many bytes,
encoded at one time with one draw, have tokens that differ in the
characters of ciphertext and tag and in nothing else, or fail with one
error. -/
theorem encode_shows_length :
    (∀ (c : Codec) (now : Int64) (random : RandomSource) (σ : Shape) (v : σ.Val) (token : String),
      (c.encode now random v).1.result = .ok token →
      ∃ clear iv, c.serializer.serialize σ v = .ok clear ∧ random.draw random.taken = .ok iv ∧
        Token.outline? token = some (c.outline now iv clear.length) ∧
        token.length = Base64url.width (clear.length + 16)
          + Base64url.width (decimalText now.toInt).length
          + Base64url.width c.provider.tenantId.length + 22
          + Base64url.width c.mac.outputLength + 4 ∧
        token.toList.count '|' = 4 ∧
        (c.encode now random v).1.told "len" = [Nat.repr token.length]) ∧
    (∀ (c : Codec) (now : Int64) (random random' : RandomSource) (σ τ : Shape) (v : σ.Val)
      (w : τ.Val) (clear clear' : Bytes), c.serializer.serialize σ v = .ok clear →
      c.serializer.serialize τ w = .ok clear' → clear.length = clear'.length →
      random.draw random.taken = random'.draw random'.taken →
      FailsAs (c.encode now random v).1.result (c.encode now random' w).1.result ∧
      ∀ token token', (c.encode now random v).1.result = .ok token →
        (c.encode now random' w).1.result = .ok token' →
        token.length = token'.length ∧
          ∃ o, Token.outline? token = some o ∧ Token.outline? token' = some o) := by
  refine ⟨?_, ?_⟩
  · intro c now random σ v token h
    obtain ⟨clear, iv, hclear, hdraw, houtline⟩ := outline?_of_encode h
    obtain ⟨hlength, hcount⟩ := Token.length_of_outline? houtline
    exact ⟨clear, iv, hclear, hdraw, houtline, hlength.trans (length_outline c now iv _), hcount,
      told_len_of_encode h⟩
  · intro c now random random' σ τ v w clear clear' hclear hclear' hlength hdraw
    refine ⟨encode_failsAs_of_length hclear hclear' hlength hdraw, ?_⟩
    intro token token' h h'
    obtain ⟨_, iv, hserialize, hiv, houtline⟩ := outline?_of_encode h
    obtain ⟨_, iv', hserialize', hiv', houtline'⟩ := outline?_of_encode h'
    -- Serializers and sources are functions, so both calls had these bytes and one vector.
    cases hclear.symm.trans hserialize
    cases hclear'.symm.trans hserialize'
    cases hiv.symm.trans (hdraw.trans hiv')
    rw [← hlength] at houtline'
    refine ⟨?_, _, houtline, houtline'⟩
    rw [(Token.length_of_outline? houtline).1, (Token.length_of_outline? houtline').1]

def sampleLetters : Shape.Val .text := "abcde"

/-- An object and a text, both of seven bytes as JSON, five seconds before the
year 1970. -/
theorem encode_shows_length_sample : ∃ token token' o,
    ((sample [0x7c] 900).encode (-5) sampleRandom sampleValue).1.result = .ok token ∧
    ((sample [0x7c] 900).encode (-5) sampleRandom sampleLetters).1.result = .ok token' ∧
    token.length = 105 ∧ token'.length = 105 ∧
    Token.outline? token = some o ∧ Token.outline? token' = some o := by
  obtain ⟨hshape, hruns⟩ := encode_shows_length
  have htext : (sample [0x7c] 900).serializer.serialize .text sampleLetters
      = .ok (Ascii.ofString "\"abcde\"") := rfl
  obtain ⟨hfails, hlook⟩ := hruns (sample [0x7c] 900) (-5) sampleRandom sampleRandom .json .text
    sampleValue sampleLetters sampleClear _ serialize_sampleValue htext rfl rfl
  obtain ⟨token, htoken⟩ := exists_sample_token [0x7c] 900 (-5)
  obtain ⟨token', htoken'⟩ := hfails.2.1 ⟨token, htoken⟩
  obtain ⟨hlength, o, ho, ho'⟩ := hlook token token' htoken htoken'
  obtain ⟨clear, iv, hclear, -, -, hcount, -, -⟩ := hshape _ _ _ _ _ _ htoken
  cases serialize_sampleValue.symm.trans hclear
  have hall : token.length = 105 := hcount
  exact ⟨token, token', o, htoken, htoken', hall, hlength ▸ hall, ho, ho'⟩

end Codec

end SealedState
