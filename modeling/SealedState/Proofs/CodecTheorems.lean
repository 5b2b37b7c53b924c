/-
SealedState.Proofs.CodecTheorems — encoding, step by step (SPEC_FULL.md
§4.1), and the tokens that it makes.

`encode_eq_ok_iff` and `issue_eq_ok_iff` say what a token is made of.
`Codec.Minting` is what a holder of the keys of a codec needs to make one:
a clear text, an initialisation vector and the decimal text of a time, with
the ciphertext and the tag that the keys give for them. Every encoded token
is minted (`exists_minting_of_encode`); a minted one may have its time in
another decimal text.
-/
import SealedState.Codec
import SealedState.Proofs.CipherTheorems
import SealedState.Proofs.TokenTheorems

namespace SealedState

theorem Keys.configured_eq_ok_iff {α : Type} {r : Except CryptoError α} {x : α} :
    Keys.configured r = .ok x ↔ r = .ok x := by
  cases r <;> simp [Keys.configured]

theorem Keys.configured_eq_error_iff {α : Type} {r : Except CryptoError α} {e : StateError} :
    Keys.configured r = .error e ↔
      ∃ fault, r = .error fault ∧ e = .cryptoConfiguration fault.message := by
  cases r <;> simp [Keys.configured, eq_comm]

namespace Codec

variable {c : Codec} {now : Int64} {σ : Shape}

/-! ## Encoding -/

theorem issue_eq_ok_iff {clear : Bytes} {iv : Iv} {token : String} :
    c.issue clear iv now = .ok token ↔ ∃ ciphertext tag,
      c.cipher.encrypt c.provider.encryptionKey iv.val clear = .ok ciphertext ∧
      c.mac.compute c.provider.authenticationKey (Utf8.encode
        (Token.signedText ciphertext now c.provider.tenantId iv.val)) = .ok tag ∧
      token = Token.withTag
        (Token.signedText ciphertext now c.provider.tenantId iv.val) tag := by
  unfold issue
  simp only [bind_eq_ok_iff, Keys.configured_eq_ok_iff]
  constructor
  · rintro ⟨ciphertext, hseal, tag, htag, h⟩
    exact ⟨ciphertext, tag, hseal, htag, (Except.ok.inj h).symm⟩
  · rintro ⟨ciphertext, tag, hseal, htag, rfl⟩
    exact ⟨ciphertext, hseal, tag, htag, rfl⟩

/-- A value that is not serialized takes no draw. -/
theorem encode_of_serialize_error {random : RandomSource} {v : σ.Val} {e : StateError}
    (h : c.serializer.serialize σ v = .error e) :
    c.encode now random v = (⟨.error e, []⟩, random) := by
  rw [encode, h]

/-- A value that is serialized takes the next draw, whatever comes of it. -/
theorem encode_of_serialize {random : RandomSource} {v : σ.Val} {clear : Bytes}
    (h : c.serializer.serialize σ v = .ok clear) :
    (c.encode now random v).1.result = (do c.issue clear (← random.draw random.taken) now) ∧
      (c.encode now random v).2 = random.next.2 := by
  rw [encode, h]
  simp only [RandomSource.next]
  cases random.draw random.taken with
  | error e => exact ⟨rfl, rfl⟩
  | ok iv =>
    simp only [ok_bind]
    cases c.issue clear iv now <;> exact ⟨rfl, rfl⟩

/-- A token comes of a value that is serialized and of the next draw. -/
theorem encode_eq_ok_iff {random : RandomSource} {v : σ.Val} {token : String} :
    (c.encode now random v).1.result = .ok token ↔ ∃ clear iv,
      c.serializer.serialize σ v = .ok clear ∧ random.draw random.taken = .ok iv ∧
      c.issue clear iv now = .ok token := by
  cases hclear : c.serializer.serialize σ v with
  | error e => simp [encode_of_serialize_error hclear]
  | ok clear =>
    rw [(encode_of_serialize hclear).1, bind_eq_ok_iff]
    simp

/-- Keys of the right lengths give a token for every text that is not too
long. -/
theorem exists_issue {clear : Bytes}
    (hkey : c.provider.encryptionKey.length = c.cipher.keyLength)
    (hauth : Mac.minKeyLength ≤ c.provider.authenticationKey.length)
    (hlen : clear.length ≤ Gcm.maxLength) (iv : Iv) :
    ∃ token, c.issue clear iv now = .ok token := by
  obtain ⟨ciphertext, hseal⟩ : ∃ ciphertext,
      c.cipher.encrypt c.provider.encryptionKey iv.val clear = .ok ciphertext :=
    ⟨_, Cipher.encrypt_eq_ok_iff.2 ⟨hkey, iv.property, hlen, rfl⟩⟩
  obtain ⟨tag, htag⟩ : ∃ tag, c.mac.compute c.provider.authenticationKey (Utf8.encode
      (Token.signedText ciphertext now c.provider.tenantId iv.val)) = .ok tag :=
    ⟨_, Mac.compute_eq_ok_iff.2 ⟨hauth, rfl⟩⟩
  exact ⟨_, issue_eq_ok_iff.2 ⟨ciphertext, tag, hseal, htag, rfl⟩⟩

/-- A cookie carries the token that encoding gives. -/
theorem persist_eq_ok_iff {random : RandomSource} {name path : String} {v : σ.Val}
    {cookie : Cookie} :
    (c.persist now random name path v).1.result = .ok cookie ↔ ∃ token,
      (c.encode now random v).1.result = .ok token ∧
      cookie = ((Cookie.make name token).withPath path).withMaxAge c.timeout := by
  unfold persist
  cases h : (c.encode now random v).1.result with
  | error e => simp [h, Except.map]
  | ok token => simp [h, Except.map, eq_comm]

/-- A cookie is missing for the reason for which its token is. -/
theorem persist_eq_error_iff {random : RandomSource} {name path : String} {v : σ.Val}
    {e : StateError} :
    (c.persist now random name path v).1.result = .error e ↔
      (c.encode now random v).1.result = .error e := by
  unfold persist
  cases h : (c.encode now random v).1.result with
  | error e' => simp [h, Except.map]
  | ok token => simp [h, Except.map]

/-! ## Minted tokens -/

/-- A clear text, an initialisation vector and the decimal text of a
time, with the ciphertext and the tag that the keys of a codec give for
them. -/
structure Minting (c : Codec) where
  clear : Bytes
  iv : Iv
  time : Bytes
  issuedAt : Int64
  decimal : Token.Decimal time issuedAt.toInt
  ciphertext : Bytes
  encrypts : c.cipher.encrypt c.provider.encryptionKey iv.val clear = .ok ciphertext
  tag : Bytes
  authenticates : c.mac.compute c.provider.authenticationKey (Utf8.encode
    (Token.framed ciphertext time c.provider.tenantId iv.val)) = .ok tag

namespace Minting

/-- The text under the tag. -/
def signed (m : c.Minting) : String :=
  Token.framed m.ciphertext m.time c.provider.tenantId m.iv.val

def token (m : c.Minting) : String := Token.withTag m.signed m.tag

/-- The token taken apart. -/
def parsed (m : c.Minting) : Token where
  signed := m.signed
  ciphertext := m.ciphertext
  issuedAt := m.issuedAt
  tenantId := c.provider.tenantId
  iv := m.iv.val
  tag := m.tag

theorem parse_token (m : c.Minting) : Token.parse m.token = .ok m.parsed :=
  Token.parse_withTag_framed m.decimal

end Minting

/-- Every encoded token is minted, from the bytes of the value at the time
of the clock. -/
theorem exists_minting_of_encode {random : RandomSource} {v : σ.Val} {token : String}
    (h : (c.encode now random v).1.result = .ok token) :
    ∃ m : c.Minting, m.token = token ∧ m.issuedAt = now ∧
      c.serializer.serialize σ v = .ok m.clear := by
  obtain ⟨clear, iv, hclear, -, hissue⟩ := encode_eq_ok_iff.1 h
  obtain ⟨ciphertext, tag, hseal, htag, rfl⟩ := issue_eq_ok_iff.1 hissue
  let m : c.Minting :=
    { clear, iv, ciphertext, tag
      time := Token.timeText now
      issuedAt := now
      decimal := Token.decimal_timeText now
      encrypts := hseal
      authenticates := by rw [← Token.signedText_eq_framed, htag] }
  exact ⟨m, rfl, rfl, hclear⟩

/-! ## A sample

The theorems on codecs are shown to apply with the codec below: the
standard algorithms, keys of one repeated byte each, and a value of seven
bytes. -/

def sample (tenantId : Bytes) (timeout : UInt64) : Codec where
  provider :=
    { tenantId
      encryptionKey := List.replicate 32 0x11
      authenticationKey := List.replicate 32 0x22
      encryptionId := Cipher.standard.id
      authenticationId := Mac.standard.id }
  cipher := Cipher.standard
  mac := Mac.standard
  serializer := Serializer.json
  timeout := timeout

def sampleRandom : RandomSource := .cycle (.ok ⟨List.replicate 16 0x33, rfl⟩) []

def sampleValue : Shape.Val .json := Json.object [("a", .number (Json.Number.ofInt 1))]

def sampleClear : Bytes :=
  [Ascii.openBrace, Ascii.quote, 0x61, Ascii.quote, Ascii.colon, 0x31, Ascii.closeBrace]

theorem serialize_sampleValue : Serializer.json.serialize .json sampleValue = .ok sampleClear := rfl

theorem deserialize_sampleClear :
    Serializer.json.deserialize .json sampleClear = .ok sampleValue := rfl

theorem exists_sample_issue (tenantId : Bytes) (timeout : UInt64) (now : Int64) (iv : Iv) :
    ∃ token, (sample tenantId timeout).issue sampleClear iv now = .ok token := by
  have hkey : (sample tenantId timeout).provider.encryptionKey.length
      = (sample tenantId timeout).cipher.keyLength := rfl
  have hauth : Mac.minKeyLength ≤ (sample tenantId timeout).provider.authenticationKey.length :=
    Nat.le_refl 32
  have hlen : sampleClear.length ≤ Gcm.maxLength := by decide
  exact exists_issue hkey hauth hlen iv

theorem exists_sample_token (tenantId : Bytes) (timeout : UInt64) (now : Int64) :
    ∃ token, ((sample tenantId timeout).encode now sampleRandom sampleValue).1.result
      = .ok token := by
  obtain ⟨token, hissue⟩ :=
    exists_sample_issue tenantId timeout now ⟨List.replicate 16 0x33, rfl⟩
  exact ⟨token, encode_eq_ok_iff.2 ⟨sampleClear, _, serialize_sampleValue, rfl, hissue⟩⟩

end Codec

end SealedState
