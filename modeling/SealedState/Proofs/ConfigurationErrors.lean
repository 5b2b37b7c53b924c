/-
SealedState.Proofs.ConfigurationErrors — what a request cannot bring about
(SPEC_FULL.md §4.1, steps 5 and 6 of `decode`, and §7).

An error of the cryptographic configuration says that something is wrong on
the side of the server. The checks of decoding never give one while the keys
fit (`stopsAt_ciphertext`); so it is left to the cipher, which is asked only
for tokens that pass all checks, and which refuses exactly what no text
encrypts to. Who can bring it about holds the authentication key
(`decode_cryptoConfiguration_iff`).

Serializers come from outside. They are specified to call each of their
failures one of serialization (`Serializer.Confined`), as those of the library
do; what is said here of the tag needs no such promise.
-/
import SealedState.Proofs.KeyChecks
import SealedState.Proofs.Noninterference

namespace SealedState

namespace Serializer

/-- Whatever the serializer cannot read is an error of serialization: what is
specified of every serializer (SPEC_FULL.md §4.1, step 6 of `decode`). -/
def Confined (s : Serializer) : Prop :=
  ∀ σ e, s.Reports σ e → ∃ reason, e = .serialization reason

theorem json_confined : json.Confined := fun _ _ => json_reports

theorem cbor_confined : cbor.Confined := fun _ _ => cbor_reports

end Serializer

namespace Codec

variable {a c : Codec} {now : Int64} {σ : Shape} {text : String} {t : Token}

/-! ## Where the error comes from -/

/-- While the keys fit, the error is one of the cipher, unless the serializer
gives it. -/
theorem stopsAt_ciphertext (hfit : c.KeysFit) {reason : String}
    (h : (c.decode now σ text).result = .error (.cryptoConfiguration reason)) :
    (∃ fault : CryptoError, fault.message = reason ∧
      c.StopsAt now σ text (.ciphertext fault)) ∨
      c.StopsAt now σ text (.value (.cryptoConfiguration reason)) := by
  obtain ⟨s, hs, he⟩ := decode_eq_error_iff.1 h
  rcases Stop.error_eq_cryptoConfiguration_iff.1 he with ⟨fault, hfault, rfl | rfl⟩ | rfl
  · cases hs with
    | key _ hkey =>
      obtain ⟨hshort, -⟩ := Mac.compute_eq_error_iff.1 hkey
      exact absurd hfit.authentication (Nat.not_le.2 hshort)
  · exact .inl ⟨fault, hfault, hs⟩
  · exact .inr hs

/-- The token passes all checks, and no text encrypts to its ciphertext. -/
def Undecryptable (c : Codec) (now : Int64) (text : String) : Prop :=
  ∃ t, c.Passes now text t ∧
    ∀ clear, c.cipher.encrypt c.provider.encryptionKey t.iv clear ≠ .ok t.ciphertext

/-- The error of a cipher that cannot open a token. -/
def cipherError : StateError :=
  .cryptoConfiguration (CryptoError.decryptionFailed "aead::Error").message

theorem decode_eq_cryptoConfiguration_iff (hfit : c.KeysFit) (hs : c.serializer.Confined)
    {reason : String} :
    (c.decode now σ text).result = .error (.cryptoConfiguration reason) ↔
      c.Undecryptable now text ∧ cipherError = .cryptoConfiguration reason := by
  constructor
  · intro h
    rcases stopsAt_ciphertext hfit h with ⟨fault, rfl, hstop⟩ | hstop
    · cases hstop with
      | ciphertext hpasses hfault =>
        obtain ⟨rfl, hnone⟩ := (Cipher.decrypt_eq_error_iff hfit.encryption hpasses.iv).1 hfault
        exact ⟨⟨_, hpasses, hnone⟩, rfl⟩
    · obtain ⟨why, hwhy⟩ := hs σ _ hstop.reports
      cases hwhy
  · rintro ⟨⟨t, hpasses, hnone⟩, hreason⟩
    have hfault := (Cipher.decrypt_eq_error_iff hfit.encryption hpasses.iv).2 ⟨rfl, hnone⟩
    rw [← hreason]
    exact decode_eq_error_iff.2 ⟨_, .ciphertext hpasses hfault, rfl⟩

/-- No text is an error of the settings. -/
theorem decode_ne_configuration (hs : c.serializer.Confined) (reason : String) :
    (c.decode now σ text).result ≠ .error (.configuration reason) := by
  intro h
  obtain ⟨s, hstop, he⟩ := decode_eq_error_iff.1 h
  cases s with
  | value e =>
    obtain ⟨why, rfl⟩ := hs σ e hstop.reports
    cases he
  | _ => cases he

/-! ## What does not bring it about -/

theorem Passes.verifies (h : c.Passes now text t) : c.Verifies text :=
  ⟨t, h.form, Mac.verify_eq_true_iff.2 h.tag⟩

/-- Neither the cipher nor the serializer is asked before the tag is found
right. -/
theorem verifies_of_cryptoConfiguration (hfit : c.KeysFit) {reason : String}
    (h : (c.decode now σ text).result = .error (.cryptoConfiguration reason)) :
    c.Verifies text := by
  rcases stopsAt_ciphertext hfit h with ⟨fault, -, hstop⟩ | hstop
  · cases hstop with
    | ciphertext hpasses => exact hpasses.verifies
  · cases hstop with
    | value hpasses => exact hpasses.verifies

/-- The codecs share keys and algorithms. -/
structure SharesKeys (a b : Codec) : Prop extends SignsAlike a b where
  cipher : a.cipher = b.cipher
  encryptionKey : a.provider.encryptionKey = b.provider.encryptionKey

/-- The ciphertext of an encoded token is the encryption of its value. -/
theorem not_undecryptable_of_encode (h : SharesKeys a c) {issuedAt : Int64}
    {random : RandomSource} {v : σ.Val}
    (hencode : (a.encode issuedAt random v).1.result = .ok text) :
    ¬ c.Undecryptable now text := by
  obtain ⟨m, rfl, -, -⟩ := exists_minting_of_encode hencode
  rintro ⟨t, hpasses, hnone⟩
  have ht : m.parsed = t := Except.ok.inj (m.parse_token.symm.trans hpasses.form)
  subst ht
  refine hnone m.clear ?_
  rw [← h.cipher, ← h.encryptionKey]
  exact m.encrypts

/-- A codec that was made for an edition gives an error of the cryptographic
configuration for none of the texts without the right tag. With a serializer
that calls its failures what SPEC_FULL.md §4.1 has them called (step 6 of
`decode`), it gives one for the texts that pass all checks, tag included, and
hold a ciphertext that no text encrypts to, and for no others, so for none
that was encoded with the same keys; and it never finds fault with the
settings. -/
theorem decode_cryptoConfiguration_iff (hc : c.Checked) (now : Int64) (σ : Shape)
    (text : String) :
    (c.serializer.Confined → ∀ reason,
      (c.decode now σ text).result = .error (.cryptoConfiguration reason) ↔
        c.Undecryptable now text ∧ cipherError = .cryptoConfiguration reason) ∧
    (¬ c.Verifies text → ∀ reason,
      (c.decode now σ text).result ≠ .error (.cryptoConfiguration reason)) ∧
    (c.serializer.Confined →
      ∀ (a : Codec) (issuedAt : Int64) (random : RandomSource) {τ : Shape} (v : τ.Val),
      SharesKeys a c → (a.encode issuedAt random v).1.result = .ok text → ∀ reason,
        (c.decode now σ text).result ≠ .error (.cryptoConfiguration reason)) ∧
    (c.serializer.Confined → ∀ reason,
      (c.decode now σ text).result ≠ .error (.configuration reason)) := by
  refine ⟨?_, ?_, ?_, fun hs => decode_ne_configuration hs⟩
  · intro hs reason
    exact decode_eq_cryptoConfiguration_iff hc.keysFit hs
  · intro hnot reason h
    exact hnot (verifies_of_cryptoConfiguration hc.keysFit h)
  · intro hs a issuedAt random τ v hshares hencode reason h
    obtain ⟨hundecryptable, -⟩ := (decode_eq_cryptoConfiguration_iff hc.keysFit hs).1 h
    exact not_undecryptable_of_encode hshares hencode hundecryptable

/-- A ciphertext too short for a tag of the cipher, under the right tag of
the token. -/
theorem decode_cryptoConfiguration_iff_sample : ∃ text,
    ((sample [] 900).decode 0 .json text).result
      = .error (.cryptoConfiguration "Decryption failed: aead::Error") ∧
    ((sample [] 900).decode 901 .json text).result
      ≠ .error (.cryptoConfiguration "Decryption failed: aead::Error") := by
  let signed := Token.framed [] (Token.timeText 0) [] (List.replicate 16 0x33)
  let tag := Hmac.tag Sha2.sha256 (List.replicate 32 0x22) (Utf8.encode signed)
  let t : Token :=
    { signed, ciphertext := [], issuedAt := 0, tenantId := [], iv := List.replicate 16 0x33, tag }
  have hform : Token.parse (Token.withTag signed tag) = .ok t :=
    Token.parse_withTag_framed (Token.decimal_timeText 0)
  have hpasses : (sample [] 900).Passes 0 (Token.withTag signed tag) t :=
    { form := hform
      tag := Mac.compute_eq_ok_iff.2 ⟨Nat.le_refl 32, rfl⟩
      live := by decide
      tenantId := rfl
      iv := rfl }
  refine ⟨Token.withTag signed tag, ?_, ?_⟩
  · obtain ⟨hiff, -⟩ := decode_cryptoConfiguration_iff (checked_sample [] 900) 0 .json
      (Token.withTag signed tag)
    refine (hiff Serializer.json_confined _).2 ⟨⟨t, hpasses, ?_⟩, rfl⟩
    intro clear hseal
    obtain ⟨-, -, -, hsealed⟩ := Cipher.encrypt_eq_ok_iff.1 hseal
    have hlen := congrArg List.length hsealed
    rw [Gcm.length_seal] at hlen
    simp [t, Gcm.tagLength] at hlen
  · obtain ⟨hiff, -⟩ := decode_cryptoConfiguration_iff (checked_sample [] 900) 901 .json
      (Token.withTag signed tag)
    intro h
    obtain ⟨⟨t', hpasses', -⟩, -⟩ := (hiff Serializer.json_confined _).1 h
    have ht : t = t' := Except.ok.inj (hform.symm.trans hpasses'.form)
    have hlive := hpasses'.live
    rw [← ht] at hlive
    exact absurd hlive (by decide)

end Codec

end SealedState
