/-
SealedState.Proofs.KeyChecks — keys are checked once, when an edition is
made of them.

The lengths of keys are looked at in three places: in `Edition.make`, in the
cipher and in the message authentication code. They agree. A codec that was
made for an edition, by hand or from settings, has keys that fit
(`Checked.keysFit`), and keys that fit are all that the cipher and the code
ask for (`exists_issue_iff`). So encoding with such a codec fails only where
the value is not serialized or the draw fails, and a codec with other keys
gives no token at all (`encode_fails_as_prepare`).

That an edition validates its keys is in SPEC_FULL.md §4.3, and how `encode`
fails in §4.1, steps 1 to 3 and 6.
-/
import SealedState.Proofs.CodecTheorems
import SealedState.Settings

namespace SealedState

/-! ## Editions -/

theorem Cipher.ofId_id (c : Cipher) : Cipher.ofId c.id = .ok c := by
  cases c <;> rfl

theorem Mac.ofId_id (m : Mac) : Mac.ofId m.id = .ok m := by
  cases m <;> rfl

/-- An edition is made of keys that have the right lengths, and of no
others. -/
theorem Edition.exists_make_iff {tenantId : Bytes} {cipher : Cipher} {mac : Mac} {keys : Keys} :
    (∃ e, Edition.make tenantId cipher mac keys = .ok e) ↔
      keys.encryption.length = cipher.keyLength ∧
        Mac.minKeyLength ≤ keys.authentication.length := by
  unfold make
  split
  · rename_i hencryption
    split
    · rename_i hauthentication
      simp [hencryption, hauthentication]
    · rename_i hshort
      simp [hshort]
  · rename_i hlength
    simp [hlength]

namespace Codec

/-- The keys of a codec have the lengths that its algorithms need. -/
structure KeysFit (c : Codec) : Prop where
  encryption : c.provider.encryptionKey.length = c.cipher.keyLength
  authentication : Mac.minKeyLength ≤ c.provider.authenticationKey.length

/-- The codec was made for an edition or from settings, and may have got
another lifetime or another serializer since. -/
inductive Checked : Codec → Prop where
  | ofEdition {tenantId : Bytes} {cipher : Cipher} {mac : Mac} {keys : Keys} {e : Edition}
      {c : Codec} (hmake : Edition.make tenantId cipher mac keys = .ok e)
      (hcodec : ofProvider e.provider = .ok c) : Checked c
  | ofSettings {s : Settings} {c : Codec} (hbuild : s.build = .ok c) : Checked c
  | withTimeout {c : Codec} (seconds : UInt64) (h : Checked c) : Checked (c.withTimeout seconds)
  | withSerializer {c : Codec} (serializer : Serializer) (h : Checked c) :
      Checked (c.withSerializer serializer)

/-- The algorithms of an edition are always known. -/
theorem ofProvider_provider (e : Edition) : ofProvider e.provider = .ok
    { provider := e.provider, cipher := e.cipher, mac := e.mac
      serializer := Serializer.json, timeout := defaultTimeout } := by
  simp only [ofProvider, Edition.provider, Cipher.ofId_id, Mac.ofId_id, Keys.configured, ok_bind]
  rfl

/-- An edition carries the proof that its keys fit, and hands it to the
codec that is made for it. -/
theorem keysFit_of_ofProvider {e : Edition} {c : Codec} (h : ofProvider e.provider = .ok c) :
    c.KeysFit := by
  rw [ofProvider_provider] at h
  cases h
  exact ⟨e.length_encryption, e.le_length_authentication⟩

theorem Checked.keysFit {c : Codec} (h : c.Checked) : c.KeysFit := by
  induction h with
  | ofEdition hmake hcodec => exact keysFit_of_ofProvider hcodec
  | ofSettings hbuild =>
    obtain ⟨e, -, hrest⟩ := bind_eq_ok_iff.1 hbuild
    obtain ⟨made, hcodec, heq⟩ := bind_eq_ok_iff.1 hrest
    have hfit := keysFit_of_ofProvider hcodec
    cases heq
    exact ⟨hfit.encryption, hfit.authentication⟩
  | withTimeout seconds h ih => exact ⟨ih.encryption, ih.authentication⟩
  | withSerializer serializer h ih => exact ⟨ih.encryption, ih.authentication⟩

/-- The sample is made for an edition. -/
theorem checked_sample (tenantId : Bytes) (timeout : UInt64) :
    (sample tenantId timeout).Checked := by
  let keys : Keys := ⟨List.replicate 32 0x11, List.replicate 32 0x22⟩
  let e : Edition := ⟨tenantId, Cipher.standard, Mac.standard, keys, rfl, Nat.le_refl 32⟩
  have hmake : Edition.make tenantId Cipher.standard Mac.standard keys = .ok e := rfl
  exact .withTimeout timeout (.ofEdition hmake (ofProvider_provider e))

/-! ## Encoding -/

variable {c : Codec} {now : Int64} {random : RandomSource} {σ : Shape} {v : σ.Val}

/-- What a token needs besides keys: the bytes of the value, and then an
initialisation vector. -/
def prepare (c : Codec) (random : RandomSource) {σ : Shape} (v : σ.Val) :
    Except StateError (Bytes × Iv) := do
  let clear ← c.serializer.serialize σ v
  let iv ← random.draw random.taken
  return (clear, iv)

theorem encode_eq_prepare : (c.encode now random v).1.result = (do
    let (clear, iv) ← c.prepare random v
    c.issue clear iv now) := by
  unfold prepare
  cases hclear : c.serializer.serialize σ v with
  | error e =>
    rw [encode_of_serialize_error hclear]
    rfl
  | ok clear =>
    rw [(encode_of_serialize hclear).1]
    simp only [ok_bind]
    cases random.draw random.taken <;> rfl

/-- Keys that fit are all that a text of the right length needs. -/
theorem exists_issue_iff {clear : Bytes} {iv : Iv} :
    (∃ token, c.issue clear iv now = .ok token) ↔
      c.KeysFit ∧ clear.length ≤ Gcm.maxLength := by
  constructor
  · rintro ⟨token, h⟩
    obtain ⟨ciphertext, tag, hseal, htag, -⟩ := issue_eq_ok_iff.1 h
    obtain ⟨hencryption, -, hlen, -⟩ := Cipher.encrypt_eq_ok_iff.1 hseal
    obtain ⟨hauthentication, -⟩ := Mac.compute_eq_ok_iff.1 htag
    exact ⟨⟨hencryption, hauthentication⟩, hlen⟩
  · rintro ⟨hfit, hlen⟩
    exact exists_issue hfit.encryption hfit.authentication hlen iv

/-- There is no token because the cipher fails, or else because the
authentication key is too short. -/
theorem issue_eq_error_iff {clear : Bytes} {iv : Iv} {e : StateError} :
    c.issue clear iv now = .error e ↔
    (∃ fault, c.cipher.encrypt c.provider.encryptionKey iv.val clear = .error fault ∧
      e = .cryptoConfiguration fault.message) ∨
    (∃ ciphertext, c.cipher.encrypt c.provider.encryptionKey iv.val clear = .ok ciphertext) ∧
      ∃ fault : CryptoError, (c.provider.authenticationKey.length < Mac.minKeyLength ∧
        fault = .invalidKeyLength Mac.minKeyLength c.provider.authenticationKey.length) ∧
        e = .cryptoConfiguration fault.message := by
  unfold issue
  rw [bind_eq_error_iff, Keys.configured_eq_error_iff, ← exists_and_right]
  refine or_congr_right (exists_congr fun ciphertext => ?_)
  rw [Keys.configured_eq_ok_iff, bind_eq_error_iff, Keys.configured_eq_error_iff]
  -- What the code says of the key, it says of every message.
  simp only [Mac.compute_eq_error_iff]
  refine and_congr_right fun _ => or_iff_left ?_
  rintro ⟨tag, -, h⟩
  cases h

theorem error_of_issue {clear : Bytes} {iv : Iv} {e : StateError}
    (h : c.issue clear iv now = .error e) : ∃ reason, e = .cryptoConfiguration reason := by
  rcases issue_eq_error_iff.1 h with ⟨fault, -, he⟩ | ⟨-, fault, -, he⟩
  · exact ⟨_, he⟩
  · exact ⟨_, he⟩

/-- A token is missing because something that it needs besides keys is, or
else for the keys. -/
theorem encode_eq_error_iff {e : StateError} :
    (c.encode now random v).1.result = .error e ↔ c.prepare random v = .error e ∨
      ∃ clear iv, c.prepare random v = .ok (clear, iv) ∧ c.issue clear iv now = .error e := by
  rw [encode_eq_prepare, bind_eq_error_iff, Prod.exists]

theorem exists_encode_iff :
    (∃ token, (c.encode now random v).1.result = .ok token) ↔ ∃ clear iv,
      c.prepare random v = .ok (clear, iv) ∧ clear.length ≤ Gcm.maxLength ∧ c.KeysFit := by
  rw [encode_eq_prepare]
  simp only [bind_eq_ok_iff, Prod.exists]
  constructor
  · rintro ⟨token, clear, iv, hprepare, hissue⟩
    obtain ⟨hfit, hlen⟩ := exists_issue_iff.1 ⟨token, hissue⟩
    exact ⟨clear, iv, hprepare, hlen, hfit⟩
  · rintro ⟨clear, iv, hprepare, hlen, hfit⟩
    obtain ⟨token, hissue⟩ := exists_issue_iff.2 ⟨hfit, hlen⟩
    exact ⟨token, clear, iv, hprepare, hissue⟩

theorem error_of_encode {e : StateError} (h : (c.encode now random v).1.result = .error e) :
    c.prepare random v = .error e ∨
      (∃ parts, c.prepare random v = .ok parts) ∧ ∃ reason, e = .cryptoConfiguration reason := by
  rcases encode_eq_error_iff.1 h with hprepare | ⟨clear, iv, hprepare, hissue⟩
  · exact .inl hprepare
  · exact .inr ⟨⟨(clear, iv), hprepare⟩, error_of_issue hissue⟩

/-- The value is not too long for the cipher, if it is serialized. -/
def Fits (c : Codec) {σ : Shape} (v : σ.Val) : Prop :=
  ∀ clear, c.serializer.serialize σ v = .ok clear → clear.length ≤ Gcm.maxLength

/-- Keys that fit have no part in the errors of encoding. -/
theorem encode_eq_error_iff_of_keysFit (hfit : c.KeysFit) (hv : c.Fits v) {e : StateError} :
    (c.encode now random v).1.result = .error e ↔ c.prepare random v = .error e := by
  rw [encode_eq_error_iff, or_iff_left]
  rintro ⟨clear, iv, hprepare, hissue⟩
  obtain ⟨clear', hclear, hrest⟩ := bind_eq_ok_iff.1 hprepare
  obtain ⟨iv', -, heq⟩ := bind_eq_ok_iff.1 hrest
  cases heq
  obtain ⟨token, htoken⟩ := exists_issue_iff.2 ⟨hfit, hv clear hclear⟩
  rw [htoken] at hissue
  cases hissue

/-- The one fails as the other does, and succeeds if the other does. -/
def FailsAs {α β : Type} (x : Except StateError α) (y : Except StateError β) : Prop :=
  (∀ e, x = .error e ↔ y = .error e) ∧ ((∃ a, x = .ok a) ↔ ∃ b, y = .ok b)

theorem failsAs_of_error_iff {α β : Type} {x : Except StateError α} {y : Except StateError β}
    (h : ∀ e, x = .error e ↔ y = .error e) : FailsAs x y := by
  refine ⟨h, ?_⟩
  cases x with
  | error e => simp [(h e).1 rfl]
  | ok a =>
    cases y with
    | error e => cases (h e).2 rfl
    | ok b => simp

/-- Keys are found to have the right lengths when an edition is made of
them, or there is no edition. A codec that was made for one encodes every
value that is serialized and for which there is a draw; one with any other
keys encodes those values if its keys have the right lengths, and no value
if they have not. -/
theorem encode_fails_as_prepare :
    (∀ (tenantId : Bytes) (cipher : Cipher) (mac : Mac) (keys : Keys),
      (∃ e, Edition.make tenantId cipher mac keys = .ok e) ↔
        keys.encryption.length = cipher.keyLength ∧ 32 ≤ keys.authentication.length) ∧
    (∀ (c : Codec) (now : Int64) (random : RandomSource) {σ : Shape} (v : σ.Val),
      c.Checked → c.Fits v →
        FailsAs (c.encode now random v).1.result (c.prepare random v) ∧
        ∀ name path,
          FailsAs (c.persist now random name path v).1.result (c.prepare random v)) ∧
    (∀ (c : Codec) (now : Int64) (random : RandomSource) {σ : Shape} (v : σ.Val),
      ((∃ token, (c.encode now random v).1.result = .ok token) ↔ ∃ clear iv,
        c.prepare random v = .ok (clear, iv) ∧ clear.length ≤ Gcm.maxLength ∧ c.KeysFit) ∧
      ∀ e, (c.encode now random v).1.result = .error e →
        c.prepare random v = .error e ∨
          (∃ parts, c.prepare random v = .ok parts) ∧
            ∃ reason, e = .cryptoConfiguration reason) := by
  refine ⟨?_, ?_, ?_⟩
  · intro tenantId cipher mac keys
    exact Edition.exists_make_iff
  · intro c now random σ v hchecked hv
    have hencode : ∀ e, (c.encode now random v).1.result = .error e ↔
        c.prepare random v = .error e :=
      fun e => encode_eq_error_iff_of_keysFit hchecked.keysFit hv
    refine ⟨failsAs_of_error_iff hencode, ?_⟩
    intro name path
    exact failsAs_of_error_iff fun e => persist_eq_error_iff.trans (hencode e)
  · intro c now random σ v
    exact ⟨exists_encode_iff, fun e => error_of_encode⟩

/-- A codec for the other cipher and the other code, whose keys are as short
as these allow: it fails with the draw, and not without it. With keys one
byte shorter there is no edition. -/
theorem encode_fails_as_prepare_sample :
    (∃ e c, Edition.make [0x7c] .aes128Gcm .hmacSha512
        ⟨List.replicate 16 0x11, List.replicate 32 0x22⟩ = .ok e ∧
      ofProvider e.provider = .ok c ∧
      (∃ token, (c.encode 0 sampleRandom sampleValue).1.result = .ok token) ∧
      (c.persist 0 (.cycle (.error (.cryptoConfiguration "entropy unavailable")) []) "flow" "/"
        sampleValue).1.result = .error (.cryptoConfiguration "entropy unavailable")) ∧
    ¬ ∃ e, Edition.make [0x7c] .aes128Gcm .hmacSha512
        ⟨List.replicate 16 0x11, List.replicate 31 0x22⟩ = .ok e := by
  obtain ⟨hmake, hchecked, -⟩ := encode_fails_as_prepare
  refine ⟨?_, fun h => absurd ((hmake ..).1 h) (by decide)⟩
  obtain ⟨e, he⟩ := (hmake [0x7c] .aes128Gcm .hmacSha512
    ⟨List.replicate 16 0x11, List.replicate 32 0x22⟩).2 (by decide)
  let c : Codec :=
    { provider := e.provider, cipher := e.cipher, mac := e.mac
      serializer := Serializer.json, timeout := defaultTimeout }
  have hc : ofProvider e.provider = .ok c := ofProvider_provider e
  have hfits : c.Fits sampleValue := by
    intro clear hclear
    rw [serialize_sampleValue] at hclear
    cases hclear
    decide
  obtain ⟨hencode, -⟩ := hchecked c 0 sampleRandom sampleValue (.ofEdition he hc) hfits
  obtain ⟨-, hpersist⟩ := hchecked c 0
    (.cycle (.error (.cryptoConfiguration "entropy unavailable")) []) sampleValue
    (.ofEdition he hc) hfits
  refine ⟨e, c, he, hc, hencode.2.2 ⟨_, rfl⟩, ?_⟩
  exact ((hpersist "flow" "/").1 _).2 rfl

end Codec

end SealedState
