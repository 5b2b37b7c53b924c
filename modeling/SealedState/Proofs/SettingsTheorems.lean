/-
SealedState.Proofs.SettingsTheorems — settings build exactly the codec
they describe.

`WellFormed` says of the texts of settings, without any reader, that each
of them stands for something. An edition, and with it a codec, is made of
the settings that are well-formed and have a secret that is long enough
(`edition_eq_ok_iff`). The keys that are cut from a derived one always
have the lengths that the algorithms need (`exists_make_derived`), so no
later stage fails.

These are `edition` and `build` of SPEC_FULL.md §6.
-/
import SealedState.Proofs.HexSpellings
import SealedState.Proofs.KeyChecks
import SealedState.Proofs.RoundTrip
import SealedState.Settings

namespace SealedState

namespace Keys

/-- The keys that a secret gives if it is long enough. -/
def ofSecret (secret : Bytes) : Keys where
  encryption := Hkdf.expand (Hkdf.extract salt secret) encryptionLabel derivedLength
  authentication := Hkdf.expand (Hkdf.extract salt secret) authenticationLabel derivedLength

theorem derive_eq (secret : Bytes) : derive secret =
    if secret.length < minSecretLength then
      .error (.cryptoConfiguration ("master secret must be at least "
        ++ Nat.repr minSecretLength ++ " bytes, got " ++ Nat.repr secret.length))
    else .ok (ofSecret secret) := by
  have hlength : derivedLength ≤ Hkdf.maxLength := by decide
  rw [derive]
  by_cases h : secret.length < minSecretLength
  · rw [if_pos h, if_pos h]
    rfl
  · rw [if_neg h, if_neg h, Hkdf.derive, if_pos hlength, Hkdf.derive, if_pos hlength]
    rfl

/-- A derived key is as long as the longest key of a cipher. -/
theorem keyLength_le_ofSecret (secret : Bytes) (c : Cipher) :
    c.keyLength ≤ (ofSecret secret).encryption.length := by
  rw [ofSecret, Hkdf.length_expand]
  cases c <;> decide

/-- The keys of a cipher: the first bytes of the derived key. -/
def cut (secret : Bytes) (cipher : Cipher) : Keys :=
  { ofSecret secret with encryption := (ofSecret secret).encryption.take cipher.keyLength }

theorem length_cut_encryption (secret : Bytes) (cipher : Cipher) :
    (cut secret cipher).encryption.length = cipher.keyLength := by
  rw [cut, List.length_take, Nat.min_eq_left (keyLength_le_ofSecret secret cipher)]

theorem le_length_cut_authentication (secret : Bytes) (cipher : Cipher) :
    Mac.minKeyLength ≤ (cut secret cipher).authentication.length := by
  rw [cut, ofSecret, Hkdf.length_expand]
  decide

/-- The longest key is not cut. -/
theorem cut_aes256Gcm (secret : Bytes) : cut secret .aes256Gcm = ofSecret secret := by
  have hlength : (ofSecret secret).encryption.length = Cipher.aes256Gcm.keyLength :=
    Hkdf.length_expand _ _ _
  rw [cut, List.take_of_length_le (Nat.le_of_eq hlength)]

end Keys

/-- The edition with keys that were cut from a derived one. -/
def Edition.derived (tenantId secret : Bytes) (cipher : Cipher) (mac : Mac) : Edition where
  tenantId := tenantId
  cipher := cipher
  mac := mac
  keys := Keys.cut secret cipher
  length_encryption := Keys.length_cut_encryption secret cipher
  le_length_authentication := Keys.le_length_cut_authentication secret cipher

theorem Edition.make_cut (tenantId secret : Bytes) (cipher : Cipher) (mac : Mac) :
    Edition.make tenantId cipher mac (Keys.cut secret cipher)
      = .ok (Edition.derived tenantId secret cipher mac) := by
  rw [make, dif_pos (Keys.length_cut_encryption secret cipher),
    dif_pos (Keys.le_length_cut_authentication secret cipher)]
  rfl

theorem Cipher.ofId_eq_ok_iff {id : String} {c : Cipher} : ofId id = .ok c ↔ id = c.id := by
  constructor
  · intro h
    rw [ofId] at h
    split at h
    · cases h
      assumption
    split at h
    · cases h
      assumption
    · cases h
  · rintro rfl
    exact ofId_id c

theorem Mac.ofId_eq_ok_iff {id : String} {m : Mac} : ofId id = .ok m ↔ id = m.id := by
  constructor
  · intro h
    rw [ofId] at h
    split at h
    · cases h
      assumption
    split at h
    · cases h
      assumption
    · cases h
  · rintro rfl
    exact ofId_id m

namespace Settings

theorem configured_eq_ok_iff {α : Type} {r : Except CryptoError α} {place : String} {x : α} :
    configured r place = .ok x ↔ r = .ok x := by
  cases r <;> simp [configured]

/-! ## What settings stand for -/

/-- What the texts of settings stand for. -/
structure Reading where
  tenantId : Bytes
  secret : Bytes
  cipher : Cipher
  mac : Mac

/-- The texts of settings are those of a reading. -/
structure Reads (s : Settings) (r : Reading) : Prop where
  tenantId : Hex.decode s.tenantId = .ok r.tenantId
  secret : s.secret = Base64url.encode r.secret
  cipher : s.encryptionAlgorithm = r.cipher.id
  mac : s.authenticationAlgorithm = r.mac.id

/-- Every text of the settings is in its form: the tenant an even number of
hexadecimal digits, the secret canonical base64url, and the algorithms
known. -/
structure WellFormed (s : Settings) : Prop where
  tenantId : Hex.IsSpelling s.tenantId
  secret : Base64url.Canonical s.secret.toList
  cipher : ∃ c : Cipher, s.encryptionAlgorithm = c.id
  mac : ∃ m : Mac, s.authenticationAlgorithm = m.id

/-- Settings that are well-formed have a reading. -/
theorem wellFormed_iff {s : Settings} : s.WellFormed ↔ ∃ r, s.Reads r := by
  constructor
  · rintro ⟨htenant, hsecret, ⟨cipher, hcipher⟩, ⟨mac, hmac⟩⟩
    obtain ⟨tenantId, htenant⟩ := Hex.exists_decode_iff.2 htenant
    obtain ⟨secret, hsecret⟩ := Base64url.exists_decode_iff_canonical.2 hsecret
    exact ⟨⟨tenantId, secret, cipher, mac⟩, htenant, Base64url.decode_eq_ok_iff.1 hsecret,
      hcipher, hmac⟩
  · rintro ⟨r, htenant, hsecret, hcipher, hmac⟩
    exact ⟨Hex.exists_decode_iff.1 ⟨_, htenant⟩,
      Base64url.exists_decode_iff_canonical.1 ⟨_, Base64url.decode_eq_ok_iff.2 hsecret⟩,
      ⟨_, hcipher⟩, ⟨_, hmac⟩⟩

/-- What holds of the secret of a reading is said of the text in which it is
spelled. -/
theorem exists_reads_iff {s : Settings} {P : Bytes → Prop} : (∃ r, s.Reads r ∧ P r.secret) ↔
    s.WellFormed ∧ ∃ secret, s.secret = Base64url.encode secret ∧ P secret := by
  constructor
  · rintro ⟨r, hr, hp⟩
    exact ⟨wellFormed_iff.2 ⟨r, hr⟩, r.secret, hr.secret, hp⟩
  · rintro ⟨hform, secret, hsecret, hp⟩
    obtain ⟨r, hr⟩ := wellFormed_iff.1 hform
    have hread := Base64url.decode_eq_ok_iff.2 hsecret
    rw [Base64url.decode_eq_ok_iff.2 hr.secret] at hread
    cases hread
    exact ⟨r, hr, hp⟩

/-- The edition of settings that have a reading. -/
theorem edition_of_reads {s : Settings} {r : Reading} (h : s.Reads r) : s.edition =
    if r.secret.length < Keys.minSecretLength then
      .error (.cryptoConfiguration ("master secret must be at least "
        ++ Nat.repr Keys.minSecretLength ++ " bytes, got " ++ Nat.repr r.secret.length))
    else .ok (Edition.derived r.tenantId r.secret r.cipher r.mac) := by
  have htenant : s.tenantBytes = .ok r.tenantId := by
    simp only [tenantBytes, h.tenantId]
  have hsecret : configured (Base64url.decode s.secret) "secret: " = .ok r.secret :=
    configured_eq_ok_iff.2 (Base64url.decode_eq_ok_iff.2 h.secret)
  have hcipher : configured (Cipher.ofId s.encryptionAlgorithm) "" = .ok r.cipher :=
    configured_eq_ok_iff.2 (Cipher.ofId_eq_ok_iff.2 h.cipher)
  have hmac : configured (Mac.ofId s.authenticationAlgorithm) "" = .ok r.mac :=
    configured_eq_ok_iff.2 (Mac.ofId_eq_ok_iff.2 h.mac)
  rw [edition, htenant, hsecret, hcipher, hmac]
  simp only [ok_bind, Keys.derive_eq]
  split
  · rfl
  · exact Edition.make_cut _ _ _ _

/-- Settings without a reading are refused as settings. -/
theorem error_of_not_reads {s : Settings} (h : ¬ ∃ r, s.Reads r) :
    ∃ reason, s.edition = .error (.configuration reason) := by
  -- the texts are looked at in this order; the first that fails is reported
  cases htenant : Hex.decode s.tenantId with
  | error fault =>
    refine ⟨"tenant_id: " ++ fault.message, ?_⟩
    rw [edition, tenantBytes, htenant]
    rfl
  | ok tenantId =>
    have hbytes : s.tenantBytes = .ok tenantId := by simp only [tenantBytes, htenant]
    rw [edition, hbytes, ok_bind]
    cases hsecret : Base64url.decode s.secret with
    | error fault => exact ⟨_, rfl⟩
    | ok secret =>
      rw [configured, ok_bind]
      cases hcipher : Cipher.ofId s.encryptionAlgorithm with
      | error fault => exact ⟨_, rfl⟩
      | ok cipher =>
        rw [configured, ok_bind]
        cases hmac : Mac.ofId s.authenticationAlgorithm with
        | error fault => exact ⟨_, rfl⟩
        | ok mac =>
          exact absurd ⟨⟨tenantId, secret, cipher, mac⟩, htenant,
            Base64url.decode_eq_ok_iff.1 hsecret, Cipher.ofId_eq_ok_iff.1 hcipher,
            Mac.ofId_eq_ok_iff.1 hmac⟩ h

/-! ## The codec -/

/-- The codec for an edition with a lifetime. -/
def codecOf (e : Edition) (timeout : UInt64) : Codec where
  provider := e.provider
  cipher := e.cipher
  mac := e.mac
  serializer := Serializer.json
  timeout := timeout

/-- No codec fails that is built for an edition. -/
theorem build_eq (s : Settings) : s.build = s.edition >>= fun e => .ok (codecOf e s.timeout) := by
  rw [build]
  simp only [Codec.ofProvider_provider]
  rfl

theorem build_eq_ok_iff {s : Settings} {c : Codec} :
    s.build = .ok c ↔ ∃ e, s.edition = .ok e ∧ c = codecOf e s.timeout := by
  rw [build_eq, bind_eq_ok_iff]
  simp only [Except.ok.injEq, eq_comm]

theorem build_eq_error_iff {s : Settings} {e : StateError} :
    s.build = .error e ↔ s.edition = .error e := by
  rw [build_eq, bind_eq_error_iff, or_iff_left]
  rintro ⟨_, -, h⟩
  cases h

/-- An edition is made of settings with a reading whose secret is long
enough. -/
theorem edition_eq_ok_iff {s : Settings} {e : Edition} : s.edition = .ok e ↔ ∃ r, s.Reads r ∧
    32 ≤ r.secret.length ∧ e = Edition.derived r.tenantId r.secret r.cipher r.mac := by
  constructor
  · intro h
    by_cases hreads : ∃ r, s.Reads r
    · obtain ⟨r, hr⟩ := hreads
      rw [edition_of_reads hr] at h
      split at h
      · cases h
      · rename_i hlong
        cases h
        exact ⟨r, hr, Nat.le_of_not_lt hlong, rfl⟩
    · obtain ⟨reason, herror⟩ := error_of_not_reads hreads
      rw [herror] at h
      cases h
  · rintro ⟨r, hr, hlong, rfl⟩
    have hlong : ¬ r.secret.length < Keys.minSecretLength := Nat.not_lt.2 hlong
    rw [edition_of_reads hr, if_neg hlong]

/-! ## Variants of settings -/

/-- The settings differ in the case of letters of the tenant and in the
lifetime, if at all. -/
structure Variant (s other : Settings) : Prop where
  tenantId : other.tenantId.toList.map Char.toLower = s.tenantId.toList.map Char.toLower
  secret : other.secret = s.secret
  encryptionAlgorithm : other.encryptionAlgorithm = s.encryptionAlgorithm
  authenticationAlgorithm : other.authenticationAlgorithm = s.authenticationAlgorithm

theorem Variant.reads {s other : Settings} (h : Variant s other) {r : Reading} (hr : s.Reads r) :
    other.Reads r where
  tenantId := Hex.decode_of_toLower_eq hr.tenantId h.tenantId
  secret := h.secret.trans hr.secret
  cipher := h.encryptionAlgorithm.trans hr.cipher
  mac := h.authenticationAlgorithm.trans hr.mac

theorem Variant.edition {s other : Settings} (h : Variant s other) {e : Edition}
    (he : s.edition = .ok e) : other.edition = .ok e := by
  obtain ⟨r, hr, hlong, rfl⟩ := edition_eq_ok_iff.1 he
  exact edition_eq_ok_iff.2 ⟨r, h.reads hr, hlong, rfl⟩

theorem agree_codecOf (e : Edition) (first second : UInt64) :
    Codec.Agree (codecOf e first) (codecOf e second) :=
  { mac := rfl, authenticationKey := rfl, cipher := rfl, encryptionKey := rfl, tenantId := rfl
    serializer := rfl }

/-! ## What settings build -/

theorem exists_build_iff {s : Settings} :
    (∃ c, s.build = .ok c) ↔ ∃ e, s.edition = .ok e := by
  constructor
  · rintro ⟨c, hc⟩
    obtain ⟨e, he, -⟩ := build_eq_ok_iff.1 hc
    exact ⟨e, he⟩
  · rintro ⟨e, he⟩
    exact ⟨_, build_eq_ok_iff.2 ⟨e, he, rfl⟩⟩

theorem exists_edition_iff {s : Settings} : (∃ e, s.edition = .ok e) ↔ s.WellFormed ∧
    ∃ secret, s.secret = Base64url.encode secret ∧ 32 ≤ secret.length := by
  rw [← exists_reads_iff (P := fun secret => 32 ≤ secret.length)]
  constructor
  · rintro ⟨e, he⟩
    obtain ⟨r, hr, hlong, -⟩ := edition_eq_ok_iff.1 he
    exact ⟨r, hr, hlong⟩
  · rintro ⟨r, hr, hlong⟩
    exact ⟨_, edition_eq_ok_iff.2 ⟨r, hr, hlong, rfl⟩⟩

/-- A short secret is all that is wrong with settings that are not
refused as such. -/
theorem edition_eq_cryptoConfiguration_iff {s : Settings} :
    (∃ reason, s.edition = .error (.cryptoConfiguration reason)) ↔ s.WellFormed ∧
      ∃ secret, s.secret = Base64url.encode secret ∧ secret.length < 32 := by
  rw [← exists_reads_iff (P := fun secret => secret.length < 32)]
  constructor
  · rintro ⟨reason, h⟩
    by_cases hreads : ∃ r, s.Reads r
    · obtain ⟨r, hr⟩ := hreads
      rw [edition_of_reads hr] at h
      split at h
      · rename_i hshort
        exact ⟨r, hr, hshort⟩
      · cases h
    · obtain ⟨reason', herror⟩ := error_of_not_reads hreads
      rw [herror] at h
      cases h
  · rintro ⟨r, hr, hshort⟩
    have hshort : r.secret.length < Keys.minSecretLength := hshort
    exact ⟨_, by rw [edition_of_reads hr, if_pos hshort]⟩

theorem edition_eq_configuration_iff {s : Settings} :
    (∃ reason, s.edition = .error (.configuration reason)) ↔ ¬ s.WellFormed := by
  rw [wellFormed_iff]
  constructor
  · rintro ⟨reason, h⟩ ⟨r, hr⟩
    rw [edition_of_reads hr] at h
    split at h <;> cases h
  · exact error_of_not_reads

/-- Keys that are cut from derived ones fit, and algorithms that have a
name are known. -/
theorem exists_make_derived {tenantId secret : Bytes} {cipher : Cipher} {mac : Mac} {derived : Keys}
    (h : Keys.derive secret = .ok derived) : ∃ e c, Edition.make tenantId cipher mac
      { derived with encryption := derived.encryption.take cipher.keyLength } = .ok e ∧
      Codec.ofProvider e.provider = .ok c := by
  rw [Keys.derive_eq] at h
  split at h
  · cases h
  · cases h
    exact ⟨_, _, Edition.make_cut tenantId secret cipher mac, Codec.ofProvider_provider _⟩

/-- Where the cipher takes the whole of a derived key, the codec is the one
that is made by hand of what the texts stand for. -/
theorem exists_byHand {s : Settings} {e : Edition} (he : s.edition = .ok e)
    (hcipher : s.encryptionAlgorithm = Cipher.aes256Gcm.id) :
    ∃ tenantId secret mac keys byHand, Hex.decode s.tenantId = .ok tenantId ∧
      Base64url.decode s.secret = .ok secret ∧ Mac.ofId s.authenticationAlgorithm = .ok mac ∧
      Keys.derive secret = .ok keys ∧ Edition.make tenantId .aes256Gcm mac keys = .ok e ∧
      Codec.ofProvider e.provider = .ok byHand ∧
      codecOf e s.timeout = byHand.withTimeout s.timeout := by
  obtain ⟨r, hr, hlong, rfl⟩ := edition_eq_ok_iff.1 he
  have hcipher : r.cipher = .aes256Gcm :=
    Except.ok.inj ((Cipher.ofId_eq_ok_iff.2 hr.cipher).symm.trans
      (Cipher.ofId_eq_ok_iff.2 hcipher))
  have hderive : Keys.derive r.secret = .ok (Keys.ofSecret r.secret) := by
    rw [Keys.derive_eq]
    exact if_neg (Nat.not_lt.2 hlong)
  have hmake := Edition.make_cut r.tenantId r.secret .aes256Gcm r.mac
  rw [Keys.cut_aes256Gcm] at hmake
  rw [hcipher]
  exact ⟨r.tenantId, r.secret, r.mac, Keys.ofSecret r.secret, _, hr.tenantId,
    Base64url.decode_eq_ok_iff.2 hr.secret, Mac.ofId_eq_ok_iff.2 hr.mac, hderive, hmake,
    Codec.ofProvider_provider _, rfl⟩

/-- Settings are accepted if every text is in its form and the secret is
long enough, and refused with an error that tells a short secret from all
other faults; keys that were derived give an edition and a codec. The codec
has the lifetime of the settings and, with the cipher that takes the whole
of a derived key, is the one made by hand. Settings that differ in the case
of hexadecimal letters and in the lifetime only read each other's tokens,
and the lifetime of those that read decides. -/
theorem build_as_described :
    (∀ s : Settings,
      ((∃ c, s.build = .ok c) ↔ ∃ e, s.edition = .ok e) ∧
      ((∃ e, s.edition = .ok e) ↔ s.WellFormed ∧
        ∃ secret, s.secret = Base64url.encode secret ∧ 32 ≤ secret.length) ∧
      (∀ e, s.build = .error e ↔ s.edition = .error e) ∧
      ((∃ reason, s.edition = .error (.cryptoConfiguration reason)) ↔ s.WellFormed ∧
        ∃ secret, s.secret = Base64url.encode secret ∧ secret.length < 32) ∧
      ((∃ reason, s.edition = .error (.configuration reason)) ↔ ¬ s.WellFormed)) ∧
    (∀ (tenantId : Bytes) (cipher : Cipher) (mac : Mac) (secret : Bytes) (derived : Keys),
      Keys.derive secret = .ok derived → ∃ e c, Edition.make tenantId cipher mac
        { derived with encryption := derived.encryption.take cipher.keyLength } = .ok e ∧
        Codec.ofProvider e.provider = .ok c) ∧
    (∀ (s : Settings) (c : Codec), s.build = .ok c → c.timeout = s.timeout ∧
      (s.encryptionAlgorithm = Cipher.aes256Gcm.id → ∃ tenantId secret mac keys e byHand,
        Hex.decode s.tenantId = .ok tenantId ∧ Base64url.decode s.secret = .ok secret ∧
        Mac.ofId s.authenticationAlgorithm = .ok mac ∧ Keys.derive secret = .ok keys ∧
        Edition.make tenantId .aes256Gcm mac keys = .ok e ∧
        Codec.ofProvider e.provider = .ok byHand ∧ c = byHand.withTimeout s.timeout)) ∧
    (∀ (s other : Settings) (c : Codec), Variant s other → s.build = .ok c →
      ∃ c', other.build = .ok c' ∧ c'.timeout = other.timeout ∧
        ∀ (issuedAt now : Int64) (random : RandomSource) {σ : Shape} (v : σ.Val) (token : String),
          (c.encode issuedAt random v).1.result = .ok token →
          ∀ τ, (c'.decode now τ token).result = c'.reopened issuedAt now v τ) := by
  refine ⟨fun s => ⟨exists_build_iff, exists_edition_iff, fun e => build_eq_error_iff,
    edition_eq_cryptoConfiguration_iff, edition_eq_configuration_iff⟩,
    fun tenantId cipher mac secret derived => exists_make_derived, ?_, ?_⟩
  · intro s c hc
    obtain ⟨e, he, rfl⟩ := build_eq_ok_iff.1 hc
    refine ⟨rfl, fun hcipher => ?_⟩
    obtain ⟨tenantId, secret, mac, keys, byHand, hmade⟩ := exists_byHand he hcipher
    exact ⟨tenantId, secret, mac, keys, e, byHand, hmade⟩
  · intro s other c hvariant hc
    obtain ⟨e, he, rfl⟩ := build_eq_ok_iff.1 hc
    refine ⟨codecOf e other.timeout, build_eq_ok_iff.2 ⟨e, hvariant.edition he, rfl⟩, rfl, ?_⟩
    intro issuedAt now random σ v token htoken τ
    exact Codec.decode_encoded (agree_codecOf e s.timeout other.timeout) htoken

/-- Settings with a secret of some bytes. -/
def sampleSettings (tenantId : String) (secret : Bytes) (timeout : UInt64) : Settings where
  tenantId := tenantId
  secret := Base64url.encode secret
  timeout := timeout
  encryptionAlgorithm := Cipher.standard.id
  authenticationAlgorithm := Mac.standard.id

/-- Capital letters and a shorter lifetime make no other keys; a secret of
31 bytes is too short. -/
theorem build_as_described_sample :
    (∃ c c', (sampleSettings "7c" (List.replicate 32 0x42) 900).build = .ok c ∧
      (sampleSettings "7C" (List.replicate 32 0x42) 60).build = .ok c' ∧ c'.timeout = 60 ∧
      ∀ token, (c.encode 1000 Codec.sampleRandom Codec.sampleValue).1.result = .ok token →
        (c'.decode 1061 .json token).result = .error (.expired 1000 60)) ∧
    ∃ reason, (sampleSettings "7c" (List.replicate 31 0x42) 900).edition
      = .error (.cryptoConfiguration reason) := by
  have hform : ∀ secret timeout, (sampleSettings "7c" secret timeout).WellFormed := by
    intro secret timeout
    have htenant : Hex.IsSpelling "7c" := by decide
    exact ⟨htenant, Base64url.canonical_iff.2 ⟨secret, String.toList_ofList⟩,
      ⟨.standard, rfl⟩, ⟨.standard, rfl⟩⟩
  obtain ⟨hsettings, -, -, hvariants⟩ := build_as_described
  obtain ⟨hbuild, hedition, -, hshort, -⟩ :=
    hsettings (sampleSettings "7c" (List.replicate 32 0x42) 900)
  obtain ⟨c, hc⟩ := hbuild.2 (hedition.2 ⟨hform _ _, _, rfl, by decide⟩)
  obtain ⟨c', hc', htimeout, hread⟩ := hvariants
    (sampleSettings "7c" (List.replicate 32 0x42) 900)
    (sampleSettings "7C" (List.replicate 32 0x42) 60) c ⟨by decide, rfl, rfl, rfl⟩ hc
  refine ⟨⟨c, c', hc, hc', htimeout, fun token htoken => ?_⟩,
    (hsettings _).2.2.2.1.2 ⟨hform _ _, _, rfl, by decide⟩⟩
  have htimeout : c'.timeout = 60 := htimeout
  rw [hread 1000 1061 Codec.sampleRandom Codec.sampleValue token htoken, Codec.reopened, htimeout,
    if_pos (by decide)]

end Settings

end SealedState
