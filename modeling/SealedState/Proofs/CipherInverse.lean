/-
SealedState.Proofs.CipherInverse — what encrypting gives, and that
decrypting takes exactly this back.

A text within the limit is encrypted if the key and the initialisation
vector have the right lengths, and a wrong length of the key is reported
first (`encrypt_eq_error_iff`). The result is as much longer than the text
as a tag is. Since a sealed text is its masked text with the one tag that
belongs to it (`seal_eq_append_iff`), no other tag opens the masked text
(`decrypt_of_other_tag`), and what is shorter than a tag opens never
(`decrypt_of_short`). `decrypt_inverts_encrypt` holds all of this together
with the equivalence of `decrypt_eq_ok_iff`.

The ciphers are those of SPEC_FULL.md §4.4.
-/
import SealedState.Proofs.CipherTheorems

namespace SealedState

/-! ## Sealed texts -/

/-- A sealed text ends in the tag of the masked text before it. -/
theorem Gcm.seal_eq_append_iff {s : Setup} {text masked tag : Bytes}
    (htag : tag.length = tagLength) :
    s.seal text = masked ++ tag ↔ s.masked text = masked ∧ tag = s.tag masked := by
  constructor
  · intro h
    have hlength : (s.tag (s.masked text)).length = tag.length := by
      rw [length_tag, htag]
      rfl
    obtain ⟨rfl, rfl⟩ := List.append_inj' h hlength
    exact ⟨rfl, rfl⟩
  · rintro ⟨rfl, rfl⟩
    rfl

namespace Cipher

variable {c : Cipher} {key iv text sealed : Bytes} {fault : CryptoError}

/-! ## Lengths -/

/-- The length of the key is looked at first. -/
theorem setup_eq_error_iff : c.setup key iv = .error fault ↔
    (key.length ≠ c.keyLength ∧ fault = .invalidKeyLength c.keyLength key.length) ∨
    (key.length = c.keyLength ∧ iv.length ≠ ivLength ∧
      fault = .invalidIvLength ivLength iv.length) := by
  unfold setup
  by_cases hkey : key.length = c.keyLength
  · by_cases hiv : iv.length = ivLength
    · simp [hkey, hiv]
    · simp [hkey, hiv, eq_comm]
  · simp [hkey, eq_comm]

/-- A text within the limit is encrypted unless a length is wrong. -/
theorem encrypt_eq_error_iff (hlen : text.length ≤ Gcm.maxLength) :
    c.encrypt key iv text = .error fault ↔
      (key.length ≠ c.keyLength ∧ fault = .invalidKeyLength c.keyLength key.length) ∨
      (key.length = c.keyLength ∧ iv.length ≠ ivLength ∧
        fault = .invalidIvLength ivLength iv.length) := by
  have hseal : ∀ s : Gcm.Setup, (if text.length ≤ Gcm.maxLength then return s.seal text
      else throw (.encryptionFailed "aead::Error")) ≠ Except.error fault := by
    intro s h
    rw [if_pos hlen] at h
    cases h
  unfold encrypt
  rw [bind_eq_error_iff, setup_eq_error_iff, or_iff_left]
  rintro ⟨s, -, h⟩
  exact hseal s h

/-- Whether a text is encrypted, and why not, is a matter of its length. -/
theorem encrypt_eq_error_congr {text' : Bytes} (hlength : text.length = text'.length) :
    c.encrypt key iv text = .error fault ↔ c.encrypt key iv text' = .error fault := by
  unfold encrypt
  rw [bind_eq_error_iff, bind_eq_error_iff, hlength]
  refine or_congr_right (exists_congr fun s => and_congr_right fun _ => ?_)
  split
  · exact iff_of_false nofun nofun
  · rfl

theorem exists_encrypt_iff (hlen : text.length ≤ Gcm.maxLength) :
    (∃ sealed, c.encrypt key iv text = .ok sealed) ↔
      key.length = c.keyLength ∧ iv.length = ivLength := by
  constructor
  · rintro ⟨sealed, h⟩
    obtain ⟨hkey, hiv, -⟩ := encrypt_eq_ok_iff.1 h
    exact ⟨hkey, hiv⟩
  · rintro ⟨hkey, hiv⟩
    exact ⟨_, encrypt_eq_ok_iff.2 ⟨hkey, hiv, hlen, rfl⟩⟩

theorem length_of_encrypt (h : c.encrypt key iv text = .ok sealed) :
    sealed.length = text.length + Gcm.tagLength := by
  obtain ⟨-, -, -, rfl⟩ := encrypt_eq_ok_iff.1 h
  exact Gcm.length_seal _ _

/-! ## What does not open -/

/-- A masked text opens under its own tag only. -/
theorem decrypt_of_other_tag {masked tag other : Bytes}
    (h : c.encrypt key iv text = .ok (masked ++ tag)) (htag : tag.length = Gcm.tagLength)
    (hlength : other.length = Gcm.tagLength) (hne : other ≠ tag) :
    c.decrypt key iv (masked ++ other) = .error (.decryptionFailed "aead::Error") := by
  obtain ⟨hkey, hiv, -, hseal⟩ := encrypt_eq_ok_iff.1 h
  obtain ⟨-, hright⟩ := (Gcm.seal_eq_append_iff htag).1 hseal.symm
  refine (decrypt_eq_error_iff hkey hiv).2 ⟨rfl, fun text' h' => hne ?_⟩
  obtain ⟨-, -, -, hseal'⟩ := encrypt_eq_ok_iff.1 h'
  obtain ⟨-, hother⟩ := (Gcm.seal_eq_append_iff hlength).1 hseal'.symm
  rw [hother, hright]

/-- What is shorter than a tag is no sealed text. -/
theorem decrypt_of_short (hkey : key.length = c.keyLength) (hiv : iv.length = ivLength)
    (hshort : sealed.length < Gcm.tagLength) :
    c.decrypt key iv sealed = .error (.decryptionFailed "aead::Error") := by
  refine (decrypt_eq_error_iff hkey hiv).2 ⟨rfl, fun text h => ?_⟩
  have hlength := length_of_encrypt h
  omega

/-! ## Both directions -/

/-- With a key and an initialisation vector of the right lengths, and only
with these, a text within the limit is encrypted, to a result that is
sixteen bytes longer; the key is complained about first. What decrypts to a
text is what it encrypts to, so no two byte strings decrypt to one text. A
result under another tag does not decrypt, nor does what is shorter than a
tag. -/
theorem decrypt_inverts_encrypt (c : Cipher) (key iv : Bytes) :
    (∀ text : Bytes, text.length ≤ Gcm.maxLength →
      ((∃ sealed, c.encrypt key iv text = .ok sealed) ↔
        key.length = c.keyLength ∧ iv.length = 16) ∧
      ∀ fault, c.encrypt key iv text = .error fault ↔
        (key.length ≠ c.keyLength ∧ fault = .invalidKeyLength c.keyLength key.length) ∨
        (key.length = c.keyLength ∧ iv.length ≠ 16 ∧ fault = .invalidIvLength 16 iv.length)) ∧
    (∀ text sealed : Bytes, c.encrypt key iv text = .ok sealed →
      sealed.length = text.length + 16) ∧
    (∀ text sealed : Bytes, c.decrypt key iv sealed = .ok text ↔
      c.encrypt key iv text = .ok sealed) ∧
    (∀ sealed other text : Bytes, c.decrypt key iv sealed = .ok text →
      c.decrypt key iv other = .ok text → sealed = other) ∧
    (∀ text masked tag other : Bytes, c.encrypt key iv text = .ok (masked ++ tag) →
      tag.length = 16 → other.length = 16 → other ≠ tag →
      c.decrypt key iv (masked ++ other) = .error (.decryptionFailed "aead::Error")) ∧
    (key.length = c.keyLength → iv.length = 16 → ∀ sealed : Bytes, sealed.length < 16 →
      c.decrypt key iv sealed = .error (.decryptionFailed "aead::Error")) := by
  refine ⟨fun text hlen => ⟨exists_encrypt_iff hlen, fun fault => encrypt_eq_error_iff hlen⟩,
    fun text sealed => length_of_encrypt, fun text sealed => decrypt_eq_ok_iff, ?_,
    fun text masked tag other => decrypt_of_other_tag,
    fun hkey hiv sealed => decrypt_of_short hkey hiv⟩
  intro sealed other text h h'
  have hsealed := decrypt_eq_ok_iff.1 h
  rw [decrypt_eq_ok_iff.1 h', Except.ok.injEq] at hsealed
  exact hsealed.symm

/-- A text of one block and one byte. The key is too short for the other
cipher, which is said before anything is said of the initialisation
vector. -/
theorem decrypt_inverts_encrypt_sample :
    ∃ masked tag : Bytes, masked.length = 17 ∧ tag.length = 16 ∧
      aes128Gcm.encrypt (List.replicate 16 0x11) (List.replicate 16 0x33) (List.replicate 17 0x61)
        = .ok (masked ++ tag) ∧
      aes128Gcm.decrypt (List.replicate 16 0x11) (List.replicate 16 0x33) (masked ++ tag)
        = .ok (List.replicate 17 0x61) ∧
      (∀ other : Bytes, other.length = 16 → other ≠ tag →
        aes128Gcm.decrypt (List.replicate 16 0x11) (List.replicate 16 0x33) (masked ++ other)
          = .error (.decryptionFailed "aead::Error")) ∧
      aes128Gcm.decrypt (List.replicate 16 0x11) (List.replicate 16 0x33) (List.replicate 15 0)
        = .error (.decryptionFailed "aead::Error") ∧
      aes256Gcm.encrypt (List.replicate 16 0x11) (List.replicate 12 0x33) (List.replicate 17 0x61)
        = .error (.invalidKeyLength 32 16) := by
  obtain ⟨hencrypt, hlength, hinverse, -, htags, hshort⟩ :=
    decrypt_inverts_encrypt aes128Gcm (List.replicate 16 0x11) (List.replicate 16 0x33)
  have hmax : (List.replicate 17 (0x61 : UInt8)).length ≤ Gcm.maxLength := by decide
  obtain ⟨sealed, hsealed⟩ := (hencrypt _ hmax).1.2 ⟨rfl, rfl⟩
  have hall : sealed.length = 33 := hlength _ _ hsealed
  obtain ⟨masked, tag, rfl, hmasked, htag⟩ : ∃ masked tag : Bytes, sealed = masked ++ tag ∧
      masked.length = 17 ∧ tag.length = 16 := by
    refine ⟨sealed.take 17, sealed.drop 17, (List.take_append_drop 17 sealed).symm, ?_, ?_⟩
    · rw [List.length_take, hall]
      rfl
    · rw [List.length_drop, hall]
  have hother := (decrypt_inverts_encrypt aes256Gcm (List.replicate 16 0x11)
    (List.replicate 12 0x33)).1 _ hmax
  refine ⟨masked, tag, hmasked, htag, hsealed, (hinverse _ _).2 hsealed,
    fun other => htags _ _ _ _ hsealed htag, hshort rfl rfl _ (by decide), ?_⟩
  exact (hother.2 _).2 (.inl ⟨by decide, rfl⟩)

end Cipher

end SealedState
