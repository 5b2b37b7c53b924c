/-
SealedState.Proofs.CipherTheorems — decrypting is the inverse of
encrypting, and a tag is right when it is the one that is computed.

`Cipher.decrypt_eq_ok_iff` states the first for texts of every length:
what decrypts to a text is what the text encrypts to under the same key
and initialisation vector, and nothing else. It rests on
`Gcm.open?_eq_some_iff` and on the two limits on lengths, which agree. All
else fails to decrypt, and where the lengths are right it fails in one way
(`Cipher.decrypt_eq_error_iff`).

`Mac.verify_eq_true_iff` states the second.

The ciphers and codes are those of SPEC_FULL.md §4.4 (`encrypt`, `decrypt`,
`compute_mac`, `verify_mac`).
-/
import SealedState.Crypto.Cipher
import SealedState.Crypto.Mac
import SealedState.Proofs.ResultTheorems

namespace SealedState

/-! ## Galois/counter mode -/

namespace Gcm

theorem open?_eq_some_iff {s : Setup} {sealed text : Bytes} :
    s.open? sealed = some text ↔ sealed = s.seal text := by
  constructor
  · exact seal_of_open
  · rintro rfl
    exact open_seal s text

@[simp] theorem length_seal (s : Setup) (text : Bytes) :
    (s.seal text).length = text.length + tagLength := by
  rw [Setup.seal, List.length_append, length_masked, length_tag]
  rfl

end Gcm

/-! ## Ciphers -/

namespace Cipher

variable {c : Cipher} {key iv text sealed : Bytes}

theorem setup_eq_ok_iff {s : Gcm.Setup} : c.setup key iv = .ok s ↔
    key.length = c.keyLength ∧ iv.length = ivLength ∧ s = Gcm.setup key iv := by
  unfold setup
  split
  · rename_i hkey
    simp [hkey]
  · rename_i hkey
    split
    · rename_i hiv
      simp [hiv]
    · rename_i hiv
      simp only [Except.ok.injEq, Decidable.not_not.1 hkey, Decidable.not_not.1 hiv, true_and]
      exact eq_comm

theorem encrypt_eq_ok_iff : c.encrypt key iv text = .ok sealed ↔
    key.length = c.keyLength ∧ iv.length = ivLength ∧ text.length ≤ Gcm.maxLength ∧
      sealed = (Gcm.setup key iv).seal text := by
  unfold encrypt
  simp only [bind_eq_ok_iff, setup_eq_ok_iff]
  constructor
  · rintro ⟨s, ⟨hkey, hiv, rfl⟩, h⟩
    split at h
    · rename_i hlen
      cases h
      exact ⟨hkey, hiv, hlen, rfl⟩
    · cases h
  · rintro ⟨hkey, hiv, hlen, rfl⟩
    refine ⟨_, ⟨hkey, hiv, rfl⟩, ?_⟩
    rw [if_pos hlen]
    rfl

/-- What decrypts to a text is what the text encrypts to. -/
theorem decrypt_eq_ok_iff : c.decrypt key iv sealed = .ok text ↔
    c.encrypt key iv text = .ok sealed := by
  rw [encrypt_eq_ok_iff]
  unfold decrypt
  simp only [bind_eq_ok_iff, setup_eq_ok_iff]
  constructor
  · rintro ⟨s, ⟨hkey, hiv, rfl⟩, h⟩
    split at h
    · cases h
    · rename_i hlen
      split at h
      · rename_i found hopen
        cases h
        have hseal := Gcm.open?_eq_some_iff.1 hopen
        rw [hseal, Gcm.length_seal] at hlen
        exact ⟨hkey, hiv, by omega, hseal⟩
      · cases h
  · rintro ⟨hkey, hiv, hlen, rfl⟩
    have hopen : (Gcm.setup key iv).open? ((Gcm.setup key iv).seal text) = some text :=
      Gcm.open?_eq_some_iff.2 rfl
    refine ⟨_, ⟨hkey, hiv, rfl⟩, ?_⟩
    rw [Gcm.length_seal, if_neg (by omega)]
    simp only [hopen]
    rfl

/-- With a key and an initialisation vector of the right lengths decrypting
fails in one way, and only for what no text encrypts to. -/
theorem decrypt_eq_error_iff (hkey : key.length = c.keyLength) (hiv : iv.length = ivLength)
    {fault : CryptoError} : c.decrypt key iv sealed = .error fault ↔
      fault = .decryptionFailed "aead::Error" ∧ ∀ text, c.encrypt key iv text ≠ .ok sealed := by
  cases hresult : c.decrypt key iv sealed with
  | ok text =>
    have hseal := decrypt_eq_ok_iff.1 hresult
    constructor
    · intro h
      cases h
    · rintro ⟨-, hnone⟩
      exact absurd hseal (hnone text)
  | error fault' =>
    have hnone : ∀ text, c.encrypt key iv text ≠ .ok sealed := by
      intro text hseal
      rw [decrypt_eq_ok_iff.2 hseal] at hresult
      cases hresult
    have hfault : fault' = .decryptionFailed "aead::Error" := by
      unfold decrypt at hresult
      rw [setup_eq_ok_iff.2 ⟨hkey, hiv, rfl⟩, ok_bind] at hresult
      by_cases hlong : Gcm.maxLength + Gcm.tagLength < sealed.length
      · rw [if_pos hlong] at hresult
        cases hresult
        rfl
      · rw [if_neg hlong] at hresult
        cases hopen : (Gcm.setup key iv).open? sealed with
        | some text =>
          simp only [hopen] at hresult
          cases hresult
        | none =>
          simp only [hopen] at hresult
          cases hresult
          rfl
    rw [hfault, Except.error.injEq, eq_comm, and_iff_left hnone]

end Cipher

/-! ## Message authentication codes -/

namespace Mac

variable {m : Mac} {key message tag : Bytes}

theorem compute_eq_ok_iff : m.compute key message = .ok tag ↔
    minKeyLength ≤ key.length ∧ tag = Hmac.tag m.hash key message := by
  unfold compute
  split
  · rename_i hshort
    constructor
    · intro h
      cases h
    · rintro ⟨hle, -⟩
      omega
  · rename_i hlong
    constructor
    · intro h
      exact ⟨by omega, (Except.ok.inj h).symm⟩
    · rintro ⟨-, rfl⟩
      rfl

/-- Why there is no tag, is a matter of the key. -/
theorem compute_eq_error_iff {fault : CryptoError} : m.compute key message = .error fault ↔
    key.length < minKeyLength ∧ fault = .invalidKeyLength minKeyLength key.length := by
  unfold compute
  split
  · rename_i hshort
    simp [hshort, eq_comm]
  · rename_i hlong
    simp [hlong]

theorem verify_of_compute {right : Bytes} (h : m.compute key message = .ok right) :
    m.verify key message tag = .ok (right == tag) := by
  rw [verify, h]
  rfl

theorem verify_of_compute_error {fault : CryptoError} (h : m.compute key message = .error fault) :
    m.verify key message tag = .error fault := by
  rw [verify, h]
  rfl

theorem verify_eq_true_iff : m.verify key message tag = .ok true ↔
    m.compute key message = .ok tag := by
  constructor
  · intro h
    unfold verify at h
    obtain ⟨right, hright, heq⟩ := bind_eq_ok_iff.1 h
    have htag : (right == tag) = true := Except.ok.inj heq
    rw [hright, beq_iff_eq.1 htag]
  · intro h
    rw [verify_of_compute h, beq_self_eq_true]

end Mac

end SealedState
