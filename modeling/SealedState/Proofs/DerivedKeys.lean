/-
SealedState.Proofs.DerivedKeys — outputs of one derivation are beginnings
of each other, and so are the keys of settings.

More blocks begin with fewer (`Hkdf.exists_blocks_append`), and the length
that is asked for only says where the blocks are cut, so a shorter output
is the beginning of a longer one (`Hkdf.take_expand`). A key that settings
cut from a derived one is therefore what a derivation of its own length
gives (`Keys.derive_cut_encryption`), whatever the cipher.

The derivation of keys from one secret is that of SPEC_FULL.md §4.3
(`KeySource`) and §6.
-/
import SealedState.Proofs.SettingsTheorems

namespace SealedState

namespace Hkdf

variable {input salt label out : Bytes} {length shorter : Nat}

/-! ## Blocks -/

/-- The first blocks do not depend on how many follow. -/
theorem exists_blocks_append (key label : Bytes) (n m : Nat) : ∀ (index : Nat) (previous : Bytes),
    ∃ more, blocks key label (n + m) index previous
      = blocks key label n index previous ++ more := by
  induction n with
  | zero =>
    intro index previous
    exact ⟨blocks key label (0 + m) index previous, rfl⟩
  | succ n ih =>
    intro index previous
    -- the next block is made of the one before it, which is the same on both sides
    obtain ⟨more, hmore⟩ := ih (index + 1)
      (Hmac.tag Sha2.sha256 key (previous ++ label ++ [UInt8.ofNat index]))
    refine ⟨more, ?_⟩
    rw [Nat.add_right_comm, blocks, blocks, hmore]
    exact (List.append_assoc _ _ _).symm

/-- A shorter output is the beginning of a longer one. -/
theorem take_expand (key label : Bytes) (h : shorter ≤ length) :
    (expand key label length).take shorter = expand key label shorter := by
  have h32 : blockLength = 32 := rfl
  obtain ⟨m, hm⟩ : ∃ m, (length + blockLength - 1) / blockLength
      = (shorter + blockLength - 1) / blockLength + m :=
    Nat.exists_eq_add_of_le (Nat.div_le_div_right (by omega))
  obtain ⟨more, hmore⟩ := exists_blocks_append key label
    ((shorter + blockLength - 1) / blockLength) m 1 []
  have hlength : shorter
      ≤ (blocks key label ((shorter + blockLength - 1) / blockLength) 1 []).length := by
    rw [length_blocks, h32]
    omega
  rw [expand, hm, hmore, List.take_take, Nat.min_eq_left h, List.take_append_of_le_length hlength,
    expand]

/-! ## Derivations -/

theorem derive_eq_ok_iff : derive input salt label length = .ok out ↔
    length ≤ maxLength ∧ out = expand (extract salt input) label length := by
  unfold derive
  split
  · rename_i hle
    simp [hle, eq_comm]
  · rename_i hlt
    simp [hlt]

theorem exists_derive_iff :
    (∃ out, derive input salt label length = .ok out) ↔ length ≤ maxLength := by
  constructor
  · rintro ⟨out, h⟩
    exact (derive_eq_ok_iff.1 h).1
  · intro h
    exact ⟨_, derive_eq_ok_iff.2 ⟨h, rfl⟩⟩

theorem length_of_derive (h : derive input salt label length = .ok out) : out.length = length := by
  obtain ⟨-, rfl⟩ := derive_eq_ok_iff.1 h
  exact length_expand _ _ _

theorem derive_take (h : derive input salt label length = .ok out) (hle : shorter ≤ length) :
    derive input salt label shorter = .ok (out.take shorter) := by
  obtain ⟨hmax, rfl⟩ := derive_eq_ok_iff.1 h
  exact derive_eq_ok_iff.2 ⟨Nat.le_trans hle hmax, take_expand _ _ hle⟩

end Hkdf

/-! ## Keys -/

namespace Keys

/-- The key that is cut for a cipher is one that is derived in its length. -/
theorem derive_cut_encryption (secret : Bytes) (cipher : Cipher) :
    Hkdf.derive secret salt encryptionLabel cipher.keyLength
      = .ok (cut secret cipher).encryption := by
  have hle : cipher.keyLength ≤ derivedLength := by cases cipher <;> decide
  have hderive : Hkdf.derive secret salt encryptionLabel derivedLength
      = .ok (ofSecret secret).encryption := Hkdf.derive_eq_ok_iff.2 ⟨by decide, rfl⟩
  exact Hkdf.derive_take hderive hle

theorem derive_cut_authentication (secret : Bytes) (cipher : Cipher) :
    Hkdf.derive secret salt authenticationLabel derivedLength
      = .ok (cut secret cipher).authentication :=
  Hkdf.derive_eq_ok_iff.2 ⟨by decide, rfl⟩

/-- The key of one cipher begins with the key of the other. -/
theorem cut_aes128Gcm_prefix (secret : Bytes) :
    (cut secret .aes128Gcm).encryption <+: (cut secret .aes256Gcm).encryption := by
  rw [cut_aes256Gcm, cut]
  exact List.take_prefix _ _

end Keys

namespace Settings

variable {s other : Settings} {e e' : Edition} {secret : Bytes}

/-- The keys of an edition are those cut from its secret. -/
theorem keys_of_edition (h : s.edition = .ok e) (hsecret : Base64url.decode s.secret = .ok secret) :
    32 ≤ secret.length ∧ e.keys = Keys.cut secret e.cipher := by
  obtain ⟨r, hr, hlong, rfl⟩ := edition_eq_ok_iff.1 h
  rw [Base64url.decode_eq_ok_iff.2 hr.secret, Except.ok.injEq] at hsecret
  subst hsecret
  exact ⟨hlong, rfl⟩

/-- The same settings but for the cipher. -/
def withCipher (s : Settings) (cipher : Cipher) : Settings :=
  { s with encryptionAlgorithm := cipher.id }

theorem exists_edition_withCipher (hform : s.WellFormed)
    (hsecret : Base64url.decode s.secret = .ok secret) (hlong : 32 ≤ secret.length)
    (cipher : Cipher) : ∃ e, (s.withCipher cipher).edition = .ok e ∧ e.cipher = cipher := by
  obtain ⟨r, hr⟩ := wellFormed_iff.1 hform
  have hread := Base64url.decode_eq_ok_iff.2 hr.secret
  rw [hsecret, Except.ok.injEq] at hread
  subst hread
  have hreads : (s.withCipher cipher).Reads { r with cipher := cipher } :=
    { tenantId := hr.tenantId, secret := hr.secret, cipher := rfl, mac := hr.mac }
  exact ⟨_, edition_eq_ok_iff.2 ⟨_, hreads, hlong, rfl⟩, rfl⟩

/-- A derivation gives up to 8160 bytes, as many as are asked for, and of
two that differ in nothing but the length the shorter is the beginning of
the longer. So the keys of settings are derivations of their own length: the
key for the shorter cipher is no other than the one derived in sixteen
bytes, the key for the longer cipher goes on behind it, and the
authentication key does not depend on the cipher. A secret of 32 bytes
gives them for both ciphers. -/
theorem keys_are_derivations :
    (∀ (input salt label : Bytes) (length : Nat),
      ((∃ out, Hkdf.derive input salt label length = .ok out) ↔ length ≤ 8160) ∧
      ∀ out, Hkdf.derive input salt label length = .ok out → out.length = length ∧
        ∀ shorter ≤ length, Hkdf.derive input salt label shorter = .ok (out.take shorter)) ∧
    (∀ (s : Settings) (e : Edition) (secret : Bytes), s.edition = .ok e →
      Base64url.decode s.secret = .ok secret →
      Hkdf.derive secret Keys.salt Keys.encryptionLabel e.cipher.keyLength
        = .ok e.keys.encryption ∧
      Hkdf.derive secret Keys.salt Keys.authenticationLabel 32 = .ok e.keys.authentication ∧
      (e.cipher = .aes128Gcm →
        Hkdf.derive secret Keys.salt Keys.encryptionLabel 16 = .ok e.keys.encryption)) ∧
    (∀ (s other : Settings) (e e' : Edition), s.edition = .ok e → other.edition = .ok e' →
      s.secret = other.secret → e.keys.authentication = e'.keys.authentication ∧
        (e.cipher = .aes128Gcm → e'.cipher = .aes256Gcm →
          e.keys.encryption <+: e'.keys.encryption)) ∧
    (∀ (s : Settings) (secret : Bytes), s.WellFormed → Base64url.decode s.secret = .ok secret →
      32 ≤ secret.length → ∀ cipher, ∃ e, (s.withCipher cipher).edition = .ok e ∧
        e.cipher = cipher) := by
  refine ⟨?_, ?_, ?_, fun s secret => exists_edition_withCipher⟩
  · intro input salt label length
    exact ⟨Hkdf.exists_derive_iff, fun out h =>
      ⟨Hkdf.length_of_derive h, fun shorter hle => Hkdf.derive_take h hle⟩⟩
  · intro s e secret he hsecret
    obtain ⟨-, hkeys⟩ := keys_of_edition he hsecret
    have hencryption := Keys.derive_cut_encryption secret e.cipher
    rw [hkeys]
    refine ⟨hencryption, Keys.derive_cut_authentication secret e.cipher, fun hcipher => ?_⟩
    rw [hcipher] at hencryption ⊢
    exact hencryption
  · intro s other e e' he he' hsame
    obtain ⟨r, hr, hlong, -⟩ := edition_eq_ok_iff.1 he
    have hsecret := Base64url.decode_eq_ok_iff.2 hr.secret
    obtain ⟨-, hkeys⟩ := keys_of_edition he hsecret
    obtain ⟨-, hkeys'⟩ := keys_of_edition he' (hsame ▸ hsecret)
    rw [hkeys, hkeys']
    refine ⟨rfl, fun hshort hlong => ?_⟩
    rw [hshort, hlong]
    exact Keys.cut_aes128Gcm_prefix r.secret

/-- The longest output and one byte more, and the editions of one secret
for both ciphers. -/
theorem keys_are_derivations_sample :
    (∃ out, Hkdf.derive [0x0b] [] [] 8160 = .ok out ∧ out.length = 8160 ∧
      Hkdf.derive [0x0b] [] [] 33 = .ok (out.take 33)) ∧
    (¬ ∃ out, Hkdf.derive [0x0b] [] [] 8161 = .ok out) ∧
    ∃ short long, ((sampleSettings "7c" (List.replicate 32 0x42) 900).withCipher .aes128Gcm).edition
        = .ok short ∧
      ((sampleSettings "7c" (List.replicate 32 0x42) 900).withCipher .aes256Gcm).edition
        = .ok long ∧
      Hkdf.derive (List.replicate 32 0x42) Keys.salt Keys.encryptionLabel 16
        = .ok short.keys.encryption ∧
      short.keys.encryption <+: long.keys.encryption ∧
      short.keys.authentication = long.keys.authentication := by
  obtain ⟨hderive, hkeys, hpair, hexists⟩ := keys_are_derivations
  obtain ⟨out, hout⟩ := (hderive [0x0b] [] [] 8160).1.2 (by decide)
  obtain ⟨hlength, hshorter⟩ := (hderive [0x0b] [] [] 8160).2 out hout
  have htenant : Hex.IsSpelling "7c" := by decide
  have hform : (sampleSettings "7c" (List.replicate 32 0x42) 900).WellFormed :=
    ⟨htenant, Base64url.canonical_iff.2 ⟨_, String.toList_ofList⟩, ⟨.standard, rfl⟩,
      ⟨.standard, rfl⟩⟩
  have hsecret : Base64url.decode (sampleSettings "7c" (List.replicate 32 0x42) 900).secret
      = .ok (List.replicate 32 0x42) := Base64url.decode_eq_ok_iff.2 rfl
  obtain ⟨short, hshort, hcipher⟩ := hexists _ _ hform hsecret (by decide) .aes128Gcm
  obtain ⟨long, hlong, hcipher'⟩ := hexists _ _ hform hsecret (by decide) .aes256Gcm
  obtain ⟨hauthentication, hprefix⟩ := hpair _ _ _ _ hshort hlong rfl
  refine ⟨⟨out, hout, hlength, hshorter 33 (by decide)⟩, ?_, short, long, hshort, hlong,
    (hkeys _ _ _ hshort hsecret).2.2 hcipher, hprefix hcipher hcipher', hauthentication⟩
  exact fun h => absurd ((hderive [0x0b] [] [] 8161).1.1 h) (by decide)

end Settings

end SealedState
