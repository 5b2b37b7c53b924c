/-
SealedState.Proofs.Acceptance — the texts that a codec gives a value for.

They are the minted tokens that are alive and whose clear text the
serializer reads, and no others (`decode_eq_ok_iff_minted`). So whoever
makes a codec accept a text has the ciphertext and the tag that the two
keys give, and has written each of the five fields in its one form; the
time of issue alone may be written in more than one.

In SPEC_FULL.md §4.1, `decode` is specified step by step; here is what all of
its steps come to.
-/
import SealedState.Proofs.StageTheorems

namespace SealedState.Codec

variable {c : Codec} {now : Int64} {σ : Shape}

/-! ## Minted tokens are read -/

theorem decode_minted (m : c.Minting) (hlive : isExpired m.issuedAt c.timeout now = false) :
    (c.decode now σ m.token).result = c.serializer.deserialize σ m.clear := by
  have hpasses : c.Passes now m.token m.parsed :=
    { form := m.parse_token
      tag := m.authenticates
      live := hlive
      tenantId := rfl
      iv := m.iv.property }
  exact decode_of_passes hpasses (Cipher.decrypt_eq_ok_iff.2 m.encrypts)

/-! ## What is read is minted -/

/-- A token that passes all checks and has a ciphertext that decrypts is
minted. -/
theorem exists_minting_of_passes {text : String} {t : Token} {clear : Bytes}
    (h : c.Passes now text t)
    (hclear : c.cipher.decrypt c.provider.encryptionKey t.iv t.ciphertext = .ok clear) :
    ∃ m : c.Minting, m.token = text ∧ m.issuedAt = t.issuedAt ∧ m.clear = clear := by
  obtain ⟨time, hdecimal, hsigned, htext⟩ := Token.parse_eq_ok_iff.1 h.form
  rw [h.tenantId] at hsigned
  let m : c.Minting :=
    { clear, time
      iv := ⟨t.iv, h.iv⟩
      issuedAt := t.issuedAt
      decimal := hdecimal
      ciphertext := t.ciphertext
      encrypts := Cipher.decrypt_eq_ok_iff.1 hclear
      tag := t.tag
      authenticates := by rw [← hsigned, h.tag] }
  refine ⟨m, ?_, rfl, rfl⟩
  rw [htext, hsigned]
  rfl

/-- A codec gives a value for a text if and only if the text is a minted
token, alive, in whose clear text the serializer reads the value. -/
theorem decode_eq_ok_iff_minted {text : String} {v : σ.Val} :
    (c.decode now σ text).result = .ok v ↔ ∃ m : c.Minting, text = m.token ∧
      isExpired m.issuedAt c.timeout now = false ∧
      c.serializer.deserialize σ m.clear = .ok v := by
  constructor
  · intro h
    obtain ⟨t, clear, hpasses, hclear, hvalue⟩ := decode_eq_ok_iff.1 h
    obtain ⟨m, htoken, hissuedAt, rfl⟩ := exists_minting_of_passes hpasses hclear
    refine ⟨m, htoken.symm, ?_, hvalue⟩
    rw [hissuedAt, hpasses.live]
  · rintro ⟨m, rfl, hlive, hvalue⟩
    rw [decode_minted m hlive, hvalue]

end SealedState.Codec
