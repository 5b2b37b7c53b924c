/-
SealedState.Proofs.RoundTrip — what one codec encodes, another one reads.

Two codecs that agree on keys, algorithms, tenant and serializer need not
be one: the lifetimes may differ, and so may the clocks. The token of the
first is expired for the second, or gives back what the serializer makes
of its own bytes; no stage in between refuses it, whatever the bytes of
the tenant, the vector, the text and the time (`decode_of_encode`). The
same holds of the cookie that carries the token.

This is the round trip of SPEC_FULL.md §10, and its expiry.
-/
import SealedState.Proofs.StageTheorems

namespace SealedState

/-- The value is read back from the bytes that are written for it. -/
def Serializer.RoundTrips (s : Serializer) {σ : Shape} (v : σ.Val) : Prop :=
  ∃ clear, s.serialize σ v = .ok clear ∧ s.deserialize σ clear = .ok v

namespace Codec

/-- The codecs share keys, algorithms, tenant and serializer. -/
structure Agree (a b : Codec) : Prop extends SignsAlike a b where
  cipher : a.cipher = b.cipher
  encryptionKey : a.provider.encryptionKey = b.provider.encryptionKey
  tenantId : a.provider.tenantId = b.provider.tenantId
  serializer : a.serializer = b.serializer

/-- What comes of a value that was sealed at a time: past its lifetime the
notice that it is expired, and before that what the serializer reads in the
bytes that it wrote. -/
def reopened (c : Codec) (issuedAt now : Int64) {σ : Shape} (v : σ.Val) (τ : Shape) :
    Except StateError τ.Val :=
  if min lastTime (issuedAt.toInt + min (c.timeout.toNat : Int) lastTime) < now.toInt then
    .error (.expired issuedAt c.timeout)
  else do
    let clear ← c.serializer.serialize σ v
    c.serializer.deserialize τ clear

variable {a b : Codec} {issuedAt now : Int64} {σ τ : Shape}

/-! ## Reading a minted token -/

/-- No stage refuses a token of a codec that agrees, unless it is expired. -/
theorem decode_token (h : Agree a b) (m : a.Minting) :
    (b.decode now τ m.token).result =
      if isExpired m.issuedAt b.timeout now then .error (.expired m.issuedAt b.timeout)
      else b.serializer.deserialize τ m.clear := by
  have htag := h.authentic_parsed m
  cases hlive : isExpired m.issuedAt b.timeout now with
  | true =>
    rw [if_pos rfl]
    exact decode_eq_error_iff.2 ⟨_, .lifetime m.parse_token htag hlive, rfl⟩
  | false =>
    rw [if_neg Bool.false_ne_true]
    refine decode_of_passes ⟨m.parse_token, htag, hlive, h.tenantId, m.iv.property⟩ ?_
    -- the ciphertext was made with the key of the first codec
    rw [← h.cipher, ← h.encryptionKey]
    exact Cipher.decrypt_eq_ok_iff.2 m.encrypts

theorem reopened_eq {c : Codec} {v : σ.Val} {clear : Bytes}
    (h : c.serializer.serialize σ v = .ok clear) :
    c.reopened issuedAt now v τ =
      if isExpired issuedAt c.timeout now then .error (.expired issuedAt c.timeout)
      else c.serializer.deserialize τ clear := by
  simp only [reopened, h, ok_bind, isExpired_eq_true_iff]

/-- A value on which the serializer round-trips comes back while it is
alive. -/
theorem reopened_of_live {c : Codec} {v : σ.Val} (hvalue : c.serializer.RoundTrips v)
    (hlive : isExpired issuedAt c.timeout now = false) :
    c.reopened issuedAt now v σ = .ok v := by
  obtain ⟨clear, hwrite, hread⟩ := hvalue
  rw [reopened_eq hwrite, hlive, if_neg Bool.false_ne_true, hread]

/-! ## Round trip -/

theorem decode_encoded (h : Agree a b) {random : RandomSource} {v : σ.Val} {token : String}
    (hencode : (a.encode issuedAt random v).1.result = .ok token) :
    (b.decode now τ token).result = b.reopened issuedAt now v τ := by
  obtain ⟨m, rfl, rfl, hclear⟩ := exists_minting_of_encode hencode
  have hserialize : b.serializer.serialize σ v = .ok m.clear := by
    rw [← h.serializer]
    exact hclear
  rw [decode_token h m, reopened_eq hserialize]

theorem restore_persisted (h : Agree a b) {random : RandomSource} {v : σ.Val}
    {name path : String} {cookie : Cookie}
    (hpersist : (a.persist issuedAt random name path v).1.result = .ok cookie) :
    (b.restore now τ cookie).result = b.reopened issuedAt now v τ := by
  obtain ⟨token, hencode, rfl⟩ := persist_eq_ok_iff.1 hpersist
  exact decode_encoded h hencode

/-- What a codec encodes or persists is reopened by every codec that agrees
with it. -/
theorem decode_of_encode (h : Agree a b) (issuedAt now : Int64) (random : RandomSource)
    {σ : Shape} (v : σ.Val) :
    (∀ token, (a.encode issuedAt random v).1.result = .ok token →
      ∀ τ, (b.decode now τ token).result = b.reopened issuedAt now v τ) ∧
    (∀ name path cookie, (a.persist issuedAt random name path v).1.result = .ok cookie →
      ∀ τ, (b.restore now τ cookie).result = b.reopened issuedAt now v τ) ∧
    (b.serializer.RoundTrips v → isExpired issuedAt b.timeout now = false →
      b.reopened issuedAt now v σ = .ok v) := by
  refine ⟨?_, ?_, reopened_of_live⟩
  · intro token hencode τ
    exact decode_encoded h hencode
  · intro name path cookie hpersist τ
    exact restore_persisted h hpersist

/-- A token that was made for fifteen minutes is read with a lifetime of
one: it is alive in the last second of it and expired in the next. -/
theorem decode_of_encode_sample : ∃ token,
    ((sample [0x7c] 900).encode 1000 sampleRandom sampleValue).1.result = .ok token ∧
    ((sample [0x7c] 60).decode 1060 .json token).result = .ok sampleValue ∧
    ((sample [0x7c] 60).decode 1061 .json token).result = .error (.expired 1000 60) := by
  have hagree : Agree (sample [0x7c] 900) (sample [0x7c] 60) :=
    { mac := rfl, authenticationKey := rfl, cipher := rfl, encryptionKey := rfl
      tenantId := rfl, serializer := rfl }
  obtain ⟨token, hencode⟩ := exists_sample_token [0x7c] 900 1000
  obtain ⟨hlast, -, hlive⟩ := decode_of_encode hagree 1000 1060 sampleRandom sampleValue
  obtain ⟨hnext, -, -⟩ := decode_of_encode hagree 1000 1061 sampleRandom sampleValue
  refine ⟨token, hencode, ?_, ?_⟩
  · rw [hlast token hencode]
    exact hlive ⟨sampleClear, serialize_sampleValue, deserialize_sampleClear⟩ (by decide)
  · rw [hnext token hencode, reopened, if_pos (by decide)]
    rfl

end Codec

end SealedState
