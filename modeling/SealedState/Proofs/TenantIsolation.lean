/-
SealedState.Proofs.TenantIsolation — tenants that share keys do not read
each other's states.

The tenant is one of the four fields under the tag, and it is looked at
before anything is decrypted. A token that passes the tag of a codec of
another tenant is expired for it or comes from the wrong tenant, and the
refusal names the two (`decode_of_other_tenant`); as hexadecimal tells all
byte strings apart, the two names are never one.

This is the tenant isolation of SPEC_FULL.md §10; the tenant is step 4 of
`decode` in §4.1.
-/
import SealedState.Proofs.HexTheorems
import SealedState.Proofs.StageTheorems

namespace SealedState.Codec

variable {a b : Codec} {issuedAt now : Int64} {σ τ : Shape}

/-- The refusal of a token of one codec by the codec of another tenant. -/
def foreign (a b : Codec) (issuedAt now : Int64) : StateError :=
  if isExpired issuedAt b.timeout now then .expired issuedAt b.timeout
  else .tenantMismatch (Hex.encode a.provider.tenantId) (Hex.encode b.provider.tenantId)

/-- The call stops at the lifetime or at the tenant. -/
theorem decode_token_of_other_tenant (h : SignsAlike a b)
    (hne : a.provider.tenantId ≠ b.provider.tenantId) (m : a.Minting) :
    (b.decode now τ m.token).result = .error (foreign a b m.issuedAt now) := by
  have htag := h.authentic_parsed m
  unfold foreign
  cases hlive : isExpired m.issuedAt b.timeout now with
  | true =>
    rw [if_pos rfl]
    exact decode_eq_error_iff.2 ⟨_, .lifetime m.parse_token htag hlive, rfl⟩
  | false =>
    rw [if_neg Bool.false_ne_true]
    exact decode_eq_error_iff.2 ⟨_, .tenant m.parse_token htag hlive hne, rfl⟩

/-- What a codec encodes is refused by every codec of another tenant with
the same way of signing, whatever the two tenants are. -/
theorem decode_of_other_tenant (h : SignsAlike a b)
    (hne : a.provider.tenantId ≠ b.provider.tenantId) {random : RandomSource} {v : σ.Val}
    {token : String} (hencode : (a.encode issuedAt random v).1.result = .ok token) :
    (∀ (now : Int64) (τ : Shape),
      (b.decode now τ token).result = .error (foreign a b issuedAt now)) ∧
    Hex.encode a.provider.tenantId ≠ Hex.encode b.provider.tenantId ∧
    (StateError.tenantMismatch (Hex.encode a.provider.tenantId)
      (Hex.encode b.provider.tenantId)).isSecurityRelevant = true := by
  obtain ⟨m, rfl, rfl, -⟩ := exists_minting_of_encode hencode
  refine ⟨?_, ?_, rfl⟩
  · intro now τ
    exact decode_token_of_other_tenant h hne m
  · intro heq
    exact hne (Hex.encode_injective heq)

/-- The empty tenant and the one whose only byte is the separator. -/
theorem decode_of_other_tenant_sample : ∃ token,
    ((sample [] 900).encode 1000 sampleRandom sampleValue).1.result = .ok token ∧
    ((sample [0x7c] 900).decode 1900 .json token).result = .error (.tenantMismatch "" "7c") ∧
    ((sample [0x7c] 900).decode 1901 .json token).result = .error (.expired 1000 900) := by
  have halike : SignsAlike (sample [] 900) (sample [0x7c] 900) := ⟨rfl, rfl⟩
  have hne : (sample [] 900).provider.tenantId ≠ (sample [0x7c] 900).provider.tenantId :=
    (List.cons_ne_nil 0x7c []).symm
  obtain ⟨token, hencode⟩ := exists_sample_token [] 900 1000
  obtain ⟨hrefused, -, -⟩ := decode_of_other_tenant halike hne hencode
  refine ⟨token, hencode, ?_, ?_⟩
  · rw [hrefused 1900 .json]
    rfl
  · rw [hrefused 1901 .json]
    rfl

end SealedState.Codec
