/-
SealedState.Proofs.MacSeparation — the two message authentication codes are
never taken for one another.

A tag of HMAC-SHA256 has thirty-two bytes and a tag of HMAC-SHA512 has
sixty-four, whatever the key and the message are, and tags of different
lengths are never equal. So no tag of one code is right for the other, under
any key and for any message (`Mac.verify_ne_true_of_ne`), and a codec refuses
all tokens of a codec with the other code for their tag
(`decode_of_other_mac`): not for their form, which both share, and not for
anything behind the tag.

The codes are those of SPEC_FULL.md §4.4; the tag is checked in step 2 of
`decode` in §4.1.
-/
import SealedState.Proofs.StageTheorems

namespace SealedState

namespace Mac

variable {m m' : Mac} {key key' message message' tag : Bytes}

/-- The codes can be told by the length of their tags. -/
theorem outputLength_injective (h : m.outputLength = m'.outputLength) : m = m' := by
  cases m with
  | hmacSha256 =>
    cases m' with
    | hmacSha256 => rfl
    | hmacSha512 => cases h
  | hmacSha512 =>
    cases m' with
    | hmacSha256 => cases h
    | hmacSha512 => rfl

/-- A tag belongs to one code only. -/
theorem compute_ne_of_ne (hne : m ≠ m') (h : m.compute key message = .ok tag) :
    m'.compute key' message' ≠ .ok tag := by
  intro h'
  refine hne (outputLength_injective ?_)
  rw [← length_of_compute h, ← length_of_compute h']

theorem verify_ne_true_of_ne (hne : m ≠ m') (h : m.compute key message = .ok tag) :
    m'.verify key' message' tag ≠ .ok true := by
  rw [Ne, verify_eq_true_iff]
  exact compute_ne_of_ne hne h

end Mac

namespace Codec

variable {a b : Codec} {issuedAt now : Int64} {σ τ : Shape}

/-- The tokens of a codec are not authentic for any codec with the other
code, provided that this one has a key which is long enough to check them. -/
theorem decode_minted_of_other_mac (hne : a.mac ≠ b.mac)
    (hkey : Mac.minKeyLength ≤ b.provider.authenticationKey.length) (m : a.Minting) :
    b.decode now τ m.token = ⟨.error .authenticity, [.inauthentic]⟩ :=
  decode_of_stopsAt (.of_not_authentic m.parse_token hkey
    (Mac.compute_ne_of_ne hne m.authenticates))

/-- No tag of one code is right for the other, and a codec with one of the
codes finds every token of a codec with the other one not authentic, whatever
their keys, tenants, ciphers, serializers, lifetimes and clocks are. -/
theorem decode_of_other_mac (hne : a.mac ≠ b.mac) :
    (∀ key key' message message' tag, a.mac.compute key message = .ok tag →
      b.mac.verify key' message' tag ≠ .ok true) ∧
    (Mac.minKeyLength ≤ b.provider.authenticationKey.length →
      ∀ (issuedAt : Int64) (random : RandomSource) {σ : Shape} (v : σ.Val) (token : String),
        (a.encode issuedAt random v).1.result = .ok token → ∀ (now : Int64) (τ : Shape),
          b.decode now τ token = ⟨.error .authenticity, [.inauthentic]⟩) := by
  refine ⟨?_, ?_⟩
  · intro key key' message message' tag h
    exact Mac.verify_ne_true_of_ne hne h
  · intro hkey issuedAt random σ v token hencode now τ
    obtain ⟨m, rfl, -, -⟩ := exists_minting_of_encode hencode
    exact decode_minted_of_other_mac hne hkey m

/-- The sample with the other code and the same key. -/
def longSample : Codec :=
  { sample [] 900 with
    provider := { (sample [] 900).provider with authenticationId := Mac.hmacSha512.id }
    mac := .hmacSha512 }

/-- The codes are told apart under one key, both ways. -/
theorem decode_of_other_mac_sample :
    (∃ token, ((sample [] 900).encode 1000 sampleRandom sampleValue).1.result = .ok token ∧
      (longSample.decode 1000 .json token).result = .error .authenticity) ∧
    ¬ (sample [] 900).mac.verify (List.replicate 32 0x22) []
      (Hmac.tag Sha2.sha512 (List.replicate 32 0x22) []) = .ok true := by
  refine ⟨?_, ?_⟩
  · obtain ⟨token, hencode⟩ := exists_sample_token [] 900 1000
    have hne : (sample [] 900).mac ≠ longSample.mac := by decide
    obtain ⟨-, hrefused⟩ := decode_of_other_mac hne
    refine ⟨token, hencode, ?_⟩
    rw [hrefused (Nat.le_refl 32) 1000 sampleRandom sampleValue token hencode 1000 .json]
  · have hne : longSample.mac ≠ (sample [] 900).mac := by decide
    have htag : longSample.mac.compute (List.replicate 32 0x22) []
        = .ok (Hmac.tag Sha2.sha512 (List.replicate 32 0x22) []) :=
      Mac.compute_eq_ok_iff.2 ⟨Nat.le_refl 32, rfl⟩
    obtain ⟨hverify, -⟩ := decode_of_other_mac hne
    exact hverify _ _ [] [] _ htag

end Codec

end SealedState
