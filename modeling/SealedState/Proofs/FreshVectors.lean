/-
SealedState.Proofs.FreshVectors — one fresh initialisation vector for each
token of a run.

A call takes a draw only when its value has been serialized, and then
exactly one. A draw that fails is the outcome of the call; one that succeeds
is the initialisation vector in the field of the token, and the one that its
ciphertext is the encryption under (`Entry.DrawsFrom`). As a source never
goes back, the tokens of a run hold different vectors wherever the draws are
different (`run_takes_fresh_draws`), also when the same value is encoded
twice at the same time.

SPEC_FULL.md §3 asks for a fresh vector on every encode, and §10 for vectors
that are never the same.
-/
import SealedState.Proofs.Runs

namespace SealedState

/-! ## The vector of a token -/

/-- The field of a token that holds the initialisation vector. -/
def Token.ivField? (token : String) : Option String :=
  ((splitAll separator token.toList)[3]?).map String.ofList

/-- The field of a token holds the initialisation vector, and its ciphertext
is the encryption of the clear text under this very vector. -/
structure Codec.SealsWith (c : Codec) (iv : Iv) (clear : Bytes) (token : String) : Prop where
  field : ∃ text, Token.ivField? token = some text ∧ Base64url.decode text = .ok iv.val
  ciphertext : ∃ t, Token.parse token = .ok t ∧ t.iv = iv.val ∧
    c.cipher.encrypt c.provider.encryptionKey iv.val clear = .ok t.ciphertext

theorem Token.ivField?_withTag_framed (ciphertext time tenantId iv tag : Bytes) :
    ivField? (withTag (framed ciphertext time tenantId iv) tag) = some (Base64url.encode iv) := by
  rw [ivField?, splitAll_withTag_framed]
  rfl

theorem Codec.sealsWith_of_issue {c : Codec} {clear : Bytes} {iv : Iv} {now : Int64}
    {token : String} (h : c.issue clear iv now = .ok token) : c.SealsWith iv clear token := by
  obtain ⟨ciphertext, tag, hseal, -, rfl⟩ := issue_eq_ok_iff.1 h
  rw [Token.signedText_eq_framed]
  exact
    { field := ⟨_, Token.ivField?_withTag_framed .., Base64url.decode_eq_ok_iff.2 rfl⟩
      ciphertext := ⟨_, Token.parse_withTag_framed (Token.decimal_timeText now), rfl, hseal⟩ }

/-- Tokens with one text in the field hold one vector. -/
theorem Codec.SealsWith.iv_inj {c c' : Codec} {iv iv' : Iv} {clear clear' : Bytes}
    {token token' : String} (h : c.SealsWith iv clear token) (h' : c'.SealsWith iv' clear' token')
    (hfield : Token.ivField? token = Token.ivField? token') : iv = iv' := by
  obtain ⟨text, htext, hread⟩ := h.field
  obtain ⟨text', htext', hread'⟩ := h'.field
  have heq : text = text' := Option.some.inj (by rw [← htext, ← htext', hfield])
  rw [heq, hread'] at hread
  exact Subtype.ext (Except.ok.inj hread).symm

/-! ## One call -/

/-- What a call does with the source of randomness that it meets. -/
structure Entry.DrawsFrom (e : Entry) (r : RandomSource) : Prop where
  meets : e.before.random = r
  /-- A call that decodes, or whose value is not serialized, takes no draw
  and gives no token. -/
  idle : e.clear? = none → e.after.random = r ∧ e.answer.token? = none
  /-- A call whose value is serialized takes one draw, whether or not it
  succeeds. -/
  draws : ∀ clear, e.clear? = some clear → e.after.random = r.skip 1
  /-- The error of a draw is the one of the call. -/
  fails : ∀ clear error, e.clear? = some clear → r.draw r.taken = .error error →
    e.answer.sealed? = some (.error error)
  /-- A token is sealed with the draw. -/
  holds : ∀ token, e.answer.token? = some token → ∃ clear iv, e.clear? = some clear ∧
    r.draw r.taken = .ok iv ∧ e.before.codec.SealsWith iv clear token

theorem Entry.drawsFrom (e : Entry) : e.DrawsFrom e.before.random where
  meets := rfl
  idle h := (Session.step_of_no_clear h).symm
  draws clear h := (Session.step_of_clear h).2
  fails clear error h hdraw := by
    refine (Session.step_of_clear h).1.trans ?_
    rw [Session.issueNext, hdraw]
    rfl
  holds token htoken := by
    cases hclear : e.clear? with
    | none =>
      obtain ⟨hno, -⟩ := Session.step_of_no_clear hclear
      cases htoken.symm.trans hno
    | some clear =>
      have hsealed := Answer.token?_eq_some_iff.1 htoken
      rw [Entry.answer, (Session.step_of_clear hclear).1, Option.some.injEq, Session.issueNext,
        bind_eq_ok_iff] at hsealed
      obtain ⟨iv, hdraw, hissue⟩ := hsealed
      exact ⟨clear, iv, rfl, hdraw, Codec.sealsWith_of_issue hissue⟩

/-! ## All calls of a run -/

/-- The next `n` draws are different, so far as they succeed. -/
def RandomSource.Fresh (r : RandomSource) (n : Nat) : Prop :=
  ∀ i j iv, i < n → j < n → r.draw (r.taken + i) = .ok iv → r.draw (r.taken + j) = .ok iv → i = j

namespace Session

variable {s : Session} {calls : List Call} {e : Entry} {token : String}

/-- A token of a run holds one of the draws that the run takes. -/
theorem draw_of_token (he : e ∈ s.trace calls) (htoken : e.answer.token? = some token) :
    ∃ i clear iv, i < (s.trace calls).countP Entry.serializes ∧
      e.before.random = s.random.skip i ∧ e.after.random = s.random.skip (i + 1) ∧
      s.random.draw (s.random.taken + i) = .ok iv ∧ e.before.codec.SealsWith iv clear token := by
  obtain ⟨earlier, later, htrace⟩ := List.append_of_mem he
  obtain ⟨clear, iv, hclear, hdraw, hseals⟩ := e.drawsFrom.holds token htoken
  have hserializes : e.serializes = true := by rw [Entry.serializes, hclear, Option.isSome_some]
  have hbefore := random_of_trace_eq htrace
  have hafter := e.drawsFrom.draws clear hclear
  rw [hbefore] at hdraw hafter
  refine ⟨earlier.countP Entry.serializes, clear, iv, ?_, hbefore, hafter, hdraw, hseals⟩
  rw [htrace, List.countP_append, List.countP_cons_of_pos hserializes]
  omega

/-- Where the draws are different, so are the fields of the tokens. -/
theorem nodup_ivFields (h : s.random.Fresh ((s.trace calls).countP Entry.serializes)) :
    ((s.tokens calls).map Token.ivField?).Nodup := by
  rw [List.nodup_iff_pairwise_ne, List.pairwise_map, tokens, List.pairwise_filterMap]
  -- a source never goes back: the earlier of two calls took the smaller number
  refine (trace_ordered s calls).imp_of_mem ?_
  intro e f he hf hordered token htoken token' htoken' hfield
  obtain ⟨i, _, iv, hi, -, hafter, hdraw, hseals⟩ := draw_of_token he htoken
  obtain ⟨j, _, iv', hj, hbefore, -, hdraw', hseals'⟩ := draw_of_token hf htoken'
  obtain rfl := hseals.iv_inj hseals' hfield
  obtain rfl := h i j iv hi hj hdraw hdraw'
  rw [hafter, hbefore] at hordered
  exact absurd hordered (by simp [RandomSource.skip])

/-- A run takes one draw for each call that serializes a value. Each of its
calls meets the source with the draws taken that the earlier calls took,
and takes one or none; its token is sealed with that draw. Where the draws
are different, no two tokens of the run share the field of their vector,
and no two are the same. -/
theorem run_takes_fresh_draws (s : Session) (calls : List Call) :
    (s.after calls).random = s.random.skip ((s.trace calls).countP Entry.serializes) ∧
    (∀ earlier e later, s.trace calls = earlier ++ e :: later →
      e.DrawsFrom (s.random.skip (earlier.countP Entry.serializes))) ∧
    (s.random.Fresh ((s.trace calls).countP Entry.serializes) →
      ((s.tokens calls).map Token.ivField?).Nodup ∧ (s.tokens calls).Nodup) := by
  refine ⟨after_random s calls, ?_, ?_⟩
  · intro earlier e later htrace
    rw [← random_of_trace_eq htrace]
    exact e.drawsFrom
  · intro hfresh
    have hfields := nodup_ivFields hfresh
    refine ⟨hfields, List.Pairwise.of_map Token.ivField? ?_ hfields⟩
    intro token token' hne heq
    exact hne (congrArg Token.ivField? heq)

/-- Draws the second of which fails. -/
def sampleDraws : RandomSource :=
  .cycle (.ok ⟨List.replicate 16 0x33, List.length_replicate⟩)
    [.error (.cryptoConfiguration "entropy unavailable"),
      .ok ⟨List.replicate 16 0x44, List.length_replicate⟩]

theorem fresh_sampleDraws : sampleDraws.Fresh 3 := by
  have hall : ∀ i j : Fin 3, (sampleDraws.draw i).toOption.isSome →
      (sampleDraws.draw i).toOption = (sampleDraws.draw j).toOption → i = j := by decide
  intro i j iv hi hj hdraw hdraw'
  rw [show sampleDraws.taken = 0 from rfl, Nat.zero_add] at hdraw hdraw'
  refine congrArg Fin.val (hall ⟨i, hi⟩ ⟨j, hj⟩ ?_ ?_)
  · rw [hdraw]
    rfl
  · rw [hdraw, hdraw']

def sample (random : RandomSource) : Session where
  codec := Codec.sample [] 900
  now := 0
  random := random

def sampleCall : Call := .encode .json Codec.sampleValue

theorem clear?_sampleCall (random : RandomSource) :
    (sample random).clear? sampleCall = some Codec.sampleClear := rfl

theorem step_sampleCall (random : RandomSource) :
    ((sample random).step sampleCall).2 = sample (random.skip 1) :=
  congrArg sample (step_of_clear (clear?_sampleCall random)).2

theorem exists_token_of_sampleCall (random : RandomSource) {iv : Iv}
    (h : random.draw random.taken = .ok iv) :
    ∃ token, ((sample random).step sampleCall).1.token? = some token := by
  obtain ⟨token, hissue⟩ := Codec.exists_sample_issue [] 900 0 iv
  refine ⟨token, Answer.token?_eq_some_iff.2 ?_⟩
  rw [(step_of_clear (clear?_sampleCall random)).1, issueNext]
  exact congrArg some (bind_eq_ok_iff.2 ⟨iv, h, hissue⟩)

/-- One value, encoded over and over at the same time. -/
theorem run_takes_fresh_draws_sample : ∃ t u,
    (sample sampleDraws).tokens (List.replicate 3 sampleCall) = [t, u] ∧ t ≠ u := by
  obtain ⟨t, ht⟩ := exists_token_of_sampleCall sampleDraws rfl
  have hfails : ((sample (sampleDraws.skip 1)).step sampleCall).1.token? = none := rfl
  obtain ⟨u, hu⟩ := exists_token_of_sampleCall (sampleDraws.skip 2) rfl
  have htokens : (sample sampleDraws).tokens (List.replicate 3 sampleCall) = [t, u] := by
    simp [tokens, trace, List.replicate, step_sampleCall, Entry.answer, ht, hfails, hu,
      RandomSource.skip_skip]
  obtain ⟨-, -, hnodup⟩ :=
    run_takes_fresh_draws (sample sampleDraws) (List.replicate 3 sampleCall)
  have hcount : ((sample sampleDraws).trace (List.replicate 3 sampleCall)).countP
      Entry.serializes = 3 := rfl
  obtain ⟨-, hdistinct⟩ := hnodup (by rw [hcount]; exact fresh_sampleDraws)
  rw [htokens] at hdistinct
  exact ⟨t, u, htokens, by simpa using hdistinct⟩

end Session

end SealedState
