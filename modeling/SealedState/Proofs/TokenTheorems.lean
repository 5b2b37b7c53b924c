/-
SealedState.Proofs.TokenTheorems — the parser of tokens accepts exactly
what the framing writes.

`Token.framed` is the text of the first four fields, the time of issue
being any decimal text; `signedText` writes the shortest one. A text is
a token if and only if it is such a framed text with a tag
(`parse_eq_ok_iff`). No field holds a separator, so the tag of a token
starts behind the last one (`cutLast?_withTag`) and what `withTag` puts
together can be told apart again (`withTag_injective`).

The framing is the wire format of SPEC_FULL.md §3.
-/
import SealedState.Proofs.Base64urlTheorems
import SealedState.Proofs.ResultTheorems
import SealedState.Proofs.SplitTheorems
import SealedState.Proofs.TimeTheorems

namespace SealedState.Token

/-! ## Framing -/

/-- The text of the first four fields of a token, the time of issue as a
text. -/
def framed (ciphertext time tenantId iv : Bytes) : String :=
  String.ofList (joinWith separator
    ([ciphertext, time, tenantId, iv].map Base64url.encodeChars))

theorem signedText_eq_framed (ciphertext : Bytes) (issuedAt : Int64) (tenantId iv : Bytes) :
    signedText ciphertext issuedAt tenantId iv
      = framed ciphertext (timeText issuedAt) tenantId iv := rfl

/-- No field holds a separator. -/
theorem separator_not_mem (b : Bytes) : separator ∉ Base64url.encodeChars b :=
  Base64url.not_mem_encodeChars (by decide) b

theorem encodeChars_separator_free {fields : List Bytes} :
    ∀ part ∈ fields.map Base64url.encodeChars, separator ∉ part := by
  intro part hpart
  obtain ⟨b, -, rfl⟩ := List.mem_map.1 hpart
  exact separator_not_mem b

/-- The text before the last separator and the text behind it. -/
def cutLast? (text : String) : Option (String × String) :=
  (splitLast? separator text.toList).map fun (before, after) =>
    (String.ofList before, String.ofList after)

theorem cutLast?_eq_some_iff {text before after : String} :
    cutLast? text = some (before, after) ↔
      text = before ++ "|" ++ after ∧ separator ∉ after.toList := by
  rw [cutLast?, Option.map_eq_some_iff]
  constructor
  · rintro ⟨⟨front, back⟩, hcut, heq⟩
    cases heq
    obtain ⟨htext, hback⟩ := splitLast?_eq_some_iff.1 hcut
    refine ⟨?_, by rwa [String.toList_ofList]⟩
    rw [← String.toList_inj, htext]
    simp [separator]
  · rintro ⟨rfl, hafter⟩
    refine ⟨(before.toList, after.toList), splitLast?_eq_some_iff.2 ⟨?_, hafter⟩, by simp⟩
    simp [separator]

theorem withTag_eq_append (signed : String) (tag : Bytes) :
    withTag signed tag = signed ++ "|" ++ Base64url.encode tag := by
  rw [← String.toList_inj]
  simp [withTag, Base64url.encode, separator]

/-- The tag of a token starts behind the last separator. -/
theorem cutLast?_withTag (signed : String) (tag : Bytes) :
    cutLast? (withTag signed tag) = some (signed, Base64url.encode tag) := by
  refine cutLast?_eq_some_iff.2 ⟨withTag_eq_append signed tag, ?_⟩
  rw [Base64url.encode, String.toList_ofList]
  exact separator_not_mem tag

/-- A tagged text gives back its tag and the text under it. -/
theorem withTag_injective {signed signed' : String} {tag tag' : Bytes}
    (h : withTag signed tag = withTag signed' tag') : signed = signed' ∧ tag = tag' := by
  have hcut := cutLast?_withTag signed tag
  rw [h, cutLast?_withTag] at hcut
  obtain ⟨hsigned, htag⟩ := Prod.mk.inj (Option.some.inj hcut)
  refine ⟨hsigned.symm, Base64url.encodeChars_injective ?_⟩
  exact (String.ofList_injective htag).symm

/-! ## Parsing -/

theorem fieldBytes_eq_ok_iff {field : Field} {text : List Char} {b : Bytes} :
    fieldBytes field text = .ok b ↔ text = Base64url.encodeChars b := by
  rw [← Base64url.decodeChars?_eq_some_iff, fieldBytes]
  split <;> simp_all

theorem fieldBytes_encodeChars (field : Field) (b : Bytes) :
    fieldBytes field (Base64url.encodeChars b) = .ok b :=
  fieldBytes_eq_ok_iff.2 rfl

/-- The characters of a token are its five fields joined. -/
theorem toList_withTag_framed (ciphertext time tenantId iv tag : Bytes) :
    (withTag (framed ciphertext time tenantId iv) tag).toList = joinWith separator
      ([ciphertext, time, tenantId, iv, tag].map Base64url.encodeChars) := by
  rw [withTag, framed, String.toList_ofList, String.toList_ofList]
  exact (joinWith_concat (Base64url.encodeChars tag) (List.cons_ne_nil _ _)).symm

/-- A token is written with the digits of base64url and separators. -/
theorem mem_withTag_framed {ciphertext time tenantId iv tag : Bytes} {ch : Char}
    (h : ch ∈ (withTag (framed ciphertext time tenantId iv) tag).toList) :
    ch = separator ∨ ch ∈ Base64url.alphabet := by
  rw [toList_withTag_framed] at h
  rcases mem_joinWith h with hsep | ⟨part, hpart, hch⟩
  · exact .inl hsep
  · obtain ⟨b, -, rfl⟩ := List.mem_map.1 hpart
    exact .inr (Base64url.mem_alphabet_iff.2
      (Option.isSome_iff_exists.1 (Base64url.isSome_value?_of_mem hch)))

theorem splitAll_withTag_framed (ciphertext time tenantId iv tag : Bytes) :
    splitAll separator (withTag (framed ciphertext time tenantId iv) tag).toList
      = [ciphertext, time, tenantId, iv, tag].map Base64url.encodeChars := by
  rw [toList_withTag_framed]
  exact splitAll_joinWith (List.cons_ne_nil _ _) encodeChars_separator_free

theorem parse_withTag_framed {ciphertext time tenantId iv tag : Bytes} {issuedAt : Int64}
    (h : Decimal time issuedAt.toInt) :
    parse (withTag (framed ciphertext time tenantId iv) tag) = .ok
      { signed := framed ciphertext time tenantId iv
        ciphertext, issuedAt, tenantId, iv, tag } := by
  have htime := parseTime_eq_ok_iff.2 h
  unfold parse
  rw [splitAll_withTag_framed]
  simp only [List.map_cons, List.map_nil, fieldBytes_encodeChars, ok_bind, htime]
  rfl

/-- A text is a token if and only if it is four fields with a tag, the
second of them the decimal text of a time. -/
theorem parse_eq_ok_iff {text : String} {t : Token} :
    parse text = .ok t ↔ ∃ time, Decimal time t.issuedAt.toInt ∧
      t.signed = framed t.ciphertext time t.tenantId t.iv ∧
      text = withTag t.signed t.tag := by
  constructor
  · intro h
    have hjoin := joinWith_splitAll separator text.toList
    unfold parse at h
    split at h
    · rename_i hparts
      simp only [bind_eq_ok_iff, fieldBytes_eq_ok_iff, parseTime_eq_ok_iff] at h
      obtain ⟨ciphertext, rfl, time, rfl, issuedAt, htime, tenantId, rfl, iv, rfl, tag, rfl, h⟩ := h
      cases h
      refine ⟨time, htime, rfl, ?_⟩
      rw [← String.toList_inj, ← hjoin, hparts]
      exact (toList_withTag_framed ciphertext time tenantId iv tag).symm
    · cases h
  · rintro ⟨time, htime, hsigned, rfl⟩
    obtain ⟨signed, ciphertext, issuedAt, tenantId, iv, tag⟩ := t
    simp only at hsigned htime
    subst hsigned
    exact parse_withTag_framed htime

theorem splitAll_framed_append (ciphertext time tenantId iv : Bytes) (rest : String) :
    splitAll separator (framed ciphertext time tenantId iv ++ "|" ++ rest).toList
      = [ciphertext, time, tenantId, iv].map Base64url.encodeChars
        ++ splitAll separator rest.toList := by
  have hchars : (framed ciphertext time tenantId iv ++ "|" ++ rest).toList
      = joinWith separator ([ciphertext, time, tenantId, iv].map Base64url.encodeChars)
        ++ separator :: rest.toList := by
    simp [framed, separator]
  rw [hchars]
  exact splitAll_joinWith_append _ (List.cons_ne_nil _ _) encodeChars_separator_free

/-- A token that starts with four fields and a separator has these fields
under its tag. -/
theorem signed_of_parse {ciphertext time tenantId iv : Bytes} {rest : String} {t : Token}
    (h : parse (framed ciphertext time tenantId iv ++ "|" ++ rest) = .ok t) :
    t.signed = framed ciphertext time tenantId iv := by
  obtain ⟨time', -, hsigned, htext⟩ := parse_eq_ok_iff.1 h
  have hcut := splitAll_withTag_framed t.ciphertext time' t.tenantId t.iv t.tag
  rw [← hsigned, ← htext, splitAll_framed_append] at hcut
  simp only [List.map_cons, List.map_nil, List.cons_append, List.cons.injEq] at hcut
  obtain ⟨hciphertext, htime, htenantId, hiv, -⟩ := hcut
  rw [hsigned, framed, framed]
  simp only [List.map_cons, List.map_nil, hciphertext, htime, htenantId, hiv]

end SealedState.Token
