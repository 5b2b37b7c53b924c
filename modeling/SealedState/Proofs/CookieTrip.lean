/-
SealedState.Proofs.CookieTrip — a token comes back from the headers that
carry it.

A token is written with the digits of base64url and bars, so nothing in it
ends a segment of a header, is trimmed off with blanks, or is taken for a
quotation mark around it (`isPlain_of_encode`). A segment that carries a token
under a name, with blanks around both and quotation marks around the token,
gives back both (`valueUnder?_of_carries`). Then the first segment with
the name decides, be it in a Cookie header among other cookies or in the text
that the cookie itself is written as (`delivers_of_persist`).

`persist`, `from_header` and `restore_from` are those of SPEC_FULL.md §4.2.
-/
import SealedState.Proofs.CodecTheorems
import SealedState.Proofs.CookieTheorems

namespace SealedState

namespace Cookie

/-! ## Names, values and what stands around them -/

/-- A name that stands for itself in a header. -/
structure IsName (name : List Char) : Prop where
  semicolon : ';' ∉ name
  equals : '=' ∉ name
  trimmed : Trimmed isBlank name

/-- No character of the value ends a segment, is a blank or is a quotation
mark. -/
structure IsPlain (value : List Char) : Prop where
  semicolon : ';' ∉ value
  quote : '"' ∉ value
  blank : ∀ c ∈ value, isBlank c = false

/-- Any number of blanks. -/
abbrev Blanks : Type := { w : List Char // ∀ c ∈ w, isBlank c = true }

/-- One blank. -/
def blank (c : Char) (h : isBlank c = true) : Blanks := ⟨[c], List.forall_mem_singleton.2 h⟩

/-- A number of quotation marks. -/
def quotes (n : Nat) : List Char := List.replicate n '"'

theorem eq_of_mem_quotes {c : Char} {n : Nat} (h : c ∈ quotes n) : c = '"' :=
  List.eq_of_mem_replicate h

/-- The segment carries a value under a name: blanks may stand around the
name and around the value, and quotation marks between the value and its
blanks. -/
inductive Carries (name value : List Char) : List Char → Prop where
  | mk (w₁ w₂ w₃ w₄ : Blanks) (m n : Nat) : Carries name value
      (w₁.val ++ name ++ w₂.val ++ '=' :: (w₃.val ++ (quotes m ++ value ++ quotes n) ++ w₄.val))

variable {name value segment : List Char}

theorem bareValue_quoted (h : IsPlain value) (w w' : Blanks) (m n : Nat) :
    bareValue (w.val ++ (quotes m ++ value ++ quotes n) ++ w'.val) = value := by
  have hquotes (n : Nat) : ∀ c ∈ quotes n, (c == '"') = true := by
    intro c hc
    rw [eq_of_mem_quotes hc, beq_self_eq_true]
  have hblank : ∀ c ∈ quotes m ++ value ++ quotes n, isBlank c = false := by
    intro c hc
    simp only [List.mem_append] at hc
    rcases hc with (hleft | hc) | hright
    · rw [eq_of_mem_quotes hleft]
      rfl
    · exact h.blank c hc
    · rw [eq_of_mem_quotes hright]
      rfl
  have hvalue : ∀ c ∈ value, (c == '"') = false := by
    intro c hc
    exact beq_false_of_ne fun heq => h.quote (heq ▸ hc)
  rw [bareValue, trim, trimBy_around w.property w'.property (trimmed_of_forall hblank)]
  exact trimBy_around (hquotes m) (hquotes n) (trimmed_of_forall hvalue)

/-- What a segment carries is read back. -/
theorem valueUnder?_of_carries (hname : IsName name) (hvalue : IsPlain value)
    (h : Carries name value segment) : valueUnder? name segment = some value := by
  obtain ⟨w₁, w₂, w₃, w₄, m, n⟩ := h
  have hnot (w : Blanks) : '=' ∉ w.val := by
    intro hmem
    have hblank := w.property _ hmem
    rw [equals_not_isBlank] at hblank
    cases hblank
  have hbefore : '=' ∉ w₁.val ++ name ++ w₂.val := by
    simp [hnot w₁, hnot w₂, hname.equals]
  rw [valueUnder?_of_cut hbefore (trimBy_around w₁.property w₂.property hname.trimmed),
    bareValue_quoted hvalue]

/-- A cookie is written as a segment that carries its value. -/
theorem carries_plainly (name value : List Char) : Carries name value (name ++ '=' :: value) := by
  let none : Blanks := ⟨[], by simp⟩
  have h : Carries name value _ := .mk none none none none 0 0
  simpa [none, quotes] using h

end Cookie

namespace Codec

variable {c : Codec} {now : Int64} {random : RandomSource} {σ : Shape} {v : σ.Val}

/-! ## Tokens -/

/-- Every token is written with the digits of base64url and bars. -/
theorem mem_of_encode {token : String} (h : (c.encode now random v).1.result = .ok token)
    {ch : Char} (hch : ch ∈ token.toList) : ch = Token.separator ∨ ch ∈ Base64url.alphabet := by
  obtain ⟨m, rfl, -, -⟩ := exists_minting_of_encode h
  exact Token.mem_withTag_framed hch

theorem isPlain_of_encode {token : String} (h : (c.encode now random v).1.result = .ok token) :
    Cookie.IsPlain token.toList := by
  have hall : (Token.separator :: Base64url.alphabet).all
      (fun ch => ch ≠ ';' ∧ ch ≠ '"' ∧ isBlank ch = false) = true := by decide +kernel
  have hchars : ∀ ch ∈ token.toList, ch ≠ ';' ∧ ch ≠ '"' ∧ isBlank ch = false := by
    intro ch hch
    have hmem : ch ∈ Token.separator :: Base64url.alphabet :=
      List.mem_cons.2 (mem_of_encode h hch)
    exact of_decide_eq_true (List.all_eq_true.1 hall ch hmem)
  exact
    { semicolon := fun hmem => (hchars _ hmem).1 rfl
      quote := fun hmem => (hchars _ hmem).2.1 rfl
      blank := fun ch hch => (hchars ch hch).2.2 }

/-! ## Headers -/

/-- A search of the header for the name gives the cookie with the token, and
every codec makes of it what it makes of the token. -/
def Delivers (header name token : String) : Prop :=
  ∃ cookie, Cookie.find? header name = some cookie ∧ cookie.name = name ∧
    cookie.value = token ∧ ∀ (b : Codec) (now : Int64) (τ : Shape),
      b.restore now τ cookie = b.decode now τ token

theorem delivers_of_carries {header name token : String} {earlier later : List (List Char)}
    {segment : List Char} (hname : Cookie.IsName name.toList)
    (htoken : Cookie.IsPlain token.toList)
    (hcut : splitAll ';' header.toList = earlier ++ segment :: later)
    (hcarries : Cookie.Carries name.toList token.toList segment)
    (hearlier : ∀ s ∈ earlier, ¬ Cookie.Names name.toList s) : Delivers header name token := by
  have hfind := Cookie.find?_of_first hcut hearlier
    (Cookie.valueUnder?_of_carries hname htoken hcarries)
  rw [String.ofList_toList] at hfind
  exact ⟨_, hfind, rfl, rfl, fun b now τ => rfl⟩

/-- The token of a persisted cookie comes back from every Cookie header that
carries it under the name of the cookie, if no earlier segment has this name,
and from the Set-Cookie text of the cookie, whatever its path is. -/
theorem delivers_of_persist {name path : String} {cookie : Cookie}
    (hname : Cookie.IsName name.toList)
    (h : (c.persist now random name path v).1.result = .ok cookie) :
    (c.encode now random v).1.result = .ok cookie.value ∧
    (∀ (header : String) (earlier later : List (List Char)) (segment : List Char),
      splitAll ';' header.toList = earlier ++ segment :: later →
      Cookie.Carries name.toList cookie.value.toList segment →
      (∀ s ∈ earlier, ¬ Cookie.Names name.toList s) → Delivers header name cookie.value) ∧
    Delivers cookie.headerText name cookie.value := by
  obtain ⟨token, hencode, rfl⟩ := persist_eq_ok_iff.1 h
  have htoken := isPlain_of_encode hencode
  refine ⟨hencode, ?_, ?_⟩
  · intro header earlier later segment hcut hcarries hearlier
    exact delivers_of_carries hname htoken hcut hcarries hearlier
  · obtain ⟨later, hcut⟩ := Cookie.splitAll_headerText
      (((Cookie.make name token).withPath path).withMaxAge c.timeout)
      hname.semicolon htoken.semicolon
    have hnone : ∀ s ∈ ([] : List (List Char)), ¬ Cookie.Names name.toList s := by simp
    exact delivers_of_carries hname htoken (hcut.trans (List.nil_append _).symm)
      (Cookie.carries_plainly name.toList token.toList) hnone

/-- Two spaces of which one is not ASCII, quotation marks, a tab, and other
cookies around: a segment without a sign of equality, and a name that only
begins alike. The path of the cookie looks like a segment with its name. -/
theorem delivers_of_persist_sample : ∃ cookie,
    ((sample [] 900).persist 1000 sampleRandom "flow" "/; flow=x" sampleValue).1.result
      = .ok cookie ∧
    Delivers ("flow;flow-old=1;\u00a0flow = \"" ++ cookie.value ++ "\"\t; flow=x") "flow"
      cookie.value ∧
    Delivers cookie.headerText "flow" cookie.value := by
  obtain ⟨token, hencode⟩ := exists_sample_token [] 900 1000
  obtain ⟨cookie, hcookie, hvalue⟩ : ∃ cookie,
      ((sample [] 900).persist 1000 sampleRandom "flow" "/; flow=x" sampleValue).1.result
        = .ok cookie ∧ cookie.value = token :=
    ⟨_, persist_eq_ok_iff.2 ⟨token, hencode, rfl⟩, rfl⟩
  have hname : Cookie.IsName "flow".toList :=
    { semicolon := by decide
      equals := by decide
      trimmed := ⟨by simp [isBlank], by simp [isBlank]⟩ }
  obtain ⟨-, hheader, hown⟩ := delivers_of_persist hname hcookie
  refine ⟨cookie, hcookie, ?_, hown⟩
  have htoken : ';' ∉ cookie.value.toList := by
    rw [hvalue]
    exact (isPlain_of_encode hencode).semicolon
  have hcarries : Cookie.Carries "flow".toList cookie.value.toList _ := .mk
    (Cookie.blank '\u00a0' rfl) (Cookie.blank ' ' rfl) (Cookie.blank ' ' rfl)
    (Cookie.blank '\t' rfl) 1 1
  refine hheader _ ["flow".toList, "flow-old=1".toList] [" flow=x".toList] _ ?_ hcarries (by decide)
  have hjoin : ("flow;flow-old=1;\u00a0flow = \"" ++ cookie.value ++ "\"\t; flow=x").toList
      = joinWith ';' (["flow".toList, "flow-old=1".toList] ++ (['\u00a0'] ++ "flow".toList ++ [' ']
        ++ '=' :: ([' '] ++ (Cookie.quotes 1 ++ cookie.value.toList ++ Cookie.quotes 1) ++ ['\t']))
        :: [" flow=x".toList]) := by
    simp [joinWith, Cookie.quotes]
  rw [hjoin]
  refine splitAll_joinWith (by simp) ?_
  intro part hpart
  simp only [List.mem_append, List.mem_cons, List.not_mem_nil, or_false] at hpart
  rcases hpart with (rfl | rfl) | rfl | rfl
  · decide
  · decide
  · simp [Cookie.quotes, htoken]
  · decide

end Codec

end SealedState
