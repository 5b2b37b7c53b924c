/-
SealedState.Proofs.JsonGrammar — which texts are JSON, said without a
reader.

Each relation says of a text that it begins with something and goes on with
the rest, its last argument: `Gap` with white space, `StringBody` with what
stands behind the first quotation mark of a string, `Value` with a value,
`Items` and `Members` with what stands behind the bracket of a container.
What a value is taken for is a `Literal`, which tells apart no more than
strings, integers that are written with digits only, and all else; the items
of a list and the members of an object come as lists of literals, with the
names of members unescaped.

`IsObject`, `IsList` and `IsJson` are about texts as wholes, with white
space around the value.

The settings of SPEC_FULL.md §6 are JSON objects.
-/
namespace SealedState.Json.Grammar

/-! ## White space -/

/-- The characters that may stand between tokens. -/
def isSpace (c : Char) : Bool := c == ' ' || c == '\n' || c == '\t' || c == '\r'

/-- White space, perhaps none. -/
inductive Gap : List Char → List Char → Prop
  | none (rest : List Char) : Gap rest rest
  | space {c : Char} {cs rest : List Char} (hc : isSpace c = true) (h : Gap cs rest) :
      Gap (c :: cs) rest

/-! ## Strings -/

/-- The character that a letter stands for after a backslash. -/
def escape? : Char → Option Char
  | '"' => some '"'
  | '\\' => some '\\'
  | '/' => some '/'
  | 'b' => some '\x08'
  | 'f' => some '\x0c'
  | 'n' => some '\n'
  | 'r' => some '\r'
  | 't' => some '\t'
  | _ => none

/-- The digits by which escapes give a number, letters in either case. -/
def hexDigits : List Char := "0123456789abcdef".toList

/-- The value of a hexadecimal digit. -/
inductive HexDigit : Char → Nat → Prop
  | mk {c : Char} {v : Nat} (h : hexDigits[v]? = some c.toLower) : HexDigit c v

/-- Four hexadecimal digits and the number that they spell. -/
inductive CodeUnit : List Char → Nat → List Char → Prop
  | mk {p q r s : Char} {a b c d : Nat} (rest : List Char) (hp : HexDigit p a) (hq : HexDigit q b)
      (hr : HexDigit r c) (hs : HexDigit s d) :
      CodeUnit (p :: q :: r :: s :: rest) (a * 4096 + b * 256 + c * 16 + d) rest

/-- The number belongs to the first of two units that make a character. -/
def IsHigh (n : Nat) : Prop := 0xd800 ≤ n ∧ n ≤ 0xdbff

/-- The number belongs to the second of two units that make a
character. -/
def IsLow (n : Nat) : Prop := 0xdc00 ≤ n ∧ n ≤ 0xdfff

instance (n : Nat) : Decidable (IsHigh n) := inferInstanceAs (Decidable (_ ∧ _))

instance (n : Nat) : Decidable (IsLow n) := inferInstanceAs (Decidable (_ ∧ _))

/-- The characters of a string, up to its closing quotation mark, and those
they stand for. A unit of two that has no partner stands for nothing. -/
inductive StringBody : List Char → List Char → List Char → Prop
  | close (rest : List Char) : StringBody ('"' :: rest) [] rest
  | plain {c : Char} {cs s rest : List Char} (hquote : c ≠ '"') (hbackslash : c ≠ '\\')
      (hcontrol : 0x20 ≤ c.toNat) (h : StringBody cs s rest) : StringBody (c :: cs) (c :: s) rest
  | letter {l c : Char} {cs s rest : List Char} (hl : escape? l = some c)
      (h : StringBody cs s rest) : StringBody ('\\' :: l :: cs) (c :: s) rest
  | unit {cs after s rest : List Char} {n : Nat} (hn : CodeUnit cs n after) (hhigh : ¬ IsHigh n)
      (hlow : ¬ IsLow n) (h : StringBody after s rest) :
      StringBody ('\\' :: 'u' :: cs) (Char.ofNat n :: s) rest
  | pair {cs mid after s rest : List Char} {high low : Nat}
      (hfirst : CodeUnit cs high ('\\' :: 'u' :: mid)) (hhigh : IsHigh high)
      (hsecond : CodeUnit mid low after) (hlow : IsLow low) (h : StringBody after s rest) :
      StringBody ('\\' :: 'u' :: cs)
        (Char.ofNat ((high - 0xd800) * 1024 + (low - 0xdc00) + 0x10000) :: s) rest

/-! ## Values -/

/-- What a value is taken for. -/
inductive Literal
  | text (s : String)
  /-- An integer without a sign, a fraction and an exponent. -/
  | natural (n : Nat)
  | other

/-- Digits, at least one. -/
structure Digits (cs : List Char) : Prop where
  ne_nil : cs ≠ []
  all_digits : ∀ c ∈ cs, c.isDigit = true

/-- What may stand in front of the digits of a number. -/
inductive Sign : List Char → Prop
  | none : Sign []
  | minus : Sign ['-']

/-- A point and digits, or nothing. -/
inductive Fraction : List Char → Prop
  | none : Fraction []
  | some {digits : List Char} (h : Digits digits) : Fraction ('.' :: digits)

/-- A letter, perhaps a sign, and digits, or nothing. -/
inductive Exponent : List Char → Prop
  | none : Exponent []
  | some {letter : Char} {sign digits : List Char} (hletter : letter = 'e' ∨ letter = 'E')
      (hsign : sign = [] ∨ sign = ['+'] ∨ sign = ['-']) (h : Digits digits) :
      Exponent (letter :: (sign ++ digits))

/-- What stands in front of an item of a list or a member of an object: a
comma, unless it is the first. -/
inductive Lead : (first : Bool) → List Char → List Char → Prop
  | first {cs start : List Char} (h : Gap cs start) : Lead true cs start
  | comma {cs mid start : List Char} (h : Gap cs (',' :: mid)) (h' : Gap mid start) :
      Lead false cs start

mutual

/-- A value. The digits in front of the point are those of a natural number
in decimal, so they have no leading zero. -/
inductive Value : List Char → Literal → List Char → Prop
  | word {w : String} (rest : List Char) (hw : w ∈ ["null", "true", "false"]) :
      Value (w.toList ++ rest) .other rest
  | natural (n : Nat) (rest : List Char) : Value (Nat.toDigits 10 n ++ rest) (.natural n) rest
  | number {sign fraction exponent : List Char} (n : Nat) (rest : List Char) (hsign : Sign sign)
      (hfraction : Fraction fraction) (hexponent : Exponent exponent)
      (hne : sign ≠ [] ∨ fraction ≠ [] ∨ exponent ≠ []) :
      Value (sign ++ Nat.toDigits 10 n ++ fraction ++ exponent ++ rest) .other rest
  | text {cs s rest : List Char} (h : StringBody cs s rest) :
      Value ('"' :: cs) (.text (String.ofList s)) rest
  | list {cs rest : List Char} {ls : List Literal} (h : Items true cs ls rest) :
      Value ('[' :: cs) .other rest
  | object {cs rest : List Char} {ms : List (String × Literal)} (h : Members true cs ms rest) :
      Value ('{' :: cs) .other rest

/-- The items of a list up to its closing bracket. -/
inductive Items : (first : Bool) → List Char → List Literal → List Char → Prop
  | close {first : Bool} {cs rest : List Char} (h : Gap cs (']' :: rest)) : Items first cs [] rest
  | item {first : Bool} {cs start mid rest : List Char} {l : Literal} {ls : List Literal}
      (hlead : Lead first cs start) (hvalue : Value start l mid) (h : Items false mid ls rest) :
      Items first cs (l :: ls) rest

/-- The members of an object up to its closing brace. -/
inductive Members : (first : Bool) → List Char → List (String × Literal) → List Char → Prop
  | close {first : Bool} {cs rest : List Char} (h : Gap cs ('}' :: rest)) :
      Members first cs [] rest
  | member {first : Bool} {cs name s colon value start mid rest : List Char} {l : Literal}
      {ms : List (String × Literal)} (hlead : Lead first cs ('"' :: name))
      (hname : StringBody name s colon) (hcolon : Gap colon (':' :: value))
      (hgap : Gap value start) (hvalue : Value start l mid) (h : Members false mid ms rest) :
      Members first cs ((String.ofList s, l) :: ms) rest

end

/-! ## Texts -/

/-- The text is JSON. -/
def IsJson (text : List Char) : Prop :=
  ∃ start l rest, Gap text start ∧ Value start l rest ∧ Gap rest []

/-- The text is a JSON object with these members. -/
def IsObject (text : List Char) (ms : List (String × Literal)) : Prop :=
  ∃ cs rest, Gap text ('{' :: cs) ∧ Members true cs ms rest ∧ Gap rest []

/-- The text is a JSON list with these items. -/
def IsList (text : List Char) (ls : List Literal) : Prop :=
  ∃ cs rest, Gap text ('[' :: cs) ∧ Items true cs ls rest ∧ Gap rest []

theorem IsObject.isJson {text : List Char} {ms : List (String × Literal)} (h : IsObject text ms) :
    IsJson text := by
  obtain ⟨cs, rest, hgap, hmembers, hend⟩ := h
  exact ⟨_, _, rest, hgap, .object hmembers, hend⟩

theorem IsList.isJson {text : List Char} {ls : List Literal} (h : IsList text ls) :
    IsJson text := by
  obtain ⟨cs, rest, hgap, hitems, hend⟩ := h
  exact ⟨_, _, rest, hgap, .list hitems, hend⟩

/-- The character may stand in a string without an escape. -/
def isPlain (c : Char) : Bool := c != '"' && c != '\\' && 0x20 ≤ c.toNat

/-- Characters that need no escape stand for themselves. -/
theorem StringBody.of_plain : ∀ (s rest : List Char), s.all isPlain = true →
    StringBody (s ++ '"' :: rest) s rest
  | [], rest, _ => .close rest
  | c :: s, rest, h => by
      obtain ⟨hc, hs⟩ := Bool.and_eq_true_iff.1 h
      simp only [isPlain, Bool.and_eq_true, bne_iff_ne, decide_eq_true_eq] at hc
      obtain ⟨⟨hquote, hbackslash⟩, hcontrol⟩ := hc
      exact .plain hquote hbackslash hcontrol (.of_plain s rest hs)

/-! ## White space in front -/

theorem Gap.trans {cs start rest : List Char} (h : Gap cs start) (h' : Gap start rest) :
    Gap cs rest := by
  induction h with
  | none => exact h'
  | space hc _ ih => exact .space hc (ih h')

theorem Lead.trans {first : Bool} {cs start rest : List Char} (h : Lead first cs start)
    (h' : Gap start rest) : Lead first cs rest := by
  cases h with
  | first h => exact .first (h.trans h')
  | comma h h'' => exact .comma h (h''.trans h')

/-! ## What is left of a text -/

theorem Gap.length_le {cs start : List Char} (h : Gap cs start) : start.length ≤ cs.length := by
  induction h with
  | none => exact Nat.le_refl _
  | space _ _ ih => exact Nat.le_succ_of_le ih

theorem Lead.length_le {first : Bool} {cs start : List Char} (h : Lead first cs start) :
    start.length ≤ cs.length := by
  cases h with
  | first h => exact h.length_le
  | comma h h' =>
    have hle := h.length_le
    have hle' := h'.length_le
    simp only [List.length_cons] at hle
    omega

theorem CodeUnit.length_lt {cs rest : List Char} {n : Nat} (h : CodeUnit cs n rest) :
    rest.length < cs.length := by
  obtain ⟨rest, _, _, _, _⟩ := h
  simp only [List.length_cons]
  omega

theorem StringBody.length_lt {cs s rest : List Char} (h : StringBody cs s rest) :
    rest.length < cs.length := by
  induction h with
  | close => exact Nat.lt_succ_self _
  | plain _ _ _ _ ih => exact Nat.lt_succ_of_lt ih
  | letter _ _ ih => exact Nat.lt_succ_of_lt (Nat.lt_succ_of_lt ih)
  | unit hn _ _ _ ih =>
    have hlt := hn.length_lt
    simp only [List.length_cons]
    omega
  | pair hn _ hn' _ _ ih =>
    have hlt := hn.length_lt
    have hlt' := hn'.length_lt
    simp only [List.length_cons] at hlt ⊢
    omega

mutual

theorem Value.length_le : ∀ {start rest : List Char} {l : Literal}, Value start l rest →
    rest.length ≤ start.length
  | _, _, _, .word rest _ => by simp
  | _, _, _, .natural n rest => by simp
  | _, _, _, .number n rest _ _ _ _ => by simp; omega
  | _, _, _, .text h => Nat.le_succ_of_le (Nat.le_of_lt h.length_lt)
  | _, _, _, .list h => Nat.le_succ_of_le h.length_le
  | _, _, _, .object h => Nat.le_succ_of_le (Nat.le_trans (Nat.le_add_left _ _) h.length_le)

theorem Items.length_le : ∀ {first : Bool} {cs rest : List Char} {ls : List Literal},
    Items first cs ls rest → rest.length ≤ cs.length
  | _, _, _, _, .close h => Nat.le_of_succ_le h.length_le
  | _, _, _, _, .item hlead hvalue h =>
      Nat.le_trans h.length_le (Nat.le_trans hvalue.length_le hlead.length_le)

/-- Every member takes a place in the text. -/
theorem Members.length_le : ∀ {first : Bool} {cs rest : List Char} {ms : List (String × Literal)},
    Members first cs ms rest → ms.length + rest.length ≤ cs.length
  | _, _, _, _, .close h => by
      have hle := h.length_le
      simp only [List.length_cons, List.length_nil] at hle ⊢
      omega
  | _, _, _, _, .member hlead hname hcolon hgap hvalue h => by
      have hlead := hlead.length_le
      have hname := hname.length_lt
      have hcolon := hcolon.length_le
      have hgap := hgap.length_le
      have hvalue := hvalue.length_le
      have hrest := h.length_le
      simp only [List.length_cons] at hlead hcolon ⊢
      omega

end

end SealedState.Json.Grammar
