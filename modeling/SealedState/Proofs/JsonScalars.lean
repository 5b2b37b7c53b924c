/-
SealedState.Proofs.JsonScalars — JSON texts that are no containers are
read back.

`Written read text x` is what all of these theorems say: the reader takes
the text for the value, whatever follows. Only a number may be continued
by what follows it, which `Ends` rules out. Escaped text is read byte by
byte (`textBytes_escapeByte`), and the digits of an integer are added up to
what they stand for, by the reader of numbers as far as 64 bits hold it
(`numberFrom_writeInteger`) and by the one of wide integers beyond
(`written_wideInteger`).

The texts are those of `JsonSerializer` in SPEC_FULL.md §4.3.
-/
import SealedState.Json.Writer
import SealedState.Json.Reader
import SealedState.Payload.JsonText
import SealedState.Proofs.ResultTheorems
import SealedState.Proofs.TimeTheorems
import SealedState.Proofs.Utf8Theorems

namespace SealedState

namespace Ascii

theorem le_foldl_digits (digits : Bytes) : ∀ sum : Nat,
    sum ≤ digits.foldl (fun n b => n * 10 + digitValue b) sum := by
  induction digits with
  | nil => exact fun sum => Nat.le_refl sum
  | cons d digits ih =>
    intro sum
    have h := ih (sum * 10 + digitValue d)
    rw [List.foldl_cons]
    omega

/-- A positive number has no leading zero. -/
theorem toDigits_of_pos (n : Nat) : 0 < n → ∃ b tail,
    ofChars (Nat.toDigits 10 n) = b :: tail ∧ b ≠ zero := by
  induction n using Nat.strongRecOn with
  | ind n ih =>
    intro hpos
    by_cases h : n < 10
    · have hall : ∀ k : Fin 10, 0 < k.val → UInt8.ofNat (Nat.digitChar k.val).toNat ≠ zero := by
        decide
      rw [Nat.toDigits_of_lt_base h]
      exact ⟨_, [], rfl, hall ⟨n, h⟩ hpos⟩
    · obtain ⟨b, tail, htail, hne⟩ := ih (n / 10) (by omega) (by omega)
      rw [Nat.toDigits_of_base_le (by omega) (by omega), ofChars, List.map_append, ← ofChars, htail]
      exact ⟨b, _, rfl, hne⟩

end Ascii

namespace Json.Reader

/-- What follows a value does not continue a number. -/
def Ends (rest : Bytes) : Prop :=
  ∀ b ∈ rest.head?, Ascii.isDigit b = false ∧ b ≠ Ascii.point ∧ b ≠ Ascii.lowerE ∧
    b ≠ Ascii.upperE

theorem ends_nil : Ends [] := by simp [Ends]

theorem ends_cons {b : UInt8} {rest : Bytes} (h : Ascii.isDigit b = false ∧ b ≠ Ascii.point ∧
    b ≠ Ascii.lowerE ∧ b ≠ Ascii.upperE) : Ends (b :: rest) := by
  intro b' hb'
  cases hb'
  exact h

/-! ## Integers -/

variable {rest digits : Bytes}

theorem Ends.startsWithDigit (h : Ends rest) : startsWithDigit rest = false := by
  cases rest with
  | nil => rfl
  | cons b rest => exact (h b rfl).1

theorem Ends.afterExponentLetter? (h : Ends rest) : afterExponentLetter? rest = none := by
  unfold Reader.afterExponentLetter?
  split
  · exact absurd rfl (h _ rfl).2.2.1
  · exact absurd rfl (h _ rfl).2.2.2
  · rfl

theorem Ends.takeWhile (h : Ends rest) : rest.takeWhile Ascii.isDigit = [] := by
  cases rest with
  | nil => rfl
  | cons b rest => rw [List.takeWhile_cons, (h b rfl).1]; rfl

theorem Ends.dropDigits (h : Ends rest) : dropDigits rest = rest := by
  cases rest with
  | nil => rfl
  | cons b rest => rw [Reader.dropDigits, List.dropWhile_cons, (h b rfl).1]; rfl

theorem addDigits_digits (hrest : Ends rest) (digits : Bytes) : ∀ sum count : Nat,
    (∀ b ∈ digits, Ascii.isDigit b = true) →
    digits.foldl (fun n b => n * 10 + Ascii.digitValue b) sum ≤ maxSignificand →
    addDigits sum count (digits ++ rest) =
      (digits.foldl (fun n b => n * 10 + Ascii.digitValue b) sum, count + digits.length, rest) := by
  induction digits with
  | nil =>
    intro sum count _ _
    cases rest with
    | nil => rfl
    | cons b rest =>
      rw [List.nil_append, addDigits, (hrest b rfl).1]
      rfl
  | cons d digits ih =>
    intro sum count hdigits hmax
    obtain ⟨hd, hdigits⟩ := List.forall_mem_cons.1 hdigits
    -- sums only grow, so this one fits if the last one does
    have hle := Ascii.le_foldl_digits digits (sum * 10 + Ascii.digitValue d)
    rw [List.foldl_cons] at hmax
    rw [List.cons_append, addDigits, hd, decide_eq_true (Nat.le_trans hle hmax),
      if_pos (by rfl), ih _ _ hdigits hmax]
    simp only [List.foldl_cons, List.length_cons]
    rw [Nat.add_assoc, Nat.add_comm 1]

theorem afterInteger_of_ends (h : Ends rest) (negative : Bool) (sum : Nat) :
    afterInteger negative sum 0 rest = .ok (whole negative sum, rest) := by
  unfold afterInteger
  split
  · exact absurd rfl (h _ rfl).2.1
  · simp only [h.afterExponentLetter?, if_true]

/-- The digits of a number are read back. -/
theorem number_toDigits (h : Ends rest) (negative : Bool) {n : Nat} (hn : n ≤ maxSignificand) :
    number negative (Ascii.ofChars (Nat.toDigits 10 n) ++ rest) = .ok (whole negative n, rest) := by
  obtain ⟨-, hdigits⟩ := Token.toDigits_decimal n
  have hvalue : (Ascii.ofChars (Nat.toDigits 10 n)).foldl
      (fun n b => n * 10 + Ascii.digitValue b) 0 = n := Ascii.decimalValue_toDigits n
  -- a number that begins with a zero is read by a branch of its own
  rcases Nat.eq_zero_or_pos n with rfl | hpos
  · change (if startsWithDigit rest = true then Issue.invalidNumber.next rest
      else afterInteger negative 0 0 rest) = _
    rw [h.startsWithDigit, if_neg Bool.false_ne_true, afterInteger_of_ends h]
  · obtain ⟨b, tail, htail, hne⟩ := Ascii.toDigits_of_pos n hpos
    have hadd := addDigits_digits h _ 0 0 hdigits (by rw [hvalue]; exact hn)
    rw [hvalue] at hadd
    rw [htail] at hdigits hadd ⊢
    rw [List.cons_append, number.eq_def]
    split
    · rename_i heq
      cases heq
    · rename_i heq
      cases heq
      exact absurd rfl hne
    · rename_i heq
      cases heq
      rw [← List.cons_append, hadd]
      simp only [hdigits b List.mem_cons_self, if_true, h.takeWhile, List.length_nil, h.dropDigits,
        afterInteger_of_ends h]

/-! ## Text -/

theorem textBytes_letter {letter byte : UInt8} (h : escaped? letter = some byte)
    (hletter : letter ≠ Ascii.lowerU) (rest : Bytes) :
    textBytes none (Ascii.backslash :: letter :: rest) = push [byte] (textBytes none rest) := by
  rw [textBytes.eq_def]
  simp only [show ¬ Ascii.backslash = Ascii.quote by decide, if_false, if_true, hletter, h]

theorem textBytes_plain {b : UInt8} (hquote : b ≠ Ascii.quote) (hbackslash : b ≠ Ascii.backslash)
    (hcontrol : Ascii.isControl b = false) (rest : Bytes) :
    textBytes none (b :: rest) = push [b] (textBytes none rest) := by
  rw [textBytes.eq_def]
  simp only [hquote, hbackslash, hcontrol, if_false, Bool.false_eq_true]

theorem textBytes_unit {p q r s : UInt8} {n : Nat} (hn : hexUnit? p q r s = some n)
    (hhigh : isHighSurrogate n = false) (hlow : isLowSurrogate n = false) (tail : Bytes) :
    textBytes none (Ascii.backslash :: Ascii.lowerU :: p :: q :: r :: s :: tail)
      = push (characterBytes n) (textBytes none tail) := by
  rw [textBytes.eq_def]
  simp only [show ¬ Ascii.backslash = Ascii.quote by decide, if_false, if_true, hn, hhigh, hlow,
    Bool.false_eq_true]

/-- A control character has a number of two digits. -/
theorem hexUnit?_control {b : UInt8} (h : Ascii.isControl b = true) :
    hexUnit? Ascii.zero Ascii.zero (Ascii.hexDigit (b.toNat / 16)) (Ascii.hexDigit (b.toNat % 16))
      = some b.toNat ∧ characterBytes b.toNat = [b] := by
  have hall : ∀ n : Fin 32, hexUnit? Ascii.zero Ascii.zero (Ascii.hexDigit (n.val / 16))
      (Ascii.hexDigit (n.val % 16)) = some n.val ∧ characterBytes n.val = [UInt8.ofNat n.val] := by
    decide +kernel
  have hlt : b.toNat < 32 := UInt8.lt_iff_toNat_lt.1 (of_decide_eq_true h)
  have hb := hall ⟨b.toNat, hlt⟩
  rwa [UInt8.ofNat_toNat] at hb

theorem textBytes_control {b : UInt8} (h : Ascii.isControl b = true) (rest : Bytes) :
    textBytes none (Ascii.backslash :: Ascii.lowerU :: Ascii.zero :: Ascii.zero
      :: Ascii.hexDigit (b.toNat / 16) :: Ascii.hexDigit (b.toNat % 16) :: rest)
      = push [b] (textBytes none rest) := by
  obtain ⟨hunit, hbytes⟩ := hexUnit?_control h
  have hlt : b.toNat < 32 := UInt8.lt_iff_toNat_lt.1 (of_decide_eq_true h)
  have hlow : isLowSurrogate b.toNat = false := by
    simp [isLowSurrogate]
    omega
  have hhigh : isHighSurrogate b.toNat = false := by
    simp [isHighSurrogate]
    omega
  rw [textBytes_unit hunit hhigh hlow, hbytes]

/-- Every byte is read back from its escaped form. -/
theorem textBytes_escapeByte (b : UInt8) (rest : Bytes) :
    textBytes none (escapeByte b ++ rest) = push [b] (textBytes none rest) := by
  fun_cases escapeByte b with
  | case1 h =>
    subst h
    exact textBytes_letter rfl (by decide) rest
  | case2 _ h =>
    subst h
    exact textBytes_letter rfl (by decide) rest
  | case3 _ _ h =>
    subst h
    exact textBytes_letter rfl (by decide) rest
  | case4 _ _ _ h =>
    subst h
    exact textBytes_letter rfl (by decide) rest
  | case5 _ _ _ _ h =>
    subst h
    exact textBytes_letter rfl (by decide) rest
  | case6 _ _ _ _ _ h =>
    subst h
    exact textBytes_letter rfl (by decide) rest
  | case7 _ _ _ _ _ _ h =>
    subst h
    exact textBytes_letter rfl (by decide) rest
  | case8 _ _ _ _ _ _ _ hcontrol => exact textBytes_control hcontrol rest
  | case9 hquote hbackslash _ _ _ _ _ hcontrol =>
    exact textBytes_plain hquote hbackslash (eq_false_of_ne_true hcontrol) rest

theorem push_ok (bytes more rest : Bytes) :
    push bytes (.ok (more, rest)) = .ok (bytes ++ more, rest) := rfl

theorem textBytes_escaped (bytes rest : Bytes) :
    textBytes none (bytes.flatMap escapeByte ++ Ascii.quote :: rest) = .ok (bytes, rest) := by
  induction bytes with
  | nil =>
    rw [List.flatMap_nil, List.nil_append, textBytes.eq_def]
    simp only [if_true]
  | cons b bytes ih =>
    rw [List.flatMap_cons, List.append_assoc, textBytes_escapeByte, ih, push_ok]
    rfl

/-- A string is read back up to its closing quotation mark. -/
theorem text_escaped (s : String) (rest : Bytes) :
    text ((Utf8.encode s).flatMap escapeByte ++ Ascii.quote :: rest) = .ok (s, rest) := by
  rw [text, textBytes_escaped]
  simp only [ok_bind, Utf8.span_encode, String.ofList_toList]
  rfl

theorem writeText_append (s : String) (rest : Bytes) : writeText s ++ rest =
    Ascii.quote :: ((Utf8.encode s).flatMap escapeByte ++ Ascii.quote :: rest) := by
  simp [writeText]

/-! ## The first byte -/

/-- The byte begins a value. -/
def beginsValue (b : UInt8) : Bool :=
  b == Ascii.lowerN || b == Ascii.lowerT || b == Ascii.lowerF || startsNumber b
    || b == Ascii.quote || b == Ascii.openBracket || b == Ascii.openBrace

theorem of_beginsValue {b : UInt8} (h : beginsValue b = true) :
    (∀ rest, skipBlank (b :: rest) = b :: rest) ∧ b ≠ Ascii.closeBracket ∧
      b ≠ Ascii.closeBrace := by
  have hall : ∀ n : Fin 256, beginsValue (UInt8.ofNat n.val) = true →
      (UInt8.ofNat n.val == Ascii.space || UInt8.ofNat n.val == Ascii.lineFeed
        || UInt8.ofNat n.val == Ascii.tab || UInt8.ofNat n.val == Ascii.carriageReturn) = false ∧
      UInt8.ofNat n.val ≠ Ascii.closeBracket ∧ UInt8.ofNat n.val ≠ Ascii.closeBrace := by
    decide +kernel
  have hb := hall ⟨b.toNat, b.toNat_lt⟩
  simp only [UInt8.ofNat_toNat] at hb
  obtain ⟨hblank, hbracket, hbrace⟩ := hb h
  refine ⟨fun rest => ?_, hbracket, hbrace⟩
  rw [skipBlank, List.dropWhile_cons, hblank]
  rfl

/-! ## Written values -/

/-- A reader takes a text for a value, whatever follows, unless that
continues a number. -/
structure Written {α : Type} (read : Reader α) (text : Bytes) (x : α) : Prop where
  begins : ∃ b tail, text = b :: tail ∧ beginsValue b = true
  reads : ∀ rest, Ends rest → read (text ++ rest) = .ok (x, rest)

theorem dispatch_cons {α : Type} {read : UInt8 → Reader α} {b : UInt8} (h : beginsValue b = true)
    (rest : Bytes) : dispatch read (b :: rest) = read b rest := by
  rw [dispatch, (of_beginsValue h).1]

theorem Written.of_dispatch {α : Type} {read : UInt8 → Reader α} (b : UInt8) (tail : Bytes) {x : α}
    (hb : beginsValue b = true)
    (h : ∀ rest, Ends rest → read b (tail ++ rest) = .ok (x, rest)) :
    Written (dispatch read) (b :: tail) x where
  begins := ⟨b, tail, rfl, hb⟩
  reads rest hrest := by rw [List.cons_append, dispatch_cons hb, h rest hrest]

theorem ident_append (letters rest : Bytes) : ident letters (letters ++ rest) = .ok rest := by
  induction letters with
  | nil => rfl
  | cons letter letters ih => rw [List.cons_append, ident, if_pos rfl, ih]

theorem written_boolean (b : Bool) : Written boolean (writeBoolean b) b := by
  cases b with
  | false =>
    refine .of_dispatch Ascii.lowerF (Ascii.ofString "alse") (by decide) ?_
    intro rest _
    rw [if_neg (by decide), if_pos rfl, ident_append]
    rfl
  | true =>
    refine .of_dispatch Ascii.lowerT (Ascii.ofString "rue") (by decide) ?_
    intro rest _
    rw [if_pos rfl, ident_append]
    rfl

theorem written_string (s : String) : Written string (writeText s) s := by
  refine ⟨⟨Ascii.quote, _, rfl, by decide⟩, fun rest _ => ?_⟩
  rw [writeText_append, string, dispatch_cons (by decide), if_pos rfl, text_escaped]

/-! ## Integers -/

theorem startsNumber_of_isDigit {b : UInt8} (h : Ascii.isDigit b = true) :
    startsNumber b = true := by
  rw [startsNumber, h, Bool.or_true]

theorem beginsValue_of_startsNumber {b : UInt8} (h : startsNumber b = true) :
    beginsValue b = true := by
  simp [beginsValue, h]

/-- The first digit of a natural number, and the others. -/
theorem exists_digits (n : Nat) : ∃ b tail, Ascii.ofChars (Nat.toDigits 10 n) = b :: tail ∧
    startsNumber b = true ∧ (b == Ascii.minus) = false := by
  obtain ⟨hne, hdigits⟩ := Token.toDigits_decimal n
  obtain ⟨b, tail, htail⟩ := List.exists_cons_of_ne_nil hne
  have hdigit : Ascii.isDigit b = true := hdigits b (htail ▸ List.mem_cons_self)
  refine ⟨b, tail, htail, startsNumber_of_isDigit hdigit, beq_false_of_ne ?_⟩
  rintro rfl
  exact absurd hdigit (by decide)

theorem exists_writeInteger (n : Int) :
    ∃ b tail, writeInteger n = b :: tail ∧ startsNumber b = true := by
  cases n with
  | ofNat n =>
    obtain ⟨b, tail, htail, hb, -⟩ := exists_digits n
    exact ⟨b, tail, htail, hb⟩
  | negSucc n => exact ⟨Ascii.minus, _, rfl, rfl⟩

theorem Number.ofInt_val (v : integerBounds.Value) : Number.ofInt v.val = .integer v := by
  rw [Number.ofInt, Bounds.ofInt?_val]

/-- An integer that a number holds is read back from its text. -/
theorem numberFrom_writeInteger (v : integerBounds.Value) : ∃ b tail,
    writeInteger v.val = b :: tail ∧ startsNumber b = true ∧
      ∀ rest, Ends rest → numberFrom b (tail ++ rest) = .ok (.integer v, rest) := by
  obtain ⟨n, hleast, hgreatest⟩ := v
  simp only [integerBounds] at hleast hgreatest
  cases n with
  | ofNat n =>
    obtain ⟨b, tail, htail, hb, hminus⟩ := exists_digits n
    refine ⟨b, tail, htail, hb, fun rest hrest => ?_⟩
    have hmax : (n : Int) ≤ 0xffffffffffffffff := hgreatest
    have hn : n ≤ maxSignificand := by
      simp only [maxSignificand]
      omega
    rw [numberFrom, if_neg (ne_of_beq_false hminus), ← List.cons_append, ← htail,
      number_toDigits hrest false hn]
    exact congrArg (fun x => Except.ok (x, rest)) (Number.ofInt_val ⟨n, hleast, hgreatest⟩)
  | negSucc n =>
    refine ⟨Ascii.minus, _, rfl, rfl, fun rest hrest => ?_⟩
    have hn : n + 1 ≤ maxSignificand := by
      simp only [maxSignificand]
      omega
    have hint : -((n + 1 : Nat) : Int) = Int.negSucc n := rfl
    rw [numberFrom, if_pos rfl]
    refine (number_toDigits hrest true hn).trans ?_
    rw [whole, if_pos rfl, if_neg (Nat.succ_ne_zero n), hint]
    exact congrArg (fun x => Except.ok (x, rest)) (Number.ofInt_val ⟨_, hleast, hgreatest⟩)

/-- An integer of a kind that numbers hold is read back. -/
theorem written_integer {k : IntegerKind} (v : k.Value)
    (hbounds : integerBounds.least ≤ v.val ∧ v.val ≤ integerBounds.greatest) :
    Written (integer k) (writeInteger v.val) v := by
  obtain ⟨b, tail, htext, hb, hread⟩ := numberFrom_writeInteger ⟨v.val, hbounds⟩
  rw [htext]
  refine .of_dispatch b tail (beginsValue_of_startsNumber hb) fun rest hrest => ?_
  rw [if_pos hb, hread rest hrest]
  simp only [ok_bind, Bounds.ofInt?_val]
  rfl

theorem takeWhile_digits {digits rest : Bytes} (hrest : Ends rest)
    (h : ∀ b ∈ digits, Ascii.isDigit b = true) :
    (digits ++ rest).takeWhile Ascii.isDigit = digits ∧ dropDigits (digits ++ rest) = rest := by
  constructor
  · rw [List.takeWhile_append_of_pos h, hrest.takeWhile, List.append_nil]
  · rw [dropDigits, List.dropWhile_append_of_pos h]
    exact hrest.dropDigits

theorem finish_of_val {k : IntegerKind} {v : k.Value} {negative : Bool} {sum : Nat}
    (h : (if negative then -sum else sum : Int) = v.val) (rest : Bytes) :
    wideInteger.finish k negative sum rest = .ok (v, rest) := by
  rw [wideInteger.finish, h, Bounds.ofInt?_val]

/-- The digits of an integer, behind its sign. -/
theorem wideInteger_toDigits {k : IntegerKind} {v : k.Value} (n : Nat) {b : UInt8}
    {tail rest : Bytes} (hrest : Ends rest) (hb : beginsValue b = true)
    (htext : (if b == Ascii.minus then tail ++ rest else b :: (tail ++ rest))
      = Ascii.ofChars (Nat.toDigits 10 n) ++ rest)
    (hval : (if b == Ascii.minus then -n else n : Int) = v.val) :
    wideInteger k (b :: (tail ++ rest)) = .ok (v, rest) := by
  obtain ⟨-, hdigits⟩ := Token.toDigits_decimal n
  rw [wideInteger, dispatch_cons hb]
  simp only [htext]
  rcases Nat.eq_zero_or_pos n with rfl | hpos
  · change (if startsWithDigit rest = true then Issue.invalidNumber.next rest
      else wideInteger.finish k (b == Ascii.minus) 0 rest) = _
    rw [hrest.startsWithDigit, if_neg Bool.false_ne_true, finish_of_val hval]
  · obtain ⟨d, digits, hcons, hne⟩ := Ascii.toDigits_of_pos n hpos
    have hvalue := Ascii.decimalValue_toDigits n
    obtain ⟨htake, hdrop⟩ := takeWhile_digits hrest hdigits
    rw [hcons] at htake hdrop hdigits hvalue ⊢
    rw [htake, hdrop, hvalue]
    split
    · rename_i heq
      cases heq
    · rename_i heq
      cases heq
      exact absurd rfl hne
    · rename_i heq
      cases heq
      rw [if_pos (hdigits d List.mem_cons_self), finish_of_val hval]

/-- An integer of any kind is read back by the reader that adds up all
digits. -/
theorem written_wideInteger {k : IntegerKind} (v : k.Value) :
    Written (wideInteger k) (writeInteger v.val) v := by
  obtain ⟨n, hn⟩ := v
  cases n with
  | ofNat n =>
    obtain ⟨b, tail, htail, hnumber, hminus⟩ := exists_digits n
    have hb := beginsValue_of_startsNumber hnumber
    change Written (wideInteger k) (Ascii.ofChars (Nat.toDigits 10 n)) _
    refine ⟨⟨b, tail, htail, hb⟩, fun rest hrest => ?_⟩
    rw [htail, List.cons_append]
    refine wideInteger_toDigits n hrest hb ?_ ?_
    · rw [hminus, htail]
      rfl
    · rw [hminus]
      rfl
  | negSucc n =>
    refine ⟨⟨Ascii.minus, _, rfl, by decide⟩, fun rest hrest => ?_⟩
    exact wideInteger_toDigits (n + 1) hrest (by decide) rfl rfl

/-! ## Values that may be missing -/

theorem written_none {α : Type} (read : Reader α) : Written (option read) writeNull none := by
  refine ⟨⟨Ascii.lowerN, _, rfl, by decide⟩, fun rest _ => ?_⟩
  change (do return (none, ← ident (Ascii.ofString "ull") (Ascii.ofString "ull" ++ rest))) = _
  rw [ident_append]
  rfl

/-- A value that does not begin as null does is read back as one that is
there. -/
theorem Written.some {α : Type} {read : Reader α} {text : Bytes} {x : α} (h : Written read text x)
    (hnull : text.head? ≠ some Ascii.lowerN) : Written (option read) text (some x) := by
  obtain ⟨b, tail, rfl, hb⟩ := h.begins
  refine ⟨h.begins, fun rest hrest => ?_⟩
  rw [option, List.cons_append, (of_beginsValue hb).1]
  split
  · rename_i heq
    cases heq
    exact absurd rfl hnull
  · rw [← List.cons_append, h.reads rest hrest]
    rfl

theorem Written.map {α β : Type} {read : Reader α} {text : Bytes} {x : α} (f : α → β)
    (h : Written read text x) : Written (Reader.map f read) text (f x) where
  begins := h.begins
  reads rest hrest := by
    rw [Reader.map, h.reads rest hrest]
    rfl

end Json.Reader

end SealedState
