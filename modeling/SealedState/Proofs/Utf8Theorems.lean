/-
SealedState.Proofs.Utf8Theorems — characters are read back from their
bytes.

`Form c b` says of the bytes `b` that they are read as the character `c`,
and that no shorter beginning of them is read as a character. Every
character is written in such a form (`form_encodeChar`), so a text is read
up to where it ends (`span_append`). Where it is cut, what is left of the
last character is left alone, three bytes at most (`span_front`). A byte
below 128 is a character of its own, wherever it stands in a text
(`exists_of_bytes_eq_cons`).
-/
import SealedState.Bytes.Ascii
import SealedState.Text.Utf8

namespace SealedState.Utf8

theorem scalar?_toNat {c : Char} {least : Nat} (h : least ≤ c.toNat) :
    scalar? least c.toNat = some c := by
  have hvalid : c.toNat.isValidChar := c.valid
  rw [scalar?, dif_pos ⟨h, hvalid⟩]
  rfl

/-! ## Forms -/

/-- The bytes that `span` reads as a character: those that begin it are not
read as a shorter one. -/
inductive Form (c : Char) : Bytes → Prop
  | one {a : UInt8} (hascii : a < 0x80) (h : Char.ofNat a.toNat = c) : Form c [a]
  | two {a b : UInt8} (hascii : ¬ a < 0x80) (h : two? a b = some c) : Form c [a, b]
  | three {a b d : UInt8} (hascii : ¬ a < 0x80) (htwo : two? a b = none)
      (h : three? a b d = some c) : Form c [a, b, d]
  | four {a b d e : UInt8} (hascii : ¬ a < 0x80) (htwo : two? a b = none)
      (hthree : three? a b d = none) (h : four? a b d e = some c) : Form c [a, b, d, e]

theorem toNat_byte {n : Nat} (h : n < 0x100) : (UInt8.ofNat n).toNat = n := by
  rw [UInt8.toNat_ofNat', Nat.mod_eq_of_lt h]

theorem byte_lt_iff {n : Nat} (h : n < 0x100) {b : UInt8} : UInt8.ofNat n < b ↔ n < b.toNat := by
  rw [UInt8.lt_iff_toNat_lt, toNat_byte h]

theorem le_byte_iff {n : Nat} (h : n < 0x100) {b : UInt8} : b ≤ UInt8.ofNat n ↔ b.toNat ≤ n := by
  rw [UInt8.le_iff_toNat_le, toNat_byte h]

theorem isContinuation_byte {n : Nat} (h : n < 0x40) :
    isContinuation (UInt8.ofNat (n + 0x80)) = true := by
  simp only [isContinuation, Bool.and_eq_true, decide_eq_true_eq,
    le_byte_iff (show n + 0x80 < 0x100 by omega), byte_lt_iff (show n + 0x80 < 0x100 by omega)]
  simp
  omega

theorem two?_byte {n m : Nat} (hn : n < 0x20) (hm : m < 0x40) :
    two? (UInt8.ofNat (n + 0xc0)) (UInt8.ofNat (m + 0x80)) = scalar? 0x80 (n * 64 + m) := by
  have hlead : n + 0xc0 < 0x100 := by omega
  rw [two?, isContinuation_byte hm, toNat_byte hlead, toNat_byte (show m + 0x80 < 0x100 by omega),
    show (n + 0xc0) % 32 = n by omega, show (m + 0x80) % 64 = m by omega, if_pos]
  simp only [Bool.and_true, Bool.and_eq_true, decide_eq_true_eq, le_byte_iff hlead,
    byte_lt_iff hlead]
  simp
  omega

theorem two?_of_le {a : UInt8} (h : 0xe0 ≤ a) (b : UInt8) : two? a b = none := by
  have hnot : ¬ a < 0xe0 := UInt8.not_lt.2 h
  simp [two?, hnot]

theorem three?_byte {n m k : Nat} (hn : n < 0x10) (hm : m < 0x40) (hk : k < 0x40) :
    three? (UInt8.ofNat (n + 0xe0)) (UInt8.ofNat (m + 0x80)) (UInt8.ofNat (k + 0x80))
      = scalar? 0x800 (n * 4096 + m * 64 + k) := by
  have hlead : n + 0xe0 < 0x100 := by omega
  rw [three?, isContinuation_byte hm, isContinuation_byte hk, toNat_byte hlead,
    toNat_byte (show m + 0x80 < 0x100 by omega), toNat_byte (show k + 0x80 < 0x100 by omega),
    show (n + 0xe0) % 16 = n by omega, show (m + 0x80) % 64 = m by omega,
    show (k + 0x80) % 64 = k by omega, if_pos]
  simp only [Bool.and_true, Bool.and_eq_true, decide_eq_true_eq, le_byte_iff hlead,
    byte_lt_iff hlead]
  simp
  omega

theorem three?_of_le {a : UInt8} (h : 0xf0 ≤ a) (b d : UInt8) : three? a b d = none := by
  have hnot : ¬ a < 0xf0 := UInt8.not_lt.2 h
  simp [three?, hnot]

theorem four?_byte {n m k l : Nat} (hn : n < 0x8) (hm : m < 0x40) (hk : k < 0x40) (hl : l < 0x40) :
    four? (UInt8.ofNat (n + 0xf0)) (UInt8.ofNat (m + 0x80)) (UInt8.ofNat (k + 0x80))
      (UInt8.ofNat (l + 0x80)) = scalar? 0x10000 (n * 262144 + m * 4096 + k * 64 + l) := by
  have hlead : n + 0xf0 < 0x100 := by omega
  rw [four?, isContinuation_byte hm, isContinuation_byte hk, isContinuation_byte hl,
    toNat_byte hlead, toNat_byte (show m + 0x80 < 0x100 by omega),
    toNat_byte (show k + 0x80 < 0x100 by omega), toNat_byte (show l + 0x80 < 0x100 by omega),
    show (n + 0xf0) % 8 = n by omega, show (m + 0x80) % 64 = m by omega,
    show (k + 0x80) % 64 = k by omega, show (l + 0x80) % 64 = l by omega, if_pos]
  simp only [Bool.and_true, Bool.and_eq_true, decide_eq_true_eq, le_byte_iff hlead,
    byte_lt_iff hlead]
  simp
  omega

/-- Every character is written in a form in which it is read. -/
theorem form_encodeChar (c : Char) : Form c (String.utf8EncodeChar c) := by
  have hmax : c.toNat < 0x110000 := by
    rcases c.valid with h | ⟨-, h⟩ <;> simp only [Char.toNat] <;> omega
  have hascii : ∀ {n : Nat}, 0x80 ≤ n → n < 0x100 → ¬ UInt8.ofNat n < 0x80 := by
    intro n hlow hhigh
    rw [byte_lt_iff hhigh]
    exact Nat.not_lt.2 hlow
  -- the cases are those of the widths, from one byte to four
  unfold String.utf8EncodeChar
  change Form c (ite (c.toNat ≤ 0x7f) [UInt8.ofNat c.toNat] _)
  split
  · rename_i h
    refine .one ((byte_lt_iff (by omega)).2 (Nat.lt_succ_of_le h)) ?_
    rw [toNat_byte (by omega), Char.ofNat_toNat]
  · rename_i hone
    change Form c (ite (c.toNat ≤ 0x7ff) [UInt8.ofNat (c.toNat / 64 % 0x20 + 0xc0),
      UInt8.ofNat (c.toNat % 0x40 + 0x80)] _)
    split
    · refine .two (hascii (by omega) (by omega)) ?_
      rw [two?_byte (by omega) (by omega),
        show c.toNat / 64 % 0x20 * 64 + c.toNat % 0x40 = c.toNat by omega]
      exact scalar?_toNat (by omega)
    · rename_i htwo
      change Form c (ite (c.toNat ≤ 0xffff) [UInt8.ofNat (c.toNat / 4096 % 0x10 + 0xe0),
        UInt8.ofNat (c.toNat / 64 % 0x40 + 0x80), UInt8.ofNat (c.toNat % 0x40 + 0x80)] _)
      split
      · have hlead : (0xe0 : UInt8) ≤ UInt8.ofNat (c.toNat / 4096 % 0x10 + 0xe0) :=
          (le_byte_iff (by omega)).2 (Nat.le_add_left ..)
        refine .three (hascii (by omega) (by omega)) (two?_of_le hlead _) ?_
        rw [three?_byte (by omega) (by omega) (by omega),
          show c.toNat / 4096 % 0x10 * 4096 + c.toNat / 64 % 0x40 * 64 + c.toNat % 0x40
            = c.toNat by omega]
        exact scalar?_toNat (by omega)
      · rename_i hthree
        change Form c [UInt8.ofNat (c.toNat / 262144 % 0x08 + 0xf0),
          UInt8.ofNat (c.toNat / 4096 % 0x40 + 0x80), UInt8.ofNat (c.toNat / 64 % 0x40 + 0x80),
          UInt8.ofNat (c.toNat % 0x40 + 0x80)]
        have hlead : (0xf0 : UInt8) ≤ UInt8.ofNat (c.toNat / 262144 % 0x08 + 0xf0) :=
          (le_byte_iff (by omega)).2 (Nat.le_add_left ..)
        refine .four (hascii (by omega) (by omega))
          (two?_of_le (UInt8.le_trans (by decide) hlead) _) (three?_of_le hlead _ _) ?_
        rw [four?_byte (by omega) (by omega) (by omega) (by omega),
          show c.toNat / 262144 % 0x08 * 262144 + c.toNat / 4096 % 0x40 * 4096
            + c.toNat / 64 % 0x40 * 64 + c.toNat % 0x40 = c.toNat by omega]
        exact scalar?_toNat (by omega)

/-! ## Reading -/

theorem span_form {c : Char} {b : Bytes} (h : Form c b) (rest : Bytes) :
    span (b ++ rest) = push c (span rest) := by
  cases h with
  | one hascii h =>
    rw [List.singleton_append, span.eq_def]
    simp only [hascii, if_true, h]
  | two hascii h =>
    rw [List.cons_append, List.singleton_append, span.eq_def]
    simp only [hascii, if_false, h]
  | three hascii htwo h =>
    simp only [List.cons_append, List.nil_append]
    rw [span.eq_def]
    simp only [hascii, if_false, htwo, h]
  | four hascii htwo hthree h =>
    simp only [List.cons_append, List.nil_append]
    rw [span.eq_def]
    simp only [hascii, if_false, htwo, hthree, h]

/-- A character that is cut is left alone. -/
theorem span_cut {c : Char} {front back : Bytes} (h : Form c (front ++ back)) (hback : back ≠ []) :
    span front = ([], front) ∧ front.length ≤ 3 := by
  generalize hb : front ++ back = b at h
  cases h with
  | one hascii h =>
    match front, back, hb, hback with
    | [], _, _, _ => simp [span]
    | [_], [], _, hback => exact absurd rfl hback
  | two hascii h =>
    match front, back, hb, hback with
    | [], _, _, _ => simp [span]
    | [_], [_], rfl, _ => simp [span, hascii]
    | [_, _], [], _, hback => exact absurd rfl hback
  | three hascii htwo h =>
    match front, back, hb, hback with
    | [], _, _, _ => simp [span]
    | [_], [_, _], rfl, _ => simp [span, hascii]
    | [_, _], [_], rfl, _ => simp [span, hascii, htwo]
    | [_, _, _], [], _, hback => exact absurd rfl hback
  | four hascii htwo hthree h =>
    match front, back, hb, hback with
    | [], _, _, _ => simp [span]
    | [_], [_, _, _], rfl, _ => simp [span, hascii]
    | [_, _], [_, _], rfl, _ => simp [span, hascii, htwo]
    | [_, _, _], [_], rfl, _ => simp [span, hascii, htwo, hthree]
    | [_, _, _, _], [], _, hback => exact absurd rfl hback

/-- Written characters are read up to where something else follows. -/
theorem span_append (rest : Bytes) (cs : List Char) :
    span (cs.flatMap String.utf8EncodeChar ++ rest) = (cs ++ (span rest).1, (span rest).2) := by
  induction cs with
  | nil => rfl
  | cons c cs ih =>
    rw [List.flatMap_cons, List.append_assoc, span_form (form_encodeChar c), ih]
    rfl

/-- A beginning of a text ends with at most three bytes of a character that
goes on behind it. -/
theorem span_front {back : Bytes} : ∀ {cs : List Char} {front : Bytes},
    front ++ back = cs.flatMap String.utf8EncodeChar → ∃ whole left cut,
      cs = whole ++ left ∧ span front = (whole, cut) ∧ span cut = ([], cut) ∧ cut.length ≤ 3 ∧
        cut ++ back = left.flatMap String.utf8EncodeChar
  | [], front, h => by
      obtain ⟨rfl, rfl⟩ := List.append_eq_nil_iff.1 h
      exact ⟨[], [], [], rfl, rfl, rfl, Nat.zero_le 3, rfl⟩
  | c :: cs, front, h => by
      have hform := form_encodeChar c
      rw [List.flatMap_cons] at h
      -- the cut is in this character or at its end, or else behind it
      rcases List.append_eq_append_iff.1 h with ⟨more, hc, hback⟩ | ⟨front, rfl, hrest⟩
      · rcases List.eq_nil_or_concat more with rfl | hmore
        · rw [List.append_nil] at hc
          rw [List.nil_append] at hback
          refine ⟨[c], cs, [], rfl, ?_, rfl, Nat.zero_le 3, hback⟩
          have hspan := span_form hform []
          rwa [List.append_nil, hc] at hspan
        · have hne : more ≠ [] := by
            obtain ⟨init, last, rfl⟩ := hmore
            simp
          rw [hc] at hform
          obtain ⟨hspan, hlength⟩ := span_cut hform hne
          refine ⟨[], c :: cs, front, rfl, hspan, hspan, hlength, ?_⟩
          rw [List.flatMap_cons, h]
      · obtain ⟨whole, left, cut, rfl, hspan, hcut, hlength, hleft⟩ := span_front hrest.symm
        refine ⟨c :: whole, left, cut, rfl, ?_, hcut, hlength, hleft⟩
        rw [span_form hform, hspan]
        rfl

theorem span_encode (s : String) : span (encode s) = (s.toList, []) := by
  have h := span_append [] s.toList
  rw [List.append_nil] at h
  rw [encode, h]
  simp [span]

/-- A string is read back from its bytes. -/
theorem decode?_encode (s : String) : decode? (encode s) = some s := by
  rw [decode?, span_encode]
  simp

/-! ## Characters of ASCII -/

/-- The bytes of characters. -/
def bytes (cs : List Char) : Bytes := cs.flatMap String.utf8EncodeChar

theorem bytes_cons (c : Char) (cs : List Char) :
    bytes (c :: cs) = String.utf8EncodeChar c ++ bytes cs := List.flatMap_cons

theorem bytes_append (cs ds : List Char) : bytes (cs ++ ds) = bytes cs ++ bytes ds :=
  List.flatMap_append

theorem encodeChar_ne_nil (c : Char) : String.utf8EncodeChar c ≠ [] := by
  have hform := form_encodeChar c
  intro hnil
  rw [hnil] at hform
  cases hform

theorem bytes_cons_ne_nil (c : Char) (cs : List Char) : bytes (c :: cs) ≠ [] := by
  rw [bytes_cons]
  exact List.append_ne_nil_of_left_ne_nil (encodeChar_ne_nil c) _

theorem length_le_bytes (cs : List Char) : cs.length ≤ (bytes cs).length := by
  induction cs with
  | nil => exact Nat.le_refl 0
  | cons c cs ih =>
    have hpos := List.length_pos_iff.2 (encodeChar_ne_nil c)
    rw [bytes_cons, List.length_append, List.length_cons]
    omega

theorem encodeChar_of_ascii {c : Char} (h : c.toNat < 0x80) :
    String.utf8EncodeChar c = [UInt8.ofNat c.toNat] := by
  unfold String.utf8EncodeChar
  change ite (c.toNat ≤ 0x7f) [UInt8.ofNat c.toNat] _ = _
  rw [if_pos (Nat.le_of_lt_succ h)]

theorem bytes_cons_of_ascii {c : Char} (h : c.toNat < 0x80) (cs : List Char) :
    bytes (c :: cs) = UInt8.ofNat c.toNat :: bytes cs := by
  rw [bytes_cons, encodeChar_of_ascii h, List.singleton_append]

theorem bytes_of_ascii : ∀ {ds : List Char}, (∀ c ∈ ds, c.toNat < 0x80) →
    bytes ds = Ascii.ofChars ds
  | [], _ => rfl
  | c :: ds, h => by
      obtain ⟨hc, h⟩ := List.forall_mem_cons.1 h
      rw [bytes_cons_of_ascii hc, bytes_of_ascii h]
      rfl

/-- The bytes of a character beyond ASCII are none of ASCII. -/
theorem le_of_mem_encodeChar {c : Char} (h : 0x80 ≤ c.toNat) {b : UInt8}
    (hb : b ∈ String.utf8EncodeChar c) : 0x80 ≤ b := by
  have hbyte : ∀ {n : Nat}, 0x80 ≤ n → n < 0x100 → (0x80 : UInt8) ≤ UInt8.ofNat n := by
    intro n hlow hhigh
    rw [UInt8.le_iff_toNat_le, toNat_byte hhigh]
    exact hlow
  unfold String.utf8EncodeChar at hb
  change b ∈ ite (c.toNat ≤ 0x7f) [UInt8.ofNat c.toNat] (ite (c.toNat ≤ 0x7ff)
    [UInt8.ofNat (c.toNat / 64 % 0x20 + 0xc0), UInt8.ofNat (c.toNat % 0x40 + 0x80)]
    (ite (c.toNat ≤ 0xffff) [UInt8.ofNat (c.toNat / 4096 % 0x10 + 0xe0),
      UInt8.ofNat (c.toNat / 64 % 0x40 + 0x80), UInt8.ofNat (c.toNat % 0x40 + 0x80)]
      [UInt8.ofNat (c.toNat / 262144 % 0x08 + 0xf0), UInt8.ofNat (c.toNat / 4096 % 0x40 + 0x80),
        UInt8.ofNat (c.toNat / 64 % 0x40 + 0x80), UInt8.ofNat (c.toNat % 0x40 + 0x80)])) at hb
  rw [if_neg (by omega)] at hb
  split at hb
  · simp only [List.mem_cons, List.not_mem_nil, or_false] at hb
    rcases hb with rfl | rfl <;> exact hbyte (by omega) (by omega)
  · split at hb
    · simp only [List.mem_cons, List.not_mem_nil, or_false] at hb
      rcases hb with rfl | rfl | rfl <;> exact hbyte (by omega) (by omega)
    · simp only [List.mem_cons, List.not_mem_nil, or_false] at hb
      rcases hb with rfl | rfl | rfl | rfl <;> exact hbyte (by omega) (by omega)

/-- Bytes that begin with one of ASCII begin with its character. -/
theorem exists_of_bytes_eq_cons {cs : List Char} {b : UInt8} {rest : Bytes}
    (h : bytes cs = b :: rest) (hascii : b < 0x80) :
    ∃ cs', cs = Char.ofNat b.toNat :: cs' ∧ rest = bytes cs' := by
  cases cs with
  | nil => cases h
  | cons c cs =>
    by_cases hc : c.toNat < 0x80
    · rw [bytes_cons_of_ascii hc] at h
      obtain ⟨rfl, rfl⟩ := List.cons.inj h
      rw [toNat_byte (by omega), Char.ofNat_toNat]
      exact ⟨cs, rfl, rfl⟩
    · obtain ⟨first, tail, hcons⟩ := List.exists_cons_of_ne_nil (encodeChar_ne_nil c)
      have hle := le_of_mem_encodeChar (Nat.le_of_not_lt hc) (hcons ▸ List.mem_cons_self)
      rw [bytes_cons, hcons, List.cons_append] at h
      rw [(List.cons.inj h).1] at hle
      exact absurd hascii (UInt8.not_lt.2 hle)

end SealedState.Utf8
