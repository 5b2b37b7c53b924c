/-
SealedState.Proofs.CborScalars — CBOR headers, texts and simple values are
read back.

The number in a header is written in the fewest of five widths, and read
back from each (`Header.read_head`). A reader may have taken a header
before it knows what to do with it; `Cursor.Before` says that a place is
in front of bytes in either case. `Written read item x` says that a reader
takes an item for a value from any such place, and leaves what follows.
Texts are read in chunks, which may cut a character in two
(`textChunks_encode`).

The items are those of `CborSerializer` in SPEC_FULL.md §4.3.
-/
import SealedState.Payload.CborItem
import SealedState.Proofs.ResultTheorems
import SealedState.Proofs.Utf8Theorems

namespace SealedState.Cbor

namespace Header

/-! ## Numbers -/

/-- A header that can be told from its text: its number fits into 64 bits,
and is less than 24 in a simple value. -/
inductive Fits : Header → Prop
  | positive {n : Nat} (h : n < 0x10000000000000000) : Fits (.positive n)
  | negative {n : Nat} (h : n < 0x10000000000000000) : Fits (.negative n)
  | bytes {n : Nat} (h : n < 0x10000000000000000) : Fits (.bytes (some n))
  | text {n : Nat} (h : n < 0x10000000000000000) : Fits (.text (some n))
  | array {n : Nat} (h : n < 0x10000000000000000) : Fits (.array (some n))
  | map {n : Nat} (h : n < 0x10000000000000000) : Fits (.map (some n))
  | tag {n : Nat} (h : n < 0x10000000000000000) : Fits (.tag n)
  | simple {n : Nat} (h : n < 24) : Fits (.simple n)

theorem read_cons {b : UInt8} {major low : Nat} (hb : b.toNat = 32 * major + low) (hlow : low < 32)
    {text rest : Bytes} {a : Argument} {h : Header}
    (hargument : argument (text.length + 1) low text = .ok (a, rest))
    (hheader : ofArgument? major a = some h) : read (b :: text) = .ok (h, rest) := by
  have hmod : b.toNat % 32 = low := by omega
  have hdiv : b.toNat / 32 = major := by omega
  rw [read, hmod, hdiv]
  simp only [hargument, ok_bind, hheader]
  rfl

theorem argument_here (left : Nat) {low : Nat} (h : low < 24) (rest : Bytes) :
    argument left low rest = .ok (.here low, rest) := by
  rw [argument, if_pos h]

theorem argument_after (left : Nat) {k : Nat} (hk : k < 4) {n : Nat} (hn : n < 1 <<< (8 * 1 <<< k))
    (rest : Bytes) : argument left (24 + k) (Bytes.bigEndian (1 <<< k) n ++ rest)
      = .ok (.after (1 <<< k) n, rest) := by
  have hsplit := Bytes.split?_append (Bytes.bigEndian (1 <<< k) n) rest
  rw [Bytes.length_bigEndian] at hsplit
  rw [argument, if_neg (by omega), if_pos (by omega), Nat.add_sub_cancel_left]
  simp only [hsplit, Bytes.toNat_bigEndian, Nat.mod_eq_of_lt hn]

/-- A number is read back from the fewest bytes that hold it. -/
theorem read_head {major n : Nat} (hmajor : major < 8) (hn : n < 0x10000000000000000) {h : Header}
    (hhere : n < 24 → ofArgument? major (.here n) = some h)
    (hafter : 24 ≤ n → ∀ width, ofArgument? major (.after width n) = some h) (rest : Bytes) :
    read (head major n ++ rest) = .ok (h, rest) := by
  have hbyte : ∀ low, low < 32 → (UInt8.ofNat (32 * major + low)).toNat = 32 * major + low :=
    fun low hlow => UInt8.toNat_ofNat_of_lt' (by simp only [UInt8.size]; omega)
  rw [head]
  split
  · rename_i h24
    exact read_cons (hbyte n (by omega)) (by omega) (argument_here _ h24 rest) (hhere h24)
  rename_i h24
  have hafter := hafter (Nat.le_of_not_lt h24)
  split
  · exact read_cons (hbyte 24 (by omega)) (by omega)
      (argument_after _ (k := 0) (by omega) ‹_› rest) (hafter _)
  split
  · exact read_cons (hbyte 25 (by omega)) (by omega)
      (argument_after _ (k := 1) (by omega) ‹_› rest) (hafter _)
  split
  · exact read_cons (hbyte 26 (by omega)) (by omega)
      (argument_after _ (k := 2) (by omega) ‹_› rest) (hafter _)
  · exact read_cons (hbyte 27 (by omega)) (by omega)
      (argument_after _ (k := 3) (by omega) hn rest) (hafter _)

/-- A header is read back, whatever follows. -/
theorem read_write {h : Header} (hfits : h.Fits) (rest : Bytes) :
    read (h.write ++ rest) = .ok (h, rest) := by
  cases hfits with
  | positive hn | negative hn | bytes hn | text hn | array hn | map hn | tag hn =>
    exact read_head (by omega) hn (fun _ => rfl) (fun _ _ => rfl) rest
  | simple hn =>
    exact read_head (by omega) (by omega) (fun _ => rfl)
      (fun h24 => absurd hn (Nat.not_lt.2 h24)) rest

theorem head_ne_nil (major n : Nat) : head major n ≠ [] := by
  rw [head]
  split
  · exact List.cons_ne_nil _ _
  split
  · exact List.cons_ne_nil _ _
  split
  · exact List.cons_ne_nil _ _
  split <;> exact List.cons_ne_nil _ _

theorem Fits.write_ne_nil {h : Header} (hfits : h.Fits) : h.write ≠ [] := by
  cases hfits <;> exact head_ne_nil _ _

end Header

/-! ## Places -/

namespace Cursor

/-- The place is in front of bytes; their header may have been read ahead. -/
inductive Before : Cursor → Bytes → Prop
  | start (b : Bytes) : Before ⟨none, b⟩ b
  | ahead {h : Header} (hfits : h.Fits) (rest : Bytes) : Before ⟨some h, rest⟩ (h.write ++ rest)

theorem Before.left {c : Cursor} {b : Bytes} (hc : c.Before b) : c.left = b.length := by
  cases hc with
  | start => rfl
  | ahead hfits rest => simp [Cursor.left, Header.size]

/-- A header is taken, whether it was read ahead or not. -/
theorem Before.take {c : Cursor} {h : Header} {rest : Bytes} (hfits : h.Fits)
    (hc : c.Before (h.write ++ rest)) : c.take = .ok (h, rest) := by
  generalize hb : h.write ++ rest = b at hc
  cases hc with
  | start => rw [← hb]; exact Header.read_write hfits rest
  | @ahead h' hfits' rest' =>
    -- both headers are read from the same bytes, so they are the same
    have heq := Header.read_write hfits rest
    rw [hb, Header.read_write hfits' rest'] at heq
    exact heq

end Cursor

/-! ## Text -/

/-- What is left of a text is read in chunks, behind the bytes that begin
its first character. -/
theorem textChunks_encode (start : Nat) (rest : Bytes) : ∀ (bound : Nat) (carried text : Bytes)
    (cs before : List Char), carried ++ text = cs.flatMap String.utf8EncodeChar →
    Utf8.span carried = ([], carried) → carried.length ≤ 3 → text.length < bound →
    textChunks start bound carried text.length before (text ++ rest) = .ok (before ++ cs, rest)
  | 0, _, _, _, _, _, _, _, hbound => absurd hbound (Nat.not_lt_zero _)
  | bound + 1, carried, text, cs, before, htext, hspan, hlength, hbound => by
      rw [textChunks]
      by_cases hempty : text = []
      · subst hempty
        have hall := Utf8.span_append [] cs
        rw [List.append_nil, ← htext, List.append_nil, hspan] at hall
        obtain ⟨hcs, hcarried⟩ := Prod.mk.inj hall
        obtain ⟨rfl, -⟩ := List.append_eq_nil_iff.1 hcs.symm
        have hcarried : carried = [] := hcarried
        rw [List.length_nil, if_pos rfl, if_pos hcarried]
        simp
      · have hpos := List.length_pos_iff.2 hempty
        rw [if_neg (by omega)]
        simp only
        -- three bytes at most are carried over, so every chunk takes at least one new byte
        generalize hnew : min chunkLength (carried.length + text.length) - carried.length = new
        have hnew : 0 < new ∧ new ≤ text.length := by
          simp only [chunkLength] at hnew
          omega
        have hsplit : Bytes.split? new (text ++ rest)
            = some (text.take new, text.drop new ++ rest) := by
          rw [Bytes.split?, if_pos (by rw [List.length_append]; omega),
            List.take_append_of_le_length hnew.2, List.drop_append_of_le_length hnew.2]
        have hfront : (carried ++ text.take new) ++ text.drop new
            = cs.flatMap String.utf8EncodeChar := by
          rw [List.append_assoc, List.take_append_drop, htext]
        obtain ⟨whole, left, cut, rfl, hchunk, hcut, hthree, hleft⟩ := Utf8.span_front hfront
        have hdrop : (text.drop new).length = text.length - new := List.length_drop
        have ih := textChunks_encode start rest bound cut (text.drop new) left (before ++ whole)
          hleft hcut hthree (by omega)
        simp only [hsplit, hchunk, if_neg (Nat.not_lt.2 hthree), ← hdrop, ih, List.append_assoc]

theorem textSegment_encode (start : Nat) (s : String) (rest : Bytes) :
    textSegment [] start (Utf8.encode s).length (Utf8.encode s ++ rest) = .ok (s.toList, rest) :=
  textChunks_encode start rest _ [] _ s.toList [] rfl rfl (Nat.zero_le 3) (Nat.lt_succ_self _)

theorem textAfter_encode (s : String) (rest : Bytes) :
    textAfter (some (Utf8.encode s).length) (Utf8.encode s ++ rest) = .ok (s, rest) := by
  rw [textAfter, string]
  simp only [textSegment_encode, ok_bind, String.ofList_toList]
  rfl

namespace Reader

variable {α β : Type}

/-! ## Written items -/

/-- A reader takes an item for a value, whatever follows, and wherever it
starts. -/
structure Written {α : Type} (read : Reader α) (item : Bytes) (x : α) : Prop where
  nonempty : item ≠ []
  reads : ∀ c rest, c.Before (item ++ rest) → read c = .ok (x, ⟨none, rest⟩)

theorem dispatch_before {read : (start : Nat) → Header → Bytes → Except Fault (α × Bytes)}
    {h : Header} (hfits : h.Fits) (htag : ∀ n, h ≠ .tag n) {c : Cursor} {rest : Bytes}
    (hc : c.Before (h.write ++ rest)) : dispatch read c = (do
      let (x, rest) ← read (h.write ++ rest).length h rest
      return (x, ⟨none, rest⟩)) := by
  have huntagged : untagged (c.left + 1) c = .ok ((h.write ++ rest).length, h, rest) := by
    rw [untagged, hc.take hfits, hc.left]
    cases hfits with
    | tag => exact absurd rfl (htag _)
    | positive | negative | bytes | text | array | map | simple => rfl
  rw [dispatch, huntagged]
  rfl

/-- An item is read by its header and what comes after that. -/
theorem Written.of_dispatch {read : (start : Nat) → Header → Bytes → Except Fault (α × Bytes)}
    {h : Header} (hfits : h.Fits) (htag : ∀ n, h ≠ .tag n) {text : Bytes} {x : α}
    (hread : ∀ start rest, read start h (text ++ rest) = .ok (x, rest)) :
    Written (dispatch read) (h.write ++ text) x where
  nonempty := List.append_ne_nil_of_left_ne_nil hfits.write_ne_nil text
  reads c rest hc := by
    rw [List.append_assoc] at hc
    rw [dispatch_before hfits htag hc, hread]
    rfl

theorem Written.map {read : Reader α} {item : Bytes} {x : α} (f : α → β)
    (h : Written read item x) : Written (Reader.map f read) item (f x) where
  nonempty := h.nonempty
  reads c rest hc := by
    rw [Reader.map, h.reads c rest hc]
    rfl

theorem written_boolean (b : Bool) : Written boolean (writeBoolean b) b := by
  have hfits : (Header.boolean b).Fits := by cases b <;> exact .simple (by decide)
  have hwritten : Written boolean ((Header.boolean b).write ++ []) b := by
    refine .of_dispatch hfits ?_ ?_
    · rintro n ⟨⟩
    · intro start rest
      cases b <;> rfl
  rwa [List.append_nil] at hwritten

end Reader

end SealedState.Cbor
