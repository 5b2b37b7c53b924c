/-
SealedState.Proofs.JsonDepth — JSON text is read only as deep as its
reader goes.

`Confined read text P` says that a reader either refuses a text or stops
at its end, and that then `P` holds. `confined_value` says so of the text
of any value, floating-point numbers included, where `P` is that the depth
of the value is at most the one left. A value that is too deep is
therefore refused, wherever in it the depth is.
-/
import SealedState.Proofs.JsonNumbers
import SealedState.Proofs.JsonValues

namespace SealedState.Json.Reader

variable {rest : Bytes} {first : Bool}

/-- A reader takes a text for a value only if a condition holds, and stops
at the end of it. -/
structure Confined (read : Reader Json) (text : Bytes) (P : Prop) : Prop where
  begins : ∃ b tail, text = b :: tail ∧ beginsValue b = true
  stops : ∀ rest, Ends rest → ∀ x after, read (text ++ rest) = .ok (x, after) → after = rest ∧ P

theorem Written.confined {read : Reader Json} {text : Bytes} {x : Json} {P : Prop}
    (h : Written read text x) (hp : P) : Confined read text P where
  begins := h.begins
  stops rest hrest y after hread := by
    rw [h.reads rest hrest] at hread
    cases hread
    exact ⟨rfl, hp⟩

/-! ## Numbers -/

theorem exists_unsigned {cs : List Char} (h : DecimalStyle.Unsigned cs) :
    ∃ b tail, Ascii.ofChars cs = b :: tail ∧ startsNumber b = true ∧ b ≠ Ascii.minus := by
  have hdigits : ∀ {digits : List Char}, DecimalStyle.Digits digits →
      ∃ b tail, Ascii.ofChars digits = b :: tail ∧ startsNumber b = true ∧ b ≠ Ascii.minus := by
    intro digits hdigits
    obtain ⟨hne, hall⟩ := isDigit_ofChars hdigits
    obtain ⟨b, tail, htail⟩ := List.exists_cons_of_ne_nil hne
    have hb := hall b (htail ▸ List.mem_cons_self)
    refine ⟨b, tail, htail, startsNumber_of_isDigit hb, ?_⟩
    rintro rfl
    exact absurd hb (by decide)
  cases h with
  | whole h _ =>
    obtain ⟨b, tail, htail, hb⟩ := hdigits h
    rw [Ascii.ofChars, List.map_append, ← Ascii.ofChars, htail]
    exact ⟨b, _, rfl, hb⟩
  | pointed h _ _ =>
    obtain ⟨b, tail, htail, hb⟩ := hdigits h
    rw [Ascii.ofChars, List.map_append, ← Ascii.ofChars, htail]
    exact ⟨b, _, rfl, hb⟩

/-- A floating-point number that is finite is read to its end, if it is
read. -/
theorem numberFrom_finite (style : DecimalStyle) (x : Binary64) : ∃ b tail,
    Ascii.ofString (style.finite x) = b :: tail ∧ startsNumber b = true ∧
      ∀ rest, Ends rest → Stops (numberFrom b) tail rest := by
  obtain ⟨cs, hcs, htext⟩ := style.exists_finite x
  obtain ⟨b, tail, htail, hb, hminus⟩ := exists_unsigned hcs
  rw [Ascii.ofString, htext]
  split
  · refine ⟨Ascii.minus, Ascii.ofChars cs, rfl, rfl, fun rest hrest y after hread => ?_⟩
    rw [numberFrom, if_pos rfl] at hread
    exact stops_number hrest true hcs y after hread
  · refine ⟨b, tail, htail, hb, fun rest hrest y after hread => ?_⟩
    rw [numberFrom, if_neg hminus, ← List.cons_append, ← htail] at hread
    exact stops_number hrest false hcs y after hread

theorem confined_float (d : Nat) (x : Binary64) {P : Prop} (hp : P) :
    Confined (value d) (writeFloat x) P := by
  obtain ⟨nested, hvalue⟩ := exists_value_eq d
  rw [writeFloat]
  split
  · obtain ⟨b, tail, htext, hb, hstops⟩ := numberFrom_finite numberStyle x
    rw [htext, hvalue]
    refine ⟨⟨b, tail, rfl, beginsValue_of_startsNumber hb⟩, fun rest hrest y after hread => ?_⟩
    rw [List.cons_append, element_number hb] at hread
    obtain ⟨⟨n, after'⟩, hnumber, heq⟩ := bind_eq_ok_iff.1 hread
    cases heq
    exact ⟨hstops rest hrest n after hnumber, hp⟩
  · exact (written_value .null d (Nat.zero_le d)).confined hp

/-! ## Containers -/

variable {read : Reader Json}

theorem confined_items {P : Json → Prop} : ∀ (xs : List Json),
    (∀ x ∈ xs, Confined read x.write (P x)) → ∀ (bound : Nat) (first : Bool) (ys : List Json)
      (after : Bytes),
    items read bound first (listed first (writeItems xs) ++ Ascii.closeBracket :: rest)
      = .ok (ys, after) → after = rest ∧ ∀ x ∈ xs, P x
  -- without a bound nothing is read
  | _, _, 0, _, _, _, h => by cases h
  | [], _, bound + 1, first, ys, after, h => by
      rw [writeItems, listed, List.nil_append, items_closed] at h
      cases h
      exact ⟨rfl, by simp⟩
  | x :: xs, hall, bound + 1, first, ys, after, h => by
      obtain ⟨hx, hxs⟩ := List.forall_mem_cons.1 hall
      obtain ⟨b, tail, htext, hb⟩ := hx.begins
      have hstops := hx.stops _ (ends_listed ends_closeBracket rest (writeItems xs))
      rw [htext, List.cons_append] at hstops
      rw [writeItems, listed, htext, List.append_assoc, List.append_assoc, List.cons_append,
        items_more (nextItem_lead hb)] at h
      obtain ⟨⟨y, left⟩, hread, h⟩ := bind_eq_ok_iff.1 h
      obtain ⟨⟨ys', left'⟩, hitems, h⟩ := bind_eq_ok_iff.1 h
      cases h
      -- the reader of the first item stopped where the others begin
      obtain ⟨hleft, hp⟩ := hstops y left hread
      subst hleft
      obtain ⟨hafter, hps⟩ := confined_items xs hxs bound false _ _ hitems
      exact ⟨hafter, List.forall_mem_cons.2 ⟨hp, hps⟩⟩

theorem confined_members {P : Json → Prop} : ∀ (ms : List (String × Json)),
    (∀ m ∈ ms, Confined read m.2.write (P m.2)) → ∀ (bound : Nat) (first : Bool)
      (before ys : List (String × Json)) (after : Bytes),
    members read bound first before (listed first (writeMembers ms) ++ Ascii.closeBrace :: rest)
      = .ok (ys, after) → after = rest ∧ ∀ m ∈ ms, P m.2
  | _, _, 0, _, _, _, _, h => by cases h
  | [], _, bound + 1, first, before, ys, after, h => by
      rw [writeMembers, listed, List.nil_append, members_closed] at h
      cases h
      exact ⟨rfl, by simp⟩
  | (name, x) :: ms, hall, bound + 1, first, before, ys, after, h => by
      obtain ⟨hx, hms⟩ := List.forall_mem_cons.1 hall
      have hstops := hx.stops _ (ends_listed ends_closeBrace rest (writeMembers ms))
      rw [writeMembers, listed, List.append_assoc, List.append_assoc, writeMember_append,
        members_more] at h
      obtain ⟨⟨y, left⟩, hread, h⟩ := bind_eq_ok_iff.1 h
      obtain ⟨hleft, hp⟩ := hstops y left hread
      subst hleft
      obtain ⟨hafter, hps⟩ := confined_members ms hms bound false _ _ _ h
      exact ⟨hafter, List.forall_mem_cons.2 ⟨hp, hps⟩⟩

/-- The text of a value is read only where its containers may be open,
whatever numbers occur in it. -/
theorem confined_value (x : Json) : ∀ d, Confined (value d) x.write (x.depth ≤ d) := by
  induction x using Json.induct with
  | null => exact fun d => (written_value .null d (Nat.zero_le d)).confined (Nat.zero_le d)
  | boolean b =>
    exact fun d => (written_value (.boolean b) d (Nat.zero_le d)).confined (Nat.zero_le d)
  | text s => exact fun d => (written_value (.text s) d (Nat.zero_le d)).confined (Nat.zero_le d)
  | number n =>
    intro d
    cases n with
    | integer n => exact (written_value (.integer n) d (Nat.zero_le d)).confined (Nat.zero_le d)
    | float x => exact confined_float d x (Nat.zero_le d)
  | list items ih =>
    intro d
    refine ⟨⟨Ascii.openBracket, _, rfl, by decide⟩, fun rest hrest y after hread => ?_⟩
    rw [write, writeList_append] at hread
    cases d with
    | zero => cases hread -- no container may be open
    | succ d =>
      rw [value_openBracket] at hread
      obtain ⟨⟨ys, left⟩, hitems, hread⟩ := bind_eq_ok_iff.1 hread
      cases hread
      obtain ⟨hafter, hdepth⟩ := confined_items items (fun x hx => ih x hx d) _ _ _ _ hitems
      exact ⟨hafter, Nat.succ_le_succ (depthItems_le_iff.2 hdepth)⟩
  | object members ih =>
    intro d
    refine ⟨⟨Ascii.openBrace, _, rfl, by decide⟩, fun rest hrest y after hread => ?_⟩
    rw [write, writeObject_append] at hread
    cases d with
    | zero => cases hread -- no container may be open
    | succ d =>
      rw [value_openBrace] at hread
      obtain ⟨⟨ys, left⟩, hmembers, hread⟩ := bind_eq_ok_iff.1 hread
      cases hread
      obtain ⟨hafter, hdepth⟩ := confined_members (P := fun x => x.depth ≤ d) members
        (fun m hm => ih m hm d) _ _ _ _ _ hmembers
      exact ⟨hafter, Nat.succ_le_succ (depthMembers_le_iff.2 hdepth)⟩

end SealedState.Json.Reader
