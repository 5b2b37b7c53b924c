/-
SealedState.Proofs.CborIntegers — integers of up to 128 bits in CBOR.

An integer beyond 64 bits is a tag with a byte string, which has no
leading zeros (`exists_shortBytes`). A negative integer is written as its
distance from minus one; `Magnitude.of` is the number that is read, and
`magnitude_writeInteger` says that it is read back in either form.
-/
import SealedState.Proofs.CborScalars

namespace SealedState

namespace Bytes

theorem toNat_zero_cons (b : Bytes) : toNat (0 :: b) = toNat b := rfl

/-- Leading zeros do not count. -/
theorem toNat_dropWhile_zero (b : Bytes) : toNat (b.dropWhile (· == 0)) = toNat b := by
  induction b with
  | nil => rfl
  | cons x b ih =>
    rw [List.dropWhile_cons]
    split
    · rename_i hx
      rw [eq_of_beq hx, ih, toNat_zero_cons]
    · rfl

theorem ne_zero_of_dropWhile {x : UInt8} {bytes : Bytes} : ∀ {b : Bytes},
    b.dropWhile (· == 0) = x :: bytes → x ≠ 0
  | [], h => by cases h
  | y :: b, h => by
      rw [List.dropWhile_cons] at h
      split at h
      · exact ne_zero_of_dropWhile h
      · cases h
        rename_i hx
        exact fun heq => hx (beq_iff_eq.2 heq)

end Bytes

namespace Cbor

theorem toNat_shortBytes {n : Nat} (h : n < 0x100000000000000000000000000000000) :
    Bytes.toNat (shortBytes n) = n := by
  rw [shortBytes, Bytes.toNat_dropWhile_zero, Bytes.toNat_bigEndian]
  exact Nat.mod_eq_of_lt h

theorem length_shortBytes (n : Nat) : (shortBytes n).length ≤ 16 := by
  have hle := (List.dropWhile_sublist (p := (· == 0)) (l := Bytes.bigEndian 16 n)).length_le
  rwa [Bytes.length_bigEndian] at hle

/-- A positive number has a first byte, which is not zero. -/
theorem exists_shortBytes {n : Nat} (hpos : 0 < n) (h : n < 0x100000000000000000000000000000000) :
    ∃ b bytes, shortBytes n = b :: bytes ∧ b ≠ 0 := by
  have hvalue := toNat_shortBytes h
  cases hshort : shortBytes n with
  | nil =>
    rw [hshort] at hvalue
    exact absurd hvalue (Nat.ne_of_lt hpos)
  | cons b bytes =>
    refine ⟨b, bytes, rfl, ?_⟩
    exact Bytes.ne_zero_of_dropWhile hshort

namespace Reader

theorem addBigDigits_append (bytes : Bytes) : ∀ digits : Bytes, digits ≠ [] →
    digits.length + bytes.length ≤ maxBigLength →
    addBigDigits digits bytes = .ok (digits ++ bytes) := by
  induction bytes with
  | nil =>
    intro digits _ _
    rw [addBigDigits, List.append_nil]
  | cons b bytes ih =>
    intro digits hne hlength
    rw [List.length_cons] at hlength
    have ih := ih (digits ++ [b]) (by simp)
      (by rw [List.length_append, List.length_singleton]; omega)
    rw [addBigDigits, if_neg (by omega), if_neg (by simp [hne]), ih]
    simp

/-- The digits of a great integer are read back. -/
theorem bigDigits_shortBytes {n : Nat} (hpos : 0 < n)
    (h : n < 0x100000000000000000000000000000000) (rest : Bytes) :
    bigDigits ((Header.bytes (shortBytes n).length).write ++ (shortBytes n ++ rest))
      = .ok (n, rest) := by
  have hlength := length_shortBytes n
  have hvalue := toNat_shortBytes h
  obtain ⟨b, bytes, hshort, hb⟩ := exists_shortBytes hpos h
  rw [hshort] at hlength hvalue ⊢
  have hadd : addBigDigits [] (b :: bytes) = .ok (b :: bytes) := by
    rw [addBigDigits, if_neg (by decide), if_neg (by simp [hb])]
    refine addBigDigits_append bytes [b] (by simp) ?_
    rw [List.length_singleton, Nat.add_comm]
    exact hlength
  have hsplit := Bytes.split?_append (b :: bytes) rest
  rw [bigDigits, Header.read_write (.bytes (by omega)), ok_bind]
  simp only [string]
  rw [bigChunks, if_neg (by simp)]
  simp only [Nat.min_eq_right hlength, hsplit, hadd, ok_bind, Nat.sub_self, maxBigLength]
  rw [List.length_cons, bigChunks, if_pos rfl]
  simp only [ok_bind, hvalue]
  rfl

/-- How far an integer is from zero or from minus one. -/
def Magnitude.of : Int → Magnitude
  | .ofNat n => .positive n
  | .negSucc n => .negative n

theorem Magnitude.toInt_of (n : Int) : (Magnitude.of n).toInt = n := by
  cases n with
  | ofNat n => rfl
  | negSucc n =>
    change (-1 - (n : Int)) = _
    omega

theorem magnitude_small {header : Nat → Header} {n : Nat} {m : Magnitude} (hfits : (header n).Fits)
    (hheader : header = .positive ∧ m = .positive n ∨ header = .negative ∧ m = .negative n)
    (bound : Nat) {c : Cursor} {rest : Bytes} (hc : c.Before ((header n).write ++ rest)) :
    magnitude (bound + 1) c = .ok (m, rest) := by
  rw [magnitude, hc.take hfits]
  rcases hheader with ⟨rfl, rfl⟩ | ⟨rfl, rfl⟩ <;> rfl

theorem magnitude_big {tag n : Nat} {m : Magnitude} (hpos : 0 < n)
    (h : n < 0x100000000000000000000000000000000)
    (htag : tag = bigPositive ∧ m = .positive n ∨ tag = bigNegative ∧ m = .negative n)
    (bound : Nat) {c : Cursor} {rest : Bytes}
    (hc : c.Before ((Header.tag tag).write ++ ((Header.bytes (shortBytes n).length).write
      ++ (shortBytes n ++ rest)))) : magnitude (bound + 1) c = .ok (m, rest) := by
  have hread := bigDigits_shortBytes hpos h rest
  rcases htag with ⟨rfl, rfl⟩ | ⟨rfl, rfl⟩
  · rw [magnitude, hc.take (.tag (by decide)), ok_bind]
    simp only [if_true, hread, ok_bind]
    rfl
  · rw [magnitude, hc.take (.tag (by decide)), ok_bind]
    simp only [show ¬ bigNegative = bigPositive by decide, if_false, if_true, hread, ok_bind]
    rfl

/-- An integer of 128 bits, read as one that is not negative or how far it
is below minus one. -/
theorem magnitude_writeInteger {v : Int} (hleast : -0x80000000000000000000000000000000 ≤ v)
    (hgreatest : v ≤ 0x7fffffffffffffffffffffffffffffff) (bound : Nat) {c : Cursor} {rest : Bytes}
    (hc : c.Before (writeInteger v ++ rest)) :
    magnitude (bound + 1) c = .ok (.of v, rest) := by
  cases v with
  | ofNat n =>
    have hn : (n : Int) ≤ 0x7fffffffffffffffffffffffffffffff := hgreatest
    rw [writeInteger, writeNatural] at hc
    -- up to 64 bits the header holds the number, and beyond that a string of bytes
    split at hc
    · exact magnitude_small (.positive ‹_›) (.inl ⟨rfl, rfl⟩) bound hc
    · rw [List.append_assoc, List.append_assoc] at hc
      exact magnitude_big (by omega) (by omega) (.inl ⟨rfl, rfl⟩) bound hc
  | negSucc n =>
    rw [writeInteger, writeNatural] at hc
    split at hc
    · exact magnitude_small (.negative ‹_›) (.inr ⟨rfl, rfl⟩) bound hc
    · rw [List.append_assoc, List.append_assoc] at hc
      exact magnitude_big (by omega) (by omega) (.inr ⟨rfl, rfl⟩) bound hc

theorem bounds_carrier (k : IntegerKind) :
    k.bounds.greatest ≤ (carrier k).bounds.greatest ∧
      -1 - k.bounds.least ≤ (carrier k).bounds.greatest ∧
      (k.isSigned = false → 0 ≤ k.bounds.least) := by
  cases k <;> decide

theorem bounds_i128 (k : IntegerKind) : -0x80000000000000000000000000000000 ≤ k.bounds.least ∧
    k.bounds.greatest ≤ 0x7fffffffffffffffffffffffffffffff := by
  cases k <;> decide

theorem ofMagnitude_of {k : IntegerKind} (v : k.Value) : ofMagnitude k (.of v.val) = .ok v := by
  obtain ⟨n, hleast, hgreatest⟩ := v
  obtain ⟨hcarrier, hbelow, hunsigned⟩ := bounds_carrier k
  have hsign : ((Magnitude.of n).isNegative && !k.isSigned) = false := by
    cases n with
    | ofNat n => rfl
    | negSucc n =>
      cases hsigned : k.isSigned with
      | true => rfl
      | false =>
        have := hunsigned hsigned
        omega
  have hsize : ¬ (carrier k).bounds.greatest < (Magnitude.of n).number := by
    cases n with
    | ofNat n =>
      have hn : (n : Int) ≤ k.bounds.greatest := hgreatest
      change ¬ (carrier k).bounds.greatest < (n : Int)
      omega
    | negSucc n =>
      change ¬ (carrier k).bounds.greatest < (n : Int)
      omega
  rw [ofMagnitude, hsign, if_neg Bool.false_ne_true, if_neg hsize]
  simp only [Magnitude.toInt_of]
  rw [Bounds.ofInt?_val k.bounds ⟨n, hleast, hgreatest⟩]

theorem writeInteger_ne_nil (v : Int) : writeInteger v ≠ [] := by
  have hnatural : ∀ (header : Nat → Header) (bigTag n : Nat),
      (∀ n, n < 0x10000000000000000 → (header n).Fits) → writeNatural header bigTag n ≠ [] := by
    intro header bigTag n hfits
    rw [writeNatural]
    split
    · exact (hfits n ‹_›).write_ne_nil
    · exact List.append_ne_nil_of_left_ne_nil (List.append_ne_nil_of_left_ne_nil
        (Header.head_ne_nil _ _) _) _
  cases v with
  | ofNat n => exact hnatural _ _ _ fun n hn => .positive hn
  | negSucc n => exact hnatural _ _ _ fun n hn => .negative hn

theorem written_integer {k : IntegerKind} (v : k.Value) :
    Written (integer k) (writeInteger v.val) v where
  nonempty := writeInteger_ne_nil _
  reads c rest hc := by
    obtain ⟨hleast, hgreatest⟩ := bounds_i128 k
    rw [integer, magnitude_writeInteger (Int.le_trans hleast v.property.1)
      (Int.le_trans v.property.2 hgreatest) _ hc]
    simp only [ok_bind, ofMagnitude_of]
    rfl

end Reader

end Cbor

end SealedState
