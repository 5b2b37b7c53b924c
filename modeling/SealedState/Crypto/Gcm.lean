/-
SealedState.Crypto.Gcm — Galois/counter mode over AES, without associated
data.

A text is masked by the enciphered values of a counter; the tag is a
polynomial in the masked text, evaluated at a secret point and masked in
turn. `open_seal` says that opening gives back what was sealed, and
`seal_of_open` that nothing else opens.

SPEC_FULL.md §4.4 has the mode with a vector of 16 bytes, so the first value
of the counter is a hash of it.
-/
import SealedState.Crypto.Aes

namespace SealedState.Gcm

/-- A block of 128 bits, the most significant first. -/
abbrev Block : Type := BitVec 128

/-! ## The field of 2¹²⁸ elements -/

/-- Multiplies by the polynomial `x`, modulo `x¹²⁸ + x⁷ + x² + x + 1`. The
coefficient of `x⁰` is the most significant bit. -/
def shift (v : Block) : Block :=
  (v >>> 1) ^^^ (if v.getLsbD 0 then 0xe1 <<< 120 else 0)

/-- Adds to `sum` the shifts of `v` that the last `n` bits of `x` select. -/
def mulBits (x : Block) : (n : Nat) → (v sum : Block) → Block
  | 0, _, sum => sum
  | n + 1, v, sum => mulBits x n (shift v) (if x.getLsbD n then sum ^^^ v else sum)

/-- The product in the field. -/
def mul (x y : Block) : Block := mulBits x 128 y 0

/-- The polynomial with the given coefficients, evaluated at `h`. -/
def ghash (h : Block) (xs : List Block) : Block := xs.foldl (fun y x => mul (y ^^^ x) h) 0

/-! ## Texts in blocks -/

/-- The number of blocks that hold `n` bytes. -/
def blockCount (n : Nat) : Nat := (n + 15) / 16

/-- The block that sixteen bytes spell; missing bytes are zero. -/
def blockOf (b : Bytes) : Block :=
  BitVec.ofNat 128 (Bytes.toNat (b.take 16 ++ List.replicate (16 - b.length) 0))

/-- The first `n` blocks of a text. -/
def blocksOf : Nat → Bytes → List Block
  | 0, _ => []
  | n + 1, b => blockOf b :: blocksOf n (b.drop 16)

/-- The blocks of a text, and one more with its length in bits. -/
def withLength (b : Bytes) : List Block :=
  blocksOf (blockCount b.length) b ++ [BitVec.ofNat 128 (8 * b.length % 0x10000000000000000)]

/-! ## The counter -/

/-- Counts the last 32 bits up, around at their end. -/
def next (counter : Block) : Block :=
  (counter >>> 32 <<< 32) ||| (counter.setWidth 32 + 1).setWidth 128

/-- The enciphered values of `n` counters. -/
def maskBlocks (keys : List Aes.Block) : (n : Nat) → (counter : Block) → Bytes
  | 0, _ => []
  | n + 1, counter => Aes.encipher keys counter ++ maskBlocks keys n (next counter)

@[simp] theorem length_maskBlocks (keys : List Aes.Block) : ∀ n counter,
    (maskBlocks keys n counter).length = 16 * n
  | 0, _ => rfl
  | n + 1, counter => by
      simp [maskBlocks, length_maskBlocks keys n]
      omega

/-- A mask for a text of `n` bytes. -/
def mask (keys : List Aes.Block) (start : Block) (n : Nat) : Bytes :=
  maskBlocks keys (blockCount n) (next start)

theorem le_length_mask (keys : List Aes.Block) (start : Block) (n : Nat) :
    n ≤ (mask keys start n).length := by
  simp [mask, blockCount]
  omega

/-! ## Sealing -/

/-- The length of a tag. -/
def tagLength : Nat := 16

/-- The longest text that may be sealed. -/
def maxLength : Nat := 0x1000000000

/-- What a key and an initialisation vector give: the round keys, the
point at which tags are evaluated and the value before the first
counter. -/
structure Setup where
  keys : List Aes.Block
  point : Block
  start : Block

/-- The setup for a key and an initialisation vector. -/
def setup (key iv : Bytes) : Setup :=
  let keys := Aes.roundKeys key
  let point := blockOf (Aes.encipher keys 0)
  { keys, point, start := ghash point (withLength iv) }

/-- The tag of a masked text. -/
def Setup.tag (s : Setup) (masked : Bytes) : Bytes :=
  Bytes.xor (Bytes.bigEndian tagLength (ghash s.point (withLength masked)).toNat)
    (Aes.encipher s.keys s.start)

/-- Masks a text, or takes the mask off. -/
def Setup.masked (s : Setup) (text : Bytes) : Bytes :=
  Bytes.xor text (mask s.keys s.start text.length)

/-- The masked text and its tag. -/
def Setup.seal (s : Setup) (text : Bytes) : Bytes :=
  s.masked text ++ s.tag (s.masked text)

/-- The text of a sealed one, if the tag is right. -/
def Setup.open? (s : Setup) (sealed : Bytes) : Option Bytes :=
  if sealed.length < tagLength then none
  else
    let masked := sealed.take (sealed.length - tagLength)
    let tag := sealed.drop (sealed.length - tagLength)
    if tag = s.tag masked then some (s.masked masked) else none

@[simp] theorem length_tag (s : Setup) (masked : Bytes) : (s.tag masked).length = 16 := by
  simp [Setup.tag, tagLength]

@[simp] theorem length_masked (s : Setup) (text : Bytes) :
    (s.masked text).length = text.length := by
  have h := le_length_mask s.keys s.start text.length
  simp only [Setup.masked, Bytes.length_xor]
  omega

/-- Masking twice gives the text back. -/
theorem masked_masked (s : Setup) (text : Bytes) : s.masked (s.masked text) = text := by
  rw [Setup.masked, length_masked, Setup.masked]
  exact Bytes.xor_xor_cancel _ _ (le_length_mask _ _ _)

/-- What was sealed opens. -/
theorem open_seal (s : Setup) (text : Bytes) : s.open? (s.seal text) = some text := by
  have hlen : (s.seal text).length = text.length + 16 := by simp [Setup.seal]
  have hcut : (s.seal text).length - tagLength = (s.masked text).length := by
    simp [hlen, tagLength]
  rw [Setup.open?, if_neg (by simp [hlen, tagLength]), hcut]
  simp [Setup.seal, masked_masked]

/-- What opens was sealed. -/
theorem seal_of_open {s : Setup} {sealed text : Bytes} (h : s.open? sealed = some text) :
    sealed = s.seal text := by
  rw [Setup.open?] at h
  split at h
  · cases h
  · simp only [Option.ite_none_right_eq_some, Option.some.injEq] at h
    obtain ⟨htag, rfl⟩ := h
    rw [Setup.seal, masked_masked, ← htag, List.take_append_drop]

end SealedState.Gcm
