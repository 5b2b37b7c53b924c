/-
SealedState.Crypto.Sha2 — the SHA-2 hash functions.

SHA-256 and SHA-512 are one construction over words of four or eight
bytes; a `Variant` holds the word size, the amounts by which words are
rotated and shifted, and the constants. The constants are the first bits
of the fractional parts of the square and cube roots of the first primes,
and are computed as such.

`length_digest` says that a digest has eight words.

SPEC_FULL.md §4.4 has codes over both, and §4.3 the derivation of keys over
SHA-256.
-/
import SealedState.Bytes

namespace SealedState.Sha2

/-! ## Constants -/

/-- The first eighty prime numbers. -/
def primes : List Nat :=
  [2, 3, 5, 7, 11, 13, 17, 19, 23, 29, 31, 37, 41, 43, 47, 53, 59, 61, 67, 71,
   73, 79, 83, 89, 97, 101, 103, 107, 109, 113, 127, 131, 137, 139, 149, 151,
   157, 163, 167, 173, 179, 181, 191, 193, 197, 199, 211, 223, 227, 229, 233,
   239, 241, 251, 257, 263, 269, 271, 277, 281, 283, 293, 307, 311, 313, 317,
   331, 337, 347, 349, 353, 359, 367, 373, 379, 383, 389, 397, 401, 409]

/-- The greatest number whose power `k` does not exceed `n`, among those
that agree with `r` above their last `bits` bits. -/
def rootFrom (k n : Nat) : (bits : Nat) → (r : Nat) → Nat
  | 0, r => r
  | bits + 1, r => rootFrom k n bits (if Nat.pow (r + (1 <<< bits)) k ≤ n then r + (1 <<< bits) else r)

/-- The first `w` bits of the fractional part of the root of degree `k` of
a number below 512. -/
def rootFraction (w k p : Nat) : BitVec w :=
  BitVec.ofNat w (rootFrom k (p <<< (k * w)) (w + 5) 0)

/-! ## Variants -/

/-- Eight words: the value that hashing carries from block to block. -/
structure State (w : Nat) where
  a : BitVec w
  b : BitVec w
  c : BitVec w
  d : BitVec w
  e : BitVec w
  f : BitVec w
  g : BitVec w
  h : BitVec w

/-- A member of the family. A word of the message schedule is made with
two rotations and a shift, the working words with three rotations. -/
structure Variant where
  wordBytes : Nat
  rotationsA : Nat × Nat × Nat
  rotationsE : Nat × Nat × Nat
  recent : Nat × Nat × Nat
  distant : Nat × Nat × Nat
  initial : State (8 * wordBytes)
  constants : List (BitVec (8 * wordBytes))

/-- The square roots of the first eight primes. -/
def initialState (w : Nat) : State w where
  a := rootFraction w 2 2
  b := rootFraction w 2 3
  c := rootFraction w 2 5
  d := rootFraction w 2 7
  e := rootFraction w 2 11
  f := rootFraction w 2 13
  g := rootFraction w 2 17
  h := rootFraction w 2 19

/-- SHA-256: words of four bytes and sixty-four rounds. -/
def sha256 : Variant where
  wordBytes := 4
  rotationsA := (2, 13, 22)
  rotationsE := (6, 11, 25)
  recent := (17, 19, 10)
  distant := (7, 18, 3)
  initial := initialState 32
  constants := (primes.take 64).map (rootFraction 32 3)

/-- SHA-512: words of eight bytes and eighty rounds. -/
def sha512 : Variant where
  wordBytes := 8
  rotationsA := (28, 34, 39)
  rotationsE := (14, 18, 41)
  recent := (19, 61, 6)
  distant := (1, 8, 7)
  initial := initialState 64
  constants := primes.map (rootFraction 64 3)

namespace Variant

/-- A word of the variant. -/
abbrev Word (v : Variant) : Type := BitVec (8 * v.wordBytes)

/-- Messages are hashed in blocks of sixteen words. -/
def blockLength (v : Variant) : Nat := 16 * v.wordBytes

/-- A digest has eight words. -/
def digestLength (v : Variant) : Nat := 8 * v.wordBytes

end Variant

/-! ## One block -/

/-- Exclusive or of three rotations of a word. -/
def rotated {w : Nat} (r : Nat × Nat × Nat) (x : BitVec w) : BitVec w :=
  x.rotateRight r.1 ^^^ x.rotateRight r.2.1 ^^^ x.rotateRight r.2.2

/-- Exclusive or of two rotations of a word and a shift of it. -/
def shifted {w : Nat} (r : Nat × Nat × Nat) (x : BitVec w) : BitVec w :=
  x.rotateRight r.1 ^^^ x.rotateRight r.2.1 ^^^ (x >>> r.2.2)

/-- Each bit of `x` chooses between the bits of `y` and `z`. -/
def choose {w : Nat} (x y z : BitVec w) : BitVec w := (x &&& y) ^^^ (~~~x &&& z)

/-- Each bit is the one that at least two of the words have. -/
def majority {w : Nat} (x y z : BitVec w) : BitVec w :=
  (x &&& y) ^^^ (x &&& z) ^^^ (y &&& z)

/-- One round, with its constant and its word of the message schedule. -/
def round (v : Variant) (constant word : v.Word) (s : State (8 * v.wordBytes)) :
    State (8 * v.wordBytes) :=
  let t := s.h + rotated v.rotationsE s.e + choose s.e s.f s.g + constant + word
  { a := t + (rotated v.rotationsA s.a + majority s.a s.b s.c)
    b := s.a, c := s.b, d := s.c
    e := s.d + t
    f := s.e, g := s.f, h := s.g }

/-- The word of the schedule that follows sixteen words. -/
def nextWord (v : Variant) (window : List v.Word) : v.Word :=
  shifted v.recent (window.getD 14 0) + window.getD 9 0
    + shifted v.distant (window.getD 1 0) + window.getD 0 0

/-- The rounds for a list of constants; `window` holds the next sixteen
words of the schedule. -/
def rounds (v : Variant) : List v.Word → List v.Word → State (8 * v.wordBytes) →
    State (8 * v.wordBytes)
  | [], _, s => s
  | constant :: constants, window, s =>
    rounds v constants (window.drop 1 ++ [nextWord v window])
      (round v constant (window.getD 0 0) s)

/-- Adds word by word. -/
def State.add {w : Nat} (s t : State w) : State w where
  a := s.a + t.a
  b := s.b + t.b
  c := s.c + t.c
  d := s.d + t.d
  e := s.e + t.e
  f := s.f + t.f
  g := s.g + t.g
  h := s.h + t.h

/-! ## Messages -/

/-- The first `k` pieces of `n` bytes each. -/
def pieces (n : Nat) : Nat → Bytes → List Bytes
  | 0, _ => []
  | k + 1, b => b.take n :: pieces n k (b.drop n)

/-- What a block adds to the state. -/
def compress (v : Variant) (s : State (8 * v.wordBytes)) (block : Bytes) :
    State (8 * v.wordBytes) :=
  let words := (pieces v.wordBytes 16 block).map fun b => BitVec.ofNat _ (Bytes.toNat b)
  s.add (rounds v v.constants words s)

/-- A message of whole blocks: a bit is set after it, and its length in
bits ends the last block. -/
def padded (v : Variant) (message : Bytes) : Bytes :=
  let used := (message.length + 1 + 2 * v.wordBytes) % v.blockLength
  message ++ 0x80 :: List.replicate ((v.blockLength - used) % v.blockLength) 0
    ++ Bytes.bigEndian (2 * v.wordBytes) (8 * message.length)

/-- The bytes of a state, word after word. -/
def State.toBytes (v : Variant) (s : State (8 * v.wordBytes)) : Bytes :=
  [s.a, s.b, s.c, s.d, s.e, s.f, s.g, s.h].flatMap fun x =>
    Bytes.bigEndian v.wordBytes x.toNat

/-- The digest of a message. -/
def digest (v : Variant) (message : Bytes) : Bytes :=
  let text := padded v message
  let blocks := pieces v.blockLength (text.length / v.blockLength) text
  (blocks.foldl (compress v) v.initial).toBytes v

theorem length_toBytes (v : Variant) (s : State (8 * v.wordBytes)) :
    (s.toBytes v).length = v.digestLength := by
  simp [State.toBytes, Variant.digestLength]
  omega

/-- A digest has the length that its variant says. -/
@[simp] theorem length_digest (v : Variant) (message : Bytes) :
    (digest v message).length = v.digestLength :=
  length_toBytes v _

end SealedState.Sha2
