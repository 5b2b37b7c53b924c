/-
SealedState.Crypto.Aes — the block cipher AES.

A block is four columns of four bytes. A round replaces every byte by its
inverse in the field of 256 elements under an affine map, rotates the
rows, mixes each column by a fixed matrix over that field, and adds a
round key; the last round leaves the mixing out. Keys of 16 and of 32
bytes give eleven and fifteen round keys.

The ciphers of SPEC_FULL.md §4.4 use both lengths of keys.
-/
import SealedState.Bytes

namespace SealedState.Aes

/-! ## The field of 256 elements -/

/-- Multiplies by the polynomial `x`, modulo `x⁸ + x⁴ + x³ + x + 1`. -/
def double (b : UInt8) : UInt8 := (b <<< 1) ^^^ (if b < 0x80 then 0 else 0x1b)

/-- The sum of the first `n` multiples `a`, `2a`, `4a`, … that the bits of
`b` select. -/
def mulBits : (n : Nat) → (a b : UInt8) → UInt8
  | 0, _, _ => 0
  | n + 1, a, b => (if b % 2 = 1 then a else 0) ^^^ mulBits n (double a) (b / 2)

/-- The product in the field. -/
def mul (a b : UInt8) : UInt8 := mulBits 8 a b

/-- The inverse in the field, which is the power 254; zero stays zero. -/
def inverse (a : UInt8) : UInt8 :=
  let a2 := mul a a
  let a4 := mul a2 a2
  let a8 := mul a4 a4
  let a16 := mul a8 a8
  let a32 := mul a16 a16
  let a64 := mul a32 a32
  mul (mul (mul a2 a4) (mul a8 a16)) (mul (mul a32 a64) (mul a64 a64))

/-- Rotates a byte to the left. -/
def rotate (b : UInt8) (n : UInt8) : UInt8 := (b <<< n) ||| (b >>> (8 - n))

/-- The substitution of a byte, computed. -/
def substitution (b : UInt8) : UInt8 :=
  let i := inverse b
  i ^^^ rotate i 1 ^^^ rotate i 2 ^^^ rotate i 3 ^^^ rotate i 4 ^^^ 0x63

/-- The substitutions of all bytes. -/
def substitutions : Vector UInt8 256 := Vector.ofFn fun i => substitution (UInt8.ofNat i)

/-- The substitution of a byte, looked up. -/
def substitute (b : UInt8) : UInt8 := substitutions.get ⟨b.toNat, b.toNat_lt⟩

/-! ## Columns and blocks -/

/-- Four bytes. -/
structure Column where
  a : UInt8
  b : UInt8
  c : UInt8
  d : UInt8

namespace Column

/-- Adds two columns. -/
def add (x y : Column) : Column := ⟨x.a ^^^ y.a, x.b ^^^ y.b, x.c ^^^ y.c, x.d ^^^ y.d⟩

/-- Substitutes every byte. -/
def substitute (x : Column) : Column :=
  ⟨Aes.substitute x.a, Aes.substitute x.b, Aes.substitute x.c, Aes.substitute x.d⟩

/-- Moves the first byte to the end. -/
def rotate (x : Column) : Column := ⟨x.b, x.c, x.d, x.a⟩

/-- A byte of a mixed column: `2p + 3q + r + s`. -/
def mixed (p q r s : UInt8) : UInt8 := double p ^^^ (double q ^^^ q) ^^^ r ^^^ s

/-- Mixes the bytes of a column. -/
def mix (x : Column) : Column :=
  ⟨mixed x.a x.b x.c x.d, mixed x.b x.c x.d x.a, mixed x.c x.d x.a x.b,
    mixed x.d x.a x.b x.c⟩

def toBytes (x : Column) : Bytes := [x.a, x.b, x.c, x.d]

end Column

/-- Four columns: a block, or the key of a round. -/
structure Block where
  first : Column
  second : Column
  third : Column
  fourth : Column

namespace Block

/-- Adds a round key. -/
def add (x k : Block) : Block :=
  ⟨x.first.add k.first, x.second.add k.second, x.third.add k.third, x.fourth.add k.fourth⟩

/-- Substitutes every byte. -/
def substitute (x : Block) : Block :=
  ⟨x.first.substitute, x.second.substitute, x.third.substitute, x.fourth.substitute⟩

/-- Rotates the second, third and fourth row by one, two and three
places. -/
def shiftRows (x : Block) : Block :=
  ⟨⟨x.first.a, x.second.b, x.third.c, x.fourth.d⟩,
    ⟨x.second.a, x.third.b, x.fourth.c, x.first.d⟩,
    ⟨x.third.a, x.fourth.b, x.first.c, x.second.d⟩,
    ⟨x.fourth.a, x.first.b, x.second.c, x.third.d⟩⟩

/-- Mixes every column. -/
def mix (x : Block) : Block := ⟨x.first.mix, x.second.mix, x.third.mix, x.fourth.mix⟩

/-- The column of four bytes that ends `right` bits above the lowest. -/
def columnOf (x : BitVec 128) (right : Nat) : Column :=
  ⟨UInt8.ofNat (x.toNat >>> (right + 24)), UInt8.ofNat (x.toNat >>> (right + 16)),
    UInt8.ofNat (x.toNat >>> (right + 8)), UInt8.ofNat (x.toNat >>> right)⟩

/-- The block that a number of 128 bits spells, most significant byte
first. -/
def ofBits (x : BitVec 128) : Block :=
  ⟨columnOf x 96, columnOf x 64, columnOf x 32, columnOf x 0⟩

def toBytes (x : Block) : Bytes :=
  x.first.toBytes ++ x.second.toBytes ++ x.third.toBytes ++ x.fourth.toBytes

theorem length_toBytes (x : Block) : x.toBytes.length = 16 := rfl

end Block

/-! ## Keys -/

/-- The columns of a key. -/
def columns : Bytes → List Column
  | a :: b :: c :: d :: rest => ⟨a, b, c, d⟩ :: columns rest
  | _ => []

/-- Adds to each column the one made before it; in a group of eight the
fifth takes the substituted one. -/
def chain (long : Bool) (index : Nat) (previous : Column) : List Column → List Column
  | [] => []
  | x :: xs =>
    let new := x.add (if long && index == 4 then previous.substitute else previous)
    new :: chain long (index + 1) new xs

/-- The group of columns that follows a group, with its round constant. -/
def nextGroup (constant : UInt8) (group : List Column) : List Column :=
  let last := group.getLast?.getD ⟨0, 0, 0, 0⟩
  let start := last.rotate.substitute.add ⟨constant, 0, 0, 0⟩
  chain (6 < group.length) 0 start group

/-- A group and the `n` groups after it. -/
def groups : (n : Nat) → (constant : UInt8) → List Column → List Column
  | 0, _, group => group
  | n + 1, constant, group =>
    group ++ groups n (double constant) (nextGroup constant group)

/-- Columns taken four at a time. -/
def blocks : List Column → List Block
  | a :: b :: c :: d :: rest => ⟨a, b, c, d⟩ :: blocks rest
  | _ => []

/-- The round keys: seven more than a key has columns. -/
def roundKeys (key : Bytes) : List Block :=
  let group := columns key
  (blocks (groups 10 1 group)).take (group.length + 7)

/-! ## The cipher -/

/-- The rounds after the first key was added. -/
def rounds : List Block → Block → Block
  | [], x => x
  | [last], x => x.substitute.shiftRows.add last
  | key :: keys, x => rounds keys (x.substitute.shiftRows.mix.add key)

/-- Enciphers a block under round keys. -/
def encipher (keys : List Block) (x : BitVec 128) : Bytes :=
  match keys with
  | [] => (Block.ofBits x).toBytes
  | first :: keys => (rounds keys ((Block.ofBits x).add first)).toBytes

@[simp] theorem length_encipher (keys : List Block) (x : BitVec 128) :
    (encipher keys x).length = 16 := by
  unfold encipher
  split
  · exact Block.length_toBytes _
  · exact Block.length_toBytes _

end SealedState.Aes
