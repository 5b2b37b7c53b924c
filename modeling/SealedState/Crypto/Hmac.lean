/-
SealedState.Crypto.Hmac — keyed hashing (HMAC) over the SHA-2 family.

SPEC_FULL.md §4.4 names the two hash functions that it is used with.
-/
import SealedState.Crypto.Sha2

namespace SealedState.Hmac

/-- A key as one block: a key that is longer is hashed, a key that is
shorter ends in zeros. -/
def keyBlock (v : Sha2.Variant) (key : Bytes) : Bytes :=
  let short := if v.blockLength < key.length then Sha2.digest v key else key
  short ++ List.replicate (v.blockLength - short.length) 0

/-- The tag of a message under a key: the digest of the message is hashed
once more, each time after the key under another mask. -/
def tag (v : Sha2.Variant) (key message : Bytes) : Bytes :=
  let block := keyBlock v key
  let inner := Sha2.digest v (block.map (· ^^^ 0x36) ++ message)
  Sha2.digest v (block.map (· ^^^ 0x5c) ++ inner)

/-- A tag is as long as a digest. -/
@[simp] theorem length_tag (v : Sha2.Variant) (key message : Bytes) :
    (tag v key message).length = v.digestLength := by
  simp [tag]

end SealedState.Hmac
