/-
SealedState.Crypto.Cipher — the ciphers that keep a state opaque.

Both are AES in Galois/counter mode with an initialisation vector of
sixteen bytes. The result of encrypting is the masked text followed by
its tag; the initialisation vector is kept elsewhere. A wrong key length
is reported before a wrong length of the initialisation vector.

Identifiers and lengths are those of SPEC_FULL.md §4.4; `encrypt` and
`decrypt` are step 3 of `encode` and step 5 of `decode` in §4.1.
-/
import SealedState.Crypto.Error
import SealedState.Crypto.Gcm

namespace SealedState

/-- The length of an initialisation vector. -/
def ivLength : Nat := 16

/-- A cipher. -/
inductive Cipher
  | aes256Gcm
  | aes128Gcm
  deriving DecidableEq

namespace Cipher

/-- The cipher that is used where none is named. -/
def standard : Cipher := aes256Gcm

/-- The identifier of a cipher. -/
def id : Cipher → String
  | aes256Gcm => "AES-256-GCM"
  | aes128Gcm => "AES-128-GCM"

/-- The name of a cipher in diagnostics. -/
def name : Cipher → String
  | aes256Gcm => "Aes256Gcm"
  | aes128Gcm => "Aes128Gcm"

/-- The length of a key. -/
def keyLength : Cipher → Nat
  | aes256Gcm => 32
  | aes128Gcm => 16

/-- The cipher with an identifier. -/
def ofId (id : String) : Except CryptoError Cipher :=
  if id = aes256Gcm.id then .ok aes256Gcm
  else if id = aes128Gcm.id then .ok aes128Gcm
  else .error (.unsupportedAlgorithm id)

/-- The setup for a key and an initialisation vector of the right
lengths. -/
def setup (c : Cipher) (key iv : Bytes) : Except CryptoError Gcm.Setup :=
  if key.length ≠ c.keyLength then .error (.invalidKeyLength c.keyLength key.length)
  else if iv.length ≠ ivLength then .error (.invalidIvLength ivLength iv.length)
  else .ok (Gcm.setup key iv)

/-- Encrypts a text. -/
def encrypt (c : Cipher) (key iv text : Bytes) : Except CryptoError Bytes := do
  let s ← c.setup key iv
  if text.length ≤ Gcm.maxLength then return s.seal text
  else throw (.encryptionFailed "aead::Error")

/-- Decrypts what `encrypt` gave. The limit of `encrypt` is put on the text and
its tag together. A cipher that allows the text alone as many bytes differs
from this for sealed texts of more than 64 GiB, and for no others. -/
def decrypt (c : Cipher) (key iv sealed : Bytes) : Except CryptoError Bytes := do
  let s ← c.setup key iv
  if Gcm.maxLength + Gcm.tagLength < sealed.length then
    throw (.decryptionFailed "aead::Error")
  match s.open? sealed with
  | some text => return text
  | none => throw (.decryptionFailed "aead::Error")

end Cipher

end SealedState
