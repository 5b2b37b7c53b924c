/-
SealedState.Keys — the keys of a tenant, and where they come from.

Keys are given as they are or derived from one secret. An `Edition` binds
them to a tenant and to algorithms, and holds the proof that they have the
lengths which these need; a `KeyProvider` is any source of the same data,
unchecked.

SPEC_FULL.md §4.3 has the same three: `KeySource` with its derivation,
`Edition` and `KeyProvider`.
-/
import SealedState.Crypto.Cipher
import SealedState.Crypto.Hkdf
import SealedState.Crypto.Mac
import SealedState.StateError
import SealedState.Text.Utf8

namespace SealedState

/-- An encryption key and an authentication key. -/
structure Keys where
  encryption : Bytes
  authentication : Bytes
  deriving DecidableEq

namespace Keys

/-- The length below which a secret is refused. -/
def minSecretLength : Nat := 32

/-- The length of a derived key. -/
def derivedLength : Nat := 32

/-- The salt of all derivations. -/
def salt : Bytes := Utf8.encode "clientstate-key-salt-v1"

def encryptionLabel : Bytes := Utf8.encode "clientstate:encryption:v1"

def authenticationLabel : Bytes := Utf8.encode "clientstate:authentication:v1"

/-- An error of the cryptographic layer is one of its configuration. -/
def configured {α : Type} : Except CryptoError α → Except StateError α
  | .ok x => .ok x
  | .error e => .error (.cryptoConfiguration e.message)

/-- The keys that a secret gives. -/
def derive (secret : Bytes) : Except StateError Keys := do
  if secret.length < minSecretLength then
    throw (.cryptoConfiguration ("master secret must be at least "
      ++ Nat.repr minSecretLength ++ " bytes, got " ++ Nat.repr secret.length))
  let encryption ← configured (Hkdf.derive secret salt encryptionLabel derivedLength)
  let authentication ← configured (Hkdf.derive secret salt authenticationLabel derivedLength)
  return { encryption, authentication }

/-- Keys in diagnostics, where they are not shown. -/
def debugText : String := "KeySource \x7b .. \x7d"

end Keys

/-- What a codec needs to know of a tenant; the algorithms are named by
their identifiers. -/
structure KeyProvider where
  tenantId : Bytes
  encryptionKey : Bytes
  authenticationKey : Bytes
  encryptionId : String
  authenticationId : String

/-- The keys of a tenant, of the lengths that its algorithms need. -/
structure Edition where
  tenantId : Bytes
  cipher : Cipher
  mac : Mac
  keys : Keys
  length_encryption : keys.encryption.length = cipher.keyLength
  le_length_authentication : Mac.minKeyLength ≤ keys.authentication.length

namespace Edition

/-- Binds keys to a tenant and to algorithms, if they have the right
lengths; the encryption key is checked first. -/
def make (tenantId : Bytes) (cipher : Cipher) (mac : Mac) (keys : Keys) :
    Except StateError Edition :=
  if henc : keys.encryption.length = cipher.keyLength then
    if hauth : Mac.minKeyLength ≤ keys.authentication.length then
      .ok ⟨tenantId, cipher, mac, keys, henc, hauth⟩
    else .error (.cryptoConfiguration (mac.id ++ " key must be at least "
      ++ Nat.repr Mac.minKeyLength ++ " bytes, got " ++ Nat.repr keys.authentication.length))
  else .error (.cryptoConfiguration (cipher.id ++ " needs a " ++ Nat.repr cipher.keyLength
    ++ "-byte key, got " ++ Nat.repr keys.encryption.length))

/-- An edition with the standard algorithms. -/
def standard (tenantId : Bytes) (keys : Keys) : Except StateError Edition :=
  make tenantId Cipher.standard Mac.standard keys

/-- The data of an edition for a codec. -/
def provider (e : Edition) : KeyProvider where
  tenantId := e.tenantId
  encryptionKey := e.keys.encryption
  authenticationKey := e.keys.authentication
  encryptionId := e.cipher.id
  authenticationId := e.mac.id

/-- The numbers of a byte string with a comma between each two. -/
def numbersText : Bytes → String
  | [] => ""
  | [b] => Nat.repr b.toNat
  | b :: c :: rest => Nat.repr b.toNat ++ ", " ++ numbersText (c :: rest)

/-- An edition in diagnostics, without its keys. -/
def debugText (e : Edition) : String :=
  "Edition \x7b tid: [" ++ numbersText e.tenantId ++ "], encryption_algorithm: " ++ e.cipher.name
    ++ ", authentication_algorithm: " ++ e.mac.name ++ ", keys: " ++ Keys.debugText ++ " \x7d"

end Edition

end SealedState
