/-
SealedState.Codec — states sealed in tokens.

To encode a value is to serialize it, to encrypt the bytes under a fresh
initialisation vector, and to sign the result together with the time of
issue and the tenant. Decoding goes back over the same stages and stops at
the first that fails: the form of the token, its tag, its lifetime, its
tenant, its initialisation vector, its ciphertext, its value. Nothing
behind a stage that fails is looked at.

Every function gives its result with the events that belong in the log.

`encode` and `decode` take the numbered steps of SPEC_FULL.md §4.1, `persist`
and `restore` are the cookie helpers of §4.2, and the events are those of §8.
-/
import SealedState.Bytes.Hex
import SealedState.Cookie
import SealedState.Event
import SealedState.Keys
import SealedState.Random
import SealedState.Serializer
import SealedState.Token

namespace SealedState

/-- A result, and what the log is told. -/
structure Logged (α : Type) where
  result : Except StateError α
  events : List Event

/-- What codecs share: the tenant and its keys, the algorithms, the
serializer and the lifetime of tokens in seconds. -/
structure Codec where
  provider : KeyProvider
  cipher : Cipher
  mac : Mac
  serializer : Serializer
  timeout : UInt64

namespace Codec

/-- The lifetime of tokens where none is given: fifteen minutes. -/
def defaultTimeout : UInt64 := 900

/-- The codec of a tenant, whose algorithms have to be known. -/
def ofProvider (p : KeyProvider) : Except StateError Codec := do
  let cipher ← Keys.configured (Cipher.ofId p.encryptionId)
  let mac ← Keys.configured (Mac.ofId p.authenticationId)
  return { provider := p, cipher, mac, serializer := Serializer.json, timeout := defaultTimeout }

def withTimeout (seconds : UInt64) (c : Codec) : Codec := { c with timeout := seconds }

def withSerializer (s : Serializer) (c : Codec) : Codec := { c with serializer := s }

/-- A codec in diagnostics, without its keys. -/
def debugText (c : Codec) : String :=
  "ClientSideState \x7b encryption_algorithm: " ++ c.cipher.name
    ++ ", authentication_algorithm: " ++ c.mac.name ++ ", timeout: "
    ++ Nat.repr c.timeout.toNat ++ ", .. \x7d"

/-! ## Encoding -/

/-- The token that carries some bytes. -/
def issue (c : Codec) (clear : Bytes) (iv : Iv) (now : Int64) : Except StateError String := do
  let ciphertext ←
    Keys.configured (c.cipher.encrypt c.provider.encryptionKey iv.val clear)
  let signed := Token.signedText ciphertext now c.provider.tenantId iv.val
  let tag ← Keys.configured (c.mac.compute c.provider.authenticationKey (Utf8.encode signed))
  return Token.withTag signed tag

/-- The token that carries a value, and the source of randomness after it.
A value that cannot be serialized takes no draw. -/
def encode (c : Codec) (now : Int64) (random : RandomSource) {σ : Shape} (v : σ.Val) :
    Logged String × RandomSource :=
  match c.serializer.serialize σ v with
  | .error e => (⟨.error e, []⟩, random)
  | .ok clear =>
    match random.next with
    | (.error e, random) => (⟨.error e, []⟩, random)
    | (.ok iv, random) =>
      match c.issue clear iv now with
      | .error e => (⟨.error e, []⟩, random)
      | .ok token => (⟨.ok token, [.encoded now token.utf8ByteSize]⟩, random)

/-- A cookie that carries a value for as long as its token is valid. -/
def persist (c : Codec) (now : Int64) (random : RandomSource) (name path : String) {σ : Shape}
    (v : σ.Val) : Logged Cookie × RandomSource :=
  let (logged, random) := c.encode now random v
  let cookie (token : String) := ((Cookie.make name token).withPath path).withMaxAge c.timeout
  (⟨logged.result.map cookie, logged.events⟩, random)

/-! ## Decoding -/

/-- The value of an authentic token: the stages behind the tag. -/
def accept (c : Codec) (now : Int64) (σ : Shape) (t : Token) : Logged σ.Val :=
  if isExpired t.issuedAt c.timeout now then
    ⟨.error (.expired t.issuedAt c.timeout), [.expired t.issuedAt now]⟩
  else if t.tenantId ≠ c.provider.tenantId then
    let given := Hex.encode t.tenantId
    let expected := Hex.encode c.provider.tenantId
    ⟨.error (.tenantMismatch given expected), [.otherTenant given expected]⟩
  else if t.iv.length ≠ ivLength then
    ⟨.error (.malformedToken ("iv must be " ++ Nat.repr ivLength ++ " bytes, got "
      ++ Nat.repr t.iv.length)), []⟩
  else
    match c.cipher.decrypt c.provider.encryptionKey t.iv t.ciphertext with
    | .error e => ⟨.error (.cryptoConfiguration e.message), []⟩
    | .ok clear =>
      match c.serializer.deserialize σ clear with
      | .error e => ⟨.error e, []⟩
      | .ok v => ⟨.ok v, [.decoded t.issuedAt]⟩

/-- The value of a token. -/
def decode (c : Codec) (now : Int64) (σ : Shape) (token : String) : Logged σ.Val :=
  match Token.parse token with
  | .error cause =>
    let e := StateError.malformedToken cause.message
    ⟨.error e, [.rejected e]⟩
  | .ok t =>
    match c.mac.verify c.provider.authenticationKey (Utf8.encode t.signed) t.tag with
    | .error e => ⟨.error (.cryptoConfiguration e.message), []⟩
    | .ok false => ⟨.error .authenticity, [.inauthentic]⟩
    | .ok true => c.accept now σ t

/-- The value of the token in a cookie. -/
def restore (c : Codec) (now : Int64) (σ : Shape) (cookie : Cookie) : Logged σ.Val :=
  c.decode now σ cookie.value

end Codec

end SealedState
