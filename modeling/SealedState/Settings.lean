/-
SealedState.Settings — the settings of a deployment.

Settings are a JSON object with the tenant in hexadecimal and a secret in
base64url; the lifetime of tokens and the algorithms may be left out, and
no other members are allowed. What the texts stand for is checked when an
edition is made of them.

This is `StateSettings` of SPEC_FULL.md §6: `from_json`, `edition` and
`build`.
-/
import SealedState.Codec
import SealedState.Json.Record

namespace SealedState

/-- The settings of a deployment, as they are written. -/
structure Settings where
  tenantId : String
  secret : String
  timeout : UInt64
  encryptionAlgorithm : String
  authenticationAlgorithm : String
  deriving DecidableEq

namespace Settings

/-! ## From JSON -/

/-- Settings that are read in part. -/
structure Partial where
  tenantId : Option String
  secret : Option String
  timeout : Option UInt64
  encryptionAlgorithm : Option String
  authenticationAlgorithm : Option String

/-- Settings are whole with a tenant and a secret; the rest has
defaults. -/
def Partial.complete (p : Partial) : Except String Settings :=
  match p.tenantId, p.secret with
  | some tenantId, some secret =>
    .ok { tenantId, secret
          timeout := p.timeout.getD Codec.defaultTimeout
          encryptionAlgorithm := p.encryptionAlgorithm.getD Cipher.standard.id
          authenticationAlgorithm := p.authenticationAlgorithm.getD Mac.standard.id }
  | none, _ => .error "tenant_id"
  | some _, none => .error "secret"

/-- A lifetime. -/
def lifetime : Json.Reader UInt64 :=
  Json.Reader.map (fun n => UInt64.ofNat n.val.toNat) (Json.Reader.integer .u64)

/-- The members of the object. -/
def record : Record Json.Reader Partial Settings where
  name := "StateSettings"
  fields :=
    [{ name := "tenant_id", isPresent := (·.tenantId.isSome), isOptional := false
       read := fun p => Json.Reader.map (fun s => { p with tenantId := some s }) Json.Reader.string },
     { name := "secret", isPresent := (·.secret.isSome), isOptional := false
       read := fun p => Json.Reader.map (fun s => { p with secret := some s }) Json.Reader.string },
     { name := "timeout_secs", isPresent := (·.timeout.isSome), isOptional := true
       read := fun p => Json.Reader.map (fun n => { p with timeout := some n }) lifetime },
     { name := "encryption_algorithm", isPresent := (·.encryptionAlgorithm.isSome)
       isOptional := true
       read := fun p => Json.Reader.map (fun s => { p with encryptionAlgorithm := some s })
         Json.Reader.string },
     { name := "authentication_algorithm", isPresent := (·.authenticationAlgorithm.isSome)
       isOptional := true
       read := fun p => Json.Reader.map (fun s => { p with authenticationAlgorithm := some s })
         Json.Reader.string }]
  others := .refuse
  empty := ⟨none, none, none, none, none⟩
  complete := Partial.complete

/-- Reads settings from a JSON text. -/
def ofJson (text : String) : Except StateError Settings :=
  let bytes := Utf8.encode text
  match Json.document (Json.Reader.record record) bytes with
  | .ok s => .ok s
  | .error fault => .error (.configuration (fault.message bytes))

/-! ## What they stand for -/

/-- An error of the cryptographic layer is one of the settings. -/
def configured {α : Type} : Except CryptoError α → String → Except StateError α
  | .ok x, _ => .ok x
  | .error e, place => .error (.configuration (place ++ e.message))

/-- The bytes of the tenant. -/
def tenantBytes (s : Settings) : Except StateError Bytes :=
  match Hex.decode s.tenantId with
  | .ok b => .ok b
  | .error fault => .error (.configuration ("tenant_id: " ++ fault.message))

/-- The edition of the settings. A cipher with short keys takes the first
bytes of the derived key. -/
def edition (s : Settings) : Except StateError Edition := do
  let tenantId ← s.tenantBytes
  let secret ← configured (Base64url.decode s.secret) "secret: "
  let cipher ← configured (Cipher.ofId s.encryptionAlgorithm) ""
  let mac ← configured (Mac.ofId s.authenticationAlgorithm) ""
  let derived ← Keys.derive secret
  Edition.make tenantId cipher mac
    { derived with encryption := derived.encryption.take cipher.keyLength }

/-- The codec of the settings. -/
def build (s : Settings) : Except StateError Codec := do
  let edition ← s.edition
  return (← Codec.ofProvider edition.provider).withTimeout s.timeout

/-- Settings in diagnostics, without the secret. -/
def debugText (s : Settings) : String :=
  "StateSettings \x7b tenant_id: " ++ Quoted.string s.tenantId ++ ", timeout_secs: "
    ++ Nat.repr s.timeout.toNat ++ ", encryption_algorithm: "
    ++ Quoted.string s.encryptionAlgorithm ++ ", authentication_algorithm: "
    ++ Quoted.string s.authenticationAlgorithm ++ ", .. \x7d"

end Settings

end SealedState
