/-
SealedState.Token — the text of a token.

A token is five fields with a bar between each two: the encrypted state,
the time of issue, the tenant, the initialisation vector and the tag, each
in base64url. The time is in decimal. The tag is the one of the text of
the first four fields with their bars.

`Token.parse` takes a text apart; `Token.signedText` and `Token.withTag` put
one together.

The wire format is that of SPEC_FULL.md §3. Putting together is `join_signed`
and `append_mac` (steps 5 and 7 of `encode` in §4.1), taking apart is step 1
of `decode`.
-/
import SealedState.Bytes.Ascii
import SealedState.Bytes.Base64url
import SealedState.Integer
import SealedState.Text.Split

namespace SealedState

/-- A token taken apart. -/
structure Token where
  /-- The text that the tag belongs to. -/
  signed : String
  ciphertext : Bytes
  issuedAt : Int64
  tenantId : Bytes
  iv : Bytes
  tag : Bytes
  deriving DecidableEq

namespace Token

/-- What stands between two fields. -/
def separator : Char := '|'

/-- The number of fields. -/
def fieldCount : Nat := 5

/-! ## What may be wrong -/

/-- A field of a token. -/
inductive Field
  | ciphertext
  | issuedAt
  | tenantId
  | iv
  | tag
  deriving DecidableEq

/-- The name of a field in reports. -/
def Field.name : Field → String
  | ciphertext => "ciphertext"
  | issuedAt => "issued-at"
  | tenantId => "tid"
  | iv => "iv"
  | tag => "mac"

/-- Why a text is no token. None of the causes holds a part of the
text. -/
inductive Malformation
  | fields (count : Nat)
  | notBase64url (field : Field)
  | notDecimal
  | tooLarge
  | tooSmall
  deriving DecidableEq

/-- The words for a cause. -/
def Malformation.message : Malformation → String
  | fields count =>
    "expected " ++ Nat.repr fieldCount ++ " fields, got " ++ Nat.repr count
  | notBase64url field =>
    field.name ++ ": " ++ (CryptoError.base64Decode Base64url.invalid).message
  | notDecimal => "issued-at is not a decimal timestamp"
  | tooLarge => "issued-at: number too large to fit in target type"
  | tooSmall => "issued-at: number too small to fit in target type"

/-! ## Putting together -/

/-- A time in decimal. -/
def timeText (t : Int64) : Bytes := Ascii.ofChars (decimalText t.toInt)

/-- The text that the tag belongs to. -/
def signedText (ciphertext : Bytes) (issuedAt : Int64) (tenantId iv : Bytes) : String :=
  String.ofList (joinWith separator
    ([ciphertext, timeText issuedAt, tenantId, iv].map Base64url.encodeChars))

/-- A signed text with its tag. -/
def withTag (signed : String) (tag : Bytes) : String :=
  String.ofList (signed.toList ++ separator :: Base64url.encodeChars tag)

/-! ## Taking apart -/

/-- The bytes of a field. -/
def fieldBytes (field : Field) (text : List Char) : Except Malformation Bytes :=
  match Base64url.decodeChars? text with
  | some b => .ok b
  | none => .error (.notBase64url field)

/-- A time as a sign, which may be missing, and digits. -/
def splitSign : Bytes → Bool × Bytes
  | Ascii.minus :: digits => (true, digits)
  | digits => (false, digits)

/-- The time that a decimal text spells. Leading zeros are no fault. -/
def parseTime (text : Bytes) : Except Malformation Int64 :=
  let (negative, digits) := splitSign text
  if digits = [] || !digits.all Ascii.isDigit then .error .notDecimal
  else
    let n : Int := Ascii.decimalValue digits
    let time := if negative then -n else n
    if IntegerKind.i64.bounds.greatest < time then .error .tooLarge
    else if time < IntegerKind.i64.bounds.least then .error .tooSmall
    else .ok (Int64.ofInt time)

/-- Takes the text of a token apart. -/
def parse (text : String) : Except Malformation Token :=
  match splitAll separator text.toList with
  | [ciphertext, issuedAt, tenantId, iv, tag] => do
    let signed := String.ofList (joinWith separator [ciphertext, issuedAt, tenantId, iv])
    let ciphertext ← fieldBytes .ciphertext ciphertext
    let issuedAt ← parseTime (← fieldBytes .issuedAt issuedAt)
    let tenantId ← fieldBytes .tenantId tenantId
    let iv ← fieldBytes .iv iv
    let tag ← fieldBytes .tag tag
    return { signed, ciphertext, issuedAt, tenantId, iv, tag }
  | parts => .error (.fields parts.length)

end Token

end SealedState
