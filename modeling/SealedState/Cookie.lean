/-
SealedState.Cookie — cookies that carry a token.

A cookie is written as the value of a Set-Cookie header, and found by its
name in the value of a Cookie header.

This is `StateCookie` of SPEC_FULL.md §4.2, with its text as a Set-Cookie
value and `from_header`.
-/
import SealedState.Text.Blank
import SealedState.Text.Split

namespace SealedState

/-- A cookie. -/
structure Cookie where
  name : String
  value : String
  path : Option String
  maxAge : Option UInt64
  secure : Bool
  httpOnly : Bool
  deriving DecidableEq

namespace Cookie

/-- A cookie that is neither sent in clear nor shown to scripts. -/
def make (name value : String) : Cookie :=
  { name, value, path := none, maxAge := none, secure := true, httpOnly := true }

def withPath (path : String) (c : Cookie) : Cookie := { c with path := some path }

def withMaxAge (seconds : UInt64) (c : Cookie) : Cookie := { c with maxAge := some seconds }

/-! ## Set-Cookie -/

/-- The attributes after the value, in the order in which they are
written. -/
def attributes (c : Cookie) : List String :=
  (match c.path with
    | some path => ["Path=" ++ path]
    | none => [])
  ++ (match c.maxAge with
    | some seconds => ["Max-Age=" ++ Nat.repr seconds.toNat]
    | none => [])
  ++ (if c.secure then ["Secure"] else [])
  ++ (if c.httpOnly then ["HttpOnly"] else [])

/-- The value of a Set-Cookie header. -/
def headerText (c : Cookie) : String :=
  c.attributes.foldl (fun text item => text ++ "; " ++ item) (c.name ++ "=" ++ c.value)

/-! ## Cookie -/

/-- The trimmed name in a segment of a header, and the text after the sign
of equality. -/
def pair? (segment : List Char) : Option (List Char × List Char) :=
  (splitFirst? '=' (trim segment)).map fun (name, value) => (trim name, value)

/-- A value without the blanks and then without the quotation marks around
it. -/
def bareValue (value : List Char) : List Char := trimBy (· == '"') (trim value)

/-- The first cookie of a name in the value of a Cookie header. -/
def find? (header name : String) : Option Cookie :=
  let pairs := (splitAll ';' header.toList).filterMap pair?
  (pairs.find? (·.1 == name.toList)).map fun (name, value) =>
    make (String.ofList name) (String.ofList (bareValue value))

end Cookie

end SealedState
