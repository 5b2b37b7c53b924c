/-
SealedState.Found — what a reader found where it expected something else.

Both payload formats report a mismatch in the same words. They differ in
the layout of floating-point numbers, which is therefore a parameter.

The formats are the two of SPEC_FULL.md §4.3; the words end up in errors of
serialization and of settings (§7).
-/
import SealedState.Binary.Shortest
import SealedState.Integer
import SealedState.Text.Quoted

namespace SealedState

/-- A kind of value, with the value where a report shows it. -/
inductive Found
  | integer (n : Int)
  | float (x : Binary64)
  | boolean (b : Bool)
  | text (s : String)
  | named (name : String)

namespace Found

/-- The words for what was found. -/
def description (style : DecimalStyle) : Found → String
  | integer n => "integer `" ++ String.ofList (decimalText n) ++ "`"
  | float x => "floating point `" ++ style.text x ++ "`"
  | boolean b => "boolean `" ++ (if b then "true" else "false") ++ "`"
  | text s => "string " ++ Quoted.string s
  | named name => name

end Found

/-- Why a value of a format is not one of the type that is read, with no
word on where. -/
inductive Mismatch
  | wrongType (found : Found) (expected : String)
  | wrongValue (n : Int) (expected : String)
  | wrongLength (length : Nat) (expected : String)
  | missingField (name : String)
  | duplicateField (name : String)
  | unknownField (name : String) (expected : List String)

namespace Mismatch

/-- The names between backticks, with a comma after each but the last. -/
def nameList : List String → String
  | [] => ""
  | [name] => "`" ++ name ++ "`"
  | name :: next :: names => "`" ++ name ++ "`, " ++ nameList (next :: names)

/-- The words for a mismatch. -/
def message (style : DecimalStyle) : Mismatch → String
  | wrongType found expected =>
    "invalid type: " ++ found.description style ++ ", expected " ++ expected
  | wrongValue n expected =>
    "invalid value: " ++ (Found.integer n).description style ++ ", expected " ++ expected
  | wrongLength length expected =>
    "invalid length " ++ Nat.repr length ++ ", expected " ++ expected
  | missingField name => "missing field `" ++ name ++ "`"
  | duplicateField name => "duplicate field `" ++ name ++ "`"
  | unknownField name expected =>
    "unknown field `" ++ name ++ "`, expected one of " ++ nameList expected

end Mismatch

end SealedState
