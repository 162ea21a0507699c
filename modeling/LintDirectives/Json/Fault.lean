import LintDirectives.Json.Draft
import LintDirectives.Text.Quoted

/-!
# Faults of JSON documents

Why a JSON text does not hold what was asked for.  A text that is not JSON has one
fault, `malformed`; every other fault names what was found or what is missing.
`Fault.message` words them.
-/

namespace LintDirectives.Json

/-- What stands where something else was asked for. -/
inductive Found where
  | null
  | bool (value : Bool)
  | number (value : Number)
  | string (value : String)
  | list
  | record
deriving DecidableEq, Repr

/-- What was asked for. -/
inductive Asked where
  | string
  | path
  /-- A whole number of 32 bits. -/
  | word
  /-- A whole number of 8 bits. -/
  | byte
  /-- A list of two. -/
  | pair
  | list
  | nothing
  | config
  | report
  | diagnostic
  /-- The name of a variant, alone or as the only field of a record. -/
  | variant
  /-- A record with one field. -/
  | singleField
  /-- The text of a value. -/
  | embedded
deriving DecidableEq, Repr

/-- A fault of a JSON document. -/
inductive Fault where
  /-- The text is not JSON, or goes on where it should end. -/
  | malformed
  | wrongKind (found : Found) (asked : Asked)
  | wrongValue (found : Found) (asked : Asked)
  /-- A list of two that holds `length` items, fewer than two. -/
  | tooShort (length : Nat)
  /-- A list of two that holds `length` items, more than two. -/
  | tooLong (length : Nat)
  /-- A record that gives a value by its text and holds `length` fields, more than one. -/
  | tooManyFields (length : Nat)
  | unknownField (name : String) (known : List String)
  | unknownVariant (name : String) (known : List String)
  | duplicateField (name : String)
  | missingField (name : String)
  | unknownSeverity (code : Nat)
deriving DecidableEq, Repr

namespace Found

/-- How a message writes what was found. -/
def text : Found → String
  | null => "null"
  | bool true => "boolean `true`"
  | bool false => "boolean `false`"
  | number (.integer n) => "integer `" ++ String.ofList (Number.writeInt n) ++ "`"
  | number (.float x) => "floating point `" ++ String.ofList (Number.style.write x) ++ "`"
  | string s => "string " ++ String.ofList (Text.quoted s.toList)
  | list => "sequence"
  | record => "map"

/-- What stands at the head of a draft; `none` when the text is not JSON there. -/
def ofDraft? : Draft → Option Found
  | .null => some null
  | .bool b => some (bool b)
  | .number n => some (number n)
  | .string s => some (string s)
  | .list _ _ => some list
  | .record _ _ => some record
  | .broken => none

end Found

namespace Asked

/-- How a message writes what was asked for. -/
def text : Asked → String
  | string => "a string"
  | path => "path string"
  | word => "u32"
  | byte => "u8"
  | pair => "an array of length 2"
  | list => "a sequence"
  | nothing => "unit"
  | config => "struct FilterConfig"
  | report => "struct LintResult"
  | diagnostic => "struct Diagnostic"
  | variant => "string or map"
  | singleField => "map with a single key"
  | embedded => "raw value"

end Asked

namespace Fault

/-- The choice between known names. -/
def oneOf : List String → String
  | [] => "there are no names"
  | [a] => "`" ++ a ++ "`"
  | [a, b] => "`" ++ a ++ "` or `" ++ b ++ "`"
  | names => "one of " ++ String.intercalate ", " (names.map fun name => "`" ++ name ++ "`")

/-- The wording of a fault. -/
def message : Fault → String
  | malformed => "<json syntax error>"
  | wrongKind found asked => "invalid type: " ++ found.text ++ ", expected " ++ asked.text
  | wrongValue found asked => "invalid value: " ++ found.text ++ ", expected " ++ asked.text
  | tooShort length => "invalid length " ++ toString length ++ ", expected " ++ Asked.text .pair
  | tooLong length =>
    "invalid length " ++ toString length ++ ", expected fewer elements in array"
  | tooManyFields length => "invalid length " ++ toString length ++ ", expected 1 element in map"
  | unknownField name known => "unknown field `" ++ name ++ "`, expected " ++ oneOf known
  | unknownVariant name known => "unknown variant `" ++ name ++ "`, expected " ++ oneOf known
  | duplicateField name => "duplicate field `" ++ name ++ "`"
  | missingField name => "missing field `" ++ name ++ "`"
  | unknownSeverity code => "unknown severity code " ++ toString code

/-- The fault of a draft that is not what was asked for. -/
def mismatch (draft : Draft) (asked : Asked) : Fault :=
  match Found.ofDraft? draft with
  | some found => wrongKind found asked
  | none => malformed

end Fault

end LintDirectives.Json
