import LintDirectives.Json.Value
import LintDirectives.LineIndex

/-!
# Diagnostics

What a lint rule reports: a rule, a message, a severity, and optionally a place.
Places are in UTF-16 code units.  Fields that have no meaning here are kept.

`offset?` turns the place into a byte offset: the index if there is one, else the
start of the range, else the line and column.
-/

namespace LintDirectives

/-- How serious a diagnostic is. -/
inductive Severity where
  | warning
  | error
  | info
deriving DecidableEq, Repr

namespace Severity

/-- The number that stands for a severity. -/
def code : Severity → Nat
  | warning => 1
  | error => 2
  | info => 3

/-- The severity that a number stands for. -/
def ofCode? : Nat → Option Severity
  | 1 => some warning
  | 2 => some error
  | 3 => some info
  | _ => none

/-- The severity in a word. -/
def word : Severity → String
  | warning => "warning"
  | error => "error"
  | info => "info"

@[simp] theorem ofCode?_code (severity : Severity) : ofCode? severity.code = some severity := by
  cases severity <;> rfl

end Severity

/-- A report of a lint rule. -/
structure Diagnostic where
  rule : String := ""
  message : String := ""
  /-- The UTF-16 offset of the place. -/
  index : Option Nat := none
  /-- The UTF-16 offsets around the place. -/
  range : Option (Nat × Nat) := none
  /-- The line, from one. -/
  line : Option Nat := none
  /-- The column, from one, in UTF-16 code units. -/
  column : Option Nat := none
  severity : Severity := .error
  /-- Further fields. -/
  extra : Json.Fields := []

namespace Diagnostic

/-- The line and column, if there is a line.  A missing column is column one. -/
def position? (diagnostic : Diagnostic) : Option Position :=
  diagnostic.line.map fun line => ⟨line, diagnostic.column.getD 1⟩

/-- The byte offset of the place, if the document has it. -/
def offset? (index : LineIndex) (diagnostic : Diagnostic) : Option Nat :=
  match diagnostic.index with
  | some unit => index.byteOffset? unit
  | none =>
    match diagnostic.range with
    | some (start, _) => index.byteOffset? start
    | none => diagnostic.position?.bind index.offset?

end Diagnostic

end LintDirectives
