import LintDirectives.Diagnostic
import LintDirectives.Json.Embedded

/-!
# Diagnostics as JSON

A diagnostic is a record.  Every field may be missing, and those of the place may
be null.  A known field that stands twice is a fault; of an unknown field the last
value is kept.  Unknown fields are read when all known ones are.
-/

namespace LintDirectives.Diagnostic

open Json

/-- The fields met so far. -/
structure Draft where
  rule : Option String := none
  message : Option String := none
  index : Option (Option Nat) := none
  range : Option (Option (Nat × Nat)) := none
  line : Option (Option Nat) := none
  column : Option (Option Nat) := none
  severity : Option Severity := none
  /-- The unknown fields, the last one first. -/
  extra : List (String × Json.Draft) := []

/-- Reads a severity. -/
def decodeSeverity : Decoder Severity := fun draft =>
  match Decode.byte draft with
  | .error fault => .error fault
  | .ok code =>
    match Severity.ofCode? code with
    | some severity => .ok severity
    | none => .error (.unknownSeverity code)

namespace Draft

/-- The diagnostic, with defaults for the fields that were not met. -/
def finish (draft : Draft) : Except Fault Diagnostic :=
  (Embedded.fields draft.extra.reverse).map fun extra =>
    { rule := draft.rule.getD ""
      message := draft.message.getD ""
      index := draft.index.getD none
      range := draft.range.getD none
      line := draft.line.getD none
      column := draft.column.getD none
      severity := draft.severity.getD .error
      extra := extra }

/-- Takes up one field. -/
def field (origin : Origin) (draft : Draft) (name : String) (content : Json.Draft) :
    Except Fault Draft :=
  if name = "ruleId" then
    if draft.rule.isSome then .error (.duplicateField name)
    else (Decode.string content).map fun s => { draft with rule := some s }
  else if name = "message" then
    if draft.message.isSome then .error (.duplicateField name)
    else (Decode.string content).map fun s => { draft with message := some s }
  else if name = "index" then
    if draft.index.isSome then .error (.duplicateField name)
    else (Decode.optional Decode.word content).map fun n => { draft with index := some n }
  else if name = "range" then
    if draft.range.isSome then .error (.duplicateField name)
    else (Decode.optional (Decode.pair origin Decode.word) content).map
      fun r => { draft with range := some r }
  else if name = "line" then
    if draft.line.isSome then .error (.duplicateField name)
    else (Decode.optional Decode.word content).map fun n => { draft with line := some n }
  else if name = "column" then
    if draft.column.isSome then .error (.duplicateField name)
    else (Decode.optional Decode.word content).map fun n => { draft with column := some n }
  else if name = "severity" then
    if draft.severity.isSome then .error (.duplicateField name)
    else (decodeSeverity content).map fun s => { draft with severity := some s }
  else
    (Decode.whole content).map fun v => { draft with extra := (name, v) :: draft.extra }

/-- Takes up all fields. -/
def fields (origin : Origin) (draft : Draft) : List (String × Json.Draft) → Except Fault Draft
  | [] => .ok draft
  | (name, content) :: rest =>
    match draft.field origin name content with
    | .error fault => .error fault
    | .ok draft => draft.fields origin rest

end Draft

/-- Reads a diagnostic. -/
def decode (origin : Origin) : Decoder Diagnostic
  | .record fields complete =>
    match Draft.fields origin {} fields with
    | .error fault => .error fault
    | .ok draft => if complete then draft.finish else .error .malformed
  | draft => .error (.mismatch draft .diagnostic)

/-- A field that is written only when it is present. -/
def present (name : String) : Option Value → Fields
  | none => []
  | some value => [(name, value)]

/-- A diagnostic as a value. -/
def toJson (diagnostic : Diagnostic) : Value :=
  .record <|
    [("ruleId", .string diagnostic.rule), ("message", .string diagnostic.message)] ++
    present "index" (diagnostic.index.map .nat) ++
    present "range" (diagnostic.range.map fun (start, stop) => .list [.nat start, .nat stop]) ++
    present "line" (diagnostic.line.map .nat) ++
    present "column" (diagnostic.column.map .nat) ++
    [("severity", .nat diagnostic.severity.code)] ++
    diagnostic.extra

end LintDirectives.Diagnostic
