import LintDirectives.Diagnostic.Json
import LintDirectives.Json.Writer
import LintDirectives.Report

/-!
# Reports as JSON

A report is a record with the path of its file; the diagnostics may be missing.
Reports are exchanged in lists.
-/

namespace LintDirectives.Report

open Json

/-- The fields met so far. -/
structure Draft where
  filePath : Option String := none
  messages : Option (List Diagnostic) := none
  /-- The unknown fields, the last one first. -/
  extra : List (String × Json.Draft) := []

namespace Draft

/-- The report, unless the path was not met. -/
def finish (draft : Draft) : Except Fault Report :=
  match draft.filePath with
  | none => .error (.missingField "filePath")
  | some filePath =>
    (Embedded.fields draft.extra.reverse).map fun extra =>
      ⟨filePath, draft.messages.getD [], extra⟩

/-- Takes up one field. -/
def field (origin : Origin) (draft : Draft) (name : String) (content : Json.Draft) :
    Except Fault Draft :=
  if name = "filePath" then
    if draft.filePath.isSome then .error (.duplicateField name)
    else (Decode.stringAs .path content).map fun s => { draft with filePath := some s }
  else if name = "messages" then
    if draft.messages.isSome then .error (.duplicateField name)
    else (Decode.list (Diagnostic.decode origin) content).map
      fun ds => { draft with messages := some ds }
  else
    (Decode.whole content).map fun v => { draft with extra := (name, v) :: draft.extra }

/-- Takes up all fields. -/
def fields (origin : Origin) (draft : Draft) : List (String × Json.Draft) → Except Fault Draft
  | [] => .ok draft
  | (name, content) :: rest =>
    match draft.field origin name content with
    | .error fault => .error fault
    | .ok draft => draft.fields origin rest

end Draft

/-- Reads a report. -/
def decode (origin : Origin) : Decoder Report
  | .record fields complete =>
    match Draft.fields origin {} fields with
    | .error fault => .error fault
    | .ok draft => if complete then draft.finish else .error .malformed
  | draft => .error (.mismatch draft .report)

/-- Reads a list of reports from its text. -/
def listOfJson (text : String) : Except Fault (List Report) :=
  Decode.run (Decode.list (decode .text)) text

/-- A report as a value. -/
def toJson (report : Report) : Value :=
  .record <|
    [("filePath", .string report.filePath),
     ("messages", .list (report.messages.map Diagnostic.toJson))] ++
    report.extra

/-- A list of reports as a value. -/
def listToJson (reports : List Report) : Value :=
  .list (reports.map toJson)

end LintDirectives.Report
