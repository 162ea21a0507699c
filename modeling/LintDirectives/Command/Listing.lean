import LintDirectives.Report.Json
import LintDirectives.Command.Arguments

/-!
# Writing reports

Reports are written for people, one line for each message, or as JSON.
-/

namespace LintDirectives.Command

/-- Where a message is, for people. -/
def place (diagnostic : Diagnostic) : String :=
  match diagnostic.position?, diagnostic.index with
  | some position, _ => toString position.line ++ ":" ++ toString position.column
  | none, some index => "@" ++ toString index
  | none, none => "-"

/-- The line of a message. -/
def messageLine (diagnostic : Diagnostic) : String :=
  "  " ++ place diagnostic ++ " " ++ diagnostic.severity.word ++ " [" ++ diagnostic.rule ++ "]: " ++
    diagnostic.message ++ "\n"

/-- The lines of a report; a report without messages has none. -/
def reportLines (report : Report) : String :=
  if report.messages.isEmpty then ""
  else "\n" ++ report.filePath ++ ":\n" ++ String.join (report.messages.map messageLine)

/-- The number of messages in reports. -/
def messageCount (reports : List Report) : Nat :=
  reports.foldl (fun count report => count + report.messages.length) 0

/-- Reports for people, with a summary at the end. -/
def listing (reports : List Report) : String :=
  String.join (reports.map reportLines) ++ "\nChecked " ++ toString reports.length ++
    " files, found " ++ toString (messageCount reports) ++ " issues\n"

/-- Reports in a layout. -/
def Layout.write (layout : Layout) (reports : List Report) : String :=
  match layout with
  | .text => listing reports
  | .json => (Report.listToJson reports).writePretty ++ "\n"

end LintDirectives.Command
