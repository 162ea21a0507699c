import LintDirectives.Diagnostic

/-!
# Reports

The diagnostics of one file.  Fields that have no meaning here are kept.
-/

namespace LintDirectives

/-- The diagnostics of one file. -/
structure Report where
  filePath : String
  messages : List Diagnostic := []
  /-- Further fields. -/
  extra : Json.Fields := []

namespace Report

/-- Some diagnostic is an error. -/
def hasErrors (report : Report) : Bool :=
  report.messages.any (·.severity = .error)

end Report

end LintDirectives
