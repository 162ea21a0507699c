import LintDirectives.FilePath
import LintDirectives.Format
import LintDirectives.Json.Fault

/-!
# Failures

What can go wrong outside of the work on a document: a configuration, a document or
a list of reports that cannot be read.  `Failure.message` words it.
-/

namespace LintDirectives

/-- Why a file cannot be read as text. -/
inductive Unreadable where
  | missing
  | isDirectory
  /-- Something in the path is a file where a directory should be. -/
  | notADirectory
  | notText
  /-- Another reason, in words. -/
  | other (reason : String)
deriving DecidableEq, Repr

/-- The wording of a reason. -/
def Unreadable.reason : Unreadable → String
  | missing => "No such file or directory (os error 2)"
  | isDirectory => "Is a directory (os error 21)"
  | notADirectory => "Not a directory (os error 20)"
  | notText => "stream did not contain valid UTF-8"
  | other reason => reason

/-- Why there is no configuration. -/
inductive ConfigFault where
  | unreadable (path : FilePath) (reason : Unreadable)
  | invalid (fault : Json.Fault)
  /-- Another reason, in words. -/
  | other (reason : String)
deriving DecidableEq, Repr

/-- The wording of a fault. -/
def ConfigFault.message : ConfigFault → String
  | unreadable path reason => "Failed to read " ++ path.text ++ ": " ++ reason.reason
  | invalid fault => "Invalid config: " ++ fault.message
  | other reason => reason

/-- What went wrong. -/
inductive Failure where
  | config (fault : ConfigFault)
  | parse (fault : ParseFault)
  /-- The list of reports is not one. -/
  | results (fault : Json.Fault)
deriving DecidableEq, Repr

/-- The wording of a failure. -/
def Failure.message : Failure → String
  | config fault => "Configuration error: " ++ fault.message
  | parse fault => "Parse error: " ++ fault.message
  | results fault => "Invalid lint results: " ++ fault.message

end LintDirectives
