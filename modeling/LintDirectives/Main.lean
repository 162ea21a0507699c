import LintDirectives.Command.Run
import LintDirectives.FileTree

/-!
# The program

Runs a command line on the files of the machine.
-/

namespace LintDirectives.Main

/-- Why the machine could not read a file. -/
def unreadable (error : IO.Error) : Unreadable :=
  match error with
  | .noFileOrDirectory .. => .missing
  | .inappropriateType .. => .notADirectory
  | error => .other (toString error)

/-- Reads a file of the machine as text. -/
def read (path : FilePath) : IO (Except Unreadable String) := do
  try
    return FileTree.decode (← IO.FS.readBinFile path.text)
  catch error =>
    return .error (unreadable error)

end LintDirectives.Main

/-- Runs the command line and writes what it says. -/
def main (arguments : List String) : IO UInt32 := do
  let outcome ← LintDirectives.Command.run LintDirectives.Main.read arguments
  IO.print outcome.output
  return outcome.status.toUInt32
