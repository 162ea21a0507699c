import LintDirectives.Command.Listing
import LintDirectives.Config.Json
import LintDirectives.Session

/-!
# Running a command

A command reads its files through a function that it is given, so that it can run on
any collection of files.  Its outcome is what it writes and a status: zero, one when
an error is among the messages that are left, two when it failed.

* `Config.read` and `Report.readList` read files.
* `Command.run` runs a command line.
-/

namespace LintDirectives

/-- The configuration in what a file holds. -/
def Config.ofContents (path : FilePath) (contents : Except Unreadable String) :
    Except Failure Config :=
  match contents with
  | .error reason => .error (.config (.unreadable path reason))
  | .ok text =>
    match Config.ofJson text with
    | .error fault => .error (.config (.invalid fault))
    | .ok config => .ok config

/-- A list of reports from its text. -/
def Report.readList (text : String) : Except Failure (List Report) :=
  match Report.listOfJson text with
  | .error fault => .error (.results fault)
  | .ok reports => .ok reports

namespace Command

/-- What a command did. -/
structure Outcome where
  status : Nat
  output : String := ""
deriving DecidableEq, Repr

/-- The outcome of a command that failed. -/
def failed : Outcome :=
  ⟨2, ""⟩

/-- The name and the version of the program. -/
def versionLine : String :=
  "tzfilter 0.1.0\n"

/-- How the program is called. -/
def helpLine : String :=
  "Usage: tzfilter [-c|--config FILE] [-v|--verbose] apply RESULTS [-f|--format text|json]\n"

/-- The outcome for the reports that are left. -/
def outcome (layout : Layout) (reports : List Report) : Outcome :=
  ⟨if reports.any Report.hasErrors then 1 else 0, layout.write reports⟩

section

variable {m : Type → Type} [Monad m]

/-- A way to read files. -/
abbrev Files (m : Type → Type) := FilePath → m (Except Unreadable String)

/-- The configuration in a file; the default one without a file. -/
def readConfig (files : Files m) : Option FilePath → m (Except Failure Config)
  | none => pure (.ok .default)
  | some path => do return Config.ofContents path (← files path)

/-- Applies the directives of the files of reports.  All files are read first, and then the reports
share one store, each after the one before it, as `Session.adjustAll` has it; a command that adjusts
them at the same time agrees with this as long as no file is reported twice. -/
def adjustReports (files : Files m) (config : Config) (reports : List Report) :
    m (List Report) := do
  let contents ← reports.mapM fun report => files ⟨report.filePath⟩
  let session : Session := ⟨config, .empty⟩
  return (session.adjustAll (reports.zip contents)).1

/-- Applies directives to the reports in a file, to one after the other. -/
def apply (files : Files m) (config : Option FilePath) (results : FilePath) (layout : Layout) :
    m Outcome := do
  match ← readConfig files config with
  | .error _ => return failed
  | .ok config =>
    match ← files results with
    | .error _ => return failed
    | .ok text =>
      match Report.readList text with
      | .error _ => return failed
      | .ok reports => return outcome layout (← adjustReports files config reports)

/-- Runs a command line. -/
def run (files : Files m) (arguments : List String) : m Outcome :=
  match Request.ofArguments arguments with
  | none => pure failed
  | some .version => pure ⟨0, versionLine⟩
  | some .help => pure ⟨0, helpLine⟩
  | some (.apply config results layout) => apply files config results layout

end

end Command

end LintDirectives
