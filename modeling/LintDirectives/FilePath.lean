import LintDirectives.Text.Search

/-!
# File paths

A path is a text.  What it names is its list of components: repeated and trailing
slashes do not count, and neither does a dot, except at the very start.  Two paths
are the same place for the library when their components are equal.
-/

namespace LintDirectives

/-- A part of a path. -/
inductive PathComponent where
  /-- The slash at the start. -/
  | root
  /-- A dot at the start. -/
  | current
  /-- Two dots. -/
  | parent
  /-- A name. -/
  | name (text : String)
deriving DecidableEq, Repr

/-- A path as it was written. -/
structure FilePath where
  text : String
deriving DecidableEq, Repr

namespace FilePath

/-- The component that a piece between slashes stands for; `none` for a piece that does
not count. -/
def componentOf? (piece : List Char) : Option PathComponent :=
  if piece = [] ∨ piece = ['.'] then none
  else if piece = ['.', '.'] then some .parent
  else some (.name (String.ofList piece))

/-- The components of a path. -/
def components (path : FilePath) : List PathComponent :=
  match path.text.toList with
  | [] => []
  | '/' :: rest => .root :: (Text.pieces '/' rest).filterMap componentOf?
  | text =>
    match Text.pieces '/' text with
    | ['.'] :: rest => .current :: rest.filterMap componentOf?
    | pieces => pieces.filterMap componentOf?

/-- The last component, if it is a name. -/
def fileName? (path : FilePath) : Option (List Char) :=
  match path.components.getLast? with
  | some (.name text) => some text.toList
  | _ => none

/-- What follows the last dot of a file name; `none` when there is no dot, or only one
at the start. -/
def extensionOf? (fileName : List Char) : Option (List Char) :=
  let (after, before) := fileName.reverse.span (· ≠ '.')
  match before with
  | [] => none
  | ['.'] => none
  | _ => some after.reverse

/-- The extension of the file. -/
def extension? (path : FilePath) : Option (List Char) :=
  path.fileName?.bind extensionOf?

end FilePath

end LintDirectives
