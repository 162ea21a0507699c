import LintDirectives.Failure
import LintDirectives.Text.Search

/-!
# File trees

Files in a directory and in the directories below it, held in memory.  A path is
followed piece by piece: a piece needs a directory to start from, also an empty one
and one that is a dot.

* `FileTree.read` reads a file as text.
-/

namespace LintDirectives

/-- Files with their names, as the pieces of their paths. -/
structure FileTree where
  files : List (List (List Char) × ByteArray) := []

namespace FileTree

/-- What is at a place. -/
inductive Entry where
  | file (bytes : ByteArray)
  | directory

/-- Where a path has led so far: a place in the tree, or a directory outside. -/
inductive Place where
  | inside (names : List (List Char))
  | outside

/-- The piece of a path stays where it is. -/
def isIdle (piece : List Char) : Bool :=
  piece == [] || piece == ['.']

/-- Adds a file. -/
def insert (path : String) (bytes : ByteArray) (tree : FileTree) : FileTree :=
  ⟨tree.files ++ [((Text.pieces '/' path.toList).filter (!isIdle ·), bytes)]⟩

/-- What is at a place, if there is something. -/
def entry? (tree : FileTree) : Place → Option Entry
  | .outside => some .directory
  | .inside names =>
    match tree.files.lookup names with
    | some bytes => some (.file bytes)
    | none =>
      if names.isEmpty || tree.files.any (fun file => names.isPrefixOf file.1) then
        some .directory
      else none

/-- The place where a piece of a path leads from a directory. -/
def Place.next (place : Place) (piece : List Char) : Option Place :=
  if isIdle piece then some place
  else match place with
    | inside names =>
      if piece = ['.', '.'] then
        some (if names.isEmpty then outside else inside names.dropLast)
      else some (inside (names ++ [piece]))
    | outside => if piece = ['.', '.'] then some outside else none

/-- Follows the pieces of a path. -/
def follow (tree : FileTree) (place : Place) : List (List Char) → Except Unreadable Entry
  | [] =>
    match tree.entry? place with
    | some entry => .ok entry
    | none => .error .missing
  | piece :: pieces =>
    match tree.entry? place with
    | none => .error .missing
    | some (.file _) => .error .notADirectory
    | some .directory =>
      match place.next piece with
      | none => .error .missing
      | some next => follow tree next pieces

/-- What a path names. -/
def find (tree : FileTree) (path : FilePath) : Except Unreadable Entry :=
  match path.text.toList with
  | [] => .error .missing
  | '/' :: rest => tree.follow .outside (Text.pieces '/' rest)
  | text => tree.follow (.inside []) (Text.pieces '/' text)

/-- The text that bytes encode. -/
def decode (bytes : ByteArray) : Except Unreadable String :=
  match String.fromUTF8? bytes with
  | some text => .ok text
  | none => .error .notText

/-- Reads a file as text. -/
def read (tree : FileTree) (path : FilePath) : Except Unreadable String :=
  match tree.find path with
  | .error reason => .error reason
  | .ok .directory => .error .isDirectory
  | .ok (.file bytes) => decode bytes

end FileTree

end LintDirectives
