import LintDirectives.Text.Blank
import LintDirectives.Text.Lines
import LintDirectives.Tree.Node

/-!
# Plain text

Plain text is paragraphs between blank lines.  A paragraph covers its lines from
the first character of the first line to the end of the last line, whose line
feeds and carriage returns at the end are left out.
-/

namespace LintDirectives.PlainText

open Text

/-- A line in its place. -/
structure Line where
  /-- The byte at which the line starts. -/
  start : Nat
  /-- The line with its terminator. -/
  text : List Char
deriving DecidableEq

namespace Line

/-- The line without line feeds and carriage returns at its end. -/
def content (line : Line) : List Char :=
  (line.text.reverse.dropWhile fun c => c = '\n' || c = '\r').reverse

/-- The byte at which the content ends. -/
def stop (line : Line) : Nat :=
  line.start + byteLength line.content

/-- The line holds nothing but blank characters. -/
def isBlank (line : Line) : Bool :=
  allBlank line.content

end Line

/-- Lines, the first of which starts at byte `start`, in their places. -/
def place (start : Nat) : List (List Char) → List Line
  | [] => []
  | text :: rest => ⟨start, text⟩ :: place (start + byteLength text) rest

/-- Lines that stand together: a first line and the lines after it. -/
structure Block where
  first : Line
  more : List Line
deriving DecidableEq

namespace Block

/-- The lines of a block. -/
def lines (block : Block) : List Line :=
  block.first :: block.more

/-- The last line. -/
def last (block : Block) : Line :=
  block.more.getLastD block.first

/-- The bytes of a block. -/
def span (block : Block) : Span :=
  ⟨block.first.start, block.last.stop⟩

/-- The text of a block, with the terminators between its lines. -/
def text (block : Block) : List Char :=
  block.lines.dropLast.flatMap Line.text ++ block.last.content

/-- The paragraph of a block. -/
def toNode (block : Block) : Node where
  kind := .paragraph
  span := block.span
  children := [{ kind := .str, span := block.span, value := some (String.ofList block.text) }]

end Block

/-- The runs of lines that are not blank. -/
def blocks : List Line → List Block
  | [] => []
  | line :: rest =>
    if line.isBlank then blocks rest
    else match rest, blocks rest with
      | next :: _, block :: later =>
        if next.isBlank then ⟨line, []⟩ :: block :: later
        else ⟨line, block.lines⟩ :: later
      | _, later => ⟨line, []⟩ :: later

/-- The tree of a plain text. -/
def parse (text : String) : Node :=
  let source := text.toList
  { kind := .document
    span := ⟨0, byteLength source⟩
    children := (blocks (place 0 (chunks source))).map Block.toNode }

end LintDirectives.PlainText
