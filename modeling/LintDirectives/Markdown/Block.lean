import LintDirectives.Markdown.Glyph
import LintDirectives.Tree.Node

/-!
# Blocks

The blocks of a document, before the text in them is read: what the text means
depends on the labels that are defined anywhere in the document.

* `Block.definitions` and `Block.notes` are the labels that a block defines.
-/

namespace LintDirectives.Markdown

/-- A block of a document. -/
inductive Block where
  /-- A block that holds no text to read. -/
  | leaf (node : Node)
  /-- A definition of a link. -/
  | definition (label : List Char) (span : Span)
  /-- A block of text. -/
  | prose (kind : NodeKind) (span : Span) (content : List Glyph)
  /-- A paragraph after the box of a task.  The box is in its span but not in its content.
  `leads` says that the paragraph is the first block of its item. -/
  | task (leads : Bool) (span : Span) (content : List Glyph)
  /-- A list of items. -/
  | list (span : Span) (items : List Block)
  /-- A note. -/
  | note (label : List Char) (span : Span) (children : List Block)
  /-- A block of blocks. -/
  | branch (kind : NodeKind) (span : Span) (children : List Block)

namespace Block

/-- The bytes of a block. -/
def span : Block → Span
  | leaf node => node.span
  | definition _ span => span
  | prose _ span _ => span
  | task _ span _ => span
  | list span _ => span
  | note _ span _ => span
  | branch _ span _ => span

/-- The list of some items. -/
def listOf (items : List Block) : Block :=
  match items with
  | [] => list ⟨0, 0⟩ []
  | first :: more => list ⟨first.span.start, (more.getLastD first).span.stop⟩ items

/-! ## Labels -/

mutual

/-- The labels of links that a block defines. -/
def definitions : Block → List (List Char)
  | leaf _ => []
  | definition label _ => [label]
  | prose _ _ _ => []
  | task _ _ _ => []
  | list _ items => definitionsAll items
  | note _ _ children => definitionsAll children
  | branch _ _ children => definitionsAll children

/-- The labels of links that several blocks define. -/
def definitionsAll : List Block → List (List Char)
  | [] => []
  | block :: blocks => definitions block ++ definitionsAll blocks

end

mutual

/-- The labels of notes that a block defines. -/
def notes : Block → List (List Char)
  | leaf _ => []
  | definition _ _ => []
  | prose _ _ _ => []
  | task _ _ _ => []
  | list _ items => notesAll items
  | note label _ children => label :: notesAll children
  | branch _ _ children => notesAll children

/-- The labels of notes that several blocks define. -/
def notesAll : List Block → List (List Char)
  | [] => []
  | block :: blocks => notes block ++ notesAll blocks

end

end Block

end LintDirectives.Markdown
