import LintDirectives.Markdown.Outline
import LintDirectives.Markdown.Prose

/-!
# Markdown documents

A document is read twice: first its blocks, which say what labels are defined, then
the text in them.

* `Markdown.parse` is the tree of a document.
-/

namespace LintDirectives.Markdown

namespace Block

/-- The white space between the box of a task and its text that is no part of the text: a line
ending after spaces, or one space or tab. -/
def taskGap? (content : List Glyph) : Option Glyph :=
  ((Glyph.dropSpace content).head?.filter Glyph.isEnding).or content.head?

/-- The paragraph of a task without the white space after the box.  When its text starts with a
string, the white space is taken from that string, and the paragraph starts after it. -/
def withoutGap (content : List Glyph) (paragraph : Node) : Node :=
  match paragraph.children, taskGap? content with
  | first :: others, some gap =>
    if first.kind ≠ .str then paragraph
    else
      let text := (first.value.getD "").toList.drop gap.written.length
      let start := gap.span.stop
      { paragraph with
        span := ⟨start, paragraph.span.stop⟩
        children :=
          if text.isEmpty then others
          else
            { first with
              span := ⟨start, first.span.stop⟩
              value := some (String.ofList text) } :: others }
  | _, _ => paragraph

mutual

/-- The node of a block. -/
def toNode (known : Known) : Block → Node
  | leaf made => made
  | definition _ span => { kind := .definition, span := span }
  | prose kind span content =>
    { kind := kind
      span := span
      children := Prose.read { known with inTable := kind == .tableCell } content }
  | task leads span content =>
    let paragraph : Node :=
      { kind := .paragraph, span := span, children := Prose.readInside known content }
    if leads then withoutGap content paragraph else paragraph
  | list span items => { kind := .list, span := span, children := toNodes known items }
  | note _ span children =>
    { kind := .footnoteDefinition, span := span, children := toNodes known children }
  | branch kind span children =>
    { kind := kind, span := span, children := toNodes known children }

/-- The nodes of several blocks. -/
def toNodes (known : Known) : List Block → List Node
  | [] => []
  | block :: blocks => toNode known block :: toNodes known blocks

end

end Block

/-- The tree of a document. -/
def parse (text : String) : Node :=
  let source := text.toList
  let blocks := Outline.blocks source
  let known : Known := ⟨Block.definitionsAll blocks, Block.notesAll blocks, false, none⟩
  { kind := .document
    span := ⟨0, Text.byteLength source⟩
    children := Block.toNodes known blocks }

end LintDirectives.Markdown
