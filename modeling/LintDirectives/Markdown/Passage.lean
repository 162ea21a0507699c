import LintDirectives.Markdown.Block
import LintDirectives.Markdown.Label

/-!
# Passages

The lines of a paragraph are cut into passages: definitions of links come first,
and what is left is prose.  Each passage starts where a line does.

* `Passage.cut` gives the passages of lines.
* `Passage.blocks` makes blocks of them.  The first prose of a list item may start
  with the box of a task.
-/

namespace LintDirectives.Markdown

/-- A definition or prose. -/
structure Passage where
  /-- The label of the link that the passage defines. -/
  label : Option (List Char)
  glyphs : List Glyph

namespace Passage

/-! ## Definitions -/

/-- What follows the line that the glyphs are on when nothing but space is left of it. -/
def afterLine? (glyphs : List Glyph) : Option (List Glyph) :=
  let rest := Glyph.dropSpace glyphs
  if rest.head?.all Glyph.isEnding then some rest else none

/-- What follows a title and the gap before it, to the end of a line. -/
def afterTitle? (glyphs : List Glyph) : Option (List Glyph) :=
  if glyphs.head?.any Glyph.isGap then
    (Title.after? (Glyph.dropGap glyphs)).bind afterLine?
  else none

/-- The label of the definition at the start, and the line ending after it with what
follows. -/
def definition? (glyphs : List Glyph) : Option (List Char × List Glyph) :=
  match glyphs with
  | [] => none
  | opening :: inside =>
    if opening.char ≠ '[' then none
    else match Label.read? inside with
      | some (label, colon :: after) =>
        if colon.char ≠ ':' then none
        else match Destination.after? glyphs.length (Glyph.dropGap after) with
          | none => none
          | some rest =>
            ((afterTitle? rest).orElse fun _ => afterLine? rest).map fun rest =>
              (label, rest)
      | _ => none

/-- The passages of lines. -/
def cut (glyphs : List Glyph) : List Passage :=
  let content := glyphs.dropWhile Glyph.isEnding
  if content.isEmpty then []
  else match definition? (Glyph.dropSpace content) with
    | none => [⟨none, content⟩]
    | some (label, rest) =>
      ⟨some label, content.take (content.length - rest.length)⟩ ::
        (if rest.length < glyphs.length then cut rest else [])
termination_by glyphs.length

/-- The mark of a quote comes right before the passage. -/
def isQuoted (passage : Passage) : Bool :=
  passage.glyphs.head?.any (·.skipped.contains '>')

/-! ## Tasks -/

/-- Where prose stands in a list item: nowhere that a task could, at its start, or after
definitions only. -/
inductive Lead where
  | none
  | first
  | later
deriving DecidableEq

/-- Where a passage stands that follows another one. -/
def Lead.past (lead : Lead) (passage : Passage) (next : Option Passage) : Lead :=
  if lead ≠ .none ∧ passage.label.isSome ∧ ¬ next.any isQuoted then .later else .none

/-- Where a block stands that follows passages. -/
def Lead.after (lead : Lead) : List Passage → Lead
  | [] => lead
  | passage :: rest => (lead.past passage rest.head?).after rest

/-- The glyph stands in the box of a task. -/
def isCheck (glyph : Glyph) : Bool :=
  glyph.isEnding || (glyph.isSpace && glyph.columns == 1) || glyph.char == 'x' || glyph.char == 'X'

/-- The text of a task after the box at its start.  White space follows the box, and text that
is not all space. -/
def afterBox? : List Glyph → Option (List Glyph)
  | opening :: check :: closing :: gap :: rest =>
    if opening.char = '[' ∧ isCheck check ∧ closing.char = ']' ∧ gap.isGap ∧
        (gap.isEnding ∨ (Glyph.dropSpace rest) ≠ []) then
      some (gap :: rest)
    else none
  | _ => none

/-! ## Blocks -/

/-- The block of a passage that ends at byte `stop` when it is prose. -/
def block (lead : Lead) (stop : Nat) (passage : Passage) : Block :=
  let cover := Glyph.cover passage.glyphs
  match passage.label with
  | some label => .definition label cover
  | none =>
    match if lead = .none then none else afterBox? passage.glyphs with
    | some rest => .task (lead == .first) ⟨cover.start, stop⟩ rest
    | none => .prose .paragraph ⟨cover.start, stop⟩ passage.glyphs

/-- The blocks of passages that end at byte `stop`. -/
def blocks (lead : Lead) (stop : Nat) : List Passage → List Block
  | [] => []
  | passage :: rest =>
    passage.block lead stop :: blocks (lead.past passage rest.head?) stop rest

end Passage

end LintDirectives.Markdown
