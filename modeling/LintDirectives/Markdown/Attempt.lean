import LintDirectives.Markdown.Label
import LintDirectives.Markdown.Tag

/-!
# Attempts

Code, HTML, the resource of a link and a label may go over the end of a line.  The reader
of a text looks for each of them at its first mark, and a look that comes to nothing may have
gone over lines that are read again.

* `Attempt.isOpen` says that the markup at the start of a text is not refused before its end.
* `Attempt.leavesLine` says that a look goes over a line ending, and `Attempt.reaches` how far.
-/

namespace LintDirectives.Markdown.Attempt

/-- The ends that complete HTML at the start of a line, for each part that may be open there. -/
def htmlEnds : List (List Char) :=
  [['>'], ['a', '>'], ['"', '>'], ['\x27', '>'], ['-', '-', '>'], [']', ']', '>'], ['?', '>']]

/-- The ends that complete a resource at the start of a line. -/
def resourceEnds : List (List Char) :=
  [[')'], ['"', ')'], ['\x27', ')'], [')', ')']]

/-- The end that completes a label at the start of a line. -/
def labelEnd : List Char :=
  ['x', ']']

/-- The markup that is looked for at the first of the glyphs is open at their end: it is
complete with one of the ends, and not before.  Code needs no more than its marks. -/
def isOpen (glyphs : List Glyph) : Bool :=
  let closed (closing : List Char) : List Glyph := glyphs ++ Glyph.place 0 0 none closing
  match glyphs.head?.map Glyph.char with
  | some '\x60' => true
  | some '<' => htmlEnds.any fun closing =>
      (Markup.after? (Glyph.chars (closed closing).tail)).any List.isEmpty
  | some '(' => resourceEnds.any fun closing =>
      (Resource.after? (closed closing)).any List.isEmpty
  | some '[' => (Label.read? (closed labelEnd).tail).any fun label => label.2.isEmpty
  | _ => false

/-- A look at the start of `glyphs` goes over the end of the line. -/
def leavesLine (glyphs : List Glyph) : Bool :=
  match glyphs.dropWhile fun glyph => !glyph.isEnding with
  | [] => false
  | _ :: after => isOpen (glyphs.take (glyphs.length - after.length))

/-- A look at the start of `glyphs` went over the line that `left`, the end of them, starts. -/
def reaches (glyphs left : List Glyph) : Bool :=
  isOpen (glyphs.take (glyphs.length - left.length))

end LintDirectives.Markdown.Attempt
