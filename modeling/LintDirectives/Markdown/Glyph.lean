import LintDirectives.Span
import LintDirectives.Text.Measure

/-!
# Characters in their places

The parts of a Markdown document remember where they came from: a `Glyph` is a
character together with the bytes that it covers and the characters beside it.  A
line ending is one glyph, however it is written.

* `Glyph.place` gives the glyphs of a text.
* `Line.ofText` gives its lines.
* `Margin` measures the white space at the start of a line in columns.
-/

namespace LintDirectives.Markdown

open Text

/-- The character is a space or a tab. -/
def isSpace (c : Char) : Bool :=
  c == ' ' || c == '\t'

/-- The columns between two stops of tabs. -/
def tabStop : Nat :=
  4

/-- A character in its place. -/
structure Glyph where
  /-- The character; a line feed for every line ending. -/
  char : Char
  span : Span
  /-- The characters as they are written; none for what is left of a tab. -/
  written : List Char
  /-- The columns that the character takes: one for each byte, and those up to the next stop
  for a tab. -/
  columns : Nat
  /-- The character before it in the document. -/
  previous : Option Char
  /-- The character after it in the document. -/
  next : Option Char
  /-- The marks of holders right before it, which belong to no glyph. -/
  skipped : List Char := []
deriving DecidableEq

/-! ## Glyphs of a text -/

namespace Glyph

/-- The columns that a character takes at `column`. -/
def columnsAt (column : Nat) (c : Char) : Nat :=
  if c = '\t' then tabStop - column % tabStop else c.utf8Size

/-- The glyphs of a text that starts at byte `offset` and at `column`, after the character
`previous`. -/
def place (offset column : Nat) (previous : Option Char) : List Char → List Glyph
  | [] => []
  | '\r' :: '\n' :: rest =>
    { char := '\n', span := ⟨offset, offset + 2⟩, written := ['\r', '\n'], columns := 0,
      previous := previous, next := rest.head? } ::
      place (offset + 2) 0 (some '\n') rest
  | c :: rest =>
    if c = '\r' ∨ c = '\n' then
      { char := '\n', span := ⟨offset, offset + 1⟩, written := [c], columns := 0,
        previous := previous, next := rest.head? } ::
        place (offset + 1) 0 (some c) rest
    else
      { char := c, span := ⟨offset, offset + c.utf8Size⟩, written := [c],
        columns := columnsAt column c, previous := previous, next := rest.head? } ::
        place (offset + c.utf8Size) (column + columnsAt column c) (some c) rest

/-- The text of glyphs as it is written. -/
def text (glyphs : List Glyph) : List Char :=
  glyphs.flatMap Glyph.written

/-- The text of glyphs with the marks of holders between them. -/
def rawText (glyphs : List Glyph) : List Char :=
  glyphs.flatMap fun glyph => glyph.skipped ++ glyph.written

/-- The characters of glyphs. -/
def chars (glyphs : List Glyph) : List Char :=
  glyphs.map Glyph.char

/-- The bytes from the first glyph to the last. -/
def cover : List Glyph → Span
  | [] => ⟨0, 0⟩
  | first :: more => ⟨first.span.start, (more.getLastD first).span.stop⟩

/-- The glyph is a line ending. -/
def isEnding (glyph : Glyph) : Bool :=
  glyph.char == '\n'

/-- The glyph is a space or a tab. -/
def isSpace (glyph : Glyph) : Bool :=
  Markdown.isSpace glyph.char

/-- The glyph is a space, a tab or a line ending. -/
def isGap (glyph : Glyph) : Bool :=
  glyph.isSpace || glyph.isEnding

/-- The glyph is what is left of a tab after a holder took some of its columns. -/
def isRemnant (glyph : Glyph) : Bool :=
  glyph.written.isEmpty

/-- Drops spaces and tabs at the start. -/
def dropSpace (glyphs : List Glyph) : List Glyph :=
  glyphs.dropWhile isSpace

/-- Drops spaces, tabs and line endings at the start. -/
def dropGap (glyphs : List Glyph) : List Glyph :=
  glyphs.dropWhile isGap

/-- Drops spaces, tabs and line endings at the end. -/
def dropGapEnd (glyphs : List Glyph) : List Glyph :=
  (glyphs.reverse.dropWhile isGap).reverse

end Glyph

/-! ## Lines -/

/-- A line of a document, or what is left of it after the marks of the blocks around it. -/
structure Line where
  glyphs : List Glyph
  /-- The byte where the line ends, before its line ending. -/
  stop : Nat
  /-- The line ending, if there is one. -/
  ending : Option Glyph
deriving DecidableEq

namespace Line

/-- The lines of glyphs that end at byte `stop`.  A line ending at the end of the text does
not start another line. -/
def ofGlyphs (stop : Nat) : List Glyph → List Line
  | [] => []
  | glyph :: rest =>
    if glyph.isEnding then ⟨[], glyph.span.start, some glyph⟩ :: ofGlyphs stop rest
    else match ofGlyphs stop rest with
      | [] => [⟨[glyph], stop, none⟩]
      | line :: lines => { line with glyphs := glyph :: line.glyphs } :: lines

/-- The lines of a text.  A byte order mark at its start belongs to no line. -/
def ofText (source : List Char) : List Line :=
  let glyphs := Glyph.place 0 0 none source
  ofGlyphs (byteLength source) <|
    match glyphs with
    | first :: rest => if first.char = '\uFEFF' then rest else glyphs
    | [] => []

/-- The byte where the line starts. -/
def start (line : Line) : Nat :=
  match line.glyphs with
  | [] => line.stop
  | glyph :: _ => glyph.span.start

/-- The byte where the next line starts. -/
def next (line : Line) : Nat :=
  match line.ending with
  | none => line.stop
  | some ending => ending.span.stop

/-- The glyphs of several lines, with the line endings between them. -/
def join : List Line → List Glyph
  | [] => []
  | [line] => line.glyphs
  | line :: lines => line.glyphs ++ line.ending.toList ++ join lines

/-- The text of several lines, with the line endings between them. -/
def text (lines : List Line) : List Char :=
  Glyph.text (join lines)

end Line

/-! ## Columns -/

/-- What is left of a line. -/
structure Margin where
  /-- The columns that are taken of the first glyph when it is a tab. -/
  taken : Nat
  glyphs : List Glyph
deriving DecidableEq

namespace Margin

/-- The margin of a whole line. -/
def ofLine (line : Line) : Margin :=
  ⟨0, line.glyphs⟩

/-- Takes one column of white space. -/
def takeColumn? (margin : Margin) : Option Margin :=
  match margin.glyphs with
  | [] => none
  | glyph :: rest =>
    if !glyph.isSpace then none
    else if margin.taken + 1 < glyph.columns then some ⟨margin.taken + 1, glyph :: rest⟩
    else some ⟨0, rest⟩

/-- Takes white space of at most `limit` columns. -/
def takeUpTo : Nat → Margin → Margin
  | 0, margin => margin
  | limit + 1, margin =>
    match margin.takeColumn? with
    | none => margin
    | some next => takeUpTo limit next

/-- Takes white space of exactly `width` columns. -/
def take? : Nat → Margin → Option Margin
  | 0, margin => some margin
  | width + 1, margin => margin.takeColumn?.bind (take? width)

/-- The white space at the start. -/
def space (margin : Margin) : List Glyph :=
  margin.glyphs.takeWhile Glyph.isSpace

/-- The columns of the white space at the start. -/
def indent (margin : Margin) : Nat :=
  margin.space.foldl (fun total glyph => total + glyph.columns) 0 - margin.taken

/-- The characters of the white space at the start.  What is left of a tab counts as if the tab
reached from one stop to the next. -/
def size (margin : Margin) : Nat :=
  if margin.taken = 0 then margin.space.length
  else tabStop - margin.taken + (margin.space.length - 1)

/-- Only white space is left. -/
def isBlank (margin : Margin) : Bool :=
  margin.glyphs.all Glyph.isSpace

/-- What follows the white space at the start. -/
def content (margin : Margin) : List Glyph :=
  Glyph.dropSpace margin.glyphs

/-- The margin after `count` glyphs that are no tabs. -/
def skip (count : Nat) (margin : Margin) : Margin :=
  ⟨0, margin.glyphs.drop count⟩

/-- The margin after the white space at the start. -/
def flush (margin : Margin) : Margin :=
  ⟨0, margin.content⟩

/-- What is left of a line, as a line.  What is left of a tab is not written. -/
def rest (margin : Margin) (line : Line) : Line :=
  match margin.glyphs with
  | [] => { line with glyphs := [] }
  | first :: more =>
    let before := line.glyphs.take (line.glyphs.length - margin.glyphs.length)
    { line with
      glyphs :=
        { first with
          written := if margin.taken = 0 then first.written else []
          skipped := Glyph.text before } :: more }

end Margin

end LintDirectives.Markdown
