import LintDirectives.Markdown.Block
import LintDirectives.Text.Search

/-!
# Tables

A row of a table is a line that is cut at its bars.  A cell starts at the bar
before it, and the last cell takes the bar that closes the row.  The line of dashes
under the first row says how many cells that row must have.

* `Table.columns?` reads a line of dashes.
* `Table.row` is the row that a line makes.
-/

namespace LintDirectives.Markdown.Table

open Text

/-! ## The line of dashes -/

/-- The text without the spaces at both ends. -/
def trimSpaces (text : List Char) : List Char :=
  ((text.dropWhile isSpace).reverse.dropWhile isSpace).reverse

/-- The text without one bar at each end. -/
def withoutBars (text : List Char) : List Char :=
  let opened := if text.head? = some '|' then text.drop 1 else text
  if opened.getLast? = some '|' then opened.dropLast else opened

/-- The text is dashes with or without a colon at each end. -/
def isColumn (text : List Char) : Bool :=
  let opened := if text.head? = some ':' then text.drop 1 else text
  let dashes := if opened.getLast? = some ':' then opened.dropLast else opened
  !dashes.isEmpty && dashes.all (· == '-')

/-- The number of columns that a line of dashes gives a table.  A line without any bar or
colon gives none. -/
def columns? (line : List Char) : Option Nat :=
  let text := trimSpaces line
  let parts := (pieces '|' (withoutBars text)).map trimSpaces
  if (text.contains '|' || text.contains ':') && parts.all isColumn then some parts.length
  else none

/-! ## Rows -/

/-- The parts of a row, each but the first from a bar to the next.  A backslash takes the
meaning of a bar away; `escaped` says that one comes before. -/
def parts (escaped : Bool) : List Glyph → List (List Glyph)
  | [] => [[]]
  | glyph :: rest =>
    if glyph.char = '|' ∧ ¬ escaped then
      match parts false rest with
      | [] => [[], [glyph]]
      | part :: more => [] :: (glyph :: part) :: more
    else
      match parts (glyph.char == '\\' && !escaped) rest with
      | [] => [[glyph]]
      | part :: more => (glyph :: part) :: more

/-- The text of a part, without its bar and the spaces around it. -/
def cellText (part : List Glyph) : List Glyph :=
  let inside := Glyph.dropSpace part
  let text := if inside.head?.any (·.char == '|') then inside.drop 1 else inside
  Glyph.dropGapEnd (Glyph.dropSpace text)

/-- The cell of a part, which ends at byte `stop`. -/
def cell (part : List Glyph) (stop : Nat) : Block :=
  .prose .tableCell ⟨(Glyph.cover part).start, stop⟩ (cellText part)

/-- The cells of parts.  The cell before a last part without text takes that part. -/
def cells : List (List Glyph) → List Block
  | [] => []
  | [part] => [cell part (Glyph.cover part).stop]
  | part :: rest =>
    match rest with
    | [last] =>
      if cellText last = [] then [cell part (Glyph.cover last).stop]
      else cell part (Glyph.cover part).stop :: cells rest
    | _ => cell part (Glyph.cover part).stop :: cells rest

/-- The cells of a row.  White space before the first bar belongs to the first cell. -/
def rowCells (row : List Glyph) : List Block :=
  match parts false row with
  | first :: second :: more =>
    cells (if cellText first = [] then (first ++ second) :: more else first :: second :: more)
  | parts => cells parts

/-- The row that a line makes. -/
def row (line : List Glyph) : Block :=
  .branch .tableRow (Glyph.cover line) (rowCells line)

/-! ## The first row -/

/-- The line is a bar alone, which is no row. -/
def isLoneBar (line : List Glyph) : Bool :=
  Glyph.chars (Glyph.dropGapEnd (Glyph.dropSpace line)) == ['|']

/-- The number of cells that a first row has.  `owed` says that a bar before its first one
counts as well. -/
def cellCount (owed : Bool) (line : List Glyph) : Nat :=
  let startsWithBar := (Glyph.dropSpace line).head?.any (·.char == '|')
  (rowCells line).length + (if owed && startsWithBar then 1 else 0)

/-- A bar ends the row. -/
def endsWithBar (line : List Glyph) : Bool :=
  match (parts false line).reverse with
  | last :: _ :: _ => (cellText last).isEmpty
  | _ => false

end LintDirectives.Markdown.Table
