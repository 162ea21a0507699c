import LintDirectives.Markdown.HtmlBlock
import LintDirectives.Markdown.Mark
import LintDirectives.Markdown.Piece
import LintDirectives.Markdown.Table

/-!
# The flow of lines

What holders leave of the lines of a document is one flow, which runs on from one holder
to the next.  Each line is looked at once.  What it is depends on the line before it and
on the block that waits for more lines, so this is what a flow knows between two lines.

A line is *lazy* when holders around the line before have not gone on with it, and
*pierced* when new holders start on it.

* `Flow.feed` takes up a line and gives the pieces that it makes.
* `Flow.flush` finishes what waits.
-/

namespace LintDirectives.Markdown

/-- A block that may go on.  Lines are given with the last one first. -/
inductive Waiting where
  | nothing
  /-- A line of text that is the first row of a table when a line of dashes for its cells
  follows.  `isOpen` says that a bar ends it. -/
  | head (line : Line) (cells : Nat) (isOpen : Bool)
  /-- Indented code, and the blank lines after it. -/
  | code (start : Nat) (lines pending : List Line)
  /-- Code between fences.  The line of the fence is kept without its text.  The block ends at
  byte `stop` if the next line is lazy. -/
  | fenced (fence : Mark.Fence) (start stop : Nat) (lines : List Line)
  /-- HTML, which ends at byte `stop` if the next line is lazy. -/
  | html (kind : HtmlBlock) (start stop : Nat) (lines : List Line)

/-- What the last line was. -/
inductive LastLine where
  | text
  | underline
  | row
  | other
deriving DecidableEq

/-- What lies between two lines: the byte where the earlier one ends, and its line ending when
no block has taken it. -/
structure Seam where
  stop : Nat
  /-- The line ending, which is blank after a line with nothing on it. -/
  ending : Option Bool

/-- What is known between two lines. -/
structure Flow where
  waiting : Waiting := .nothing
  last : LastLine := .other
  /-- A block that starts now interrupts a paragraph. -/
  interrupts : Bool := false
  /-- The last line was lazy. -/
  isLazy : Bool := false
  /-- A row was given up after its last bar, which the next row or tag takes over. -/
  owed : Bool := false
  seam : Seam := ⟨0, none⟩

/-- What a line gives. -/
structure Fed where
  flow : Flow
  /-- The pieces of earlier lines. -/
  settled : List Piece := []
  /-- What lies between the pieces of earlier lines and those of this one. -/
  seam : Seam := ⟨0, none⟩
  /-- The pieces of this line. -/
  pieces : List Piece := []
  /-- A lazy line goes on with the paragraph before it. -/
  accepts : Bool := false

namespace Waiting

/-- No holder can start inside the block. -/
def isClosed : Waiting → Bool
  | fenced _ _ _ _ => true
  | html _ _ _ _ => true
  | _ => false

end Waiting

namespace Flow

/-! ## Finished blocks -/

/-- The text without one line ending at its start. -/
def dropEnding : List Char → List Char
  | '\r' :: '\n' :: rest => rest
  | '\r' :: rest => rest
  | '\n' :: rest => rest
  | text => text

/-- The text without one line ending at its end. -/
def dropEndingEnd (text : List Char) : List Char :=
  match text.reverse with
  | '\n' :: '\r' :: rest => rest.reverse
  | '\r' :: rest => rest.reverse
  | '\n' :: rest => rest.reverse
  | _ => text

/-- The text of lines that are given backwards, with the line ending of the last one if
`whole`. -/
def textOf (whole : Bool) (lines : List Line) : List Char :=
  let last := if whole then lines.head?.bind Line.ending else none
  Line.text lines.reverse ++ Glyph.text last.toList

/-- The piece of a block without text to read. -/
def leaf (kind : NodeKind) (start stop : Nat) (value : List Char) : Piece :=
  .block (.leaf { kind := kind, span := ⟨start, stop⟩, value := some (String.ofList value) })

/-- The code between fences. -/
def fencedLeaf (whole : Bool) (start stop : Nat) (lines : List Line) : Piece :=
  leaf .codeBlock start stop (dropEndingEnd (dropEnding (textOf whole lines)))

/-- A block of HTML. -/
def htmlLeaf (whole : Bool) (start stop : Nat) (lines : List Line) : Piece :=
  leaf .html start stop (textOf whole lines)

/-- Where the last line ends, given lines backwards. -/
def stopOf (lines : List Line) : Nat :=
  (lines.head?.map Line.stop).getD 0

/-- Where the line after the last one starts, given lines backwards. -/
def nextOf (lines : List Line) : Nat :=
  (lines.head?.map Line.next).getD 0

/-- Indented code. -/
def codeLeaf (start : Nat) (lines : List Line) : Piece :=
  leaf .codeBlock start (stopOf lines) (dropEndingEnd (textOf false lines))

/-- Finished code with the blank lines after it, and what lies after them. -/
def settleCode (start : Nat) (lines pending : List Line) : List Piece × Seam :=
  match pending with
  | [] => ([codeLeaf start lines], ⟨stopOf lines, some false⟩)
  | last :: earlier =>
    (codeLeaf start lines :: .ending false :: earlier.map fun _ => .ending true,
      ⟨last.stop, some true⟩)

/-- Finishes what waits, because a new holder starts after holders that have not gone on or
because the text ends.  A block that still needs its end mark takes the line ending, unless
its last line was lazy. -/
def flush (flow : Flow) : List Piece × Seam :=
  let takesEnding := !flow.isLazy && flow.seam.ending.isSome
  match flow.waiting with
  | .nothing => ([], flow.seam)
  | .head line _ _ => ([.text line], flow.seam)
  | .code start lines pending => settleCode start lines pending
  | .fenced _ start stop lines =>
    if takesEnding then
      ([fencedLeaf true start (nextOf lines) lines], ⟨nextOf lines, none⟩)
    else ([fencedLeaf false start stop lines], flow.seam)
  | .html kind start stop lines =>
    if takesEnding && !kind.endsAtBlank then
      ([htmlLeaf true start (nextOf lines) lines], ⟨nextOf lines, none⟩)
    else ([htmlLeaf false start stop lines], flow.seam)

/-- The flow after `flush`. -/
def flushed (flow : Flow) : Flow :=
  let owed :=
    match flow.waiting with
    | .head _ _ isOpen => flow.isLazy && isOpen
    | _ => flow.owed
  { flow with waiting := .nothing, interrupts := false, owed := owed, seam := ⟨flow.seam.stop, none⟩ }

/-! ## Lines that no block waits for -/

/-- A finished block that is no text. -/
def finished (flow : Flow) : Flow :=
  { flow with waiting := .nothing, last := .other, interrupts := false }

/-- A line of text. -/
def feedText (flow : Flow) (line : Line) : Flow × List Piece :=
  ({ flow with waiting := .nothing, last := .text, interrupts := true }, [.text line])

/-- The block of lines ends here if the next line is lazy: after this line, and after its line
ending when nothing else is on it. -/
def lazyStop (line : Line) : Nat :=
  if line.glyphs.isEmpty then line.next else line.stop

/-- A line that starts indented code.  Code ends at once on a line that is lazy or pierced. -/
def startCode (flow : Flow) (lazy pierced : Bool) (line : Line) (margin : Margin) :
    Flow × List Piece :=
  let start := (margin.rest line).start
  let first := (margin.takeUpTo tabStop).rest line
  if lazy || pierced then (flow.finished, [codeLeaf start [first]])
  else ({ flow with waiting := .code start [first] [], last := .other }, [])

/-- A line that starts HTML. -/
def startHtml (flow : Flow) (kind : HtmlBlock) (line : Line) (margin : Margin) :
    Flow × List Piece :=
  let first := margin.rest line
  if kind.closesAtOnce (Glyph.chars margin.content) then
    (flow.finished, [htmlLeaf false first.start line.stop [first]])
  else
    ({ flow with waiting := .html kind first.start line.stop [first], last := .other }, [])

/-- The line starts with a character that says what it may be. -/
def isDecided (margin : Margin) : Bool :=
  margin.glyphs.head?.any fun glyph =>
    ['#', '\x60', '~', '$', '*', '_', '<', 'e', 'i', '{'].contains glyph.char

/-- A line that is a row of a table or text. -/
def feedRow (flow : Flow) (lazy pierced : Bool) (line : Line) (margin : Margin) :
    Flow × List Piece :=
  let rest := margin.rest line
  if 3 < margin.indent || isDecided margin then flow.feedText rest
  else if !pierced && flow.last == .row then
    if lazy then flow.feedText rest else (flow, [.row (Table.row rest.glyphs)])
  else if line.ending.isNone || Table.isLoneBar rest.glyphs then
    { flow with owed := false }.feedText rest
  else
    let cells := Table.cellCount flow.owed rest.glyphs
    ({ flow with
        waiting := .head rest cells (Table.endsWithBar rest.glyphs)
        last := .other
        interrupts := true }, [])

/-- The kind of HTML that a line starts. -/
def html? (flow : Flow) (lazy : Bool) (text : List Char) : Option HtmlBlock :=
  HtmlBlock.opening? (!flow.interrupts || lazy) flow.owed text

/-- The flow after a line is tried as HTML: a tag takes over the bar of a row. -/
def triedHtml (flow : Flow) (text : List Char) : Flow :=
  if text.head? == some '<' && HtmlBlock.startsTag (text.drop 1) then { flow with owed := false }
  else flow

/-- A line that is not indented like code. -/
def startMarked (flow : Flow) (lazy pierced : Bool) (line : Line) (margin : Margin) :
    Flow × List Piece :=
  let text := Glyph.chars margin.content
  let span : Span := ⟨(margin.rest line).start, line.stop⟩
  match Mark.fence? margin.size text with
  | some fence =>
    let start := (Glyph.cover margin.content).start
    ({ flow with
        waiting := .fenced fence start line.stop [{ line with glyphs := [] }]
        last := .other }, [])
  | none =>
    let tried := flow.triedHtml text
    match flow.html? lazy text with
    | some kind => tried.startHtml kind line margin
    | none =>
      match Mark.heading? margin.content with
      | some content => (tried.finished, [.block (.prose .header span content)])
      | none =>
        let isUnder := !lazy && !pierced && (flow.last == .text || flow.last == .underline)
        if isUnder && Mark.isUnderline text then
          ({ tried with last := .underline, interrupts := false }, [.underline (margin.rest line)])
        else if Mark.isRule text then
          (tried.finished, [.block (.leaf { kind := .horizontalRule, span := span })])
        else tried.feedRow lazy pierced line margin

/-- A line that no block waits for. -/
def start (flow : Flow) (lazy pierced : Bool) (line : Line) (margin : Margin) :
    Flow × List Piece :=
  if margin.isBlank then
    ({ flow with last := .other, interrupts := flow.interrupts && line.ending.isNone }, [])
  else if !flow.interrupts && 4 ≤ margin.indent then flow.startCode lazy pierced line margin
  else if 4 ≤ margin.indent then flow.feedText (margin.rest line)
  else flow.startMarked lazy pierced line margin

/-! ## Lines -/

/-- The next line may go on with a paragraph. -/
def mayGoOn (flow : Flow) : Bool :=
  match flow.waiting with
  | .head _ _ _ => true
  | _ => flow.last == .text || flow.last == .underline

/-- The line is text, and would be if more came after its last character. -/
def staysText (flow : Flow) (margin : Margin) : Bool :=
  let text := Glyph.chars margin.content
  !margin.isBlank &&
    if 4 ≤ margin.indent then flow.interrupts
    else
      !(Mark.startsFence text || (Mark.fence? margin.size text).isSome ||
        HtmlBlock.startsMarkup flow.owed text || (flow.html? true text).isSome ||
        (Mark.heading? margin.content).isSome || Mark.startsRule text)

/-- Takes up a line after what waited is settled. -/
def restart (flow : Flow) (settled : List Piece) (seam : Seam) (lazy pierced : Bool) (line : Line)
    (margin : Margin) : Fed :=
  let flow := { flow with waiting := .nothing }
  let (next, pieces) := flow.start lazy pierced line margin
  ⟨next, settled, seam, pieces,
    if line.ending.isSome then next.mayGoOn else flow.staysText margin⟩

/-- A line after one that may be the first row of a table. -/
def feedHead (flow : Flow) (head : Line) (cells : Nat) (isOpen lazy pierced : Bool) (line : Line)
    (margin : Margin) : Fed :=
  let columns? := if margin.indent ≤ 3 then Table.columns? (Glyph.chars margin.glyphs) else none
  if !lazy && !pierced && columns? == some cells then
    { flow := { flow with waiting := .nothing, last := .row, interrupts := false, owed := false }
      pieces := [.head (Table.row head.glyphs) line.stop] }
  else
    { flow with last := .text, interrupts := true, owed := (lazy || pierced) && isOpen }.restart
      [.text head] flow.seam lazy pierced line margin

/-- A line after indented code. -/
def feedCode (flow : Flow) (start : Nat) (lines pending : List Line) (lazy pierced : Bool)
    (line : Line) (margin : Margin) : Fed :=
  let settle : Fed :=
    let (settled, seam) := settleCode start lines pending
    flow.finished.restart settled seam lazy pierced line margin
  let wait (waiting : Waiting) : Fed := { flow := { flow with waiting := waiting } }
  if lazy || pierced then settle
  else match margin.take? tabStop with
    | some rest => wait (.code start (rest.rest line :: pending ++ lines) [])
    | none =>
      if margin.isBlank && line.ending.isSome then
        wait (.code start lines ({ line with glyphs := [] } :: pending))
      else settle

/-- A line after a fence. -/
def feedFenced (flow : Flow) (fence : Mark.Fence) (start stop : Nat) (lines : List Line)
    (lazy pierced : Bool) (line : Line) (margin : Margin) : Fed :=
  if lazy then
    flow.finished.restart [fencedLeaf false start stop lines] flow.seam lazy pierced line margin
  else if margin.indent ≤ 3 && fence.isClosedBy (Glyph.chars margin.content) then
    { flow := flow.finished, pieces := [fencedLeaf true start line.stop lines] }
  else
    let stop := lazyStop (margin.rest line)
    let rest := (margin.takeUpTo fence.indent).rest line
    { flow := { flow with waiting := .fenced fence start stop (rest :: lines) } }

/-- A line after the start of HTML. -/
def feedHtml (flow : Flow) (kind : HtmlBlock) (start stop : Nat) (lines : List Line)
    (lazy pierced : Bool) (line : Line) (margin : Margin) : Fed :=
  if lazy || kind.endsAtBlank && margin.isBlank then
    flow.finished.restart [htmlLeaf false start stop lines] flow.seam lazy pierced line margin
  else
    let rest := margin.rest line
    if kind.closes (Glyph.chars margin.glyphs) then
      { flow := flow.finished, pieces := [htmlLeaf false start line.stop (rest :: lines)] }
    else { flow := { flow with waiting := .html kind start (lazyStop rest) (rest :: lines) } }

/-- A line whose ending is not known yet: what waits takes it up, or it starts something. -/
def takeUp (flow : Flow) (lazy pierced : Bool) (line : Line) (margin : Margin) : Fed :=
  match flow.waiting with
  | .nothing => flow.restart [] flow.seam lazy pierced line margin
  | .head head cells isOpen => flow.feedHead head cells isOpen lazy pierced line margin
  | .code start lines pending => flow.feedCode start lines pending lazy pierced line margin
  | .fenced fence start stop lines =>
    flow.feedFenced fence start stop lines lazy pierced line margin
  | .html kind start stop lines => flow.feedHtml kind start stop lines lazy pierced line margin

/-- Takes up what holders leave of a line.  When they leave nothing at the end of the text, what
waits is finished. -/
def feed (flow : Flow) (lazy pierced : Bool) (line : Line) (margin : Margin) : Fed :=
  let flow := { flow with isLazy := lazy }
  if margin.glyphs.isEmpty && line.ending.isNone then
    let (settled, seam) := flow.flush
    ⟨{ flow with waiting := .nothing, seam := ⟨line.stop, none⟩ }, settled, seam, [], flow.mayGoOn⟩
  else
    let fed := flow.takeUp lazy pierced line margin
    let blank := margin.isBlank && !fed.flow.waiting.isClosed
    { fed with flow := { fed.flow with seam := ⟨line.stop, line.ending.map fun _ => blank⟩ } }

end Flow

end LintDirectives.Markdown
