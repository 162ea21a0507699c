import LintDirectives.Markdown.Flow

/-!
# The outline of a document

Holders are blocks that hold other blocks and put their marks before each line: quotes,
list items and notes.  A line is read from the outside in: holders that go on take their
marks, new holders are opened, and the rest of the line goes to the flow of lines.

The pieces that the flow gives go into the innermost holder.  A holder that does not go
on with a line is closed before the line's own pieces, unless the line goes on with the
paragraph in it.

* `Frame.resumeAll` gives the holders that go on with a line.
* `Outline.step` takes up one line.
* `Outline.blocks` are the blocks of a text.
-/

namespace LintDirectives.Markdown

/-! ## Holders -/

/-- A block that holds blocks and may go on. -/
inductive Holder where
  | quote
  /-- A list item.  Its lines are indented by `width` columns.  `bare` says that it has
  nothing in it yet. -/
  | item (sign : Char) (width : Nat) (bare : Bool)
  /-- A note. -/
  | note (label : List Char)
deriving DecidableEq

/-- A holder that is open. -/
structure Frame where
  holder : Holder
  start : Nat
  /-- The pieces in it, the last one first. -/
  pieces : List Piece

/-- Takes the mark of a quote. -/
def Margin.takeQuote? (margin : Margin) : Option Margin :=
  if margin.indent ≤ 3 ∧ margin.content.head?.any (·.char == '>') then
    some ((margin.flush.skip 1).takeUpTo 1)
  else none

namespace Frame

/-- The columns that the lines of a note are indented by. -/
def noteWidth : Nat :=
  4

/-- White space that a holder takes from a line is a mark. -/
def taking (before after : Margin) : List Piece :=
  if before = after then [] else [.mark false]

/-- The holder goes on with this line.  Gives the marks that it takes and what is left. -/
def resume? (frame : Frame) (margin : Margin) : Option (Frame × List Piece × Margin) :=
  match frame.holder with
  | .quote => margin.takeQuote?.map fun rest => (frame, [.mark true], rest)
  | .item sign width bare =>
    if margin.isBlank then
      let rest := margin.takeUpTo width
      if bare then none else some (frame, taking margin rest, rest)
    else
      (margin.take? width).map fun rest =>
        ({ frame with holder := .item sign width false }, taking margin rest, rest)
  | .note _ =>
    if margin.isBlank then
      let rest := margin.takeUpTo noteWidth
      some (frame, taking margin rest, rest)
    else (margin.take? noteWidth).map fun rest => (frame, taking margin rest, rest)

/-- The holders that go on with a line. -/
structure Resumed where
  /-- The holders that go on, from the outside in. -/
  kept : List Frame
  /-- The holders that do not. -/
  lost : List Frame
  /-- What the holders take from the line. -/
  marks : List Piece
  /-- What is left of the line. -/
  margin : Margin

/-- The holders of a list, from the outside in, that go on with a line. -/
def resumeAll (margin : Margin) : List Frame → Resumed
  | [] => ⟨[], [], [], margin⟩
  | frame :: frames =>
    match frame.resume? margin with
    | none => ⟨[], frame :: frames, [], margin⟩
    | some (frame, marks, rest) =>
      let inner := resumeAll rest frames
      { inner with kept := frame :: inner.kept, marks := marks ++ inner.marks }

/-! ### New holders -/

/-- The line ending comes right after the margin and takes two characters. -/
def isWideEnding (line : Line) (margin : Margin) : Bool :=
  margin.glyphs.isEmpty && line.ending.any (2 ≤ ·.written.length)

/-- The list item that a line starts. -/
def item? (interrupts : Bool) (line : Line) (margin : Margin) : Option (Holder × Margin) :=
  match Mark.bullet? interrupts (Glyph.chars margin.content) with
  | none => none
  | some bullet =>
    let after := margin.flush.skip bullet.size
    let taken := margin.size + bullet.size
    if after.isBlank then
      let gap := if isWideEnding line after then 2 else 1
      some (.item bullet.marker (taken + gap) true, after)
    else if after.indent ≤ tabStop then
      some (.item bullet.marker (taken + after.space.length) false, after.flush)
    else some (.item bullet.marker (taken + 1) false, after.takeUpTo 1)

/-- The note that a line starts. -/
def note? (margin : Margin) : Option (Holder × Margin) :=
  match margin.content with
  | opening :: caret :: inside =>
    if opening.char ≠ '[' ∨ caret.char ≠ '^' then none
    else match Label.readNote? inside with
      | some (label, colon :: after) =>
        if colon.char ≠ ':' then none
        else
          let taken := margin.content.length - after.length
          some (.note label, (margin.flush.skip taken).flush)
      | _ => none
  | _ => none

/-- The holder that a line starts, and what is left of the line.  The holder starts with the
white space before its mark. -/
def opening? (interrupts : Bool) (line : Line) (margin : Margin) : Option (Frame × Margin) :=
  match margin.glyphs with
  | [] => none
  | first :: _ =>
    if 3 < margin.indent then none
    else
      let found :=
        ((margin.takeQuote?.map fun rest => (Holder.quote, rest)).orElse
          fun _ => item? interrupts line margin).orElse fun _ => note? margin
      found.map fun (holder, rest) => (⟨holder, first.span.start, []⟩, rest)

/-- The holders that a line starts inside each other, put before `frames` with the innermost
first. -/
def openings (interrupts : Bool) (line : Line) (frames : List Frame) (margin : Margin) :
    List Frame × Margin :=
  match opening? interrupts line margin with
  | none => (frames, margin)
  | some (frame, rest) =>
    if rest.content.length < margin.content.length then
      openings interrupts line (frame :: frames) rest
    else (frame :: frames, rest)
termination_by margin.content.length

/-! ### Closed holders -/

/-- The piece of a holder that ends at byte `stop`. -/
def close (frame : Frame) (stop : Nat) : Piece :=
  let span : Span := ⟨frame.start, stop⟩
  let pieces := frame.pieces.reverse
  match frame.holder with
  | .quote => .block (.branch .blockQuote span (Piece.blocks false pieces))
  | .item sign _ _ => .item sign (.branch .listItem span (Piece.blocks true pieces))
  | .note label => .block (.note label span (Piece.blocks false pieces))

end Frame

/-! ## The outline -/

/-- What is known between two lines. -/
structure Outline where
  /-- The open holders, the innermost first. -/
  frames : List Frame := []
  /-- The pieces outside of all holders, the last one first. -/
  pieces : List Piece := []
  flow : Flow := {}
  /-- A lazy line may go on with the paragraph of the line before. -/
  accepts : Bool := false

namespace Outline

/-- Puts pieces into the innermost holder. -/
def put (pieces : List Piece) (outline : Outline) : Outline :=
  match outline.frames with
  | [] => { outline with pieces := pieces.reverse ++ outline.pieces }
  | frame :: frames =>
    { outline with frames := { frame with pieces := pieces.reverse ++ frame.pieces } :: frames }

/-- Closes the innermost holder. -/
def close (stop : Nat) (outline : Outline) : Outline :=
  match outline.frames with
  | [] => outline
  | frame :: frames => { outline with frames := frames }.put [frame.close stop]

/-- Closes the `count` innermost holders. -/
def closeMany (stop count : Nat) (outline : Outline) : Outline :=
  count.repeat (close stop) outline

/-- Puts the line ending between two lines. -/
def putSeam (seam : Seam) (outline : Outline) : Outline :=
  outline.put (seam.ending.map Piece.ending).toList

/-- A line on which new holders start after `lost` ones that do not go on. -/
def reopen (lost : Nat) (outline : Outline) : Outline :=
  let (settled, seam) := outline.flow.flush
  { ((outline.put settled).closeMany seam.stop lost).putSeam seam with
    flow := outline.flow.flushed }

/-- Feeds the rest of a line to the flow.  `marks` is what holders took from the line, `opened`
are the holders that start on it, and `lost` ones do not go on with it. -/
def feed (lost : Nat) (marks : List Piece) (opened : List Frame) (line : Line) (margin : Margin)
    (outline : Outline) : Outline :=
  let lazy := lost != 0
  let fed := outline.flow.feed lazy (!opened.isEmpty) line margin
  let settled := outline.put fed.settled
  let isLost := lazy && !(outline.accepts && fed.accepts)
  let closed := if isLost then settled.closeMany fed.seam.stop lost else settled
  let joined := (closed.putSeam fed.seam).put marks
  let flow := if isLost then { fed.flow with interrupts := false } else fed.flow
  { joined with frames := opened ++ joined.frames, flow := flow, accepts := fed.accepts }.put
    fed.pieces

/-- Takes up one line. -/
def step (outline : Outline) (line : Line) : Outline :=
  let resumed := Frame.resumeAll (Margin.ofLine line) outline.frames.reverse
  let outline := { outline with frames := (resumed.kept ++ resumed.lost).reverse }
  let lost := resumed.lost.length
  let (opened, margin) :=
    if lost == 0 && outline.flow.waiting.isClosed then ([], resumed.margin)
    else
      Frame.openings (lost == 0 && outline.flow.interrupts) line [] resumed.margin
  if opened.isEmpty then outline.feed lost resumed.marks opened line margin
  else if lost == 0 then outline.feed 0 resumed.marks opened line margin
  else (outline.reopen lost).feed 0 resumed.marks opened line margin

/-- Closes all holders and gives the blocks. -/
def finish (outline : Outline) : List Block :=
  let (settled, seam) := outline.flow.flush
  let closed := (outline.put settled).closeMany seam.stop outline.frames.length
  Piece.blocks false closed.pieces.reverse

/-- The blocks of a text. -/
def blocks (source : List Char) : List Block :=
  ((Line.ofText source).foldl step {}).finish

end Outline

end LintDirectives.Markdown
