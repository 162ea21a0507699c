import LintDirectives.Span
import LintDirectives.Text.Lines
import LintDirectives.Text.Measure

/-!
# Line index

Conversion between the byte offsets of a document and the UTF-16 offsets, lines
and columns of diagnostics.

A line starts at the beginning of the document and after every line feed.  The
index holds, for each line start, its byte offset, its UTF-16 offset and the
text from there on, so every conversion looks up one line and measures from its
start.

All counts are without bound.  Counted with 32 bits they are the same for a document
of fewer than `2 ^ 32 - 1` bytes, which `Proofs/LineIndex/Access` shows step by step; from
there on a count may not fit.

There are two groups of definitions.

* The table.  `lineStarts` lists the line starts of a text and `ofText` builds
  the index.
* The conversions.  `byteOffset?` and `offset?` read a place that a diagnostic
  reports, and say `none` for a place that the document does not have.
  `unitOffset` and `position` write a place, and clamp a byte offset to the
  last character boundary at or below it.
-/

namespace LintDirectives

/-- A place where a line starts, and the text from there on. -/
structure LineStart where
  byte : Nat
  unit : Nat
  rest : List Char
deriving DecidableEq

/-- The line starts of a document. -/
structure LineIndex where
  /-- The start of the document. -/
  first : LineStart
  /-- The starts after a line feed, in order. -/
  later : List LineStart
  /-- The length of the document in UTF-16 code units. -/
  units : Nat

namespace LineIndex

open Text

/-! ## The table -/

/-- The line starts after each line feed of `text`, which stands at `byte` and `unit`. -/
def lineStarts (byte unit : Nat) : List Char → List LineStart
  | [] => []
  | c :: cs =>
    let byte := byte + c.utf8Size
    let unit := unit + Text.units c
    if c = '\n' then ⟨byte, unit, cs⟩ :: lineStarts byte unit cs
    else lineStarts byte unit cs

/-- The index of a document given as characters. -/
def ofChars (text : List Char) : LineIndex where
  first := ⟨0, 0, text⟩
  later := lineStarts 0 0 text
  units := unitLength text

/-- The index of a document. -/
def ofText (text : String) : LineIndex :=
  ofChars text.toList

/-- Every line start, in order. -/
def starts (index : LineIndex) : List LineStart :=
  index.first :: index.later

/-- The last line that starts at or before UTF-16 offset `unit`. -/
def lineAtUnit (index : LineIndex) (unit : Nat) : LineStart :=
  (index.later.takeWhile (·.unit ≤ unit)).getLastD index.first

/-- The last line that starts at or before byte `byte`. -/
def lineAtByte (index : LineIndex) (byte : Nat) : LineStart :=
  (index.later.takeWhile (·.byte ≤ byte)).getLastD index.first

/-- The number, from one, of the last line that starts at or before byte `byte`. -/
def lineNumber (index : LineIndex) (byte : Nat) : Nat :=
  (index.later.takeWhile (·.byte ≤ byte)).length + 1

/-! ## The conversions -/

/-- The byte offset of a UTF-16 offset.  A place inside a character is the start of
that character; there is no place past the end. -/
def byteOffset? (index : LineIndex) (unit : Nat) : Option Nat :=
  if index.units < unit then none
  else
    let line := index.lineAtUnit unit
    some (line.byte + bytesWithin (unit - line.unit) line.rest)

/-- The UTF-16 offset of a byte offset. -/
def unitOffset (index : LineIndex) (byte : Nat) : Nat :=
  let line := index.lineAtByte byte
  line.unit + unitsWithin (byte - line.byte) line.rest

/-- The byte offset of a line and column.  Column zero is read as column one. -/
def offset? (index : LineIndex) (position : Position) : Option Nat :=
  match position.line with
  | 0 => none
  | line + 1 =>
    (index.starts[line]?).bind fun start => index.byteOffset? (start.unit + (position.column - 1))

/-- The line and column of a byte offset. -/
def position (index : LineIndex) (byte : Nat) : Position :=
  let line := index.lineAtByte byte
  ⟨index.lineNumber byte, unitsWithin (byte - line.byte) line.rest + 1⟩

end LineIndex

end LintDirectives
