import LintDirectives.Markdown.Glyph
import LintDirectives.Text.CaseFold

/-!
# Labels, destinations and titles

The parts of links and of the definitions that links refer to, and the resources made
of them.  Each reader gives what follows the part, or nothing when the part is not there.
A backslash takes the meaning of the marks of a part away; the readers remember whether
one comes before.
-/

namespace LintDirectives.Markdown

open Text

/-! ## Labels -/

namespace Label

/-- The longest label, in columns. -/
def limit : Nat :=
  999

/-- The columns of a label.  Line endings and the white space after them do not count;
`indented` says that a line ending comes before. -/
def size (indented : Bool) : List Glyph → Nat
  | [] => 0
  | glyph :: rest =>
    if glyph.isEnding then size true rest
    else if indented && glyph.isSpace then size true rest
    else glyph.columns + size false rest

/-- A backslash takes the meaning of this character away in a label. -/
def isMark (c : Char) : Bool :=
  c == '[' || c == '\\' || c == ']'

/-- The glyphs before the bracket that closes a label, the bracket, and the glyphs after it.
`escaped` says that a backslash comes before. -/
def split? (escaped : Bool) : List Glyph → Option (List Glyph × Glyph × List Glyph)
  | [] => none
  | glyph :: rest =>
    if escaped && isMark glyph.char then
      (split? false rest).map fun (label, after) => (glyph :: label, after)
    else if glyph.char = ']' then some ([], glyph, rest)
    else if glyph.char = '[' then none
    else
      (split? (glyph.char == '\\') rest).map fun (label, after) => (glyph :: label, after)

/-- Puts one space for each run of white space. -/
def collapse : List Char → List Char
  | [] => []
  | c :: cs =>
    if c = ' ' ∨ c = '\t' ∨ c = '\n' ∨ c = '\r' then
      match collapse cs with
      | ' ' :: rest => ' ' :: rest
      | rest => ' ' :: rest
    else c :: collapse cs

/-- Labels that differ only in case and in the length of their white space are the same label.
White space at the ends does not count, nor does what follows a word at the very start.  The
marks of holders at the start of a line belong to the label, up to the `closing` bracket. -/
def normalize (label : List Glyph) (closing : Glyph) : List Char :=
  let spaced := collapse (Glyph.rawText label ++ closing.skipped)
  let words := ((spaced.dropWhile (· = ' ')).reverse.dropWhile (· = ' ')).reverse
  foldCase (if spaced.head? = some ' ' then words else words.erase ' ')

/-- The label that ends at the next closing bracket, in its normal form, and what follows the
bracket. -/
def read? (glyphs : List Glyph) : Option (List Char × List Glyph) :=
  match split? false glyphs with
  | none => none
  | some (label, closing, after) =>
    if label.all Glyph.isGap ∨ limit < size false label then none
    else some (normalize label closing, after)

/-! ### Labels of notes -/

/-- The label of a note in its normal form and what follows its bracket. -/
def readNote? (glyphs : List Glyph) : Option (List Char × List Glyph) :=
  match split? false glyphs with
  | none => none
  | some (label, closing, after) =>
    if label = [] ∨ label.any Glyph.isGap ∨ limit < size false label then none
    else some (normalize label closing, after)

end Label

/-! ## Destinations -/

namespace Destination

/-- The deepest nesting of parentheses in the destination of a link. -/
def depthLimit : Nat :=
  32

/-- The character ends a destination without angle brackets or is not allowed in one. -/
def isForbidden (c : Char) : Bool :=
  (0 < c.toNat && c.toNat < 0x20) || c == ' ' || c.toNat == 0x7F

/-- What follows a destination after its opening angle bracket. -/
def afterAngle? (escaped : Bool) : List Glyph → Option (List Glyph)
  | [] => none
  | glyph :: rest =>
    if escaped && (glyph.char == '<' || glyph.char == '\\' || glyph.char == '>') then
      afterAngle? false rest
    else if glyph.char = '>' then some rest
    else if glyph.isEnding ∨ glyph.char = '<' then none
    else afterAngle? (glyph.char == '\\') rest

/-- What follows a destination without angle brackets, inside `depth` parentheses. -/
def afterBare? (limit depth : Nat) (escaped : Bool) : List Glyph → Option (List Glyph)
  | [] => if depth = 0 then some [] else none
  | glyph :: rest =>
    if escaped && (glyph.char == '(' || glyph.char == '\\' || glyph.char == ')') then
      afterBare? limit depth false rest
    else if depth = 0 ∧ (glyph.isGap ∨ glyph.char = ')') then some (glyph :: rest)
    else if glyph.char = '(' then
      if depth < limit then afterBare? limit (depth + 1) false rest else none
    else if glyph.char = ')' then afterBare? limit (depth - 1) false rest
    else if isForbidden glyph.char then none
    else afterBare? limit depth (glyph.char == '\\') rest

/-- What follows a destination. -/
def after? (limit : Nat) (glyphs : List Glyph) : Option (List Glyph) :=
  match glyphs with
  | [] => none
  | glyph :: rest =>
    if glyph.char = '<' then afterAngle? false rest
    else if isForbidden glyph.char ∨ glyph.char = ')' then none
    else afterBare? limit 0 false glyphs

end Destination

/-! ## Titles -/

namespace Title

/-- The character that closes a title opened by `c`. -/
def closing? (c : Char) : Option Char :=
  if c = '"' then some '"'
  else if c = '\x27' then some '\x27'
  else if c = '(' then some ')'
  else none

/-- What follows a title that `mark` closes. -/
def afterMark? (mark : Char) (escaped : Bool) : List Glyph → Option (List Glyph)
  | [] => none
  | glyph :: rest =>
    if escaped && (glyph.char == mark || glyph.char == '\\') then afterMark? mark false rest
    else if glyph.char = mark then some rest
    else afterMark? mark (glyph.char == '\\') rest

/-- What follows a title. -/
def after? (glyphs : List Glyph) : Option (List Glyph) :=
  match glyphs with
  | [] => none
  | glyph :: rest => (closing? glyph.char).bind fun mark => afterMark? mark false rest

end Title

/-! ## Resources -/

namespace Resource

/-- What follows the closing parenthesis of a resource, after a gap. -/
def close? (glyphs : List Glyph) : Option (List Glyph) :=
  match Glyph.dropGap glyphs with
  | [] => none
  | closing :: rest => if closing.char = ')' then some rest else none

/-- What follows a destination and a title in parentheses. -/
def after? (glyphs : List Glyph) : Option (List Glyph) :=
  match glyphs with
  | [] => none
  | opening :: inside =>
    if opening.char ≠ '(' then none
    else
      (close? inside).orElse fun _ =>
        (Destination.after? Destination.depthLimit (Glyph.dropGap inside)).bind fun rest =>
          let titled :=
            if rest.head?.any Glyph.isGap then
              (Title.after? (Glyph.dropGap rest)).bind close?
            else none
          titled.orElse fun _ => close? rest

end Resource

end LintDirectives.Markdown
