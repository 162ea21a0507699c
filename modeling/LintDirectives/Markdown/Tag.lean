import LintDirectives.Markdown.Glyph
import LintDirectives.Text.Search

/-!
# Tags

A tag is read by a machine with a few states, one character at a time.  The rules
are a little different for a tag in a text, which may go over several lines, and for one
that starts a block and stands on one line.

* `Tag.after?` reads what follows the `<` of a tag.
* `Markup.after?` also reads comments, instructions, declarations and data sections.
-/

namespace LintDirectives.Markdown

open Text

namespace Tag

/-- Where a tag stands. -/
inductive Place where
  /-- In a text. -/
  | text
  /-- At the start of a block. -/
  | block
deriving DecidableEq

/-- The character is a gap between the parts of a tag. -/
def Place.isGap (place : Place) (c : Char) : Bool :=
  isSpace c || (c == '\n' && place == .text)

/-- Where the reader of a tag stands. -/
inductive State where
  /-- At the start, after `<`. -/
  | start
  /-- In the name of an opening tag. -/
  | name
  /-- After `</`. -/
  | closing
  /-- In the name of a closing tag. -/
  | closingName
  /-- After the name of a closing tag. -/
  | closingGap
  /-- Between attributes. -/
  | between
  /-- In the name of an attribute. -/
  | key
  /-- After the name of an attribute. -/
  | keyGap
  /-- After the `=` of an attribute. -/
  | value
  /-- In a value without quotes. -/
  | bare
  /-- In a value between quotes. -/
  | quoted (quote : Char)
  /-- After a value between quotes. -/
  | unquoted
  /-- After the slash of an empty tag. -/
  | slash
  /-- After `>`. -/
  | done
deriving DecidableEq

/-- The character may follow the first one in the name of a tag. -/
def isNameChar (c : Char) : Bool :=
  c.isAlphanum || c == '-'

/-- The character may start the name of an attribute. -/
def startsAttribute (c : Char) : Bool :=
  c.isAlpha || c == '_' || c == ':'

/-- The character may follow the first one in the name of an attribute. -/
def isAttributeChar (c : Char) : Bool :=
  c.isAlphanum || c == '_' || c == ':' || c == '.' || c == '-'

/-- The character cannot stand in a value without quotes. -/
def endsBare (c : Char) : Bool :=
  c == '"' || c == '\x27' || c == '<' || c == '=' || c == '\x60'

/-- What a character does between attributes. -/
def State.nextBetween (place : Place) (c : Char) : Option State :=
  if place.isGap c then some .between
  else if c = '/' then some .slash
  else if c = '>' then some .done
  else if startsAttribute c then some .key
  else none

/-- What a character does after the name of an attribute. -/
def State.nextKeyGap (place : Place) (c : Char) : Option State :=
  if c = '=' then some .value
  else if place.isGap c then some .keyGap
  else nextBetween place c

/-- What a character does in a value without quotes.  At the start of a block an equals sign
after the value starts another one. -/
def State.nextBare (place : Place) (c : Char) : Option State :=
  if !(place.isGap c || c == '/' || c == '>' || endsBare c) then some .bare
  else match place with
    | .block => nextKeyGap place c
    | .text => if endsBare c then none else nextBetween place c

/-- What a character does before a value.  In a text a slash may start the value. -/
def State.nextValue (place : Place) (c : Char) : Option State :=
  if place.isGap c then some .value
  else if c = '"' ∨ c = '\x27' then some (.quoted c)
  else if c = '>' || endsBare c then none
  else match place with
    | .block => nextBare place c
    | .text => some .bare

/-- The state after one more character; `none` when there is no tag. -/
def State.next (place : Place) (c : Char) : State → Option State
  | start =>
    if c.isAlpha then some name else if c = '/' then some closing else none
  | name =>
    if isNameChar c then some name
    else if place.isGap c || c == '/' || c == '>' then nextBetween place c
    else none
  | closing => if c.isAlpha then some closingName else none
  | closingName =>
    if isNameChar c then some closingName
    else if place.isGap c then some closingGap
    else if c = '>' then some done
    else none
  | closingGap => if place.isGap c then some closingGap else if c = '>' then some done else none
  | between => nextBetween place c
  | key => if isAttributeChar c then some key else nextKeyGap place c
  | keyGap => nextKeyGap place c
  | value => nextValue place c
  | bare => nextBare place c
  | quoted quote => if c = quote then some unquoted else some (quoted quote)
  | unquoted =>
    if place.isGap c || c == '/' || c == '>' then nextBetween place c else none
  | slash => if c = '>' then some done else none
  | done => none

/-- Reads from a state to the end of the tag and gives what follows it. -/
def finish? (place : Place) (state : State) : List Char → Option (List Char)
  | [] => none
  | c :: cs =>
    match state.next place c with
    | none => none
    | some .done => some cs
    | some next => finish? place next cs

/-- What follows a tag whose `<` was read. -/
def after? (place : Place) (text : List Char) : Option (List Char) :=
  finish? place .start text

/-- The text is the start of a tag that is not finished. -/
def isStart (place : Place) (state : State) : List Char → Bool
  | [] => true
  | c :: cs =>
    match state.next place c with
    | none => false
    | some .done => false
    | some next => isStart place next cs

end Tag

namespace Markup

/-- What follows a piece of markup in a paragraph whose `<` was read: a comment, an
instruction, a declaration, a data section or a tag. -/
def after? : List Char → Option (List Char)
  | '!' :: '-' :: '-' :: rest =>
    (cut? ['-', '-', '>'] ('-' :: '-' :: rest)).map Prod.snd
  | '!' :: rest =>
    match Text.after? ['[', 'C', 'D', 'A', 'T', 'A', '['] rest with
    | some data => (cut? [']', ']', '>'] data).map Prod.snd
    | none =>
      match rest with
      | c :: more => if c.isAlpha then (cut? ['>'] more).map Prod.snd else none
      | [] => none
  | '?' :: rest => (cut? ['?', '>'] rest).map Prod.snd
  | text => Tag.after? .text text

end Markup

end LintDirectives.Markdown
