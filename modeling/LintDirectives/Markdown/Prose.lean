import LintDirectives.Markdown.Attempt
import LintDirectives.Markdown.CharacterReference
import LintDirectives.Markdown.Label
import LintDirectives.Markdown.Phrase
import LintDirectives.Markdown.Tag

/-!
# Reading prose

The text of a paragraph is read from left to right.  Opening brackets are kept on a
stack with the phrases before them until a closing bracket says what they are.

* `Known` is what the rest of the document says about labels.
* `Reader.step` reads one piece of markup or one character.
* `Prose.read` makes nodes of a text.
-/

namespace LintDirectives.Markdown

open Text

/-- What is known about the document while a text is read. -/
structure Known where
  /-- The labels of links that are defined. -/
  definitions : List (List Char)
  /-- The labels of notes that are defined. -/
  notes : List (List Char)
  /-- The text stands in a table. -/
  inTable : Bool := false
  /-- The character after the text. -/
  beyond : Option Char := none

namespace Known

/-- The text has no use for labels. -/
def isEmpty (known : Known) : Bool :=
  known.definitions.isEmpty && known.notes.isEmpty

/-- A link with the label is defined. -/
def defines (known : Known) (label : List Char) : Bool :=
  known.definitions.contains label

/-- A note with the label is defined. -/
def hasNote (known : Known) (label : List Char) : Bool :=
  known.notes.contains label

end Known

/-! ## Brackets -/

/-- What an opening bracket may open. -/
inductive BracketKind where
  | link
  | image
  | note
deriving DecidableEq

/-- An opening bracket. -/
structure Bracket where
  kind : BracketKind
  /-- The glyphs of the bracket. -/
  opening : List Glyph
  /-- The text after the bracket. -/
  inside : List Glyph
  /-- The bracket may open a link. -/
  isActive : Bool
  /-- The phrases before the bracket, the last one first. -/
  before : List Phrase

/-- What has been read. -/
structure Reader where
  /-- The phrases since the last open bracket, the last one first. -/
  phrases : List Phrase := []
  /-- The open brackets, the innermost first. -/
  brackets : List Bracket := []
  /-- Where markup was looked for over lines, each with all that follows. -/
  tried : List (List Glyph) := []

namespace Reader

/-- Adds a phrase. -/
def push (phrase : Phrase) (reader : Reader) : Reader :=
  { reader with phrases := phrase :: reader.phrases }

/-- Remembers that markup was looked for at the start of `glyphs`, if that went over lines. -/
def attempt (glyphs : List Glyph) (reader : Reader) : Reader :=
  if Attempt.leavesLine glyphs then { reader with tried := glyphs :: reader.tried } else reader

/-- Drops the white space at the start of a line.  After a tab that a holder took in part its
last glyph stands for the rest of the tab. -/
def startLine (reader : Reader) (glyphs : List Glyph) : Reader × List Glyph :=
  let space := glyphs.takeWhile Glyph.isSpace
  let rest := glyphs.drop space.length
  match space.getLast? with
  | none => (reader, rest)
  | some last =>
    if space.head?.any Glyph.isRemnant then (reader.push (.remnant last), rest) else (reader, rest)

/-- Adds an opening bracket. -/
def openBracket (kind : BracketKind) (opening inside : List Glyph) (reader : Reader) : Reader :=
  { reader with
    phrases := []
    brackets := ⟨kind, opening, inside, true, reader.phrases⟩ :: reader.brackets }

/-- Takes the innermost bracket as text. -/
def dropBracket (reader : Reader) : Reader :=
  match reader.brackets with
  | [] => reader
  | bracket :: brackets =>
    { reader with
      phrases := reader.phrases ++ .raw bracket.opening :: bracket.before
      brackets := brackets }

/-- All phrases, with the open brackets as text. -/
def finish (reader : Reader) : List Phrase :=
  (reader.brackets.length.repeat dropBracket reader).phrases.reverse

/-! ## What follows a closing bracket -/

/-- What follows a bracketed label that is defined. -/
def afterFull? (known : Known) (glyphs : List Glyph) : Option (List Glyph) :=
  match glyphs with
  | [] => none
  | opening :: inside =>
    if opening.char ≠ '[' then none
    else (Label.read? inside).bind fun (label, rest) =>
      if known.defines label then some rest else none

/-- What follows an empty pair of brackets. -/
def afterEmpty? (glyphs : List Glyph) : Option (List Glyph) :=
  match glyphs with
  | opening :: closing :: rest =>
    if opening.char = '[' ∧ closing.char = ']' then some rest else none
  | _ => none

/-- What a closing bracket makes: a link with a destination, or one with a label. -/
inductive Target where
  | resource
  | reference

/-- What brackets around `label` lead to, and what follows.  `rest` is what follows the closing
bracket.  A label stands alone unless a bracket follows it. -/
def target? (known : Known) (label : List Char) (rest : List Glyph) :
    Option (Target × List Glyph) :=
  let alone := if known.defines label then some rest else none
  if rest.head?.any (·.char == '[') then
    ((afterFull? known rest).or (alone.bind afterEmpty?)).map fun after => (.reference, after)
  else
    match Resource.after? rest with
    | some after => some (.resource, after)
    | none => alone.map fun after => (.reference, after)

/-- The bracket can open no link any more, as links hold no links and no calls of notes. -/
def Bracket.deactivate (bracket : Bracket) : Bracket :=
  if bracket.kind = .image then bracket else { bracket with isActive := false }

/-- The phrase of a link or an image. -/
def targetPhrase (bracket : Bracket) (target : Target) (span : Span) (phrases : List Phrase) :
    Phrase :=
  match bracket.kind, target with
  | .image, .resource => .node { kind := .image, span := span }
  | .image, .reference => .node { kind := .imageReference, span := span }
  | _, .resource => .group .link span (Phrase.pair phrases)
  | _, .reference => .group .linkReference span (Phrase.pair phrases)

/-- Remembers that the target of a link was looked for, if there is a mark of one. -/
def attemptTarget (rest : List Glyph) (reader : Reader) : Reader :=
  if rest.head?.any fun next => next.char == '(' || next.char == '[' then reader.attempt rest
  else reader

/-- Takes a closing bracket and the innermost opening one as text. -/
def closeAsText (reader : Reader) (closing : Glyph) (rest : List Glyph) : Reader × List Glyph :=
  (reader.dropBracket.push (.raw [closing]), rest)

/-- Reads a closing bracket. -/
def closeBracket (known : Known) (reader : Reader) (closing : Glyph) (rest : List Glyph) :
    Reader × List Glyph :=
  match reader.brackets with
  | [] => (reader.push (.raw [closing]), rest)
  | bracket :: brackets =>
    let inside := bracket.inside.take (bracket.inside.length - rest.length - 1)
    let label := if known.isEmpty then [] else Label.normalize inside closing
    let start := (Glyph.cover bracket.opening).start
    let isNote := bracket.kind == .note
    if !bracket.isActive then reader.closeAsText closing rest
    else if isNote && known.hasNote label then
      ({ reader with
          phrases :=
            .node { kind := .footnoteReference, span := ⟨start, closing.span.stop⟩ } ::
              bracket.before
          brackets := brackets.map Bracket.deactivate }, rest)
    else match target? known (if isNote then '^' :: label else label) rest with
      | none => (reader.attemptTarget rest).closeAsText closing rest
      | some (target, after) =>
        let taken := (closing :: rest).take (rest.length + 1 - after.length)
        let span : Span := ⟨start, (Glyph.cover taken).stop⟩
        let read := reader.phrases.reverse
        let inner := if isNote then .raw (bracket.opening.drop 1) :: read else read
        ({ reader.attemptTarget rest with
            phrases := targetPhrase bracket target span inner :: bracket.before
            brackets :=
              if bracket.kind = .image then brackets else brackets.map Bracket.deactivate }, after)

/-! ## Other markup -/

/-- The glyphs at the start of `glyphs` before `after`, which ends them. -/
def untilRest (glyphs : List Glyph) (after : List Char) : List Glyph :=
  glyphs.take (glyphs.length - after.length)

/-- The length of the text before a run of exactly `size` marks. -/
def codeLength? (size : Nat) (run : Nat) : List Glyph → Option Nat
  | [] => if run = size then some 0 else none
  | glyph :: rest =>
    if glyph.char = '\x60' then (codeLength? size (run + 1) rest).map (· + 1)
    else if run = size then some 0
    else (codeLength? size 0 rest).map (· + 1)

/-- Puts a bar for a bar that a backslash comes before. -/
def withBars : List Char → List Char
  | '\\' :: '|' :: rest => '|' :: withBars rest
  | c :: rest => c :: withBars rest
  | [] => []

/-- The value of code: one space at each end is dropped, unless all is spaces. -/
def codeValue (inTable : Bool) (glyphs : List Glyph) : String :=
  let text := if inTable then withBars (Glyph.text glyphs) else Glyph.text glyphs
  String.ofList <|
    if 2 < text.length ∧ text.head? = some ' ' ∧ text.getLast? = some ' ' ∧
        !text.all (· == ' ') then
      (text.drop 1).dropLast
    else text

/-- Reads code, or the marks before it as text. -/
def readCode (known : Known) (reader : Reader) (glyphs : List Glyph) : Reader × List Glyph :=
  let marks := glyphs.takeWhile (·.char == '\x60')
  let rest := glyphs.drop marks.length
  match codeLength? marks.length 0 rest with
  | none => ((reader.attempt glyphs).push (.raw marks), rest)
  | some length =>
    (reader.push <| .node
      { kind := .code
        span := Glyph.cover (glyphs.take (marks.length + length))
        value := some (codeValue known.inTable (rest.take (length - marks.length))) },
      rest.drop length)

/-- The text of markup in a paragraph: the indentation of its lines is left out. -/
def markupText (indented : Bool) : List Glyph → List Char
  | [] => []
  | glyph :: rest =>
    if glyph.isEnding then glyph.written ++ markupText true rest
    else if indented && glyph.isSpace then markupText true rest
    else glyph.written ++ markupText false rest

/-- Reads an address between angle brackets, HTML, or a character. -/
def readAngle (reader : Reader) (opening : Glyph) (rest : List Glyph) : Reader × List Glyph :=
  let text := Glyph.chars rest
  match Address.afterAngle? text with
  | some after =>
    let inside := untilRest rest after
    (reader.push (.node (Phrase.Part.link (Glyph.cover (opening :: inside)) inside.dropLast)),
      rest.drop inside.length)
  | none =>
    match Markup.after? text with
    | some after =>
      let inside := untilRest rest after
      (reader.push <| .node
        { kind := .html
          span := Glyph.cover (opening :: inside)
          value := some (String.ofList (markupText false (opening :: inside))) },
        rest.drop inside.length)
    | none => ((reader.attempt (opening :: rest)).push (.raw [opening]), rest)

/-- A break that covers `glyphs`. -/
def breakNode (glyphs : List Glyph) : Phrase :=
  .node { kind := .break, span := Glyph.cover glyphs }

/-- Reads a backslash and what it changes. -/
def readBackslash (reader : Reader) (backslash : Glyph) (rest : List Glyph) :
    Reader × List Glyph :=
  match rest with
  | [] => (reader.push (.raw [backslash]), [])
  | next :: more =>
    if next.isEnding then (reader.push (breakNode [backslash, next])).startLine more
    else if isAsciiPunctuation next.char then
      (reader.push (.spelled next.span [next.char]), more)
    else (reader.push (.raw [backslash]), rest)

/-- Reads a character reference, or the ampersand as text. -/
def readReference (reader : Reader) (ampersand : Glyph) (rest : List Glyph) :
    Reader × List Glyph :=
  match CharacterReference.read? (Glyph.chars rest) with
  | none => (reader.push (.raw [ampersand]), rest)
  | some (characters, after) =>
    let inside := untilRest rest after
    (reader.push (.spelled (Glyph.cover (ampersand :: inside)) characters),
      rest.drop inside.length)

/-- Reads spaces.  Before a line ending two or more make a break, and fewer are dropped, as
they are at the end. -/
def readSpace (reader : Reader) (glyphs : List Glyph) : Reader × List Glyph :=
  let spaces := glyphs.takeWhile Glyph.isSpace
  match glyphs.drop spaces.length with
  | [] => (reader, [])
  | next :: rest =>
    if !next.isEnding then (reader.push (.raw spaces), next :: rest)
    else if 2 ≤ spaces.length ∧ spaces.all (·.char == ' ') then
      (reader.push (breakNode (spaces ++ [next]))).startLine rest
    else (reader, next :: rest)

/-- What a character beside a run of marks is. -/
inductive Neighbour where
  | blank
  | punctuation
  | other
deriving DecidableEq

/-- What a character beside a run is; there is a blank beyond the ends of the text. -/
def neighbour : Option Char → Neighbour
  | none => .blank
  | some c => if isBlank c then .blank else if isPunctuation c then .punctuation else .other

/-- The character is a mark of emphasis. -/
def isMark (c : Char) : Bool :=
  c == '*' || c == '_' || c == '~'

/-- A run of marks between two characters. -/
def run (marker : Char) (glyphs : List Glyph) (previous next : Option Char) : Phrase.Run :=
  let before := neighbour previous
  let after := neighbour next
  let opens := after == .other || (after == .punctuation && before != .other) ||
    (marker != '~' && next.any isMark)
  let closes := before == .other || (before == .punctuation && after != .other) ||
    (marker != '~' && previous.any isMark)
  if marker = '_' then
    ⟨marker, glyphs, opens && (before != .other || !closes), closes && (after != .other || !opens)⟩
  else ⟨marker, glyphs, opens, closes⟩

/-- Reads a run of marks.  The characters beside it are those of the document. -/
def readRun (reader : Reader) (mark : Glyph) (rest : List Glyph) : Reader × List Glyph :=
  let more := rest.takeWhile (·.char == mark.char)
  let last := more.getLastD mark
  (reader.push (run mark.char (mark :: more) mark.previous last.next).phrase,
    rest.drop more.length)

/-- The character may start a bare address. -/
def startsAddress (c : Char) : Bool :=
  c == 'h' || c == 'H' || c == 'w' || c == 'W'

/-- The character is text wherever it stands. -/
def isPlain (c : Char) : Bool :=
  !startsAddress c && !isAsciiPunctuation c && !isSpace c && c != '\n'

/-- Reads a character and the plain ones after it. -/
def readPlain (reader : Reader) (glyph : Glyph) (rest : List Glyph) : Reader × List Glyph :=
  let more := rest.takeWhile fun next => isPlain next.char
  (reader.push (.raw (glyph :: more)), rest.drop more.length)

/-- The character before a piece of text.  At the start of a line it is the last mark of the
holders around the text; a line that was reached before follows its line ending. -/
def before (reader : Reader) (previous : Option Char) (glyph : Glyph) (rest : List Glyph) :
    Option Char :=
  match previous, glyph.skipped.getLast? with
  | some c, some mark =>
    if reader.tried.any fun tried => Attempt.reaches tried (glyph :: rest) then some c
    else some mark
  | previous, _ => previous

/-- Reads a bare address or text. -/
def readBare (known : Known) (reader : Reader) (previous : Option Char) (glyph : Glyph)
    (rest : List Glyph) : Reader × List Glyph :=
  if !rest.head?.any fun second => Address.mayStart glyph.char second.char then
    reader.readPlain glyph rest
  else
    let before := reader.before previous glyph rest
    match Address.afterBare? known.beyond before (Glyph.chars (glyph :: rest)) with
    | none => reader.readPlain glyph rest
    | some after =>
      let inside := untilRest rest after
      (reader.push (.address (glyph :: inside)), rest.drop inside.length)

/-- Reads an opening bracket. -/
def readBracket (reader : Reader) (bracket : Glyph) (rest : List Glyph) : Reader × List Glyph :=
  match rest with
  | caret :: inside =>
    if caret.char = '^' then (reader.openBracket .note [bracket, caret] inside, inside)
    else (reader.openBracket .link [bracket] rest, rest)
  | [] => (reader.openBracket .link [bracket] rest, rest)

/-- Reads an exclamation mark, with the bracket after it. -/
def readBang (reader : Reader) (bang : Glyph) (rest : List Glyph) : Reader × List Glyph :=
  match rest with
  | bracket :: inside =>
    if bracket.char = '[' ∧ ¬ inside.head?.any (·.char == '^') then
      (reader.openBracket .image [bang, bracket] inside, inside)
    else (reader.push (.raw [bang]), rest)
  | [] => (reader.push (.raw [bang]), rest)

/-! ## The reader -/

/-- Reads the piece of text that starts with `glyph`, which follows the character `previous`,
and gives what is left. -/
def step (known : Known) (previous : Option Char) (glyph : Glyph) (rest : List Glyph)
    (reader : Reader) : Reader × List Glyph :=
  match glyph.char with
  | '\\' => reader.readBackslash glyph rest
  | '&' => reader.readReference glyph rest
  | '\x60' => reader.readCode known (glyph :: rest)
  | '<' => reader.readAngle glyph rest
  | '!' => reader.readBang glyph rest
  | '[' => reader.readBracket glyph rest
  | ']' => reader.closeBracket known glyph rest
  | '*' => reader.readRun glyph rest
  | '_' => reader.readRun glyph rest
  | '~' => reader.readRun glyph rest
  | ' ' => reader.readSpace (glyph :: rest)
  | '\t' => reader.readSpace (glyph :: rest)
  | '\n' => (reader.push (.raw [glyph])).startLine rest
  | _ => reader.readBare known previous glyph rest

/-- The last character before what is left. -/
def lastBefore (glyphs left : List Glyph) : Option Char :=
  (glyphs[glyphs.length - left.length - 1]?).map Glyph.char

/-- Reads a text to its end. -/
def readAll (known : Known) (reader : Reader) (previous : Option Char) : List Glyph → Reader
  | [] => reader
  | glyph :: rest =>
    let (read, left) := reader.step known previous glyph rest
    if left.length ≤ rest.length then
      readAll known read (lastBefore (glyph :: rest) left) left
    else read
termination_by glyphs => glyphs.length

end Reader

namespace Prose

/-- The nodes of a text that a reader goes on with. -/
def readFrom (known : Known) (reader : Reader) (glyphs : List Glyph) : List Node :=
  let known := { known with beyond := glyphs.getLast?.bind Glyph.next }
  Phrase.nodes (Phrase.pair (reader.readAll known none glyphs).finish)

/-- The nodes of a text that starts inside a line. -/
def readInside (known : Known) (glyphs : List Glyph) : List Node :=
  readFrom known {} glyphs

/-- The nodes of a text. -/
def read (known : Known) (glyphs : List Glyph) : List Node :=
  let (reader, rest) := ({} : Reader).startLine glyphs
  readFrom known reader rest

end Prose

end LintDirectives.Markdown
