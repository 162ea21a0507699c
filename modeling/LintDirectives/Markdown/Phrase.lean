import LintDirectives.Markdown.Address
import LintDirectives.Tree.Node

/-!
# Phrases

What the text of a paragraph is made of, while it is being read.  Runs of marks
wait for their partners, and stretches of plain text are put together at the end.

* `Phrase.pair` finds the partners of runs.
* `Phrase.nodes` makes nodes of phrases.
-/

namespace LintDirectives.Markdown

open Text

/-- A piece of text that is being read. -/
inductive Phrase where
  /-- Text as it stands. -/
  | raw (glyphs : List Glyph)
  /-- White space at the start of a line that stands for the rest of a tab. -/
  | remnant (glyph : Glyph)
  /-- Text that is written differently. -/
  | spelled (span : Span) (text : List Char)
  /-- A node. -/
  | node (node : Node)
  /-- A bare address. -/
  | address (glyphs : List Glyph)
  /-- A run of marks that may open or close emphasis. -/
  | run (marker : Char) (glyphs : List Glyph) (opens closes : Bool)
  /-- Phrases inside a node. -/
  | group (kind : NodeKind) (span : Span) (phrases : List Phrase)

namespace Phrase

/-! ## Partners -/

/-- A run of marks. -/
structure Run where
  marker : Char
  glyphs : List Glyph
  opens : Bool
  closes : Bool

namespace Run

/-- The number of marks. -/
def size (run : Run) : Nat :=
  run.glyphs.length

/-- The run as a phrase. -/
def phrase (run : Run) : Phrase :=
  .run run.marker run.glyphs run.opens run.closes

/-- Two runs that could each open and close do not match when their sizes add up to a
multiple of three, unless the size of the second one is a multiple of three. -/
def misfits (opener closer : Run) : Bool :=
  (opener.closes || closer.opens) && closer.size % 3 != 0 &&
    (opener.size + closer.size) % 3 == 0

/-- The runs open and close the same emphasis.  Tildes match in equal numbers, one or two. -/
def matchesWith (opener closer : Run) : Bool :=
  opener.opens && opener.marker == closer.marker && !misfits opener closer &&
    (closer.marker != '~' || (opener.size == closer.size && closer.size ≤ 2))

/-- The number of marks that two runs take from each other. -/
def taken (opener closer : Run) : Nat :=
  if 2 ≤ opener.size ∧ 2 ≤ closer.size then 2 else 1

/-- What `count` marks around phrases make of them. -/
def kind (run : Run) (count : Nat) : NodeKind :=
  if run.marker = '~' then .delete else if count = 2 then .strong else .emphasis

end Run

/-- The nearest run that `closer` closes among phrases given backwards, with the phrases
after it and those before it. -/
def opener? (closer : Run) : List Phrase → Option (List Phrase × Run × List Phrase)
  | [] => none
  | .run marker glyphs opens closes :: before =>
    let opener : Run := ⟨marker, glyphs, opens, closes⟩
    if opener.matchesWith closer then some ([], opener, before)
    else (opener? closer before).map fun (inside, found, before) =>
      (opener.phrase :: inside, found, before)
  | phrase :: before =>
    (opener? closer before).map fun (inside, found, before) => (phrase :: inside, found, before)

/-- Closes as much as a run can, and puts what is left of it after phrases that are given
backwards. -/
def closeRun (closer : Run) (before : List Phrase) : List Phrase :=
  if _h : closer.size = 0 then before
  else if !closer.closes then closer.phrase :: before
  else match opener? closer before with
    | none => closer.phrase :: before
    | some (inside, opener, earlier) =>
      let count := opener.taken closer
      let kept := opener.glyphs.take (opener.size - count)
      let opening := opener.glyphs.drop (opener.size - count)
      let closing := closer.glyphs.take count
      let node := group (closer.kind count) (Glyph.cover (opening ++ closing)) inside.reverse
      let earlier :=
        if kept.isEmpty then earlier else { opener with glyphs := kept }.phrase :: earlier
      closeRun { closer with glyphs := closer.glyphs.drop count } (node :: earlier)
termination_by closer.size
decreasing_by
  simp only [Run.size, List.length_drop] at *
  have : 1 ≤ opener.taken closer := by unfold Run.taken; split <;> omega
  omega

/-- Pairs the runs of phrases.  The phrases before them are given backwards, with their runs
paired. -/
def pairAfter (before : List Phrase) : List Phrase → List Phrase
  | [] => before.reverse
  | .run marker glyphs opens closes :: rest =>
    pairAfter (closeRun ⟨marker, glyphs, opens, closes⟩ before) rest
  | phrase :: rest => pairAfter (phrase :: before) rest

/-- Pairs the runs of phrases. -/
def pair (phrases : List Phrase) : List Phrase :=
  pairAfter [] phrases

/-! ## Nodes -/

/-- A finished piece of text. -/
inductive Part where
  /-- Text as it stands, which may hold mail addresses. -/
  | raw (glyphs : List Glyph)
  /-- White space that stands only before text. -/
  | remnant (glyph : Glyph)
  | text (span : Span) (text : List Char)
  | node (node : Node)

namespace Part

/-- Text as it stands starts with more of the line. -/
def goesOn (glyphs : List Glyph) : Bool :=
  glyphs.head?.any (!·.isEnding)

/-- Puts text as it stands together. -/
def join : List Part → List Part
  | [] => []
  | .raw glyphs :: rest =>
    match join rest with
    | .raw more :: parts => .raw (glyphs ++ more) :: parts
    | parts => .raw glyphs :: parts
  | .remnant glyph :: rest =>
    match join rest with
    | .raw more :: parts =>
      .raw (if goesOn more then { glyph with written := [glyph.char] } :: more else more) :: parts
    | parts => parts
  | part :: rest => part :: join rest

/-- A string node. -/
def str (span : Span) (text : List Char) : Node where
  kind := .str
  span := span
  value := some (String.ofList text)

/-- A link whose text is an address. -/
def link (span : Span) (glyphs : List Glyph) : Node where
  kind := .link
  span := span
  children := [str (Glyph.cover glyphs) (Glyph.text glyphs)]

/-- A piece of text that may be a mail address. -/
def ofPiece (piece : Address.Piece) : Part :=
  let (isMail, glyphs) := piece
  if isMail then .node (link (Glyph.cover glyphs) glyphs)
  else .text (Glyph.cover glyphs) (Glyph.text glyphs)

/-- Finds the mail addresses in text as it stands.  There are none inside a link. -/
def split (linked : Bool) : List Part → List Part
  | [] => []
  | .raw glyphs :: rest =>
    (if linked then [.text (Glyph.cover glyphs) (Glyph.text glyphs)]
      else (Address.mails [] glyphs).map ofPiece) ++ split linked rest
  | part :: rest => part :: split linked rest

/-- Makes nodes, one for each stretch of text. -/
def merge : List Part → List Node
  | [] => []
  | .node made :: rest => made :: merge rest
  | .raw glyphs :: rest => str (Glyph.cover glyphs) (Glyph.text glyphs) :: merge rest
  | .remnant _ :: rest => merge rest
  | .text span first :: rest =>
    match rest, merge rest with
    | .text _ _ :: _, next :: nodes =>
      { next with
        span := ⟨span.start, next.span.stop⟩
        value := some (String.ofList (first ++ (next.value.getD "").toList)) } :: nodes
    | _, nodes => str span first :: nodes

/-- The nodes of parts. -/
def nodes (linked : Bool) (parts : List Part) : List Node :=
  merge (split linked (join parts))

end Part

/-- There are no mail addresses inside a node of this kind. -/
def isLinked (kind : NodeKind) : Bool :=
  kind == .link || kind == .linkReference

mutual

/-- The finished piece that a phrase makes. -/
def part (linked : Bool) : Phrase → Part
  | raw glyphs => .raw glyphs
  | remnant glyph => .remnant glyph
  | spelled span text => .text span text
  | node made => .node made
  | address glyphs => .node (Part.link (Glyph.cover glyphs) glyphs)
  | run _ glyphs _ _ => .raw glyphs
  | group kind span phrases =>
    let linked := linked || isLinked kind
    .node { kind := kind, span := span, children := Part.nodes linked (partAll linked phrases) }

/-- The finished pieces that phrases make. -/
def partAll (linked : Bool) : List Phrase → List Part
  | [] => []
  | phrase :: phrases => part linked phrase :: partAll linked phrases

end

/-- The nodes that phrases make. -/
def nodes (phrases : List Phrase) : List Node :=
  Part.nodes false (partAll false phrases)

end Phrase

end LintDirectives.Markdown
