import LintDirectives.Markdown.Passage

/-!
# Pieces of a holder

What a holder holds is found line by line as a row of pieces: blocks, lines of text,
rows of tables, items, line endings and the marks of the holders around it.  When the
holder is finished its pieces are put together: lines make paragraphs, an underline
makes a heading of the paragraph above it, rows make tables and items make lists.

* `Group.add` puts a piece to those before it.
* `Piece.blocks` are the blocks that pieces make.
-/

namespace LintDirectives.Markdown

/-- A piece of what a holder holds. -/
inductive Piece where
  /-- A line ending, `blank` after a line with nothing on it. -/
  | ending (blank : Bool)
  /-- What a holder takes from the start of a later line: the mark of a quote, or white space. -/
  | mark (quoting : Bool)
  /-- A line of text. -/
  | text (line : Line)
  /-- A line under text that makes a heading of it. -/
  | underline (line : Line)
  /-- The first row of a table, which ends at byte `stop` with its line of dashes. -/
  | head (row : Block) (stop : Nat)
  /-- A further row of a table. -/
  | row (row : Block)
  /-- A list item and its sign. -/
  | item (sign : Char) (block : Block)
  | block (block : Block)

/-! ## Items of a list -/

/-- Items that make one list. -/
structure Items where
  /-- The signs that an item may have to join the list. -/
  signs : List Char
  /-- The items before `tight`, the last one first. -/
  earlier : List Block
  /-- Items with nothing between them, the last one first. -/
  tight : List Block

namespace Items

/-- Of items with nothing between them the first one holds its place in a list, and the others
make a list inside it. -/
def nest : List Block → List Block
  | [] => []
  | item :: rest =>
    match nest rest with
    | [] => [item]
    | inner => [item, Block.listOf inner]

/-- The list of the items. -/
def block (items : Items) : Block :=
  Block.listOf (items.earlier.reverse ++ nest items.tight.reverse)

/-- A list of one item. -/
def single (sign : Char) (item : Block) : Items :=
  ⟨[sign], [], [item]⟩

/-- Adds an item after a line ending. -/
def append (items : Items) (sign : Char) (item : Block) : Items :=
  ⟨[sign], (nest items.tight.reverse).reverse ++ items.earlier, [item]⟩

/-- Adds an item that nothing separates from the one before. -/
def touch (items : Items) (sign : Char) (item : Block) : Items :=
  { items with signs := sign :: items.signs, tight := item :: items.tight }

end Items

/-! ## Groups of pieces -/

/-- Pieces that belong together. -/
inductive Group where
  | ending (blank : Bool)
  | mark (quoting : Bool)
  /-- Lines of text, the last one first. -/
  | text (lines : List Line)
  | underline (line : Line)
  /-- The rows of a table, the last one first. -/
  | table (rows : List Block) (start stop : Nat)
  | list (items : Items)
  | block (block : Block)

namespace Group

/-- The group is what a holder takes from a line. -/
def isMark : Group → Bool
  | mark _ => true
  | _ => false

/-- The group is a line ending after something, or what a holder takes from a line. -/
def isBreak : Group → Bool
  | mark _ => true
  | ending blank => !blank
  | _ => false

/-- The group is a line ending or what a holder takes from a line. -/
def isGap : Group → Bool
  | mark _ => true
  | ending _ => true
  | _ => false

/-- Adds a line of text.  It goes on with the text before it when only a line ending and marks
of holders stand between them. -/
def addText (line : Line) (groups : List Group) : List Group :=
  match groups.dropWhile isMark with
  | .ending false :: .text lines :: before => .text (line :: lines) :: before
  | _ => .text [line] :: groups

/-- The heading that an underline makes of prose. -/
def heading (start : Nat) (content : List Glyph) (underline : Line) : Group :=
  .block (.prose .header ⟨start, underline.stop⟩ content)

/-- The groups that text makes when a line underlines it, the last one first; none when the
text ends with a definition. -/
def underlined? (lines : List Line) (underline : Line) : Option (List Group) :=
  let passages := Passage.cut (Line.join lines.reverse)
  match passages.getLast? with
  | some ⟨none, content⟩ =>
    some (heading (Glyph.cover content).start content underline ::
      (Passage.blocks .none 0 passages.dropLast).reverse.map .block)
  | _ => none

/-- Adds an underline.  It is a heading with the text before it, or with an underline that has
no text itself. -/
def addUnderline (line : Line) (groups : List Group) : List Group :=
  match groups.dropWhile isBreak with
  | .text lines :: before =>
    match underlined? lines line with
    | some made => made ++ before
    | none => .underline line :: groups
  | .underline above :: before => heading above.start above.glyphs line :: before
  | _ => .underline line :: groups

/-- Adds a row to the table before it. -/
def addRow (row : Block) (groups : List Group) : List Group :=
  match groups.dropWhile isBreak with
  | .table rows start _ :: before => .table (row :: rows) start row.span.stop :: before
  | _ => .block row :: groups

/-- Adds an item.  It joins the list before it when its sign agrees and only line endings and
marks of holders stand between them. -/
def addItem (sign : Char) (item : Block) (groups : List Group) : List Group :=
  match groups with
  | .list items :: before => .list (items.touch sign item) :: before
  | _ =>
    match groups.dropWhile isGap with
    | .list items :: before =>
      if items.signs.contains sign then .list (items.append sign item) :: before
      else .list (.single sign item) :: groups
    | _ => .list (.single sign item) :: groups

/-- Adds a piece to groups that are given with the last one first. -/
def add (groups : List Group) : Piece → List Group
  | .ending blank => .ending blank :: groups
  | .mark quoting => .mark quoting :: groups
  | .text line => addText line groups
  | .underline line => addUnderline line groups
  | .head row stop => .table [row] row.span.start stop :: groups
  | .row row => addRow row groups
  | .item sign item => addItem sign item groups
  | .block made => .block made :: groups

/-- The paragraph of an underline without text before it. -/
def ofUnderline (line : Line) : Block :=
  .prose .paragraph ⟨line.start, line.stop⟩ line.glyphs

/-- The byte where lines end that are given with the last one first. -/
def stopOf (lines : List Line) : Nat :=
  (lines.head?.map Line.stop).getD 0

/-- The paragraph that an underline without text before it makes together with the prose after
it. -/
def joined? (line : Line) (lines : List Line) : Option Block :=
  match Passage.cut (Line.join lines.reverse) with
  | [⟨none, content⟩] =>
    some (.prose .paragraph ⟨line.start, stopOf lines⟩
      (line.glyphs ++ line.ending.toList ++ content))
  | _ => none

/-- The blocks that groups make.  `lead` says where the first of them stands in a list item. -/
def blocks (lead : Passage.Lead) : List Group → List Block
  | [] => []
  | .ending _ :: rest => blocks lead rest
  | .mark quoting :: rest => blocks (if quoting then .none else lead) rest
  | .text lines :: rest =>
    let passages := Passage.cut (Line.join lines.reverse)
    Passage.blocks lead (stopOf lines) passages ++ blocks (lead.after passages) rest
  | .underline line :: .ending false :: .text lines :: rest =>
    match joined? line lines with
    | some paragraph => paragraph :: blocks .none rest
    | none =>
      ofUnderline line ::
        (Passage.blocks .none (stopOf lines) (Passage.cut (Line.join lines.reverse)) ++
          blocks .none rest)
  | .underline line :: rest => ofUnderline line :: blocks .none rest
  | .table rows start stop :: rest =>
    .branch .table ⟨start, stop⟩ rows.reverse :: blocks .none rest
  | .list items :: rest => items.block :: blocks .none rest
  | .block made :: rest =>
    let after : Passage.Lead :=
      match made with
      | .definition _ _ => if lead = .none then .none else .later
      | _ => .none
    made :: blocks after rest

end Group

/-- The blocks that pieces make, in a list item or elsewhere. -/
def Piece.blocks (inItem : Bool) (pieces : List Piece) : List Block :=
  Group.blocks (if inItem then .first else .none) (pieces.foldl Group.add []).reverse

end LintDirectives.Markdown
