import LintDirectives.Span
import LintDirectives.Text.Measure

/-!
# Document trees

A document is a tree of nodes.  A node has a kind, the bytes that it covers, and,
for kinds that hold text, that text with markup removed.

Spans are taken as they come: they may lie outside the document or inside a
character, and then the node has no source text.
-/

namespace LintDirectives

/-- What a node is. -/
inductive NodeKind where
  | document
  | paragraph
  | header
  | blockQuote
  | list
  | listItem
  | codeBlock
  | horizontalRule
  | html
  | comment
  | str
  | break
  | emphasis
  | strong
  | delete
  | code
  | link
  | image
  | linkReference
  | imageReference
  | definition
  | table
  | tableRow
  | tableCell
  | footnoteDefinition
  | footnoteReference
deriving DecidableEq, Repr

namespace NodeKind

/-- The kinds and their names. -/
def names : List (String × NodeKind) :=
  [("Document", document), ("Paragraph", paragraph), ("Header", header),
   ("BlockQuote", blockQuote), ("List", list), ("ListItem", listItem),
   ("CodeBlock", codeBlock), ("HorizontalRule", horizontalRule), ("Html", html),
   ("Comment", comment), ("Str", str), ("Break", .break), ("Emphasis", emphasis),
   ("Strong", strong), ("Delete", delete), ("Code", code), ("Link", link), ("Image", image),
   ("LinkReference", linkReference), ("ImageReference", imageReference),
   ("Definition", definition), ("Table", table), ("TableRow", tableRow),
   ("TableCell", tableCell), ("FootnoteDefinition", footnoteDefinition),
   ("FootnoteReference", footnoteReference)]

/-- The name of a kind. -/
def name : NodeKind → String
  | document => "Document"
  | paragraph => "Paragraph"
  | header => "Header"
  | blockQuote => "BlockQuote"
  | list => "List"
  | listItem => "ListItem"
  | codeBlock => "CodeBlock"
  | horizontalRule => "HorizontalRule"
  | html => "Html"
  | comment => "Comment"
  | str => "Str"
  | .break => "Break"
  | emphasis => "Emphasis"
  | strong => "Strong"
  | delete => "Delete"
  | code => "Code"
  | link => "Link"
  | image => "Image"
  | linkReference => "LinkReference"
  | imageReference => "ImageReference"
  | definition => "Definition"
  | table => "Table"
  | tableRow => "TableRow"
  | tableCell => "TableCell"
  | footnoteDefinition => "FootnoteDefinition"
  | footnoteReference => "FootnoteReference"

/-- A node of this kind may hold a directive. -/
def mayCarryDirective : NodeKind → Bool
  | html => true
  | comment => true
  | _ => false

/-- The table of names agrees with the names of the kinds. -/
theorem lookup_name (kind : NodeKind) : names.lookup kind.name = some kind := by
  cases kind <;> rfl

end NodeKind

/-- A node and everything below it. -/
structure Node where
  kind : NodeKind
  span : Span
  /-- The text of the node, with markup removed. -/
  value : Option String := none
  children : List Node := []

namespace Node

/-- The characters of the document that the node covers. -/
def sourceText? (source : List Char) (node : Node) : Option (List Char) :=
  Text.slice? source node.span.start node.span.stop

/-- The text of the node. -/
def valueText? (node : Node) : Option (List Char) :=
  node.value.map String.toList

mutual

/-- The number of nodes of a tree. -/
def size : Node → Nat
  | ⟨_, _, _, children⟩ => sizes children + 1

/-- The number of nodes of several trees. -/
def sizes : List Node → Nat
  | [] => 0
  | node :: nodes => size node + sizes nodes

end

mutual

/-- The nodes of a tree, each before those below it. -/
def preorder : Node → List Node
  | ⟨kind, span, value, children⟩ => ⟨kind, span, value, children⟩ :: preorders children

/-- The nodes of several trees. -/
def preorders : List Node → List Node
  | [] => []
  | node :: nodes => preorder node ++ preorders nodes

end

theorem size_eq (node : Node) : node.size = sizes node.children + 1 := by
  cases node; simp [size]

theorem preorder_eq (node : Node) : node.preorder = node :: preorders node.children := by
  cases node; simp [preorder]

end Node

end LintDirectives
