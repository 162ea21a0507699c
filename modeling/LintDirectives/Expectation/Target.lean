import LintDirectives.Directive.HtmlComment
import LintDirectives.Tree.Node

/-!
# What an expectation binds to

Content is every node below the root, except comments and everything below them:
an expectation binds to content and never to another directive.
-/

namespace LintDirectives

namespace Node

/-- The text in which an HTML node is searched for comments: what it covers in the
document, else its value. -/
def markup? (source : List Char) (node : Node) : Option (List Char) :=
  (node.sourceText? source).or node.valueText?

/-- The text of a comment node: its value, else what it covers in the document. -/
def commentText? (source : List Char) (node : Node) : Option (List Char) :=
  node.valueText?.or (node.sourceText? source)

/-- The node is a comment, or HTML that holds one. -/
def isDirectiveCarrier (source : List Char) (node : Node) : Bool :=
  match node.kind with
  | .comment => true
  | .html => (node.markup? source).any HtmlComment.occursIn
  | _ => false

mutual

/-- The spans of the content of a tree, its root included. -/
def contentSpans (source : List Char) : Node → List Span
  | ⟨kind, span, value, children⟩ =>
    if isDirectiveCarrier source ⟨kind, span, value, children⟩ then []
    else span :: contentSpansAll source children

/-- The spans of the content of several trees. -/
def contentSpansAll (source : List Char) : List Node → List Span
  | [] => []
  | node :: nodes => contentSpans source node ++ contentSpansAll source nodes

end

/-- The spans that an expectation may bind to in the document `root`. -/
def expectationTargets (source : List Char) (root : Node) : List Span :=
  contentSpansAll source root.children

end Node

end LintDirectives
