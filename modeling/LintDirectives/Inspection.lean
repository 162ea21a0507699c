import LintDirectives.Directive
import LintDirectives.Expectation.Store
import LintDirectives.Expectation.Target
import LintDirectives.Suppression
import LintDirectives.Tree.Walk

/-!
# Inspecting a document

One walk over a document collects its directives.  Disable and enable directives go
to the tracker of suppressed ranges, expect-error directives wait for their
targets.  When a document node is left, the ranges are reported, the waiting
expectations are bound and stored, and both collections start anew; ranges opened
after that follow the default policy.

* `Document` is what the walk does not change, `Inspection` what it does.
* `inspect` is the walk.
-/

namespace LintDirectives

/-- The document that is inspected. -/
structure Document where
  path : Option FilePath
  text : String

namespace Document

/-- What identifies the document in the store. -/
def key (document : Document) : Expectation.DocumentKey :=
  .ofDocument document.path document.text

end Document

/-- What has been collected so far. -/
structure Inspection where
  tracker : Suppression.Tracker
  pending : List PendingExpectation := []
  /-- The ranges reported so far. -/
  ranges : List SuppressedRange := []
  store : Expectation.Store

namespace Inspection

/-- Takes up a directive whose comment covers `span`. -/
def take (span : Span) (inspection : Inspection) (directive : Directive) : Inspection :=
  match directive.kind with
  | .disable =>
    { inspection with tracker := inspection.tracker.disable span.start directive.rules }
  | .enable =>
    { inspection with tracker := inspection.tracker.enable span.start directive.rules }
  | .expectError =>
    { inspection with
      pending := inspection.pending ++ PendingExpectation.ofDirective span.stop directive.rules }

/-- The directives in the comments of an HTML node. -/
def htmlDirectives (config : Config) (source : List Char) (node : Node) : List Directive :=
  match node.markup? source with
  | none => []
  | some text => (HtmlComment.commentLines text).filterMap (Directive.parse? config)

/-- The directive of a comment node. -/
def commentDirectives (config : Config) (source : List Char) (node : Node) : List Directive :=
  match node.commentText? source with
  | none => []
  | some text => (Directive.parse? config text).toList

/-- The end of a document whose root is `node`.  The length is counted without bound; 32 bits would
cut it off from `2 ^ 32` bytes on, and so long a document is not read. -/
def documentStop (source : List Char) (node : Node) : Nat :=
  max node.span.stop (Text.byteLength source)

/-- What happens when a document node is left. -/
def finish (document : Document) (source : List Char) (inspection : Inspection) (node : Node) :
    Inspection :=
  let stop := documentStop source node
  let targets := node.expectationTargets source
  let expectations := inspection.pending.map (PendingExpectation.bind targets stop)
  { tracker := {}
    pending := []
    ranges := inspection.ranges ++ inspection.tracker.finish stop
    store :=
      if expectations.isEmpty then inspection.store
      else inspection.store.insert document.key expectations }

/-- The handlers of the walk. -/
def handlers (config : Config) (document : Document) (source : List Char) :
    List (Walk.Handler Inspection) :=
  [⟨.enter .html, fun inspection node =>
      (htmlDirectives config source node).foldl (take node.span) inspection⟩,
   ⟨.enter .comment, fun inspection node =>
      (commentDirectives config source node).foldl (take node.span) inspection⟩,
   ⟨.leave .document, finish document source⟩]

end Inspection

/-- Walks over a document.  The result holds the reported ranges and the store. -/
def inspect (config : Config) (document : Document) (store : Expectation.Store) (root : Node) :
    Inspection :=
  Walk.run (Inspection.handlers config document document.text.toList)
    { tracker := { policy := config.bareEnable }, store := store } root

end LintDirectives
