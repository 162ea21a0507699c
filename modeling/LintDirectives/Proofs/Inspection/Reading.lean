import LintDirectives.Inspection
import LintDirectives.Proofs.Expectation.Store
import LintDirectives.Proofs.Suppression.Operation
import LintDirectives.Proofs.Tree.Walk

/-!
# What an inspection finds

The walk hands one state to several handlers, and what it reports is decided
when the document node is left.  This module says what comes out without the
walk: list the directives of the nodes in preorder, and read off the ranges and
the expectations from that list.

There are three groups.

* The reading.  `occurrences` lists the directives of a tree with the spans of
  their nodes.  `reportedRanges` and `recordedExpectations` are computed from
  that list.
* The collection.  `foldl_takeUp` says what taking up a list of directives
  does to the state of a walk, and `enterNode_handlers` that entering a node
  takes up the directives of that node.
* The inspection.  `inspect_eq` puts the walk and the reading together, for a
  document that holds no further document.
-/

namespace LintDirectives

/-- The root is a document, and no node below it is. -/
structure Node.IsSoleDocument (root : Node) : Prop where
  root_kind : root.kind = .document
  below : ∀ node ∈ Node.preorders root.children, node.kind ≠ .document

namespace Inspection

open Suppression

/-! ## The reading -/

/-- A directive, and the span of the node that holds it. -/
structure Occurrence where
  directive : Directive
  span : Span
deriving DecidableEq

/-- The directives of a node.  HTML is read from the document and, where its span is no
part of the document, from its value; each line of its comments may be a directive.  A
comment is read from its value and, where it has none, from the document; it is one
directive or none. -/
def occurrencesIn (config : Config) (source : List Char) (node : Node) : List Occurrence :=
  let covered := Text.slice? source node.span.start node.span.stop
  let value := node.value.map String.toList
  match node.kind with
  | .html =>
    match covered.or value with
    | none => []
    | some text =>
      (HtmlComment.commentLines text).filterMap fun line =>
        (Directive.parse? config line).map (⟨·, node.span⟩)
  | .comment =>
    match value.or covered with
    | none => []
    | some text => ((Directive.parse? config text).map (⟨·, node.span⟩)).toList
  | _ => []

/-- The directives of a tree, in preorder. -/
def occurrences (config : Config) (source : List Char) (root : Node) : List Occurrence :=
  root.preorder.flatMap (occurrencesIn config source)

/-- The disable and enable directives among `found`. -/
def operations (found : List Occurrence) : List Operation :=
  found.filterMap fun occurrence =>
    match occurrence.directive.kind with
    | .disable => some (.disable occurrence.span occurrence.directive.rules)
    | .enable => some (.enable occurrence.span occurrence.directive.rules)
    | .expectError => none

/-- The rules that a directive is about, one by one; `none` stands for every rule. -/
def scopes (rules : List String) : List (Option String) :=
  if rules = [] then [none] else rules.map some

/-- The expectations that `found` declares, bound to the first of `targets` that starts at
or after the end of their node, or else to the empty window at `documentStop`. -/
def boundExpectations (targets : List Span) (documentStop : Nat) (found : List Occurrence) :
    List Expectation :=
  (found.filter (·.directive.kind = .expectError)).flatMap fun occurrence =>
    (scopes occurrence.directive.rules).map fun rule =>
      ⟨(targets.find? (occurrence.span.stop ≤ ·.start)).getD (.empty documentStop), rule⟩

/-- The ranges that the directives of a document suppress. -/
def reportedRanges (config : Config) (document : Document) (root : Node) :
    List SuppressedRange :=
  let source := document.text.toList
  (Tracker.performAll ⟨config.bareEnable, []⟩
    (operations (occurrences config source root))).finish (documentStop source root)

/-- The expectations that the directives of a document declare. -/
def recordedExpectations (config : Config) (document : Document) (root : Node) :
    List Expectation :=
  let source := document.text.toList
  boundExpectations (root.expectationTargets source) (documentStop source root)
    (occurrences config source root)

/-! ## The collection -/

/-- Takes up a directive where it occurs. -/
def takeUp (inspection : Inspection) (occurrence : Occurrence) : Inspection :=
  inspection.take occurrence.span occurrence.directive

/-- The declarations among `found` that wait for their targets. -/
def declarations (found : List Occurrence) : List PendingExpectation :=
  (found.filter (·.directive.kind = .expectError)).flatMap fun occurrence =>
    PendingExpectation.ofDirective occurrence.span.stop occurrence.directive.rules

theorem operations_append (found later : List Occurrence) :
    operations (found ++ later) = operations found ++ operations later :=
  List.filterMap_append

theorem declarations_append (found later : List Occurrence) :
    declarations (found ++ later) = declarations found ++ declarations later := by
  rw [declarations, List.filter_append, List.flatMap_append]
  rfl

/-- Taking up directives drives the tracker and collects the declarations; nothing is
reported or stored. -/
theorem foldl_takeUp (found : List Occurrence) (inspection : Inspection) :
    found.foldl takeUp inspection =
      { inspection with
        tracker := inspection.tracker.performAll (operations found)
        pending := inspection.pending ++ declarations found } := by
  induction found generalizing inspection with
  | nil => simp [operations, declarations]
  | cons occurrence found ih =>
    rw [List.foldl_cons, ih]
    cases hkind : occurrence.directive.kind <;>
      simp [takeUp, take, hkind, operations, declarations, Tracker.perform]

theorem map_bind_declarations (targets : List Span) (documentStop : Nat)
    (found : List Occurrence) :
    (declarations found).map (PendingExpectation.bind targets documentStop) =
      boundExpectations targets documentStop found := by
  unfold declarations boundExpectations
  rw [List.map_flatMap]
  congr 1
  funext occurrence
  unfold PendingExpectation.ofDirective scopes
  cases occurrence.directive.rules with
  | nil => rfl
  | cons rule rules => simp [PendingExpectation.bind]

theorem occurrencesIn_of_html {config : Config} {source : List Char} {node : Node}
    (h : node.kind = .html) :
    occurrencesIn config source node =
      (htmlDirectives config source node).map (⟨·, node.span⟩) := by
  simp only [occurrencesIn, h, htmlDirectives, Node.markup?, Node.sourceText?, Node.valueText?]
  cases (Text.slice? source node.span.start node.span.stop).or (node.value.map String.toList) with
  | none => rfl
  | some text => exact List.map_filterMap.symm

theorem occurrencesIn_of_comment {config : Config} {source : List Char} {node : Node}
    (h : node.kind = .comment) :
    occurrencesIn config source node =
      (commentDirectives config source node).map (⟨·, node.span⟩) := by
  simp only [occurrencesIn, h, commentDirectives, Node.commentText?, Node.sourceText?,
    Node.valueText?]
  cases (node.value.map String.toList).or (Text.slice? source node.span.start node.span.stop) with
  | none => rfl
  | some text => exact Option.toList_map

/-- Entering a node takes up its directives. -/
theorem enterNode_handlers (config : Config) (document : Document) (source : List Char)
    (inspection : Inspection) (node : Node) :
    Walk.enterNode (handlers config document source) inspection node =
      (occurrencesIn config source node).foldl takeUp inspection := by
  by_cases hhtml : node.kind = .html
  · rw [occurrencesIn_of_html hhtml, List.foldl_map]
    simp [Walk.enterNode, Walk.fire, handlers, hhtml, takeUp]
  by_cases hcomment : node.kind = .comment
  · rw [occurrencesIn_of_comment hcomment, List.foldl_map]
    simp [Walk.enterNode, Walk.fire, handlers, hcomment, takeUp]
  · have hnone : occurrencesIn config source node = [] := by
      unfold occurrencesIn
      split
      · contradiction
      · contradiction
      · rfl
    rw [hnone, List.foldl_nil, Walk.enterNode, Walk.fire_eq_self]
    simp [handlers, Ne.symm hhtml, Ne.symm hcomment]

theorem foldl_enterNode (config : Config) (document : Document) (source : List Char)
    (nodes : List Node) (inspection : Inspection) :
    nodes.foldl (Walk.enterNode (handlers config document source)) inspection =
      (nodes.flatMap (occurrencesIn config source)).foldl takeUp inspection := by
  rw [List.foldl_flatMap]
  congr 1
  funext inspection node
  exact enterNode_handlers config document source inspection node

/-! ## The inspection -/

/-- Only document nodes are waited for when a node is left. -/
theorem ignoresLeaving_handlers {kind : NodeKind} (h : kind ≠ .document) (config : Config)
    (document : Document) (source : List Char) :
    Walk.IgnoresLeaving (handlers config document source) kind := by
  simpa [Walk.IgnoresLeaving, handlers] using Ne.symm h

/-- What an inspection of a document leaves: no ranges are open and no expectations wait,
the ranges of the reading have been reported and its expectations are stored. -/
theorem inspect_eq {root : Node} (hroot : root.IsSoleDocument) (config : Config)
    (document : Document) (store : Expectation.Store) :
    inspect config document store root =
      { tracker := {}
        pending := []
        ranges := reportedRanges config document root
        store :=
          if (recordedExpectations config document root).isEmpty then store
          else store.insert document.key (recordedExpectations config document root) } := by
  have hleave : ∀ node ∈ Node.preorders root.children,
      Walk.IgnoresLeaving (handlers config document document.text.toList) node.kind :=
    fun node hnode =>
      ignoresLeaving_handlers (hroot.below node hnode) config document document.text.toList
  rw [LintDirectives.inspect, Walk.run_eq_leave_root _ root hleave, foldl_enterNode, foldl_takeUp]
  simp [Walk.fire, handlers, hroot.root_kind, finish, map_bind_declarations, reportedRanges,
    recordedExpectations, occurrences]

theorem boundExpectations_eq_nil_iff {targets : List Span} {documentStop : Nat}
    {found : List Occurrence} :
    boundExpectations targets documentStop found = [] ↔
      ∀ occurrence ∈ found, occurrence.directive.kind ≠ .expectError := by
  have hscopes : ∀ rules, scopes rules ≠ [] := by
    intro rules
    unfold scopes
    split
    · exact List.cons_ne_nil _ _
    · next h => simpa using h
  simp [boundExpectations, List.flatMap_eq_nil_iff, hscopes]

/-- An inspection of a document reports the ranges of a tracker that is driven by its
disable and enable directives in preorder.  The store changes only when there is an
expect-error directive, and then only at the entry of the document, which becomes the list
of the declared expectations in order, each bound to the first content at or after the end
of its comment. -/
theorem inspect_agrees_with_reading {root : Node} (hroot : root.IsSoleDocument)
    (config : Config) (document : Document) (store : Expectation.Store) :
    let source := document.text.toList
    let found := occurrences config source root
    let documentStop := max root.span.stop (Text.byteLength source)
    let inspection := LintDirectives.inspect config document store root
    inspection.ranges =
        (Tracker.performAll ⟨config.bareEnable, []⟩ (operations found)).finish documentStop ∧
      ((∀ occurrence ∈ found, occurrence.directive.kind ≠ .expectError) →
        inspection.store = store) ∧
      ((∃ occurrence ∈ found, occurrence.directive.kind = .expectError) →
        ∀ key, inspection.store.stored? key =
          if key = document.key then
            some (boundExpectations (root.expectationTargets source) documentStop found)
          else store.stored? key) := by
  intro source found documentStop inspection
  let bound := boundExpectations (root.expectationTargets source) documentStop found
  have hinspection : inspection = _ := inspect_eq hroot config document store
  have hbound : recordedExpectations config document root = bound := rfl
  rw [hinspection, hbound]
  refine ⟨rfl, fun hnone => ?_, fun ⟨occurrence, hmem, hkind⟩ key => ?_⟩
  · have hempty : bound = [] := boundExpectations_eq_nil_iff.2 hnone
    simp [hempty]
  · have hsome : bound ≠ [] :=
      fun hempty => boundExpectations_eq_nil_iff.1 hempty occurrence hmem hkind
    rw [if_neg (by simpa using hsome)]
    exact store.stored?_insert document.key key bound

/-- Two paragraphs.  Before the first a rule is disabled, before the second it is enabled
and errors of two other rules are expected. -/
def commentedDocument : Document :=
  ⟨none, "# textlint-disable ruleA\nfirst\n<!-- textlint-enable ruleA -->\n" ++
    "# textlint-expect-error ruleB, ruleE\nsecond\n"⟩

/-- The tree of `commentedDocument`.  The first comment has no value.  The value of the first
piece of HTML is not what the document has there, and the second one lies outside the document. -/
def commentedRoot : Node :=
  ⟨.document, ⟨0, 106⟩, none,
    [⟨.comment, ⟨0, 24⟩, none, []⟩,
      ⟨.str, ⟨25, 30⟩, some "first", []⟩,
      ⟨.html, ⟨31, 61⟩, some "<!-- textlint-disable ruleD -->", []⟩,
      ⟨.comment, ⟨62, 98⟩, some " textlint-expect-error ruleB, ruleE", []⟩,
      ⟨.html, ⟨99, 130⟩, some "<!-- textlint-disable ruleC -->", []⟩,
      ⟨.str, ⟨99, 105⟩, some "second", []⟩]⟩

theorem inspect_commentedRoot :
    commentedRoot.IsSoleDocument ∧
      (LintDirectives.inspect .default commentedDocument .empty commentedRoot).ranges =
        [⟨⟨0, 31⟩, some "ruleA"⟩, ⟨⟨99, 106⟩, some "ruleC"⟩] ∧
      (LintDirectives.inspect .default commentedDocument .empty commentedRoot).store.stored?
        commentedDocument.key =
          some [⟨⟨99, 105⟩, some "ruleB"⟩, ⟨⟨99, 105⟩, some "ruleE"⟩] := by
  have hroot : commentedRoot.IsSoleDocument := ⟨rfl, by decide⟩
  obtain ⟨hranges, -, hstore⟩ :=
    inspect_agrees_with_reading hroot .default commentedDocument .empty
  refine ⟨hroot, hranges.trans (by decide +kernel), ?_⟩
  rw [hstore (by decide +kernel), if_pos rfl]
  decide +kernel

end Inspection

end LintDirectives
