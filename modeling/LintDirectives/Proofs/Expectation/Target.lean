import LintDirectives.Proofs.Directive.CommentBodies
import LintDirectives.Proofs.Inspection.Reading

/-!
# What is content

Targets are collected by going down a tree and passing over every node that carries
directives, with all that is below it.  This module says which nodes are left
without going down.

* `places` lists the nodes of a tree in preorder, each with the nodes above it.
* `expectationTargets_eq` keeps those places at which neither the node nor one above
  it is commented.
* `targetsOnStack_eq` is about a collection that keeps the nodes still to be visited
  on a stack.
* `isCommented_of_occurrencesIn` compares the collection with the walk that takes up
  directives: a node at which the walk finds one is commented.
-/

namespace LintDirectives

namespace Node

variable {source : List Char}

/-! ## Places -/

/-- A node, and the nodes that it lies below. -/
structure Place where
  node : Node
  above : List Node

/-- The node of a place and the nodes above it. -/
def Place.line (place : Place) : List Node :=
  place.node :: place.above

mutual

/-- The places of a tree that lies below `above`, in preorder. -/
def places (above : List Node) : Node → List Place
  | ⟨kind, span, value, children⟩ =>
    ⟨⟨kind, span, value, children⟩, above⟩ ::
      placesAll (⟨kind, span, value, children⟩ :: above) children

/-- The places of several trees that lie below `above`. -/
def placesAll (above : List Node) : List Node → List Place
  | [] => []
  | node :: nodes => places above node ++ placesAll above nodes

end

mutual

theorem map_node_places (above : List Node) (node : Node) :
    (places above node).map Place.node = node.preorder := by
  match node with
  | ⟨kind, span, value, children⟩ =>
    rw [places, List.map_cons, map_node_placesAll, preorder]

/-- The places of several trees stand for their nodes in preorder. -/
theorem map_node_placesAll (above : List Node) (nodes : List Node) :
    (placesAll above nodes).map Place.node = preorders nodes := by
  match nodes with
  | [] => rfl
  | node :: nodes =>
    rw [placesAll, List.map_append, map_node_places, map_node_placesAll, preorders]

end

/-! ## Content -/

/-- The node is a comment, or HTML in whose text a comment is opened and closed.  The text is
what the node covers in the document, or else its value. -/
def IsCommented (source : List Char) (node : Node) : Prop :=
  node.kind = .comment ∨
    node.kind = .html ∧ ∃ text, (node.sourceText? source).or node.valueText? = some text ∧
      ∃ before body after,
        text = before ++ HtmlComment.opening ++ body ++ HtmlComment.closing ++ after

theorem isDirectiveCarrier_iff {node : Node} :
    isDirectiveCarrier source node = true ↔ IsCommented source node := by
  unfold isDirectiveCarrier IsCommented
  cases node.kind <;> simp [Option.any_eq_true, HtmlComment.occursIn_iff, markup?]

instance (node : Node) : Decidable (IsCommented source node) :=
  decidable_of_iff _ isDirectiveCarrier_iff

/-- Neither the node of the place nor one above it is commented. -/
def Place.IsContent (source : List Char) (place : Place) : Prop :=
  ∀ node ∈ place.line, ¬ IsCommented source node

instance (place : Place) : Decidable (place.IsContent source) :=
  inferInstanceAs (Decidable (∀ node ∈ place.line, ¬ IsCommented source node))

mutual

/-- Nothing below a commented node is content. -/
theorem not_isContent_of_mem_places {above : List Node}
    (habove : ∃ node ∈ above, IsCommented source node) (node : Node) :
    ∀ place ∈ places above node, ¬ place.IsContent source := by
  match node with
  | ⟨kind, span, value, children⟩ =>
    obtain ⟨carrier, hmem, hcarrier⟩ := habove
    rw [places, List.forall_mem_cons]
    refine ⟨fun hcontent => hcontent carrier (List.mem_cons_of_mem _ hmem) hcarrier, ?_⟩
    exact not_isContent_of_mem_placesAll ⟨carrier, List.mem_cons_of_mem _ hmem, hcarrier⟩ children

theorem not_isContent_of_mem_placesAll {above : List Node}
    (habove : ∃ node ∈ above, IsCommented source node) (nodes : List Node) :
    ∀ place ∈ placesAll above nodes, ¬ place.IsContent source := by
  match nodes with
  | [] => exact List.forall_mem_nil _
  | node :: nodes =>
    rw [placesAll, List.forall_mem_append]
    exact ⟨not_isContent_of_mem_places habove node, not_isContent_of_mem_placesAll habove nodes⟩

end

mutual

theorem contentSpans_eq {above : List Node} (habove : ∀ node ∈ above, ¬ IsCommented source node)
    (node : Node) :
    contentSpans source node =
      ((places above node).filter (·.IsContent source)).map (·.node.span) := by
  match node with
  | ⟨kind, span, value, children⟩ =>
    obtain ⟨node, hnode⟩ : ∃ node : Node, node = ⟨kind, span, value, children⟩ := ⟨_, rfl⟩
    rw [contentSpans, places, ← hnode]
    by_cases hcarrier : IsCommented source node
    · have hbelow := not_isContent_of_mem_placesAll
        ⟨node, List.mem_cons_self (l := above), hcarrier⟩ children
      have hhead : ¬ Place.IsContent source ⟨node, above⟩ :=
        fun hcontent => hcontent node List.mem_cons_self hcarrier
      rw [if_pos (isDirectiveCarrier_iff.2 hcarrier),
        List.filter_cons_of_neg (by simpa using hhead),
        List.filter_eq_nil_iff.2 (by simpa using hbelow), List.map_nil]
    · have hline : ∀ other ∈ node :: above, ¬ IsCommented source other :=
        List.forall_mem_cons.2 ⟨hcarrier, habove⟩
      have hhead : Place.IsContent source ⟨node, above⟩ := hline
      rw [if_neg (mt isDirectiveCarrier_iff.1 hcarrier),
        List.filter_cons_of_pos (by simpa using hhead), List.map_cons, contentSpansAll_eq hline,
        hnode]

theorem contentSpansAll_eq {above : List Node}
    (habove : ∀ node ∈ above, ¬ IsCommented source node) (nodes : List Node) :
    contentSpansAll source nodes =
      ((placesAll above nodes).filter (·.IsContent source)).map (·.node.span) := by
  match nodes with
  | [] => rfl
  | node :: nodes =>
    rw [contentSpansAll, placesAll, List.filter_append, List.map_append, contentSpans_eq habove,
      contentSpansAll_eq habove]

end

/-- Targets are the spans of the places below the root that are content. -/
theorem expectationTargets_eq (source : List Char) (root : Node) :
    root.expectationTargets source =
      ((placesAll [] root.children).filter (·.IsContent source)).map (·.node.span) :=
  contentSpansAll_eq (List.forall_mem_nil _) root.children

/-! ## A stack -/

theorem sizes_append (nodes others : List Node) :
    sizes (nodes ++ others) = sizes nodes + sizes others := by
  induction nodes with
  | nil => simp [sizes]
  | cons node nodes ih => simp only [List.cons_append, sizes, ih, Nat.add_assoc]

/-- Collects targets from the nodes on a stack.  The nodes below a target go on top of those
that wait. -/
def targetsOnStack (source : List Char) : List Node → List Span
  | [] => []
  | node :: waiting =>
    if isDirectiveCarrier source node then targetsOnStack source waiting
    else node.span :: targetsOnStack source (node.children ++ waiting)
termination_by stack => sizes stack
decreasing_by
  · have := size_eq node
    simp only [sizes]
    omega
  · simp only [sizes, sizes_append, size_eq node]
    omega

theorem contentSpansAll_append (source : List Char) (nodes others : List Node) :
    contentSpansAll source (nodes ++ others) =
      contentSpansAll source nodes ++ contentSpansAll source others := by
  induction nodes with
  | nil => rfl
  | cons node nodes ih =>
    rw [List.cons_append, contentSpansAll, contentSpansAll, ih, List.append_assoc]

theorem contentSpansAll_cons_of_carrier {node : Node} (h : isDirectiveCarrier source node = true)
    (nodes : List Node) :
    contentSpansAll source (node :: nodes) = contentSpansAll source nodes := by
  cases node
  rw [contentSpansAll, contentSpans, if_pos h, List.nil_append]

theorem contentSpansAll_cons_of_not_carrier {node : Node}
    (h : ¬ isDirectiveCarrier source node = true) (nodes : List Node) :
    contentSpansAll source (node :: nodes) =
      node.span :: contentSpansAll source (node.children ++ nodes) := by
  cases node
  rw [contentSpansAll, contentSpans, if_neg h, contentSpansAll_append, List.cons_append]

/-- Whatever waits on the stack is collected in the order of the recursion. -/
theorem targetsOnStack_eq (source : List Char) (stack : List Node) :
    targetsOnStack source stack = contentSpansAll source stack := by
  fun_induction targetsOnStack source stack with
  | case1 => rfl
  | case2 node waiting hcarrier ih => rw [contentSpansAll_cons_of_carrier hcarrier, ih]
  | case3 node waiting hcontent ih => rw [contentSpansAll_cons_of_not_carrier hcontent, ih]

end Node

/-! ## Directives are not content -/

namespace Inspection

open Node

/-- A node at which a walk takes up a directive is commented. -/
theorem isCommented_of_occurrencesIn {config : Config} {source : List Char} {node : Node}
    (h : occurrencesIn config source node ≠ []) : IsCommented source node := by
  rw [← isDirectiveCarrier_iff]
  dsimp only [occurrencesIn] at h
  split at h
  · next hkind =>
    -- The text of the node holds a line of a comment, so it holds a comment.
    split at h
    · contradiction
    · next text htext =>
      obtain ⟨occurrence, hoccurrence⟩ := List.exists_mem_of_ne_nil _ h
      obtain ⟨line, hline, -⟩ := List.mem_filterMap.1 hoccurrence
      simp [isDirectiveCarrier, hkind, markup?, sourceText?, valueText?, htext,
        HtmlComment.occursIn_of_mem_commentLines hline]
  · next hkind => simp [isDirectiveCarrier, hkind]
  · contradiction

/-- The targets in a document are the spans of its content, in preorder: of the nodes below the
root that neither are commented nor lie below a commented node.  A node at which the handlers of
the walk take up a directive is no content, and neither is anything below it. -/
theorem targets_are_uncommented (config : Config) (document : Document) (root : Node) :
    let source := document.text.toList
    let all := placesAll [] root.children
    let content := all.filter (·.IsContent source)
    all.map Place.node = preorders root.children ∧
      root.expectationTargets source = content.map (·.node.span) ∧
      targetsOnStack source root.children = content.map (·.node.span) ∧
      (∀ node inspection,
        Walk.enterNode (handlers config document source) inspection node =
          (occurrencesIn config source node).foldl takeUp inspection) ∧
      ∀ place ∈ all, (∃ node ∈ place.line, occurrencesIn config source node ≠ []) →
        place ∉ content := by
  intro source all content
  refine ⟨map_node_placesAll [] root.children, expectationTargets_eq source root, ?_,
    fun node inspection => enterNode_handlers config document source inspection node, ?_⟩
  · rw [targetsOnStack_eq]
    exact expectationTargets_eq source root
  · rintro place - ⟨node, hnode, hfound⟩ hcontent
    have hplace : place.IsContent source := by simpa using (List.mem_filter.1 hcontent).2
    exact hplace node hnode (isCommented_of_occurrencesIn hfound)

/-- A comment with a text below it, a paragraph, and HTML that lies outside the document. -/
def nestedDocument : Document :=
  ⟨none, "<!-- textlint-disable -->\n\nText."⟩

/-- The text below the comment. -/
def hiddenText : Node :=
  ⟨.str, ⟨5, 21⟩, some "textlint-disable", []⟩

/-- The comment. -/
def hidingComment : Node :=
  ⟨.html, ⟨0, 25⟩, none, [hiddenText]⟩

/-- The tree of `nestedDocument`. -/
def nestedRoot : Node :=
  ⟨.document, ⟨0, 32⟩, none,
    [hidingComment, ⟨.paragraph, ⟨27, 32⟩, none, [⟨.str, ⟨27, 32⟩, some "Text.", []⟩]⟩,
      ⟨.html, ⟨40, 43⟩, some "<b>", []⟩]⟩

/-- The text below the comment is no target, the other nodes are. -/
theorem targets_of_nestedRoot :
    ⟨hiddenText, [hidingComment]⟩ ∈ placesAll [] nestedRoot.children ∧
      ⟨hiddenText, [hidingComment]⟩ ∉ (placesAll [] nestedRoot.children).filter
        (·.IsContent nestedDocument.text.toList) ∧
      nestedRoot.expectationTargets nestedDocument.text.toList =
        [⟨27, 32⟩, ⟨27, 32⟩, ⟨40, 43⟩] := by
  have hplace : ⟨hiddenText, [hidingComment]⟩ ∈ placesAll [] nestedRoot.children := by
    simp [nestedRoot, hidingComment, hiddenText, placesAll, places]
  have hfound : occurrencesIn .default nestedDocument.text.toList hidingComment ≠ [] := by
    decide +kernel
  obtain ⟨-, htargets, -, -, hhidden⟩ := targets_are_uncommented .default nestedDocument nestedRoot
  refine ⟨hplace, hhidden _ hplace ⟨hidingComment, ?_, hfound⟩, htargets.trans ?_⟩
  · exact List.mem_cons_of_mem _ List.mem_cons_self
  · decide +kernel

end Inspection

end LintDirectives
