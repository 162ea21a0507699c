import LintDirectives.Proofs.Expectation.Store
import LintDirectives.Proofs.Expectation.Target
import Mathlib.Tactic.MkIffOfInductiveProp

/-!
# What an expectation is bound to

An expectation takes the first target, in the order of the collection, that starts
at or after the end of its comment.  In a tree whose spans nest, that target is the
nearest one, and the outermost of those that start there.

* `IsNested` says how the spans of a tree lie to each other.
* `contentSpans_nested` says that targets are then collected from left to right, and
  those that start at one place from the outside in.
* `isNearest_bind` says what is found first in such an order.
-/

namespace LintDirectives

namespace Span

/-- Every byte of `inner` belongs to `outer`. -/
def IsWithin (inner outer : Span) : Prop :=
  outer.start ≤ inner.start ∧ inner.stop ≤ outer.stop

/-- `first` starts earlier, or both start at one place and `first` goes further. -/
def ComesBefore (first second : Span) : Prop :=
  first.start ≤ second.start ∧ (first.start = second.start → second.stop ≤ first.stop)

instance (inner outer : Span) : Decidable (inner.IsWithin outer) :=
  inferInstanceAs (Decidable (_ ∧ _))

theorem IsWithin.trans {inner middle outer : Span} (hinner : inner.IsWithin middle)
    (houter : middle.IsWithin outer) : inner.IsWithin outer :=
  ⟨Nat.le_trans houter.1 hinner.1, Nat.le_trans hinner.2 houter.2⟩

theorem IsWithin.comesBefore {inner outer : Span} (h : inner.IsWithin outer) :
    outer.ComesBefore inner :=
  ⟨h.1, fun _ => h.2⟩

end Span

namespace Node

variable {source : List Char}

/-! ## Nested spans -/

/-- No child of the node is empty, all lie within it, and each ends before the next one
starts. -/
@[mk_iff]
structure HoldsApart (node : Node) : Prop where
  nonempty : ∀ child ∈ node.children, child.span.start < child.span.stop
  within : ∀ child ∈ node.children, child.span.IsWithin node.span
  apart : node.children.Pairwise fun child next => child.span.stop ≤ next.span.start

/-- The spans of a tree nest: every node holds its children apart. -/
def IsNested (root : Node) : Prop :=
  ∀ node ∈ root.preorder, node.HoldsApart

instance (node : Node) : Decidable node.HoldsApart :=
  decidable_of_iff _ (holdsApart_iff node).symm

instance (root : Node) : Decidable root.IsNested :=
  inferInstanceAs (Decidable (∀ node ∈ root.preorder, node.HoldsApart))

theorem isNested_iff {root : Node} :
    root.IsNested ↔ root.HoldsApart ∧ ∀ node ∈ preorders root.children, node.HoldsApart := by
  rw [IsNested, preorder_eq, List.forall_mem_cons]

mutual

/-- The targets from a tree are not empty and lie within it.  They are collected from left to
right, and those that start at one place from the outside in. -/
theorem contentSpans_nested {node : Node} (hpos : node.span.start < node.span.stop)
    (h : node.IsNested) :
    (∀ span ∈ contentSpans source node, span.start < span.stop ∧ span.IsWithin node.span) ∧
      (contentSpans source node).Pairwise Span.ComesBefore := by
  match node with
  | ⟨kind, span, value, children⟩ =>
    obtain ⟨hroot, hbelow⟩ := isNested_iff.1 h
    obtain ⟨hinside, hordered⟩ := contentSpansAll_nested hroot.nonempty hroot.apart hbelow
    have hwithin : ∀ other ∈ contentSpansAll source children, other.IsWithin span := by
      intro other hother
      obtain ⟨-, child, hchild, hother⟩ := hinside other hother
      exact hother.trans (hroot.within child hchild)
    rw [contentSpans]
    split
    · exact ⟨List.forall_mem_nil _, .nil⟩
    · rw [List.forall_mem_cons, List.pairwise_cons]
      exact ⟨⟨⟨hpos, Nat.le_refl _, Nat.le_refl _⟩,
          fun other hother => ⟨(hinside other hother).1, hwithin other hother⟩⟩,
        fun other hother => (hwithin other hother).comesBefore, hordered⟩

theorem contentSpansAll_nested {nodes : List Node}
    (hpos : ∀ node ∈ nodes, node.span.start < node.span.stop)
    (hapart : nodes.Pairwise fun node next => node.span.stop ≤ next.span.start)
    (h : ∀ node ∈ preorders nodes, node.HoldsApart) :
    (∀ span ∈ contentSpansAll source nodes,
        span.start < span.stop ∧ ∃ node ∈ nodes, span.IsWithin node.span) ∧
      (contentSpansAll source nodes).Pairwise Span.ComesBefore := by
  match nodes with
  | [] => exact ⟨List.forall_mem_nil _, .nil⟩
  | node :: nodes =>
    rw [List.forall_mem_cons] at hpos
    rw [List.pairwise_cons] at hapart
    rw [preorders, List.forall_mem_append] at h
    obtain ⟨hfirst, hfirstOrdered⟩ := contentSpans_nested hpos.1 h.1
    obtain ⟨hrest, hrestOrdered⟩ := contentSpansAll_nested hpos.2 hapart.2 h.2
    rw [contentSpansAll, List.forall_mem_append, List.pairwise_append]
    refine ⟨⟨fun span hspan => ?_, fun span hspan => ?_⟩, hfirstOrdered, hrestOrdered, ?_⟩
    · exact ⟨(hfirst span hspan).1, node, List.mem_cons_self, (hfirst span hspan).2⟩
    · obtain ⟨hspanPos, other, hother, hwithin⟩ := hrest span hspan
      exact ⟨hspanPos, other, List.mem_cons_of_mem _ hother, hwithin⟩
    -- Between siblings the first target ends before the second one starts.
    · intro span hspan later hlater
      obtain ⟨hspanPos, hspanWithin⟩ := hfirst span hspan
      obtain ⟨-, other, hother, hlaterWithin⟩ := hrest later hlater
      have hlt : span.start < later.start :=
        calc span.start < span.stop := hspanPos
          _ ≤ node.span.stop := hspanWithin.2
          _ ≤ other.span.start := hapart.1 other hother
          _ ≤ later.start := hlaterWithin.1
      exact ⟨Nat.le_of_lt hlt, fun heq => absurd heq (Nat.ne_of_lt hlt)⟩

end

end Node

namespace PendingExpectation

variable {targets : List Span} {documentStop : Nat}

/-! ## The nearest target -/

/-- The window is the nearest target that starts at or after `offset`, and the outermost one
there.  Where there is no such target, it is the empty window at `documentStop`. -/
structure IsNearest (targets : List Span) (documentStop offset : Nat) (window : Span) : Prop where
  follows : offset ≤ window.start
  nearest : ∀ target ∈ targets, ¬ (offset ≤ target.start ∧ target.start < window.start)
  outermost : ∀ target ∈ targets, target.start = window.start → target.IsWithin window
  found : (∃ target ∈ targets, offset ≤ target.start) → window ∈ targets
  missing : (∀ target ∈ targets, target.start < offset) → window = .empty documentStop

/-- The declaration is bound to the nearest target, under its own rule. -/
def BindsTo (targets : List Span) (documentStop : Nat) (declared : PendingExpectation)
    (bound : Expectation) : Prop :=
  bound.rule = declared.rule ∧ IsNearest targets documentStop declared.commentStop bound.window

/-- The first target that starts late enough is the nearest one. -/
theorem isNearest_bind (hordered : targets.Pairwise Span.ComesBefore)
    {pending : PendingExpectation} (hstop : pending.commentStop ≤ documentStop) :
    IsNearest targets documentStop pending.commentStop
      (pending.bind targets documentStop).window := by
  unfold bind
  dsimp only
  cases hfind : targets.find? (pending.commentStop ≤ ·.start) with
  | none =>
    have hnone : ∀ target ∈ targets, target.start < pending.commentStop := by
      simpa [List.find?_eq_none] using hfind
    rw [Option.getD_none]
    refine ⟨hstop, fun target htarget hbetween => ?_, fun target htarget heq => ?_, ?_,
      fun _ => rfl⟩
    · have := hnone target htarget
      omega
    · have := hnone target htarget
      change target.start = documentStop at heq
      omega
    · rintro ⟨target, htarget, hafter⟩
      have := hnone target htarget
      omega
  | some window =>
    obtain ⟨hafter, before, behind, rfl, hbefore⟩ := List.find?_eq_some_iff_append.1 hfind
    have hafter : pending.commentStop ≤ window.start := by simpa using hafter
    have hearlier : ∀ target ∈ before, target.start < pending.commentStop := by
      simpa using hbefore
    have hlater : ∀ target ∈ behind, window.ComesBefore target :=
      (List.pairwise_cons.1 (List.pairwise_append.1 hordered).2.1).1
    rw [Option.getD_some]
    refine ⟨hafter, fun target htarget hbetween => ?_, fun target htarget heq => ?_,
      fun _ => by simp, fun hall => ?_⟩
    · rw [List.mem_append, List.mem_cons] at htarget
      rcases htarget with htarget | rfl | htarget
      · have := hearlier target htarget
        omega
      · omega
      · have := (hlater target htarget).1
        omega
    · rw [List.mem_append, List.mem_cons] at htarget
      rcases htarget with htarget | rfl | htarget
      · have := hearlier target htarget
        omega
      · exact ⟨Nat.le_refl _, Nat.le_refl _⟩
      · exact ⟨Nat.le_of_eq heq.symm, (hlater target htarget).2 heq.symm⟩
    · have := hall window (by simp)
      omega

/-- An expectation that is declared later is bound no earlier. -/
theorem start_bind_le (hordered : targets.Pairwise Span.ComesBefore)
    (htargets : ∀ target ∈ targets, target.start ≤ documentStop)
    {earlier later : PendingExpectation} (hle : earlier.commentStop ≤ later.commentStop)
    (hstop : later.commentStop ≤ documentStop) :
    (earlier.bind targets documentStop).window.start ≤
      (later.bind targets documentStop).window.start := by
  have hearlier := isNearest_bind hordered (Nat.le_trans hle hstop)
  have hlater := isNearest_bind hordered hstop
  by_cases hsome : ∃ target ∈ targets, later.commentStop ≤ target.start
  · have := hearlier.nearest _ (hlater.found hsome)
    have := hlater.follows
    omega
  · have hnone : ∀ target ∈ targets, target.start < later.commentStop := by simpa using hsome
    rw [hlater.missing hnone]
    by_cases hfound : ∃ target ∈ targets, earlier.commentStop ≤ target.start
    · exact htargets _ (hearlier.found hfound)
    · exact Nat.le_of_eq (by rw [hearlier.missing (by simpa using hfound)])

theorem commentStop_of_mem_ofDirective {stop : Nat} {rules : List String}
    {pending : PendingExpectation} (h : pending ∈ ofDirective stop rules) :
    pending.commentStop = stop := by
  unfold ofDirective at h
  split at h
  · rw [List.mem_singleton] at h
    rw [h]
  · obtain ⟨rule, -, rfl⟩ := List.mem_map.1 h
    rfl

/-- In a document whose spans nest, each declaration is bound, in order, to the nearest and
outermost target at or after its comment, and one whose comment ends later is bound no earlier.
Leaving the document stores the expectations and leaves no declaration waiting. -/
theorem binds_to_nearest_target {root : Node} (hroot : root.IsNested) {documentStop : Nat}
    (hstop : root.span.stop ≤ documentStop) {recorded : List (Span × List String)}
    (hrecorded : ∀ comment ∈ recorded, comment.1.stop ≤ documentStop) (source : List Char) :
    let targets := root.expectationTargets source
    let pending := recorded.flatMap fun comment => ofDirective comment.1.stop comment.2
    List.Forall₂ (BindsTo targets documentStop) pending
        (pending.map (bind targets documentStop)) ∧
      (∀ earlier ∈ pending, ∀ later ∈ pending, earlier.commentStop ≤ later.commentStop →
        (earlier.bind targets documentStop).window.start ≤
          (later.bind targets documentStop).window.start) ∧
      ∀ document inspection, inspection.pending = pending →
        (Inspection.finish document source inspection root).pending = [] ∧
          (pending ≠ [] →
            (Inspection.finish document source inspection root).store.stored? document.key =
              some (pending.map (bind targets (Inspection.documentStop source root)))) := by
  intro targets pending
  obtain ⟨hapart, hbelow⟩ := Node.isNested_iff.1 hroot
  obtain ⟨hinside, hordered⟩ : (∀ span ∈ targets, span.start < span.stop ∧
      ∃ node ∈ root.children, span.IsWithin node.span) ∧ targets.Pairwise Span.ComesBefore :=
    Node.contentSpansAll_nested hapart.nonempty hapart.apart hbelow
  have htargets : ∀ target ∈ targets, target.start ≤ documentStop := by
    intro target htarget
    obtain ⟨hpos, node, hnode, hwithin⟩ := hinside target htarget
    calc target.start ≤ target.stop := Nat.le_of_lt hpos
      _ ≤ node.span.stop := hwithin.2
      _ ≤ root.span.stop := (hapart.within node hnode).2
      _ ≤ documentStop := hstop
  have hpending : ∀ declared ∈ pending, declared.commentStop ≤ documentStop := by
    intro declared hdeclared
    obtain ⟨comment, hcomment, hmem⟩ := List.mem_flatMap.1 hdeclared
    rw [commentStop_of_mem_ofDirective hmem]
    exact hrecorded comment hcomment
  refine ⟨?_, fun earlier _ later hlater hle =>
    start_bind_le hordered htargets hle (hpending later hlater), ?_⟩
  · rw [List.forall₂_map_right_iff, List.forall₂_same]
    exact fun declared hdeclared => ⟨rfl, isNearest_bind hordered (hpending declared hdeclared)⟩
  · intro document inspection hwaiting
    refine ⟨rfl, fun hne => ?_⟩
    simp only [Inspection.finish, hwaiting, List.isEmpty_map, List.isEmpty_iff, hne, if_false,
      Expectation.Store.stored?_insert, if_true]
    rfl

/-- A quotation behind one comment and around another, and a last comment. -/
def quotedRoot : Node :=
  ⟨.document, ⟨0, 40⟩, none,
    [⟨.comment, ⟨0, 10⟩, none, []⟩,
      ⟨.blockQuote, ⟨12, 30⟩, none,
        [⟨.paragraph, ⟨12, 18⟩, none, [⟨.str, ⟨12, 18⟩, some "quoted", []⟩]⟩,
          ⟨.comment, ⟨18, 25⟩, none, []⟩,
          ⟨.paragraph, ⟨26, 30⟩, none, [⟨.str, ⟨26, 30⟩, some "more", []⟩]⟩]⟩,
      ⟨.comment, ⟨32, 40⟩, none, []⟩]⟩

/-- What the comments of `quotedRoot` declare. -/
def quotedComments : List (Span × List String) :=
  [(⟨0, 10⟩, []), (⟨18, 25⟩, ["ruleA", "ruleB"]), (⟨32, 40⟩, [])]

/-- The first comment is about the quotation as a whole, the second one about the paragraph
behind it, and nothing is left for the last one. -/
theorem binds_quotedComments :
    quotedRoot.IsNested ∧ (∀ comment ∈ quotedComments, comment.1.stop ≤ 40) ∧
      List.Forall₂ (BindsTo (quotedRoot.expectationTargets []) 40)
        [⟨10, none⟩, ⟨25, some "ruleA"⟩, ⟨25, some "ruleB"⟩, ⟨40, none⟩]
        [⟨⟨12, 30⟩, none⟩, ⟨⟨26, 30⟩, some "ruleA"⟩, ⟨⟨26, 30⟩, some "ruleB"⟩,
          ⟨⟨40, 40⟩, none⟩] := by
  have hnested : quotedRoot.IsNested := by decide
  have hrecorded : ∀ comment ∈ quotedComments, comment.1.stop ≤ 40 := by decide
  have hbound := (binds_to_nearest_target hnested (Nat.le_refl 40) hrecorded []).1
  exact ⟨hnested, hrecorded, hbound⟩

end PendingExpectation

end LintDirectives
