import LintDirectives.Proofs.Inspection.Reading
import LintDirectives.Proofs.Suppression.Policy
import LintDirectives.Proofs.Tree.Tour

/-!
# Documents inside a document

Whenever a document node is left, what has been found so far is reported and stored,
and the collection starts anew.  So document nodes below the root cut the walk into
stretches.  Each is settled with the document node that ends it: its ranges are
added to the reported ones, but its expectations replace what an earlier stretch has
stored.  Only the first stretch follows the policy of the configuration.

There are four groups.

* Stretches.  `stretches` cuts the tour of a tree, and `found_stretches` says that
  every directive is in one of them and that the root ends the last one.
* What a stretch leaves.  `Stretch.ranges` and `Stretch.entry?` are computed from its
  directives and its document node.
* The walk.  `collecting` is the state within a stretch.  `act_enter` and
  `act_leave_document` say what a step does to it, and `foldl_act` what a whole walk
  does.
* The result.  `last_declaring_stretch_is_stored` says what is reported and stored,
  and when nothing is lost.
-/

namespace LintDirectives.Inspection

open Suppression Expectation

/-! ## Stretches -/

/-- The directives that are found until a document node is left, and that node. -/
structure Stretch where
  found : List Occurrence
  node : Node

/-- Cuts the steps of a walk where a document node is left.  What is `waiting` has been found
before. -/
def stretchesFrom (config : Config) (source : List Char) (waiting : List Occurrence) :
    List Walk.Step → List Stretch
  | [] => []
  | .enter node :: rest =>
    stretchesFrom config source (waiting ++ occurrencesIn config source node) rest
  | .leave node :: rest =>
    if node.kind = .document then ⟨waiting, node⟩ :: stretchesFrom config source [] rest
    else stretchesFrom config source waiting rest

/-- The stretches of the walk of a tree, in order. -/
def stretches (config : Config) (source : List Char) (root : Node) : List Stretch :=
  stretchesFrom config source [] (Walk.tour root)

section Stretches

variable {config : Config} {source : List Char} {root : Node}

variable (config source) in
/-- No directive is left out where the last step leaves a document node. -/
theorem stretchesFrom_concat (hroot : root.kind = .document) (waiting : List Occurrence)
    (steps : List Walk.Step) :
    ∃ earlier last,
      stretchesFrom config source waiting (steps ++ [.leave root]) = earlier ++ [⟨last, root⟩] ∧
        earlier.flatMap Stretch.found ++ last =
          waiting ++ (Walk.entered steps).flatMap (occurrencesIn config source) := by
  induction steps generalizing waiting with
  | nil => exact ⟨[], waiting, by simp [stretchesFrom, hroot], by simp [Walk.entered]⟩
  | cons step steps ih =>
    cases step with
    | enter node =>
      obtain ⟨earlier, last, hcut, hfound⟩ := ih (waiting ++ occurrencesIn config source node)
      refine ⟨earlier, last, hcut, ?_⟩
      rw [hfound, Walk.entered, List.flatMap_cons, List.append_assoc]
    | leave node =>
      by_cases hkind : node.kind = .document
      · obtain ⟨earlier, last, hcut, hfound⟩ := ih []
        refine ⟨⟨waiting, node⟩ :: earlier, last, ?_, ?_⟩
        · rw [List.cons_append, stretchesFrom, if_pos hkind, hcut, List.cons_append]
        · rw [List.flatMap_cons, List.append_assoc, hfound, Walk.entered, List.nil_append]
      · obtain ⟨earlier, last, hcut, hfound⟩ := ih waiting
        refine ⟨earlier, last, ?_, hfound⟩
        rw [List.cons_append, stretchesFrom, if_neg hkind, hcut]

/-- Each directive of a document is in one stretch, in the order of the document, and the last
stretch ends with the document. -/
theorem found_stretches (hroot : root.kind = .document) :
    (stretches config source root).flatMap Stretch.found = occurrences config source root ∧
      ∃ earlier last, stretches config source root = earlier ++ [⟨last, root⟩] := by
  obtain ⟨earlier, last, hcut, hfound⟩ :=
    stretchesFrom_concat config source hroot [] (.enter root :: Walk.tours root.children)
  have hstretches : stretches config source root = earlier ++ [⟨last, root⟩] := by
    rw [stretches, Walk.tour_eq]
    exact hcut
  refine ⟨?_, earlier, last, hstretches⟩
  rw [hstretches, List.flatMap_append, List.flatMap_cons, List.flatMap_nil, List.append_nil, hfound,
    List.nil_append, Walk.entered, Walk.entered_tours, occurrences, Node.preorder_eq]

/-- Steps that leave no document node are part of one stretch. -/
theorem stretchesFrom_append {steps : List Walk.Step}
    (h : ∀ node, .leave node ∈ steps → node.kind ≠ .document) (waiting : List Occurrence)
    (rest : List Walk.Step) :
    stretchesFrom config source waiting (steps ++ rest) =
      stretchesFrom config source
        (waiting ++ (Walk.entered steps).flatMap (occurrencesIn config source)) rest := by
  induction steps generalizing waiting with
  | nil => rw [Walk.entered, List.flatMap_nil, List.append_nil, List.nil_append]
  | cons step steps ih =>
    have hrest : ∀ node, .leave node ∈ steps → node.kind ≠ .document :=
      fun node hnode => h node (List.mem_cons_of_mem step hnode)
    cases step with
    | enter node =>
      rw [List.cons_append, stretchesFrom, ih hrest, Walk.entered, List.flatMap_cons,
        List.append_assoc]
    | leave node =>
      rw [List.cons_append, stretchesFrom, if_neg (h node List.mem_cons_self), ih hrest,
        Walk.entered]

/-- A document that holds no further document is one stretch. -/
theorem stretches_of_isSoleDocument (hroot : root.IsSoleDocument) :
    stretches config source root = [⟨occurrences config source root, root⟩] := by
  have hleave : ∀ node, .leave node ∈ Walk.tours root.children → node.kind ≠ .document :=
    fun node hnode => hroot.below node (Walk.mem_preorders_of_leave_mem_tours _ hnode)
  rw [stretches, Walk.tour_eq, stretchesFrom, stretchesFrom_append hleave, stretchesFrom,
    if_pos hroot.root_kind, stretchesFrom, List.nil_append, Walk.entered_tours, occurrences,
    Node.preorder_eq, List.flatMap_cons]

end Stretches

/-! ## What a stretch leaves -/

/-- The rules of the expectations that are declared, one by one; `none` stands for every rule. -/
def expectedRules (found : List Occurrence) : List (Option String) :=
  (found.filter (·.directive.kind = .expectError)).flatMap fun occurrence =>
    scopes occurrence.directive.rules

theorem map_rule_boundExpectations (targets : List Span) (documentStop : Nat)
    (found : List Occurrence) :
    (boundExpectations targets documentStop found).map Expectation.rule = expectedRules found := by
  simp [boundExpectations, expectedRules, List.map_flatMap, Function.comp_def]

namespace Stretch

/-- There is an expect-error directive among those of the stretch. -/
def declares (stretch : Stretch) : Bool :=
  stretch.found.any (·.directive.kind = .expectError)

/-- The expectations of a stretch, bound to the content below the document node that ends it. -/
def expectations (source : List Char) (stretch : Stretch) : List Expectation :=
  boundExpectations (stretch.node.expectationTargets source) (documentStop source stretch.node)
    stretch.found

/-- The ranges that the directives of a stretch suppress under a policy. -/
def ranges (policy : BareEnable) (source : List Char) (stretch : Stretch) :
    List SuppressedRange :=
  (Tracker.performAll ⟨policy, []⟩ (operations stretch.found)).finish
    (documentStop source stretch.node)

/-- What a stretch stores. -/
def entry? (source : List Char) (stretch : Stretch) : Option (List Expectation) :=
  if stretch.declares then some (stretch.expectations source) else none

theorem isEmpty_expectations (source : List Char) (stretch : Stretch) :
    (stretch.expectations source).isEmpty = !stretch.declares := by
  rw [Bool.eq_iff_iff, List.isEmpty_iff, expectations, boundExpectations_eq_nil_iff]
  simp [declares]

end Stretch

/-! ## The walk -/

/-- The state of a walk within a stretch, when `waiting` has been found in it so far. -/
def collecting (policy : BareEnable) (reported : List SuppressedRange) (store : Store)
    (waiting : List Occurrence) : Inspection :=
  { tracker := Tracker.performAll ⟨policy, []⟩ (operations waiting)
    pending := declarations waiting
    ranges := reported
    store := store }

section Walk

variable {config : Config} {document : Document} {source : List Char} {policy : BareEnable}
  {reported : List SuppressedRange} {store : Store} {waiting : List Occurrence} {node : Node}

theorem act_enter :
    Walk.Step.act (handlers config document source) (collecting policy reported store waiting)
        (.enter node) =
      collecting policy reported store (waiting ++ occurrencesIn config source node) := by
  have henter := enterNode_handlers config document source
    (collecting policy reported store waiting) node
  rw [Walk.enterNode, foldl_takeUp] at henter
  rw [Walk.Step.act, henter]
  simp only [collecting, operations_append, declarations_append, Tracker.performAll_append]

theorem act_leave_of_ne (hkind : node.kind ≠ .document) (inspection : Inspection) :
    Walk.Step.act (handlers config document source) inspection (.leave node) = inspection :=
  Walk.fire_eq_self _ (ignoresLeaving_handlers hkind config document source) node inspection

/-- Leaving a document node settles a stretch.  The next one has the default policy. -/
theorem act_leave_document (hkind : node.kind = .document) :
    Walk.Step.act (handlers config document source) (collecting policy reported store waiting)
        (.leave node) =
      collecting .trailingRun (reported ++ Stretch.ranges policy source ⟨waiting, node⟩)
        (store.record document.key (Stretch.entry? source ⟨waiting, node⟩)) [] := by
  have hact : Walk.Step.act (handlers config document source)
      (collecting policy reported store waiting) (.leave node) =
        finish document source (collecting policy reported store waiting) node := by
    simp [Walk.Step.act, Walk.fire, handlers, hkind]
  have hbound : (declarations waiting).map
      (PendingExpectation.bind (node.expectationTargets source) (documentStop source node)) =
        Stretch.expectations source ⟨waiting, node⟩ := map_bind_declarations ..
  rw [hact, finish, collecting, hbound, Stretch.isEmpty_expectations, Stretch.entry?]
  cases Stretch.declares ⟨waiting, node⟩ <;> rfl

/-- The ranges that stretches report, the first one of them under `policy`. -/
def reportedBy (source : List Char) (policy : BareEnable) : List Stretch → List SuppressedRange
  | [] => []
  | stretch :: later =>
    stretch.ranges policy source ++ later.flatMap (Stretch.ranges .trailingRun source)

theorem reportedBy_trailingRun (source : List Char) (all : List Stretch) :
    reportedBy source .trailingRun all = all.flatMap (Stretch.ranges .trailingRun source) := by
  cases all <;> rfl

variable (config document source policy reported store waiting) in
/-- A walk adds the ranges of its stretches to those that have been reported, and records what
they store, one stretch after the other. -/
theorem foldl_act (steps : List Walk.Step) :
    let all := stretchesFrom config source waiting steps
    let inspection := steps.foldl (Walk.Step.act (handlers config document source))
      (collecting policy reported store waiting)
    inspection.ranges = reported ++ reportedBy source policy all ∧
      inspection.store =
        all.foldl (fun store stretch => store.record document.key (stretch.entry? source))
          store := by
  induction steps generalizing policy reported store waiting with
  | nil => exact ⟨(List.append_nil reported).symm, rfl⟩
  | cons step steps ih =>
    cases step with
    | enter node =>
      rw [List.foldl_cons, act_enter]
      exact ih ..
    | leave node =>
      by_cases hkind : node.kind = .document
      · rw [List.foldl_cons, act_leave_document hkind, stretchesFrom, if_pos hkind]
        obtain ⟨hranges, hstore⟩ := ih .trailingRun
          (reported ++ Stretch.ranges policy source ⟨waiting, node⟩)
          (store.record document.key (Stretch.entry? source ⟨waiting, node⟩)) []
        refine ⟨?_, hstore⟩
        rw [hranges, reportedBy_trailingRun, reportedBy, List.append_assoc]
      · rw [List.foldl_cons, act_leave_of_ne hkind, stretchesFrom, if_neg hkind]
        exact ih ..

end Walk

/-! ## The result -/

theorem filterMap_entry? (source : List Char) (all : List Stretch) :
    all.filterMap (Stretch.entry? source) =
      (all.filter Stretch.declares).map (Stretch.expectations source) := by
  rw [← List.filterMap_eq_map, List.filterMap_filter]
  rfl

theorem expectedRules_append (found later : List Occurrence) :
    expectedRules (found ++ later) = expectedRules found ++ expectedRules later := by
  rw [expectedRules, List.filter_append, List.flatMap_append]
  rfl

/-- A stretch declares no rule exactly if it has no expect-error directive. -/
theorem Stretch.expectedRules_eq_nil_iff {stretch : Stretch} :
    expectedRules stretch.found = [] ↔ stretch.declares = false := by
  rw [← map_rule_boundExpectations [] 0, List.map_eq_nil_iff, boundExpectations_eq_nil_iff]
  simp [declares]

/-- All rules are declared by the stretches with an expect-error directive. -/
theorem flatMap_expectedRules (all : List Stretch) :
    (all.filter Stretch.declares).flatMap (expectedRules ·.found) =
      expectedRules (all.flatMap Stretch.found) := by
  induction all with
  | nil => rfl
  | cons stretch later ih =>
    rw [List.flatMap_cons, expectedRules_append, ← ih]
    cases hdeclares : stretch.declares with
    | true => rw [List.filter_cons_of_pos hdeclares, List.flatMap_cons]
    | false =>
      rw [List.filter_cons_of_neg (by simp [hdeclares]),
        Stretch.expectedRules_eq_nil_iff.2 hdeclares, List.nil_append]

/-- The last stretch with an expect-error directive declares every rule exactly if it is the only
one. -/
theorem expectedRules_last_iff {all : List Stretch} {last : Stretch}
    (hlast : (all.filter Stretch.declares).getLast? = some last) :
    expectedRules last.found = expectedRules (all.flatMap Stretch.found) ↔
      all.filter Stretch.declares = [last] := by
  obtain ⟨front, hfront⟩ := List.getLast?_eq_some_iff.1 hlast
  have hdeclares : ∀ stretch ∈ front, stretch.declares = true := fun stretch hstretch =>
    (List.mem_filter.1 (hfront ▸ List.mem_append_left [last] hstretch)).2
  rw [← flatMap_expectedRules, hfront, List.flatMap_append, List.flatMap_cons, List.flatMap_nil,
    List.append_nil, List.self_eq_append_left, List.append_left_eq_self]
  cases front with
  | nil => simp
  | cons stretch front =>
    have hsome : expectedRules stretch.found ≠ [] := by
      rw [Ne, Stretch.expectedRules_eq_nil_iff, hdeclares stretch List.mem_cons_self]
      exact Bool.noConfusion
    simp [hsome]

/-- Under the default policy nothing changes after the first stretch, and without a bare enable
directive the policy has no say. -/
theorem reportedBy_eq_flatMap {policy : BareEnable} {stretch : Stretch} {later : List Stretch}
    (source : List Char)
    (h : policy = .trailingRun ∨ ∀ stretch ∈ later, ∀ operation ∈ operations stretch.found,
      operation.isBareEnable = false) :
    reportedBy source policy (stretch :: later) =
      (stretch :: later).flatMap (Stretch.ranges policy source) := by
  rcases h with rfl | hbare
  · exact reportedBy_trailingRun source _
  · have hsame : later.flatMap (Stretch.ranges .trailingRun source) =
        later.flatMap (Stretch.ranges policy source) := by
      refine List.flatMap_congr fun other hother => ?_
      have hrecords :=
        Tracker.performAll_withPolicy policy (hbare other hother) ⟨.trailingRun, []⟩
      have hfinish := congrArg (Tracker.finish (documentStop source other.node)) hrecords
      exact hfinish.symm
    rw [reportedBy, hsame, List.flatMap_cons]

/-- The walk of a document falls into stretches, each of which ends where a document node is left,
the last one with the root; a document that holds no further document is one stretch.  The entry of
the document becomes what the last stretch with an expect-error directive declares, and no other
entry changes.  It has an expectation for every rule that the document declares exactly if no other
stretch has an expect-error directive.  The ranges are those of the stretches, one after the other:
the first one follows the policy of the configuration, and every later one the default policy.  That
makes no difference if no bare enable directive follows the first stretch, or if the policy of the
configuration is the default. -/
theorem last_declaring_stretch_is_stored {root : Node} (hroot : root.kind = .document)
    (config : Config) (document : Document) (store : Store) :
    let source := document.text.toList
    let found := occurrences config source root
    let all := stretches config source root
    let declaring := all.filter Stretch.declares
    let inspection := inspect config document store root
    all.flatMap Stretch.found = found ∧
      (∃ earlier last, all = earlier ++ [⟨last, root⟩]) ∧
      (root.IsSoleDocument → all = [⟨found, root⟩]) ∧
      (∀ key, inspection.store.stored? key =
        if key = document.key then
          (declaring.getLast?.map (Stretch.expectations source)).or (store.stored? document.key)
        else store.stored? key) ∧
      (∀ last, declaring.getLast? = some last →
        ((last.expectations source).map Expectation.rule = expectedRules found ↔
          declaring = [last])) ∧
      ∀ first later, all = first :: later →
        inspection.ranges = first.ranges config.bareEnable source ++
            later.flatMap (Stretch.ranges .trailingRun source) ∧
          ((config.bareEnable = .trailingRun ∨
              ∀ stretch ∈ later, ∀ operation ∈ operations stretch.found,
                operation.isBareEnable = false) →
            inspection.ranges = all.flatMap (Stretch.ranges config.bareEnable source)) := by
  intro source found all declaring inspection
  obtain ⟨hfound, hends⟩ : all.flatMap Stretch.found = found ∧ _ := found_stretches hroot
  have hinspection : inspection = (Walk.tour root).foldl
      (Walk.Step.act (handlers config document source))
        (collecting config.bareEnable [] store []) := Walk.run_eq_foldl_tour _ _ root
  obtain ⟨hranges, hstore⟩ :=
    foldl_act config document source config.bareEnable [] store [] (Walk.tour root)
  rw [← hinspection] at hranges hstore
  rw [List.nil_append] at hranges
  refine ⟨hfound, hends, stretches_of_isSoleDocument, ?_, ?_, ?_⟩
  · intro key
    rw [hstore, Store.stored?_foldl_record, filterMap_entry?, List.getLast?_map]
    rfl
  · intro last hlast
    rw [Stretch.expectations, map_rule_boundExpectations, ← hfound]
    exact expectedRules_last_iff hlast
  · intro first later hcut
    have hcut' : stretchesFrom config source [] (Walk.tour root) = first :: later := hcut
    rw [hranges, hcut']
    refine ⟨rfl, fun h => ?_⟩
    rw [hcut]
    exact reportedBy_eq_flatMap source h

/-- Two paragraphs with an expected error each.  Before the second one two rules are disabled, and
an enable directive without rules comes after it. -/
def twoExpectations : Document :=
  ⟨none, "# textlint-expect-error ruleA\nfirst\n# textlint-expect-error ruleB\n" ++
    "# textlint-disable ruleC\n# textlint-disable ruleD\nsecond\n# textlint-enable\nthird\n"⟩

/-- The first paragraph of `twoExpectations` is a document of its own. -/
def twoDocumentsRoot : Node :=
  ⟨.document, ⟨0, 147⟩, none,
    [⟨.document, ⟨0, 36⟩, none,
        [⟨.comment, ⟨0, 29⟩, some " textlint-expect-error ruleA", []⟩,
          ⟨.str, ⟨30, 35⟩, some "first", []⟩]⟩,
      ⟨.comment, ⟨36, 65⟩, some " textlint-expect-error ruleB", []⟩,
      ⟨.comment, ⟨66, 90⟩, some " textlint-disable ruleC", []⟩,
      ⟨.comment, ⟨91, 115⟩, some " textlint-disable ruleD", []⟩,
      ⟨.str, ⟨116, 122⟩, some "second", []⟩,
      ⟨.comment, ⟨123, 140⟩, some " textlint-enable", []⟩,
      ⟨.str, ⟨141, 146⟩, some "third", []⟩]⟩

/-- The expectation of the inner document is replaced by that of the outer one.  Behind the inner
document the policy of the configuration is forgotten: under it the bare enable directive closes
both ranges, but the first one stays open to the end of the document. -/
theorem twoDocumentsRoot_loses_expectation :
    let config : Config := { bareEnable := .all }
    let source := twoExpectations.text.toList
    let found := occurrences config source twoDocumentsRoot
    let inspection := inspect config twoExpectations .empty twoDocumentsRoot
    twoDocumentsRoot.kind = .document ∧
      expectedRules found = [some "ruleA", some "ruleB"] ∧
      inspection.store.stored? twoExpectations.key = some [⟨⟨116, 122⟩, some "ruleB"⟩] ∧
      (Tracker.performAll ⟨config.bareEnable, []⟩ (operations found)).finish
          (documentStop source twoDocumentsRoot) =
        [⟨⟨66, 123⟩, some "ruleC"⟩, ⟨⟨91, 123⟩, some "ruleD"⟩] ∧
      inspection.ranges = [⟨⟨66, 147⟩, some "ruleC"⟩, ⟨⟨91, 123⟩, some "ruleD"⟩] := by
  intro config source found inspection
  have hinspection : inspection = _ := Walk.run_eq_foldl_tour _ _ twoDocumentsRoot
  rw [hinspection]
  refine ⟨rfl, ?_, ?_, ?_, ?_⟩
  · decide +kernel
  · decide +kernel
  · decide +kernel
  · decide +kernel

/-- A quoted document with a disable and an enable directive, and an expected error behind it. -/
def quotingDocument : Document :=
  ⟨none, "# textlint-disable ruleA\nquoted\n# textlint-enable\n" ++
    "# textlint-expect-error ruleB\nbody\n"⟩

/-- The tree of `quotingDocument`. -/
def quotingRoot : Node :=
  ⟨.document, ⟨0, 85⟩, none,
    [⟨.document, ⟨0, 50⟩, none,
        [⟨.comment, ⟨0, 24⟩, some " textlint-disable ruleA", []⟩,
          ⟨.str, ⟨25, 31⟩, some "quoted", []⟩,
          ⟨.comment, ⟨32, 49⟩, some " textlint-enable", []⟩]⟩,
      ⟨.comment, ⟨50, 79⟩, some " textlint-expect-error ruleB", []⟩,
      ⟨.str, ⟨80, 84⟩, some "body", []⟩]⟩

theorem quotingRoot_keeps_expectation :
    quotingRoot.kind = .document ∧
      (inspect .default quotingDocument .empty quotingRoot).store.stored? quotingDocument.key =
        some [⟨⟨80, 84⟩, some "ruleB"⟩] ∧
      (inspect .default quotingDocument .empty quotingRoot).ranges = [⟨⟨0, 32⟩, some "ruleA"⟩] := by
  have hroot : quotingRoot.kind = .document := rfl
  obtain ⟨-, ⟨earlier, last, hall⟩, -, hstored, -, hranges⟩ :=
    last_declaring_stretch_is_stored hroot .default quotingDocument .empty
  refine ⟨hroot, ?_, ?_⟩
  · rw [hstored, if_pos rfl]
    decide +kernel
  · cases hcut : stretches .default quotingDocument.text.toList quotingRoot with
    | nil => simp [hall] at hcut
    | cons first later =>
      rw [(hranges first later hcut).2 (.inl rfl)]
      decide +kernel

end LintDirectives.Inspection
