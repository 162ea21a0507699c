import LintDirectives.Proofs.Inspection.Reading

/-!
# What an inspection stores

The walk over a document writes into the store it is given, and never reads
it.  So an inspection in any store, of a tree of any shape, is an inspection
of the text alone, and what that one stores is recorded under the key of the
document.

There are three groups.

* The text alone.  `reportsOf` and `entryOf?` are what an inspection of a text
  reports and stores where there is no path and nothing is stored.
* The translation.  `translates_placed` says that putting what is stored for
  the text under the key of a document fits all handlers of the walk.
* The inspection.  `ranges_inspect` and `store_inspect` are the result, and
  `entryOf?_eq` says what is stored for a document that holds no further
  document.
-/

namespace LintDirectives.Inspection

open Expectation

/-! ## The text alone -/

/-- A text that has no path. -/
def pathless (text : String) : Document :=
  ⟨none, text⟩

/-- The ranges that an inspection of a text reports. -/
def reportsOf (config : Config) (text : String) (root : Node) : List SuppressedRange :=
  (inspect config (pathless text) .empty root).ranges

/-- The expectations that an inspection of a text stores; `none` when it stores nothing. -/
def entryOf? (config : Config) (text : String) (root : Node) : Option (List Expectation) :=
  (inspect config (pathless text) .empty root).store.stored? (pathless text).key

/-! ## The translation -/

/-- The state of a walk over a text as the state of a walk over a document with that text,
which writes into `store`. -/
def placed (document : Document) (store : Store) (inspection : Inspection) : Inspection :=
  { inspection with
    store := store.record document.key (inspection.store.stored? (pathless document.text).key) }

section Placed

variable (document : Document) (store : Store)

theorem placed_take (span : Span) (inspection : Inspection) (directive : Directive) :
    placed document store (inspection.take span directive) =
      (placed document store inspection).take span directive := by
  unfold take
  cases directive.kind <;> rfl

theorem placed_foldl_take (span : Span) (directives : List Directive) (inspection : Inspection) :
    placed document store (directives.foldl (take span) inspection) =
      directives.foldl (take span) (placed document store inspection) :=
  (List.foldl_hom _ fun inspection directive =>
    (placed_take document store span inspection directive).symm).symm

/-- Leaving a document node again replaces what leaving an earlier one has stored. -/
theorem placed_finish (source : List Char) (inspection : Inspection) (node : Node) :
    placed document store (finish (pathless document.text) source inspection node) =
      finish document source (placed document store inspection) node := by
  unfold finish placed
  by_cases hnone : (inspection.pending.map
      (PendingExpectation.bind (node.expectationTargets source)
        (documentStop source node))).isEmpty = true
  · simp only [hnone, if_true]
  · simp only [hnone, Bool.false_eq_true, if_false, Store.stored?_insert, if_true, Store.record]
    cases inspection.store.stored? (pathless document.text).key with
    | none => rfl
    | some earlier => rw [Store.insert_insert]

theorem translates_placed (config : Config) (source : List Char) :
    Walk.Translates (placed document store) (handlers config (pathless document.text) source)
      (handlers config document source) := by
  refine .cons ⟨rfl, fun inspection node => ?_⟩ (.cons ⟨rfl, fun inspection node => ?_⟩
    (.cons ⟨rfl, fun inspection node => ?_⟩ .nil))
  · exact placed_foldl_take document store node.span _ inspection
  · exact placed_foldl_take document store node.span _ inspection
  · exact placed_finish document store source inspection node

end Placed

/-! ## The inspection -/

theorem inspect_eq_placed (config : Config) (document : Document) (store : Store) (root : Node) :
    inspect config document store root =
      placed document store (inspect config (pathless document.text) .empty root) := by
  -- Nothing is stored for the text when the walk starts, so `start` is placed into `store` itself.
  let start : Inspection := { tracker := { policy := config.bareEnable }, store := .empty }
  have hwalk := Walk.run_map (translates_placed document store config document.text.toList)
    start root
  exact hwalk.symm

/-- What is reported depends on the text alone. -/
theorem ranges_inspect (config : Config) (document : Document) (store : Store) (root : Node) :
    (inspect config document store root).ranges = reportsOf config document.text root := by
  rw [inspect_eq_placed, placed, reportsOf]

/-- At most the entry of the document is written, and it depends on the text alone. -/
theorem store_inspect (config : Config) (document : Document) (store : Store) (root : Node) :
    (inspect config document store root).store =
      store.record document.key (entryOf? config document.text root) := by
  rw [inspect_eq_placed, placed, entryOf?]

/-- A document stores the expectations that it declares, and nothing when it declares none. -/
theorem entryOf?_eq {root : Node} (hroot : root.IsSoleDocument) (config : Config)
    (document : Document) :
    entryOf? config document.text root =
      if recordedExpectations config document root = [] then none
      else some (recordedExpectations config document root) := by
  have hsame : recordedExpectations config (pathless document.text) root =
      recordedExpectations config document root := rfl
  rw [entryOf?, inspect_eq hroot, hsame]
  simp only [List.isEmpty_iff]
  split
  · rfl
  · rw [Store.stored?_insert, if_pos rfl]

end LintDirectives.Inspection
