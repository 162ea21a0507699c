import LintDirectives.Proofs.Expectation.Fewer
import LintDirectives.Proofs.Inspection.Storing
import LintDirectives.Session

/-!
# The two phases of a document

A session inspects a document and checks its diagnostics afterwards.  What the
first phase stores waits in the store for the second one.

There are two groups.

* One document.  `verify_inspect` says what a check that follows an inspection
  answers, and that the store then has forgotten the document.
* Left-overs.  The store may hold what an earlier inspection of the document
  has left and nobody has checked.  `check_ignores_left_overs_iff` says when
  the answer is the one that an empty store would have led to.
-/

namespace LintDirectives.Session

open Expectation Inspection

/-! ## One document -/

theorem inspect_snd (session : Session) (document : Document) (root : Node) :
    (session.inspect document root).2 =
      { session with
        store := session.store.record document.key
          (entryOf? session.config document.text root) } := by
  rw [Session.inspect, store_inspect]

theorem verify_eq (session : Session) (document : Document) (diagnostics : List Diagnostic) :
    session.verify document diagnostics =
      (Expectation.verify document.text ((session.store.stored? document.key).getD [])
        diagnostics,
        { session with store := session.store.erase document.key }) :=
  rfl

/-- A check sees what the inspection before it has stored; where that stored nothing, it sees
what was there before. -/
theorem verify_inspect (session : Session) (document : Document) (root : Node)
    (diagnostics : List Diagnostic) :
    (session.inspect document root).2.verify document diagnostics =
      (Expectation.verify document.text
        (((entryOf? session.config document.text root).or
          (session.store.stored? document.key)).getD []) diagnostics,
        { session with store := session.store.erase document.key }) := by
  rw [inspect_snd, verify_eq]
  simp only [Store.stored?_record, Store.erase_record, if_true]

/-- Where nothing is stored, a check sees what the inspection before it has found, and nothing
is stored after it. -/
theorem verify_inspect_of_empty (config : Config) (document : Document) (root : Node)
    (diagnostics : List Diagnostic) :
    (({ config := config } : Session).inspect document root).2.verify document diagnostics =
      (Expectation.verify document.text ((entryOf? config document.text root).getD [])
        diagnostics,
        { config := config }) := by
  have hnothing : (Store.empty.stored? document.key) = none := rfl
  rw [verify_inspect, hnothing, Option.or_none, Store.erase_eq_self hnothing]

/-! ## Left-overs -/

/-- What a check answers that follows an inspection of the document in `store`. -/
def checked (config : Config) (store : Store) (document : Document) (root : Node)
    (diagnostics : List Diagnostic) : List Diagnostic :=
  let session : Session := { config := config, store := store }
  ((session.inspect document root).2.verify document diagnostics).1

section LeftOvers

variable {root : Node} (hroot : root.IsSoleDocument) (config : Config) (document : Document)
  (store : Store)

include hroot

theorem checked_of_declared (hdeclared : recordedExpectations config document root ≠ [])
    (diagnostics : List Diagnostic) :
    checked config store document root diagnostics =
      Expectation.verify document.text (recordedExpectations config document root)
        diagnostics := by
  rw [checked, verify_inspect, entryOf?_eq hroot, if_neg hdeclared]
  rfl

theorem checked_of_not_declared (hnone : recordedExpectations config document root = [])
    (diagnostics : List Diagnostic) :
    checked config store document root diagnostics =
      Expectation.verify document.text (store.get document.key) diagnostics := by
  rw [checked, verify_inspect, entryOf?_eq hroot, if_pos hnone]
  rfl

end LeftOvers

/-- Expectations without diagnostics are all reported. -/
theorem verify_nil (text : String) (expectations : List Expectation) :
    Expectation.verify text expectations [] =
      expectations.map (unmetDiagnostic (.ofText text)) := by
  rw [Expectation.verify, settle_nil]
  rfl

/-- What an earlier inspection has left for a document does not matter exactly when the
document declares an expectation itself, or nothing was left.  A document that declares none
is checked against what was left. -/
theorem check_ignores_left_overs_iff {root : Node} (hroot : root.IsSoleDocument)
    (config : Config) (document : Document) (store : Store) :
    let found := occurrences config document.text.toList root
    ((∀ diagnostics, checked config store document root diagnostics =
        checked config .empty document root diagnostics) ↔
      (∃ occurrence ∈ found, occurrence.directive.kind = .expectError) ∨
        store.get document.key = []) ∧
      ((∀ occurrence ∈ found, occurrence.directive.kind ≠ .expectError) →
        ∀ diagnostics, checked config store document root diagnostics =
          Expectation.verify document.text (store.get document.key) diagnostics) := by
  intro found
  have hnone : recordedExpectations config document root = [] ↔
      ∀ occurrence ∈ found, occurrence.directive.kind ≠ .expectError :=
    boundExpectations_eq_nil_iff
  refine ⟨?_, fun h => checked_of_not_declared hroot config document store (hnone.2 h)⟩
  by_cases hdeclared : recordedExpectations config document root = []
  · have hsilent : ¬ ∃ occurrence ∈ found, occurrence.directive.kind = .expectError :=
      fun ⟨occurrence, hmem, hkind⟩ => hnone.1 hdeclared occurrence hmem hkind
    simp only [hsilent, false_or, checked_of_not_declared hroot config document _ hdeclared]
    constructor
    · intro hsame
      have hreports := hsame []
      rw [verify_nil, verify_nil] at hreports
      exact List.map_eq_nil_iff.1 hreports
    · intro hempty diagnostics
      rw [hempty]
      rfl
  · have hexists : ∃ occurrence ∈ found, occurrence.directive.kind = .expectError := by
      by_contra hsilent
      exact hdeclared (hnone.2 fun occurrence hmem hkind => hsilent ⟨occurrence, hmem, hkind⟩)
    simp only [hexists, true_or, checked_of_declared hroot config document _ hdeclared,
      implies_true]

/-- A text that expects an error when its markup is read, and declares nothing as plain text. -/
def markedDocument : Document :=
  ⟨none, "<!-- textlint-expect-error -->\n\nText."⟩

/-- `markedDocument` as Markdown. -/
def markdownRoot : Node :=
  ⟨.document, ⟨0, 37⟩, none,
    [⟨.html, ⟨0, 30⟩, some "<!-- textlint-expect-error -->", []⟩,
      ⟨.paragraph, ⟨32, 37⟩, none, [⟨.str, ⟨32, 37⟩, some "Text.", []⟩]⟩]⟩

/-- `markedDocument` as plain text. -/
def plainRoot : Node :=
  ⟨.document, ⟨0, 37⟩, none,
    [⟨.paragraph, ⟨0, 30⟩, none, [⟨.str, ⟨0, 30⟩, some "<!-- textlint-expect-error -->", []⟩]⟩,
      ⟨.paragraph, ⟨32, 37⟩, none, [⟨.str, ⟨32, 37⟩, some "Text.", []⟩]⟩]⟩

/-- What an inspection of `markedDocument` as Markdown leaves when no check follows it. -/
def leftStore : Store :=
  (({} : Session).inspect markedDocument markdownRoot).2.store

theorem isSoleDocument_plainRoot : plainRoot.IsSoleDocument :=
  ⟨rfl, by decide⟩

theorem get_leftStore : leftStore.get markedDocument.key = [⟨⟨32, 37⟩, none⟩] := by
  have hroot : markdownRoot.IsSoleDocument := ⟨rfl, by decide⟩
  have hdeclared : recordedExpectations .default markedDocument markdownRoot =
      [⟨⟨32, 37⟩, none⟩] := by decide +kernel
  rw [leftStore, inspect_snd, entryOf?_eq hroot, Store.get_eq]
  simp only [hdeclared, Store.stored?_record]
  rfl

theorem check_sees_left_over :
    plainRoot.IsSoleDocument ∧
      (∀ occurrence ∈ occurrences .default markedDocument.text.toList plainRoot,
        occurrence.directive.kind ≠ .expectError) ∧
      ∀ diagnostics, checked .default leftStore markedDocument plainRoot diagnostics =
        Expectation.verify markedDocument.text [⟨⟨32, 37⟩, none⟩] diagnostics := by
  have hsilent : ∀ occurrence ∈ occurrences .default markedDocument.text.toList plainRoot,
      occurrence.directive.kind ≠ .expectError := by decide +kernel
  refine ⟨isSoleDocument_plainRoot, hsilent, fun diagnostics => ?_⟩
  obtain ⟨-, hchecked⟩ :=
    check_ignores_left_overs_iff isSoleDocument_plainRoot .default markedDocument leftStore
  rw [hchecked hsilent, get_leftStore]

/-- A document that is inspected as Markdown, not checked, and then inspected and checked as
plain text is reported for an expectation that only its Markdown declares. -/
theorem check_differs_after_left_over :
    plainRoot.IsSoleDocument ∧
      checked .default leftStore markedDocument plainRoot [] ≠
        checked .default .empty markedDocument plainRoot [] := by
  have hnone : recordedExpectations .default markedDocument plainRoot = [] := by decide +kernel
  refine ⟨isSoleDocument_plainRoot, fun hsame => ?_⟩
  rw [checked_of_not_declared isSoleDocument_plainRoot _ _ _ hnone,
    checked_of_not_declared isSoleDocument_plainRoot _ _ _ hnone, get_leftStore, verify_nil]
    at hsame
  exact List.cons_ne_nil _ _ hsame

end LintDirectives.Session
