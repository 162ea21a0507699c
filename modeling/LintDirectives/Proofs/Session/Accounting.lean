import LintDirectives.Proofs.Expectation.Matching
import LintDirectives.Proofs.Inspection.Reading
import LintDirectives.Proofs.Suppression.Apply
import LintDirectives.Session

/-!
# Where the diagnostics of a document go

A session drops the suppressed diagnostics of a document and lets its expectations
consume some of the others.  This module accounts for every diagnostic that goes in.

There are three groups.

* The account.  `IsAccount` says of a list of kept positions and a pairing with
  the expectations why each position is kept or missing.
* The seams.  `applyTree_fst` says that the check sees the expectations that the
  walk has stored, and only the diagnostics that are not suppressed.
* The result.  `processWith_accounts_for_diagnostics` puts them together.
-/

namespace LintDirectives.Session

open Expectation Inspection SuppressedRange

/-! ## The account -/

/-- Why the diagnostics at `kept` are kept and the others are not, when `ranges` suppress
some of them and `expectations` consume those that they are `paired` with. -/
structure IsAccount (index : LineIndex) (ranges : List SuppressedRange)
    (expectations : List Expectation) (diagnostics : List Diagnostic)
    (kept : List (Fin diagnostics.length))
    (paired : Fin expectations.length → Option (Fin diagnostics.length)) : Prop where
  /-- The kept positions are in order, and none of them is repeated. -/
  in_order : kept.Pairwise (· < ·)
  /-- A diagnostic is missing for one of two reasons, which exclude each other. -/
  missing_iff : ∀ p, p ∉ kept ↔
    Suppressed ranges index (diagnostics.get p) ∨
      ¬ Suppressed ranges index (diagnostics.get p) ∧ ∃! i, paired i = some p
  /-- No diagnostic is consumed twice. -/
  injective : ∀ {i j p}, paired i = some p → paired j = some p → i = j
  /-- No suppressed diagnostic is consumed. -/
  not_suppressed : ∀ {i p}, paired i = some p → ¬ Suppressed ranges index (diagnostics.get p)
  acceptable : ∀ {i p}, paired i = some p →
    Acceptable index (expectations.get i) (diagnostics.get p)
  /-- What is kept is of no use to an expectation that is not met. -/
  maximal : ∀ {i p}, paired i = none → p ∈ kept →
    ¬ Acceptable index (expectations.get i) (diagnostics.get p)
  /-- A diagnostic without a place in the document is kept. -/
  unpositioned : ∀ p, (diagnostics.get p).offset? index = none → p ∈ kept

section Account

variable (index : LineIndex) (ranges : List SuppressedRange) {diagnostics : List Diagnostic}
  {expectations : List Expectation}

/-- The positions of the diagnostics that are not suppressed. -/
def unsuppressed (diagnostics : List Diagnostic) : List (Fin diagnostics.length) :=
  (List.finRange diagnostics.length).filter fun p => keeps ranges index (diagnostics.get p)

theorem mem_unsuppressed {p : Fin diagnostics.length} :
    p ∈ unsuppressed index ranges diagnostics ↔ ¬ Suppressed ranges index (diagnostics.get p) := by
  simp [unsuppressed, keeps_iff]

theorem pairwise_unsuppressed : (unsuppressed index ranges diagnostics).Pairwise (· < ·) :=
  (List.pairwise_lt_finRange _).filter _

theorem map_unsuppressed :
    (unsuppressed index ranges diagnostics).map diagnostics.get =
      SuppressedRange.apply ranges index diagnostics := by
  rw [unsuppressed, SuppressedRange.apply]
  calc ((List.finRange diagnostics.length).filter
        fun p => keeps ranges index (diagnostics.get p)).map diagnostics.get
      = ((List.finRange diagnostics.length).map diagnostics.get).filter (keeps ranges index) := by
        rw [List.filter_map, Function.comp_def]
    _ = diagnostics.filter (keeps ranges index) := by rw [List.map_get_finRange]

variable {index ranges}

/-- Taking first fit among the diagnostics that are not suppressed, the kept ones are those
of them that no expectation consumes. -/
theorem isAccount_of_isFirstFit
    {paired : Fin expectations.length → Option (Fin diagnostics.length)}
    (h : IsFirstFit index diagnostics expectations (unsuppressed index ranges diagnostics) paired) :
    IsAccount index ranges expectations diagnostics
      ((unsuppressed index ranges diagnostics).filter fun p => ∀ i, paired i ≠ some p) paired := by
  have hkept : ∀ p, p ∈ ((unsuppressed index ranges diagnostics).filter
        fun p => ∀ i, paired i ≠ some p) ↔
      ¬ Suppressed ranges index (diagnostics.get p) ∧ ∀ i, paired i ≠ some p := by
    intro p
    rw [List.mem_filter, mem_unsuppressed, decide_eq_true_eq]
  have hfree : ∀ {i p}, paired i = some p → ¬ Suppressed ranges index (diagnostics.get p) :=
    fun hi => (mem_unsuppressed index ranges).1 (h.mem_free hi)
  refine ⟨(pairwise_unsuppressed index ranges).filter _, fun p => ?_, h.injective, hfree,
    h.acceptable, fun hnone hp => ?_, fun p hp => ?_⟩
  · rw [hkept]
    constructor
    · intro hmissing
      by_cases hsuppressed : Suppressed ranges index (diagnostics.get p)
      · exact .inl hsuppressed
      · obtain ⟨i, hi⟩ : ∃ i, paired i = some p := by
          by_contra hnone
          exact hmissing ⟨hsuppressed, fun i hi => hnone ⟨i, hi⟩⟩
        exact .inr ⟨hsuppressed, i, hi, fun j hj => h.injective hj hi⟩
    · rintro (hsuppressed | ⟨-, i, hi, -⟩) ⟨hnot, hleft⟩
      · exact hnot hsuppressed
      · exact hleft i hi
  · obtain ⟨hp, hleft⟩ := (hkept _).1 hp
    exact h.maximal hnone ((mem_unsuppressed index ranges).2 hp) hleft
  · have hnot : ¬ Suppressed ranges index (diagnostics.get p) :=
      not_suppressed_of_offset?_eq_none hp
    refine (hkept p).2 ⟨hnot, fun i hi => ?_⟩
    obtain ⟨offset, hoffset, -⟩ := h.acceptable hi
    exact absurd (hp.symm.trans hoffset) (by simp)

end Account

/-! ## The seams -/

section Seams

variable {session : Session} {document : Document} {root : Node}

/-- What the walk declares is what the check takes out of the store. -/
theorem get_store_inspect (hroot : root.IsSoleDocument)
    (hstore : session.store.stored? document.key = none) :
    (session.inspect document root).2.store.get document.key =
      recordedExpectations session.config document root := by
  rw [Session.inspect, inspect_eq hroot]
  simp only [Store.get_eq]
  split
  · next hempty => rw [hstore, List.isEmpty_iff.1 hempty, Option.getD_none]
  · rw [Store.stored?_insert, if_pos rfl, Option.getD_some]

theorem applyTree_fst (hroot : root.IsSoleDocument)
    (hstore : session.store.stored? document.key = none) (diagnostics : List Diagnostic) :
    (session.applyTree document root diagnostics).1 =
      Expectation.verify document.text (recordedExpectations session.config document root)
        (SuppressedRange.apply (reportedRanges session.config document root)
          (.ofText document.text) diagnostics) := by
  have hranges : (session.inspect document root).1.ranges =
      reportedRanges session.config document root := by
    rw [Session.inspect, inspect_eq hroot]
  rw [← get_store_inspect hroot hstore, ← hranges]
  rfl

end Seams

/-! ## The result -/

/-- What a session reports for a document are the kept diagnostics, unchanged and in order,
and then one diagnostic for each expectation that is not met.  Every other diagnostic is
either suppressed or consumed by one expectation. -/
theorem processWith_accounts_for_diagnostics {session : Session} {parse : Parser}
    {document : Document} {root : Node} (hparse : parse document.text = .ok root)
    (hroot : root.IsSoleDocument) (hstore : session.store.stored? document.key = none)
    (diagnostics : List Diagnostic) :
    let index := LineIndex.ofText document.text
    let ranges := reportedRanges session.config document root
    let expectations := recordedExpectations session.config document root
    ∃ kept paired after,
      session.processWith parse document diagnostics =
        .ok (kept.map diagnostics.get ++
          (unmet paired).map (unmetDiagnostic index), after) ∧
      IsAccount index ranges expectations diagnostics kept paired := by
  intro index ranges expectations
  let free := unsuppressed index ranges diagnostics
  have hfree : free.Pairwise (· < ·) := pairwise_unsuppressed index ranges
  let paired := firstFit index diagnostics expectations free
  have hpaired : IsFirstFit index diagnostics expectations free paired :=
    isFirstFit_firstFit index hfree
  refine ⟨_, paired, (session.applyTree document root diagnostics).2, ?_,
    isAccount_of_isFirstFit hpaired⟩
  have hreported := applyTree_fst hroot hstore diagnostics
  rw [← map_unsuppressed, verify_eq_survivors _ hfree.nodup] at hreported
  rw [processWith, hparse]
  exact congrArg Except.ok (Prod.ext hreported rfl)

/-- Diagnostics of `commentedDocument`: two where their rules are disabled, one that is expected,
one of a rule that no directive names, and one without a place. -/
def reportedDiagnostics : List Diagnostic :=
  [{ rule := "ruleA", index := some 26 }, { rule := "ruleB", index := some 100 },
    { rule := "ruleD", index := some 100 }, { rule := "ruleC", index := some 100 },
    { rule := "ruleA" }]

/-- The diagnostic of the rule without a directive and the one without a place are left.  No error
of the second expected rule is found. -/
theorem processWith_accounts_for_reportedDiagnostics :
    let session : Session := {}
    let parse : Parser := fun _ => .ok commentedRoot
    let index := LineIndex.ofText commentedDocument.text
    let ranges := reportedRanges session.config commentedDocument commentedRoot
    let expectations := recordedExpectations session.config commentedDocument commentedRoot
    parse commentedDocument.text = .ok commentedRoot ∧ commentedRoot.IsSoleDocument ∧
      session.store.stored? commentedDocument.key = none ∧
      ∃ kept paired after,
        session.processWith parse commentedDocument reportedDiagnostics =
          .ok (kept.map reportedDiagnostics.get ++
            (unmet paired).map (unmetDiagnostic index), after) ∧
        IsAccount index ranges expectations reportedDiagnostics kept paired ∧
        kept.map reportedDiagnostics.get ++ (unmet paired).map (unmetDiagnostic index) =
          [{ rule := "ruleD", index := some 100 }, { rule := "ruleA" },
            unmetDiagnostic index ⟨⟨99, 105⟩, some "ruleE"⟩] := by
  intro session parse index ranges expectations
  have hparse : parse commentedDocument.text = .ok commentedRoot := rfl
  have hroot : commentedRoot.IsSoleDocument := ⟨rfl, by decide⟩
  have hstore : session.store.stored? commentedDocument.key = none := rfl
  obtain ⟨kept, paired, after, hprocessed, haccount⟩ :=
    processWith_accounts_for_diagnostics hparse hroot hstore reportedDiagnostics
  refine ⟨hparse, hroot, hstore, kept, paired, after, hprocessed, haccount, ?_⟩
  have hranges : ranges = [⟨⟨0, 31⟩, some "ruleA"⟩, ⟨⟨99, 106⟩, some "ruleC"⟩] := by
    decide +kernel
  have hexpectations :
      expectations = [⟨⟨99, 105⟩, some "ruleB"⟩, ⟨⟨99, 105⟩, some "ruleE"⟩] := by
    decide +kernel
  have hreported : (session.applyTree commentedDocument commentedRoot reportedDiagnostics).1 =
      Expectation.verify commentedDocument.text expectations
        (SuppressedRange.apply ranges index reportedDiagnostics) := applyTree_fst hroot hstore _
  have happlied : session.applyTree commentedDocument commentedRoot reportedDiagnostics = _ :=
    Except.ok.inj hprocessed
  rw [happlied, hranges, hexpectations] at hreported
  exact hreported.trans rfl

end LintDirectives.Session
