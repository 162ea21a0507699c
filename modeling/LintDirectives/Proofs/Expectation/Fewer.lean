import LintDirectives.Proofs.Expectation.Matching
import LintDirectives.Suppression.Apply

/-!
# Checking fewer diagnostics

Every expectation of a document takes what it needs from one list, so a
diagnostic that is missing may change what all later ones get.  Still nothing
is met by fewer diagnostics that is not met by all of them, and no diagnostic
is worth more than one expectation.

There are three groups.

* First fit from fewer.  What is free after serving requests from fewer
  positions is free after serving them from all, and a request that gets
  nothing from all gets nothing from fewer.
* The unmet expectations.  `unmetAt` lists their positions, `settle_eq_unmetAt`
  ties them to the check, and `length_unmetAt_add` counts them by the
  diagnostics that are left.
* The result.  `fewer_diagnostics_meet_no_more` compares the checks of a list
  and of what is left when some diagnostics have been dropped from it.
-/

namespace LintDirectives.Expectation

/-! ## First fit from fewer -/

section FirstFit

variable {κ ι : Type} {fits : κ → ι → Bool} {fewer free : List ι}

/-- What is taken away from fewer positions leaves fewer. -/
theorem remaining_sublist (h : fewer.Sublist free) (requests : List κ) :
    (remaining fits fewer requests).Sublist (remaining fits free requests) := by
  induction requests generalizing fewer free with
  | nil => exact h
  | cons request requests ih => exact ih (List.Sublist.eraseP h)

/-- A request that gets nothing from all positions gets nothing from fewer. -/
theorem assign_eq_none_of_sublist [DecidableEq κ] (h : fewer.Sublist free) {requests : List κ}
    {k : κ} (hnone : assign fits free requests k = none) :
    assign fits fewer requests k = none := by
  induction requests generalizing fewer free with
  | nil => rfl
  | cons request requests ih =>
    by_cases hk : k = request
    · subst hk
      rw [assign_head, List.find?_eq_none] at hnone ⊢
      exact fun p hp => hnone p (h.subset hp)
    · rw [assign_of_ne hk] at hnone ⊢
      exact ih (List.Sublist.eraseP h) hnone

end FirstFit

/-! ## The unmet expectations -/

section Unmet

variable (index : LineIndex) (expectations : List Expectation)

/-- An expectation, by its position, asks for a diagnostic. -/
def asks : Fin expectations.length → Diagnostic → Bool :=
  fitsAt index expectations.get id

/-- What an expectation gets of `diagnostics` when the expectations are served in order and
each takes the first one left for it. -/
def given (diagnostics : List Diagnostic) : Fin expectations.length → Option Diagnostic :=
  assign (asks index expectations) diagnostics (List.finRange expectations.length)

/-- The positions of the expectations that get none of `diagnostics`, in order. -/
def unmetAt (diagnostics : List Diagnostic) : List (Fin expectations.length) :=
  (List.finRange expectations.length).filter fun i =>
    (given index expectations diagnostics i).isNone

/-- The check leaves what first fit leaves, and finds unmet what gets nothing. -/
theorem settle_eq_unmetAt (diagnostics : List Diagnostic) :
    settle index diagnostics expectations =
      (remaining (asks index expectations) diagnostics (List.finRange expectations.length),
        (unmetAt index expectations diagnostics).map expectations.get) := by
  have hsettle := settle_eq index expectations.get id diagnostics
    (List.nodup_finRange expectations.length)
  rw [← asks, List.map_id, List.map_id, List.map_get_finRange] at hsettle
  exact hsettle

theorem verify_eq_unmetAt (text : String) (diagnostics : List Diagnostic) :
    verify text expectations diagnostics =
      (settle (.ofText text) diagnostics expectations).1 ++
        (unmetAt (.ofText text) expectations diagnostics).map fun i =>
          unmetDiagnostic (.ofText text) (expectations.get i) := by
  have hsplit : verify text expectations diagnostics =
      (settle (.ofText text) diagnostics expectations).1 ++
        (settle (.ofText text) diagnostics expectations).2.map
          (unmetDiagnostic (.ofText text)) := rfl
  rw [hsplit, settle_eq_unmetAt, List.map_map]
  rfl

/-- A diagnostic is left, or meets one expectation. -/
theorem length_unmetAt_add (diagnostics : List Diagnostic) :
    (unmetAt index expectations diagnostics).length + diagnostics.length =
      expectations.length + (settle index diagnostics expectations).1.length := by
  let met : Fin expectations.length → Bool := fun i =>
    (given index expectations diagnostics i).isSome
  have hleft : (remaining (asks index expectations) diagnostics
        (List.finRange expectations.length)).length +
      (List.finRange expectations.length).countP met = diagnostics.length :=
    length_remaining diagnostics (List.nodup_finRange expectations.length)
  have hnot : (fun i => decide ¬met i = true) =
      fun i => (given index expectations diagnostics i).isNone := by
    funext i
    cases h : given index expectations diagnostics i <;> simp [met, h]
  have hunmet : (unmetAt index expectations diagnostics).length =
      (List.finRange expectations.length).countP fun i =>
        (given index expectations diagnostics i).isNone :=
    List.countP_eq_length_filter.symm
  have hcount := List.length_eq_countP_add_countP met (l := List.finRange expectations.length)
  rw [List.length_finRange, hnot, ← hunmet] at hcount
  rw [settle_eq_unmetAt]
  dsimp only
  omega

/-- Without diagnostics nothing is met. -/
theorem settle_nil : settle index [] expectations = ([], expectations) := by
  induction expectations with
  | nil => rfl
  | cons expectation rest ih => rw [settle, consume?, ih]

end Unmet

/-! ## The result -/

section Fewer

variable {index : LineIndex} {expectations : List Expectation} {kept diagnostics : List Diagnostic}

theorem unmetAt_sublist (h : kept.Sublist diagnostics) :
    (unmetAt index expectations diagnostics).Sublist (unmetAt index expectations kept) := by
  refine List.monotone_filter_right _ fun i hi => ?_
  rw [Option.isNone_iff_eq_none] at hi ⊢
  exact assign_eq_none_of_sublist h hi

theorem length_unmetAt_le (h : kept.Sublist diagnostics) :
    (unmetAt index expectations kept).length ≤
      (unmetAt index expectations diagnostics).length + (diagnostics.length - kept.length) := by
  -- The expectations met are the diagnostics gone, and of fewer diagnostics fewer are left.
  have hkept := length_unmetAt_add index expectations kept
  have hall := length_unmetAt_add index expectations diagnostics
  have hleft : (settle index kept expectations).1.length ≤
      (settle index diagnostics expectations).1.length := by
    rw [settle_eq_unmetAt, settle_eq_unmetAt]
    exact (remaining_sublist h _).length_le
  have hlength := h.length_le
  omega

end Fewer

/-- With one diagnostic more, wherever it stands, no expectation that was met is unmet, and at
most one that was unmet is met.  So dropping diagnostics before a check can only add to the
expectations that are not met, at most one for each diagnostic. -/
theorem fewer_diagnostics_meet_no_more (text : String) (expectations : List Expectation) :
    let index := LineIndex.ofText text
    let unmet := unmetAt index expectations
    (∀ diagnostics, verify text expectations diagnostics =
      (settle index diagnostics expectations).1 ++
        (unmet diagnostics).map fun i => unmetDiagnostic index (expectations.get i)) ∧
    (∀ before diagnostic after,
      (unmet (before ++ diagnostic :: after)).Sublist (unmet (before ++ after)) ∧
        (unmet (before ++ after)).length ≤ (unmet (before ++ diagnostic :: after)).length + 1) ∧
    ∀ kept diagnostics, kept.Sublist diagnostics →
      (unmet diagnostics).Sublist (unmet kept) ∧
        (unmet kept).length ≤ (unmet diagnostics).length + (diagnostics.length - kept.length) := by
  intro index unmet
  refine ⟨verify_eq_unmetAt expectations text, fun before diagnostic after => ?_,
    fun kept diagnostics h => ⟨unmetAt_sublist h, length_unmetAt_le h⟩⟩
  have hdropped : (before ++ after).Sublist (before ++ diagnostic :: after) :=
    (List.sublist_cons_self diagnostic after).append_left before
  have hone : (before ++ diagnostic :: after).length - (before ++ after).length = 1 := by
    simp only [List.length_append, List.length_cons]
    omega
  exact ⟨unmetAt_sublist hdropped, hone ▸ length_unmetAt_le hdropped⟩

/-- Two expectations over one window, of which only the second one names a rule. -/
def overlappingExpectations : List Expectation :=
  [⟨⟨0, 2⟩, none⟩, ⟨⟨0, 2⟩, some "ruleB"⟩]

/-- Diagnostics that meet both of `overlappingExpectations`. -/
def twoDiagnostics : List Diagnostic :=
  [{ rule := "ruleA", index := some 0 }, { rule := "ruleB", index := some 1 }]

/-- Where the first diagnostic is suppressed, the first expectation takes the second one, and
it is the second expectation that gets nothing. -/
theorem suppression_moves_unmet_expectation :
    let index := LineIndex.ofText "ab"
    let unmet := unmetAt index overlappingExpectations
    let kept := SuppressedRange.apply [⟨⟨0, 1⟩, none⟩] index twoDiagnostics
    kept.Sublist twoDiagnostics ∧ unmet twoDiagnostics = [] ∧ unmet kept = [⟨1, by decide⟩] ∧
      (unmet twoDiagnostics).Sublist (unmet kept) ∧
      (unmet kept).length ≤
        (unmet twoDiagnostics).length + (twoDiagnostics.length - kept.length) := by
  intro index unmet kept
  have hkept : kept.Sublist twoDiagnostics := List.filter_sublist
  obtain ⟨-, -, hdropped⟩ := fewer_diagnostics_meet_no_more "ab" overlappingExpectations
  exact ⟨hkept, by decide +kernel, by decide +kernel, hdropped kept twoDiagnostics hkept⟩

end LintDirectives.Expectation
