import LintDirectives.Proofs.Expectation.Matching
import LintDirectives.Proofs.LineIndex.Conversion

/-!
# Where an unmet expectation is reported

The diagnostic for an expectation that is not met gives its place three times, in
three units.  Readers of diagnostics take one of them and leave the others.  This
module says that it does not matter which one they take, also for a window that lies
outside the text, starts inside a character or ends before it starts, and that the
diagnostic tells which rule was expected.

* `unmetMessage_injective` says that no two rules share a message, and
  `unmetDiagnostic_names_rule` what a diagnostic says besides its place.
* `IsPlacedAt` says that the place of a diagnostic is what each of its three forms is
  read as.
* `isPlacedAt_unmetDiagnostic` is this for the diagnostic of an expectation.
* `unmet_places_agree` adds which places these are, and that a check reports no other
  diagnostics of its own.
-/

namespace LintDirectives

/-- The diagnostic has an index, a range, and a line and a column.  Each of them alone puts it at
byte `start`, and its range ends at byte `stop`. -/
structure Diagnostic.IsPlacedAt (index : LineIndex) (start stop : Nat) (diagnostic : Diagnostic) :
    Prop where
  has_index : diagnostic.index.isSome
  by_index : diagnostic.offset? index = some start
  by_range : { diagnostic with index := none }.offset? index = some start
  by_line : { diagnostic with index := none, range := none }.offset? index = some start
  range_stop : ∃ first last, diagnostic.range = some (first, last) ∧
    index.byteOffset? last = some stop

namespace Expectation

open Text

/-! ## What is said -/

theorem isPrefix_toList_append (front rule back : String) :
    front.toList <+: (front ++ rule ++ back).toList := by
  rw [String.toList_append, String.toList_append, List.append_assoc]
  exact List.prefix_append _ _

/-- The message for a rule is not the one for any rule. -/
theorem unmetMessage_some_ne_none (rule : String) : unmetMessage (some rule) ≠ unmetMessage none := by
  intro heq
  have hstart : "Expected error for \"".toList <+: (unmetMessage (some rule)).toList :=
    isPrefix_toList_append _ rule _
  rw [heq] at hstart
  exact absurd hstart (by decide +kernel)

/-- The message tells which rule was expected. -/
theorem unmetMessage_injective : Function.Injective unmetMessage := by
  intro one other h
  cases one with
  | none =>
    cases other with
    | none => rfl
    | some rule => exact absurd h.symm (unmetMessage_some_ne_none rule)
  | some rule =>
    cases other with
    | none => exact absurd h (unmetMessage_some_ne_none rule)
    | some otherRule =>
      have hrules := (String.append_right_inj _).1 ((String.append_left_inj _).1 h)
      exact congrArg some hrules

/-- An expectation that is not met is reported as an error of the rule for expectations, and two
of them are reported in the same words exactly if the same rule was expected. -/
theorem unmetDiagnostic_names_rule (index otherIndex : LineIndex)
    (expectation other : Expectation) :
    (unmetDiagnostic index expectation).rule = "textlint-expect-error" ∧
      (unmetDiagnostic index expectation).severity = .error ∧
      (unmetDiagnostic index expectation).extra = [] ∧
      (∀ rule, expectation.rule = some rule →
        (unmetDiagnostic index expectation).message =
          "Expected error for \"" ++ rule ++ "\" but none found in the expected range.") ∧
      (expectation.rule = none →
        (unmetDiagnostic index expectation).message =
          "Expected at least one error but none found in the expected range.") ∧
      ((unmetDiagnostic index expectation).message = (unmetDiagnostic otherIndex other).message ↔
        expectation.rule = other.rule) := by
  have hmessage : (unmetDiagnostic index expectation).message = unmetMessage expectation.rule := rfl
  refine ⟨rfl, rfl, rfl, fun rule hrule => ?_, fun hrule => ?_, unmetMessage_injective.eq_iff⟩
  · rw [hmessage, hrule]
    rfl
  · rw [hmessage, hrule]
    rfl

/-! ## Where it is said -/

/-- Whatever the window of an expectation is, its diagnostic stands at the boundary at or below
the start of the window. -/
theorem isPlacedAt_unmetDiagnostic (text : List Char) (expectation : Expectation) :
    (unmetDiagnostic (.ofChars text) expectation).IsPlacedAt (.ofChars text)
      (floorBoundary text expectation.window.start)
      (floorBoundary text expectation.window.stop) where
  has_index := rfl
  by_index := LineIndex.byteOffset?_unitOffset text expectation.window.start
  by_range := LineIndex.byteOffset?_unitOffset text expectation.window.start
  by_line :=
    (LineIndex.offset?_position (.ofChars text) expectation.window.start).trans
      (LineIndex.byteOffset?_unitOffset text expectation.window.start)
  range_stop :=
    ⟨_, _, rfl, LineIndex.byteOffset?_unitOffset text expectation.window.stop⟩

section Reported

variable {diagnostics : List Diagnostic} {expectations : List Expectation}

theorem survivors_sublist
    (paired : Fin expectations.length → Option (Fin diagnostics.length)) :
    (survivors (List.finRange diagnostics.length) paired).Sublist diagnostics := by
  have hfilter := List.filter_sublist (p := fun p => ∀ i, paired i ≠ some p)
    (l := List.finRange diagnostics.length)
  simpa only [survivors, List.map_get_finRange] using hfilter.map diagnostics.get

theorem unmet_sublist
    (paired : Fin expectations.length → Option (Fin diagnostics.length)) :
    (unmet paired).Sublist expectations := by
  have hfilter := List.filter_sublist (p := fun i => paired i = none)
    (l := List.finRange expectations.length)
  simpa only [unmet, List.map_get_finRange] using hfilter.map expectations.get

end Reported

/-- The index of the diagnostic for an expectation, the start of its range, and its line and column
are read as one place: the greatest character boundary at or below the start of the window, or the
end of the text where the window starts behind it.  The end of its range is read in the same way
as the end of the window.  Behind the diagnostics that are left a check reports such diagnostics
only. -/
theorem unmet_places_agree (text : String) :
    let chars := text.toList
    let index := LineIndex.ofText text
    (∀ expectation : Expectation, ∃ start stop,
      IsGreatest {boundary | IsBoundary chars boundary ∧
        boundary ≤ min expectation.window.start (byteLength chars)} start ∧
      IsGreatest {boundary | IsBoundary chars boundary ∧
        boundary ≤ min expectation.window.stop (byteLength chars)} stop ∧
      (unmetDiagnostic index expectation).IsPlacedAt index start stop) ∧
    ∀ expectations diagnostics, ∃ (kept : List Diagnostic) (missed : List Expectation),
      verify text expectations diagnostics = kept ++ missed.map (unmetDiagnostic index) ∧
        kept.Sublist diagnostics ∧ missed.Sublist expectations := by
  intro chars index
  refine ⟨fun expectation => ?_, fun expectations diagnostics => ?_⟩
  · exact ⟨_, _, isGreatest_floorBoundary chars expectation.window.start,
      isGreatest_floorBoundary chars expectation.window.stop,
      isPlacedAt_unmetDiagnostic chars expectation⟩
  · have hverify : verify text expectations _ = _ :=
      verify_eq_survivors text (List.nodup_finRange diagnostics.length)
    rw [List.map_get_finRange] at hverify
    exact ⟨_, _, hverify, survivors_sublist _, unmet_sublist _⟩

/-- A window that starts inside the second character and ends in front of it. -/
example : (unmetDiagnostic (.ofText "a😀\r\nb") ⟨⟨3, 1⟩, none⟩).IsPlacedAt (.ofText "a😀\r\nb") 1 1 :=
  ⟨rfl, by decide +kernel, by decide +kernel, by decide +kernel, _, _, rfl, by decide +kernel⟩

end Expectation

end LintDirectives
