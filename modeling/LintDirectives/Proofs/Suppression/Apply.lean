import LintDirectives.Suppression.Apply

/-!
# Which diagnostics are suppressed

`Suppressed` says without any computation when the ranges of a document drop a
diagnostic, and `keeps_iff` that the others are kept.
-/

namespace LintDirectives.SuppressedRange

/-- The diagnostic has a place in one of the ranges, and that range is for its rule or for
every rule. -/
def Suppressed (ranges : List SuppressedRange) (index : LineIndex) (diagnostic : Diagnostic) :
    Prop :=
  ∃ offset, diagnostic.offset? index = some offset ∧
    ∃ range ∈ ranges, range.span.start ≤ offset ∧ offset < range.span.stop ∧
      (range.rule = none ∨ range.rule = some diagnostic.rule)

theorem suppresses_iff {range : SuppressedRange} {offset : Nat} {rule : String} :
    range.suppresses offset rule = true ↔
      range.span.start ≤ offset ∧ offset < range.span.stop ∧
        (range.rule = none ∨ range.rule = some rule) := by
  rw [suppresses, Span.contains]
  cases range.rule with
  | none => simp
  | some other => simp [and_assoc]

theorem keeps_iff {ranges : List SuppressedRange} {index : LineIndex} {diagnostic : Diagnostic} :
    keeps ranges index diagnostic = true ↔ ¬ Suppressed ranges index diagnostic := by
  unfold keeps Suppressed ignored
  cases diagnostic.offset? index with
  | none => simp
  | some offset => simp [← suppresses_iff]

/-- A diagnostic without a place in the document is not suppressed. -/
theorem not_suppressed_of_offset?_eq_none {ranges : List SuppressedRange} {index : LineIndex}
    {diagnostic : Diagnostic} (h : diagnostic.offset? index = none) :
    ¬ Suppressed ranges index diagnostic := by
  rintro ⟨offset, hoffset, -⟩
  exact absurd (h.symm.trans hoffset) (by simp)

/-- Where no range is reported every diagnostic is kept. -/
theorem apply_nil (index : LineIndex) (diagnostics : List Diagnostic) :
    apply [] index diagnostics = diagnostics := by
  refine List.filter_eq_self.2 fun diagnostic _ => keeps_iff.2 ?_
  rintro ⟨offset, -, range, hrange, -⟩
  exact absurd hrange List.not_mem_nil

end LintDirectives.SuppressedRange
