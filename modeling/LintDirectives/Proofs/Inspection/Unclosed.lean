import LintDirectives.Proofs.Inspection.Reading
import LintDirectives.Proofs.Suppression.Apply
import LintDirectives.Proofs.Suppression.Replay

/-!
# Ranges that nothing closes

A disable directive that no enable directive follows suppresses up to the end of
the document.  The range that is reported for it is half-open like all others, so
it does not hold the end itself, although a diagnostic may be placed there.

There are four groups.

* The tracker.  Disable directives close nothing: a record that is open stays
  among the records until an enable directive comes.
* The range.  `mem_reportedRanges_of_unclosed` says what is reported for each
  rule of the directive.
* The end.  `keeps_at_documentStop` says that no range holds the end of the
  document.
* The diagnostics before the end.  `unclosed_disable_drops_before_end` is what
  the range of the directive does to them.
-/

namespace LintDirectives

/-! ## The tracker -/

namespace Suppression.Tracker

/-- Disable directives keep every record as it is. -/
theorem mem_records_performAll {tracker : Tracker} {record : Record}
    (h : record ∈ tracker.records) {operations : List Operation}
    (hdisable : ∀ span rules, Operation.enable span rules ∉ operations) :
    record ∈ (tracker.performAll operations).records := by
  induction operations generalizing tracker with
  | nil => exact h
  | cons operation operations ih =>
    have hrest : ∀ span rules, Operation.enable span rules ∉ operations :=
      fun span rules hmem => hdisable span rules (List.mem_cons_of_mem operation hmem)
    rw [performAll_cons]
    cases operation with
    | disable span rules => exact ih (List.mem_append_left _ h) hrest
    | enable span rules => exact absurd List.mem_cons_self (hdisable span rules)

/-- A disable directive opens a record for each of its rules. -/
theorem mem_records_disable (tracker : Tracker) (offset : Nat) {rules : List String}
    {rule : Option String} (h : rule ∈ Inspection.scopes rules) :
    ⟨offset, rule, none⟩ ∈ (tracker.disable offset rules).records := by
  refine List.mem_append_right tracker.records ?_
  unfold Inspection.scopes at h
  split at h
  · next hrules =>
    obtain rfl := List.mem_singleton.1 h
    simp [hrules]
  · next hrules =>
    obtain ⟨id, hid, rfl⟩ := List.mem_map.1 h
    simpa [hrules] using hid

end Suppression.Tracker

namespace Inspection

open Suppression

/-! ## The range -/

theorem operations_cons_of_disable {occurrence : Occurrence}
    (h : occurrence.directive.kind = .disable) (found : List Occurrence) :
    operations (occurrence :: found) =
      .disable occurrence.span occurrence.directive.rules :: operations found := by
  simp [operations, h]

/-- Only enable directives hand an enable operation to the tracker. -/
theorem enable_not_mem_operations {found : List Occurrence}
    (h : ∀ occurrence ∈ found, occurrence.directive.kind ≠ .enable) (span : Span)
    (rules : List String) : Operation.enable span rules ∉ operations found := by
  intro hmem
  obtain ⟨occurrence, hoccurrence, heq⟩ := List.mem_filterMap.1 hmem
  have hkind := h occurrence hoccurrence
  split at heq
  · exact absurd (Option.some.inj heq) (by simp)
  · contradiction
  · contradiction

section Unclosed

variable {config : Config} {document : Document} {root : Node}
  {earlier later : List Occurrence} {occurrence : Occurrence}

/-- Each rule of a disable directive that no enable directive follows is suppressed from the
start of its node to the end of the document. -/
theorem mem_reportedRanges_of_unclosed
    (hfound : occurrences config document.text.toList root = earlier ++ occurrence :: later)
    (hdisable : occurrence.directive.kind = .disable)
    (hlater : ∀ other ∈ later, other.directive.kind ≠ .enable)
    {rule : Option String} (hrule : rule ∈ scopes occurrence.directive.rules) :
    ⟨⟨occurrence.span.start,
        max (documentStop document.text.toList root) occurrence.span.start⟩, rule⟩ ∈
      reportedRanges config document root := by
  let before := Tracker.performAll ⟨config.bareEnable, []⟩ (operations earlier)
  let opened : Record := ⟨occurrence.span.start, rule, none⟩
  have hopened :
      opened ∈ (before.disable occurrence.span.start occurrence.directive.rules).records :=
    before.mem_records_disable occurrence.span.start hrule
  -- The directive opens the record, and whatever follows leaves it open.
  have hkept := Tracker.mem_records_performAll hopened (enable_not_mem_operations hlater)
  have hrun : Tracker.performAll ⟨config.bareEnable, []⟩
        (operations (occurrences config document.text.toList root)) =
      (before.disable occurrence.span.start occurrence.directive.rules).performAll
        (operations later) := by
    rw [hfound, operations_append, Tracker.performAll_append, operations_cons_of_disable hdisable]
    rfl
  rw [reportedRanges, Tracker.finish, hrun]
  exact List.mem_map_of_mem (f := Record.toRange (documentStop document.text.toList root)) hkept

/-! ## The end of the document -/

/-- No range of a tracker whose records are settled at the end of the document goes beyond
it. -/
theorem stop_le_of_mem_finish {tracker : Tracker} {stop : Nat}
    (h : SettledAt stop tracker.records) {range : SuppressedRange}
    (hrange : range ∈ tracker.finish stop) : range.span.stop ≤ stop := by
  obtain ⟨record, hrecord, rfl⟩ := List.mem_map.1 hrange
  obtain ⟨hstart, hclosed⟩ := h record hrecord
  cases heq : record.stop with
  | none =>
    have hmax : max stop record.start ≤ stop := Nat.max_le.2 ⟨Nat.le_refl stop, hstart⟩
    simpa [Record.toRange, heq] using hmax
  | some closed => simpa [Record.toRange, heq] using hclosed closed heq

/-- An operation starts where the node of its directive does. -/
theorem exists_start_eq_of_mem_operations {found : List Occurrence} {operation : Operation}
    (h : operation ∈ operations found) :
    ∃ occurrence ∈ found, operation.start = occurrence.span.start := by
  obtain ⟨occurrence, hoccurrence, heq⟩ := List.mem_filterMap.1 h
  refine ⟨occurrence, hoccurrence, ?_⟩
  split at heq
  · rw [← Option.some.inj heq]
    rfl
  · rw [← Option.some.inj heq]
    rfl
  · contradiction

/-- Where all directives stand in the document, no range holds the end of the document: a
diagnostic there is kept, whatever is disabled. -/
theorem keeps_at_documentStop
    (hinside : ∀ found ∈ occurrences config document.text.toList root,
      found.span.start ≤ documentStop document.text.toList root)
    {diagnostic : Diagnostic} {offset : Nat}
    (hoffset : diagnostic.offset? (.ofText document.text) = some offset)
    (hstop : documentStop document.text.toList root ≤ offset) :
    SuppressedRange.keeps (reportedRanges config document root) (.ofText document.text)
      diagnostic = true := by
  have hsettled : SettledAt (documentStop document.text.toList root)
      (Tracker.performAll ⟨config.bareEnable, []⟩
        (operations (occurrences config document.text.toList root))).records := by
    refine SettledAt.performAll (by simp [SettledAt]) fun operation hoperation => ?_
    obtain ⟨found, hfound, hstart⟩ := exists_start_eq_of_mem_operations hoperation
    rw [hstart]
    exact hinside found hfound
  refine SuppressedRange.keeps_iff.2 ?_
  rintro ⟨other, hother, range, hrange, -, hbefore, -⟩
  have hsame : offset = other := Option.some.inj (hoffset.symm.trans hother)
  have hend := stop_le_of_mem_finish hsettled hrange
  omega

/-! ## The diagnostics before the end -/

/-- A disable directive that no enable directive follows drops the diagnostics of its rules,
or of every rule, from the start of its node to the end of the document.  A diagnostic at the
very end is not before it. -/
theorem unclosed_disable_drops_before_end (hroot : root.IsSoleDocument)
    (hfound : occurrences config document.text.toList root = earlier ++ occurrence :: later)
    (hdisable : occurrence.directive.kind = .disable)
    (hlater : ∀ other ∈ later, other.directive.kind ≠ .enable)
    (store : Expectation.Store) {diagnostic : Diagnostic} {offset : Nat}
    (hoffset : diagnostic.offset? (.ofText document.text) = some offset)
    (hstart : occurrence.span.start ≤ offset)
    (hstop : offset < max root.span.stop (Text.byteLength document.text.toList))
    (hrule : occurrence.directive.rules = [] ∨ diagnostic.rule ∈ occurrence.directive.rules)
    (diagnostics : List Diagnostic) :
    diagnostic ∉ SuppressedRange.apply
      (LintDirectives.inspect config document store root).ranges (.ofText document.text)
      diagnostics := by
  have hranges : (LintDirectives.inspect config document store root).ranges =
      reportedRanges config document root := by
    rw [inspect_eq hroot]
  obtain ⟨rule, hscope, haccepts⟩ : ∃ rule ∈ scopes occurrence.directive.rules,
      rule = none ∨ rule = some diagnostic.rule := by
    unfold scopes
    rcases hrule with hall | hlisted
    · exact ⟨none, by simp [hall], .inl rfl⟩
    · exact ⟨some diagnostic.rule, by simp [List.ne_nil_of_mem hlisted, hlisted], .inr rfl⟩
  have hrange := mem_reportedRanges_of_unclosed hfound hdisable hlater hscope
  have hbefore : offset < max (documentStop document.text.toList root) occurrence.span.start :=
    Nat.lt_of_lt_of_le hstop (Nat.le_max_left _ _)
  intro hmem
  rw [hranges] at hmem
  exact SuppressedRange.keeps_iff.1 (List.mem_filter.1 hmem).2
    ⟨offset, hoffset, _, hrange, hstart, hbefore, haccepts⟩

end Unclosed

/-- A text that is silenced as a whole and does not end in a line feed. -/
def silencedDocument : Document :=
  ⟨none, "<!-- textlint-disable -->\n\nText."⟩

/-- The tree of `silencedDocument`. -/
def silencedRoot : Node :=
  ⟨.document, ⟨0, 32⟩, none,
    [⟨.html, ⟨0, 25⟩, some "<!-- textlint-disable -->", []⟩,
      ⟨.paragraph, ⟨27, 32⟩, none, [⟨.str, ⟨27, 32⟩, some "Text.", []⟩]⟩]⟩

/-- The directive of `silencedDocument`. -/
def silencingOccurrence : Occurrence :=
  ⟨⟨.disable, [], none⟩, ⟨0, 25⟩⟩

/-- A diagnostic of `silencedDocument` at a UTF-16 offset. -/
def diagnosticAt (unit : Nat) : Diagnostic :=
  { rule := "ruleA", index := some unit }

theorem unclosed_disable_drops_at_last_character :
    silencedRoot.IsSoleDocument ∧
      occurrences .default silencedDocument.text.toList silencedRoot =
        [] ++ silencingOccurrence :: [] ∧
      silencingOccurrence.directive.kind = .disable ∧
      (diagnosticAt 31).offset? (.ofText silencedDocument.text) = some 31 ∧
      silencingOccurrence.span.start ≤ 31 ∧
      31 < max silencedRoot.span.stop (Text.byteLength silencedDocument.text.toList) ∧
      silencingOccurrence.directive.rules = [] ∧
      diagnosticAt 31 ∉ SuppressedRange.apply
        (LintDirectives.inspect .default silencedDocument .empty silencedRoot).ranges
        (.ofText silencedDocument.text) [diagnosticAt 31] := by
  have hroot : silencedRoot.IsSoleDocument := ⟨rfl, by decide⟩
  have hfound : occurrences .default silencedDocument.text.toList silencedRoot =
      [] ++ silencingOccurrence :: [] := by decide +kernel
  have hoffset : (diagnosticAt 31).offset? (.ofText silencedDocument.text) = some 31 := by
    decide +kernel
  have hstop : 31 < max silencedRoot.span.stop (Text.byteLength silencedDocument.text.toList) :=
    by decide +kernel
  exact ⟨hroot, hfound, rfl, hoffset, Nat.zero_le 31, hstop, rfl,
    unclosed_disable_drops_before_end hroot hfound rfl (by simp) .empty hoffset
      (Nat.zero_le 31) hstop (.inl rfl) [diagnosticAt 31]⟩

/-- At the end of the text, which is a place that a diagnostic may have, the directive drops
nothing. -/
theorem unclosed_disable_keeps_at_end :
    silencedRoot.IsSoleDocument ∧
      occurrences .default silencedDocument.text.toList silencedRoot = [silencingOccurrence] ∧
      silencingOccurrence.directive.kind = .disable ∧
      (diagnosticAt 32).offset? (.ofText silencedDocument.text) = some 32 ∧
      silencingOccurrence.span.start ≤ 32 ∧
      silencingOccurrence.directive.rules = [] ∧
      diagnosticAt 32 ∈ SuppressedRange.apply
        (LintDirectives.inspect .default silencedDocument .empty silencedRoot).ranges
        (.ofText silencedDocument.text) [diagnosticAt 32] := by
  have hroot : silencedRoot.IsSoleDocument := ⟨rfl, by decide⟩
  have hfound : occurrences .default silencedDocument.text.toList silencedRoot =
      [silencingOccurrence] := by decide +kernel
  have hoffset : (diagnosticAt 32).offset? (.ofText silencedDocument.text) = some 32 := by
    decide +kernel
  have hinside : ∀ found ∈ occurrences .default silencedDocument.text.toList silencedRoot,
      found.span.start ≤ documentStop silencedDocument.text.toList silencedRoot := by
    rw [hfound]
    decide +kernel
  have hstop : documentStop silencedDocument.text.toList silencedRoot ≤ 32 := by decide +kernel
  refine ⟨hroot, hfound, rfl, hoffset, Nat.zero_le 32, rfl, ?_⟩
  rw [inspect_eq hroot]
  exact List.mem_filter.2 ⟨List.mem_singleton_self _, keeps_at_documentStop hinside hoffset hstop⟩

end Inspection

end LintDirectives
