import LintDirectives.Proofs.Suppression.Apply
import LintDirectives.Proofs.Suppression.Operation

/-!
# The two policies for bare enable directives

Under the policy `all` a bare enable directive closes every open range, under
`trailingRun` only those of one disable directive.  From then on the two
trackers hold different open ranges, and a later enable directive for a rule
closes different ones.  Still the ranges of one tracker never outlast those of
the other.

Without bare enable directives the policy has no say (`performAll_withPolicy`).
Otherwise there are three groups.

* One range.  `EndsNoLater` relates two records of one range, of which the
  first is closed no later than the second.  It is kept when both are closed,
  when the first one is, and when the second one is after the first.
* One operation.  The open ranges of the first tracker are open in the second
  one too, so what the second one closes for a rule is closed already or is
  closed in the first one at the same time.
* The result.  `endsNoLater_performAll` is the run, and
  `all_ends_no_later_than_trailingRun` compares the ranges of a document under
  the two policies.
-/

namespace LintDirectives.Suppression

/-! ## Where the policy has no say -/

namespace Tracker

/-- The same records under another policy. -/
def withPolicy (policy : BareEnable) (tracker : Tracker) : Tracker :=
  { tracker with policy := policy }

variable (policy : BareEnable)

theorem enableEach_withPolicy (offset : Nat) (rules : List String) (tracker : Tracker) :
    (tracker.withPolicy policy).enableEach offset rules =
      (tracker.enableEach offset rules).withPolicy policy := by
  induction rules generalizing tracker with
  | nil => rfl
  | cons rule rules ih => exact ih (tracker.mapLatestFirst (closeLatest offset rule))

theorem perform_withPolicy {operation : Operation} (h : operation.isBareEnable = false)
    (tracker : Tracker) :
    (tracker.withPolicy policy).perform operation =
      (tracker.perform operation).withPolicy policy := by
  cases operation with
  | disable span rules => rfl
  | enable span rules =>
    have hrules : rules ≠ [] := by simpa [Operation.isBareEnable] using h
    rw [perform, perform, enable_of_ne_nil hrules, enable_of_ne_nil hrules, enableEach_withPolicy]

/-- Without bare enable directives the records are the same under every policy. -/
theorem performAll_withPolicy {operations : List Operation}
    (h : ∀ operation ∈ operations, operation.isBareEnable = false) (tracker : Tracker) :
    (tracker.withPolicy policy).performAll operations =
      (tracker.performAll operations).withPolicy policy := by
  induction operations generalizing tracker with
  | nil => rfl
  | cons operation operations ih =>
    rw [List.forall_mem_cons] at h
    rw [performAll_cons, perform_withPolicy policy h.1, ih h.2, performAll_cons]

end Tracker

/-! ## One range -/

namespace Record

/-- Where the range of a record ends when the document ends at `offset`. -/
def stopAt (offset : Nat) (record : Record) : Nat :=
  record.stop.getD (max offset record.start)

/-- A range that is closed somewhere ends as in a document that ends there. -/
theorem stopAt_close (offset documentStop : Nat) (record : Record) :
    (record.close offset).stopAt documentStop = record.stopAt offset := by
  unfold close
  split
  · next hopen =>
    have hstop : record.stop = none := by simpa [isOpen] using hopen
    simp [stopAt, hstop]
  · next hopen =>
    obtain ⟨stop, hstop⟩ : ∃ stop, record.stop = some stop := by
      simpa [isOpen, Option.ne_none_iff_exists'] using hopen
    simp [stopAt, hstop]

/-- In a longer document a range ends later or in the same place. -/
theorem stopAt_mono {offset later : Nat} (h : offset ≤ later) (record : Record) :
    record.stopAt offset ≤ record.stopAt later := by
  cases hstop : record.stop with
  | none =>
    simp only [stopAt, hstop, Option.getD_none]
    omega
  | some stop => simp [stopAt, hstop]

/-- The end of a closed range does not depend on the document. -/
theorem stopAt_of_closed {record : Record} (h : record.isOpen = false) (offset later : Nat) :
    record.stopAt offset = record.stopAt later := by
  have hclose := record.stopAt_close offset later
  rw [close_of_isOpen_eq_false h] at hclose
  exact hclose.symm

end Record

/-- Two records of one range: the first one is open only while the second one is, and in a
document that ends at `bound` or after it, its range ends no later. -/
structure EndsNoLater (bound : Nat) (sooner later : Record) : Prop where
  start : sooner.start = later.start
  rule : sooner.rule = later.rule
  isOpen : sooner.isOpen = true → later.isOpen = true
  stopAt : ∀ offset, bound ≤ offset → sooner.stopAt offset ≤ later.stopAt offset

namespace EndsNoLater

variable {bound offset : Nat} {sooner later : Record}

protected theorem refl (bound : Nat) (record : Record) : EndsNoLater bound record record :=
  ⟨rfl, rfl, id, fun _ _ => Nat.le_refl _⟩

protected theorem mono (h : EndsNoLater bound sooner later) (hle : bound ≤ offset) :
    EndsNoLater offset sooner later :=
  ⟨h.start, h.rule, h.isOpen, fun other hother => h.stopAt other (Nat.le_trans hle hother)⟩

theorem close_both (h : EndsNoLater bound sooner later) (hle : bound ≤ offset) :
    EndsNoLater offset (sooner.close offset) (later.close offset) := by
  refine ⟨by simpa using h.start, by simpa using h.rule, by simp, ?_⟩
  intro documentStop _
  rw [Record.stopAt_close, Record.stopAt_close]
  exact h.stopAt offset hle

theorem close_sooner (h : EndsNoLater bound sooner later) (hle : bound ≤ offset) :
    EndsNoLater offset (sooner.close offset) later := by
  refine ⟨by simpa using h.start, by simpa using h.rule, by simp, ?_⟩
  intro documentStop hstop
  rw [Record.stopAt_close]
  exact Nat.le_trans (h.stopAt offset hle) (later.stopAt_mono hstop)

/-- The second record may be closed once the first one has been. -/
theorem close_later (h : EndsNoLater bound sooner later) (hle : bound ≤ offset)
    (hclosed : sooner.isOpen = false) : EndsNoLater offset sooner (later.close offset) := by
  refine ⟨by simpa using h.start, by simpa using h.rule, by simp [hclosed], ?_⟩
  intro documentStop _
  rw [Record.stopAt_close, Record.stopAt_of_closed hclosed documentStop offset]
  exact h.stopAt offset hle

end EndsNoLater

/-! ## One operation -/

section Lists

variable {bound offset : Nat} {sooner later closed : List Record}

theorem endsNoLater_mono (h : List.Forall₂ (EndsNoLater bound) sooner later)
    (hle : bound ≤ offset) : List.Forall₂ (EndsNoLater offset) sooner later :=
  h.imp fun _ _ hhead => hhead.mono hle

/-- The first records may be closed at will. -/
theorem endsNoLater_closedSome_left (h : List.Forall₂ (EndsNoLater bound) sooner later)
    (hle : bound ≤ offset) (hclosed : ClosedSome offset sooner closed) :
    List.Forall₂ (EndsNoLater offset) closed later := by
  induction h generalizing closed with
  | nil =>
    cases hclosed
    exact .nil
  | cons hhead _ ih =>
    cases hclosed with
    | cons hafter hrest =>
      refine .cons ?_ (ih hrest)
      rcases hafter with rfl | rfl
      · exact hhead.mono hle
      · exact hhead.close_sooner hle

/-- The second records may be closed at will when all of the first ones are. -/
theorem endsNoLater_map_close (h : List.Forall₂ (EndsNoLater bound) sooner later)
    (hle : bound ≤ offset) (hclosed : ClosedSome offset later closed) :
    List.Forall₂ (EndsNoLater offset) (sooner.map (Record.close offset)) closed := by
  induction h generalizing closed with
  | nil =>
    cases hclosed
    exact .nil
  | cons hhead _ ih =>
    cases hclosed with
    | cons hafter hrest =>
      refine .cons ?_ (ih hrest)
      rcases hafter with rfl | rfl
      · exact hhead.close_sooner hle
      · exact hhead.close_both hle

/-- Closing the latest open record of a rule.  Where the second records have it and the first
ones do not, the first ones have closed it before. -/
theorem endsNoLater_closeLatest (h : List.Forall₂ (EndsNoLater bound) sooner later)
    (hle : bound ≤ offset) (rule : String) :
    List.Forall₂ (EndsNoLater offset) (closeLatest offset rule sooner)
      (closeLatest offset rule later) := by
  induction h with
  | nil => exact .nil
  | @cons record other sooner later hhead htail ih =>
    have hrest := endsNoLater_mono htail hle
    unfold closeLatest
    by_cases hother : (other.isOpen && other.rule = some rule) = true
    · rw [if_pos hother]
      by_cases hrecord : (record.isOpen && record.rule = some rule) = true
      · rw [if_pos hrecord]
        exact .cons (hhead.close_both hle) hrest
      · rw [if_neg hrecord]
        have hclosed : record.isOpen = false := by
          simp only [Bool.and_eq_true, decide_eq_true_eq] at hother hrecord
          rw [hhead.rule] at hrecord
          simpa [hother.2] using hrecord
        have hleft := endsNoLater_closedSome_left htail hle (.closeLatest offset rule sooner)
        exact .cons (hhead.close_later hle hclosed) hleft
    · have hrecord : ¬ (record.isOpen && record.rule = some rule) = true := by
        simp only [Bool.and_eq_true, decide_eq_true_eq] at hother ⊢
        rintro ⟨hopen, hrule⟩
        exact hother ⟨hhead.isOpen hopen, hhead.rule ▸ hrule⟩
      rw [if_neg hother, if_neg hrecord]
      exact .cons (hhead.mono hle) ih

end Lists

section Trackers

variable {bound : Nat} {sooner later : Tracker}

theorem endsNoLater_enableEach {offset : Nat}
    (h : List.Forall₂ (EndsNoLater offset) sooner.records later.records) (rules : List String) :
    List.Forall₂ (EndsNoLater offset) (sooner.enableEach offset rules).records
      (later.enableEach offset rules).records := by
  induction rules generalizing sooner later with
  | nil => exact h
  | cons rule rules ih =>
    refine ih ?_
    have hlatest := List.forall₂_reverse_iff.2 h
    exact List.forall₂_reverse_iff.2
      (endsNoLater_closeLatest hlatest (Nat.le_refl offset) rule)

/-- An operation keeps the ranges of a tracker with the policy `all` from outlasting those of
another one, whatever the policy of the other one is. -/
theorem endsNoLater_perform (hpolicy : sooner.policy = .all)
    (h : List.Forall₂ (EndsNoLater bound) sooner.records later.records) {operation : Operation}
    (hle : bound ≤ operation.start) :
    List.Forall₂ (EndsNoLater operation.start) (sooner.perform operation).records
      (later.perform operation).records := by
  cases operation with
  | disable span rules =>
    refine List.rel_append (endsNoLater_mono h hle) (List.forall₂_same.2 ?_)
    intro record _
    exact .refl _ record
  | enable span rules =>
    cases rules with
    | nil =>
      have hall : (sooner.perform (.enable span [])).records =
          sooner.records.map (Record.close span.start) := by
        simp [Tracker.perform, Tracker.enable, hpolicy]
      rw [hall]
      exact endsNoLater_map_close h hle (later.closedSome_enable span.start [])
    | cons rule rules => exact endsNoLater_enableEach (endsNoLater_mono h hle) (rule :: rules)

/-! ## The result -/

theorem endsNoLater_performAll (hpolicy : sooner.policy = .all)
    (h : List.Forall₂ (EndsNoLater bound) sooner.records later.records)
    {operations : List Operation} (hsorted : operations.Pairwise (·.start ≤ ·.start))
    (hbound : ∀ operation ∈ operations, bound ≤ operation.start) {documentStop : Nat}
    (hstop : ∀ operation ∈ operations, operation.start ≤ documentStop)
    (hle : bound ≤ documentStop) :
    List.Forall₂ (EndsNoLater documentStop) (sooner.performAll operations).records
      (later.performAll operations).records := by
  induction operations generalizing sooner later bound with
  | nil => exact endsNoLater_mono h hle
  | cons operation operations ih =>
    obtain ⟨hhead, htail⟩ := List.pairwise_cons.1 hsorted
    have hpolicy' : (sooner.perform operation).policy = .all := by
      rw [Tracker.policy_perform, hpolicy]
    have hstep := endsNoLater_perform hpolicy h (hbound operation List.mem_cons_self)
    refine ih hpolicy' hstep htail hhead ?_ (hstop operation List.mem_cons_self)
    intro later hlater
    exact hstop later (List.mem_cons_of_mem operation hlater)

end Trackers

end LintDirectives.Suppression

namespace LintDirectives.SuppressedRange

/-- Two ranges for one rule that start together, of which the first one ends no later. -/
structure NoLonger (sooner later : SuppressedRange) : Prop where
  start : sooner.span.start = later.span.start
  rule : sooner.rule = later.rule
  stop : sooner.span.stop ≤ later.span.stop

/-- Shorter ranges suppress no more. -/
theorem ignored_of_noLonger {sooner later : List SuppressedRange}
    (h : List.Forall₂ NoLonger sooner later) {offset : Nat} {rule : String}
    (hignored : ignored sooner offset rule = true) : ignored later offset rule = true := by
  induction h with
  | nil => exact hignored
  | @cons range other sooner later hhead _ ih =>
    rw [ignored, List.any_cons, Bool.or_eq_true] at hignored ⊢
    rcases hignored with hrange | hrest
    · obtain ⟨hstart, hstop, hrule⟩ := suppresses_iff.1 hrange
      rw [hhead.start] at hstart
      rw [hhead.rule] at hrule
      exact .inl (suppresses_iff.2 ⟨hstart, Nat.lt_of_lt_of_le hstop hhead.stop, hrule⟩)
    · exact .inr (ih hrest)

end LintDirectives.SuppressedRange

namespace LintDirectives.Suppression

/-- Under the policy `all` a document has the same ranges as under `trailingRun`, in the same
order, and each ends no later.  So no report is suppressed that is not suppressed under
`trailingRun`. -/
theorem all_ends_no_later_than_trailingRun (operations : List Operation)
    (hsorted : operations.Pairwise (·.start ≤ ·.start)) {documentStop : Nat}
    (hstop : ∀ operation ∈ operations, operation.start ≤ documentStop) :
    let all := (Tracker.performAll ⟨.all, []⟩ operations).finish documentStop
    let trailing := (Tracker.performAll ⟨.trailingRun, []⟩ operations).finish documentStop
    List.Forall₂ SuppressedRange.NoLonger all trailing ∧
      ∀ offset rule, SuppressedRange.ignored all offset rule = true →
        SuppressedRange.ignored trailing offset rule = true := by
  intro all trailing
  have hrecords : List.Forall₂ (EndsNoLater documentStop)
      (Tracker.performAll ⟨.all, []⟩ operations).records
      (Tracker.performAll ⟨.trailingRun, []⟩ operations).records :=
    endsNoLater_performAll rfl .nil hsorted (fun _ _ => Nat.zero_le _) hstop (Nat.zero_le _)
  have hranges : List.Forall₂ SuppressedRange.NoLonger all trailing := by
    refine List.forall₂_map_left_iff.2 (List.forall₂_map_right_iff.2 (hrecords.imp ?_))
    intro sooner later h
    exact ⟨h.start, h.rule, h.stopAt documentStop (Nat.le_refl _)⟩
  refine ⟨hranges, ?_⟩
  intro offset rule hignored
  exact SuppressedRange.ignored_of_noLonger hranges hignored

/-- Two ranges for one rule, an enable directive without rules, and one for the rule. -/
def twiceEnabled : List Operation :=
  [.disable ⟨0, 4⟩ ["a"], .disable ⟨10, 14⟩ ["a"], .enable ⟨20, 24⟩ [], .enable ⟨30, 34⟩ ["a"]]

/-- Under `trailingRun` the last directive still finds the first range open. -/
theorem twiceEnabled_ends_no_later :
    let all := (Tracker.performAll ⟨.all, []⟩ twiceEnabled).finish 40
    let trailing := (Tracker.performAll ⟨.trailingRun, []⟩ twiceEnabled).finish 40
    twiceEnabled.Pairwise (·.start ≤ ·.start) ∧
      (∀ operation ∈ twiceEnabled, operation.start ≤ 40) ∧
      all = [⟨⟨0, 20⟩, some "a"⟩, ⟨⟨10, 20⟩, some "a"⟩] ∧
      trailing = [⟨⟨0, 30⟩, some "a"⟩, ⟨⟨10, 20⟩, some "a"⟩] ∧
      List.Forall₂ SuppressedRange.NoLonger all trailing := by
  intro all trailing
  have hsorted : twiceEnabled.Pairwise (·.start ≤ ·.start) := by decide
  have hstop : ∀ operation ∈ twiceEnabled, operation.start ≤ 40 := by decide
  obtain ⟨hranges, -⟩ := all_ends_no_later_than_trailingRun twiceEnabled hsorted hstop
  exact ⟨hsorted, hstop, by decide, by decide, hranges⟩

end LintDirectives.Suppression
