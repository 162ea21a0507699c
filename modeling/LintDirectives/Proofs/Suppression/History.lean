import LintDirectives.Proofs.Suppression.Operation
import Mathlib.Data.List.Nodup

/-!
# What becomes of a record

A tracker forgets nothing: it has one record for each range that was ever opened, in
the order in which they were opened, and all that can happen to a record is that it
is closed, once.  This holds whatever the directives are, also where their starts
go back and forth.

There are four groups.

* Opening.  `Operation.opens` are the records that an operation appends, and
  `Record.opening` is a record as it was then.  `perform_records_eq` is the step,
  and `opening_performAll` says that a run only adds.
* Listed rules.  An enable directive with rules closes, of the open records of each
  rule, as many of the latest as the rule is listed times (`Reaches`).
  `foldl_closeLatest` is the induction over the rules.
* One operation.  `Follows` gathers what an operation may do to the records, and
  `follows_perform` says that it does no more.
* Runs.  `closed_performAll` is about records that are closed, and
  `start_le_stop_performAll` about where they end.  `records_are_closed_once` is
  the result.
-/

namespace LintDirectives.Suppression

/-! ## Opening -/

/-- The record as it was opened. -/
def Record.opening (record : Record) : Record :=
  { record with stop := none }

/-- The records that an operation opens, in order. -/
def Operation.opens : Operation → List Record
  | .disable span rules => openedRecords span.start rules
  | .enable _ _ => []

namespace Record

@[simp] theorem opening_close (offset : Nat) (record : Record) :
    (record.close offset).opening = record.opening := by
  simp [opening]

theorem opening_eq_self {record : Record} (h : record.isOpen = true) :
    record.opening = record := by
  obtain ⟨start, rule, stop⟩ := record
  cases stop with
  | none => rfl
  | some stop => cases h

theorem close_of_isOpen {record : Record} (h : record.isOpen = true) (offset : Nat) :
    record.close offset = { record with stop := some (max offset record.start) } :=
  if_pos h

theorem close_ne_self {record : Record} (h : record.isOpen = true) (offset : Nat) :
    record.close offset ≠ record := by
  intro heq
  rw [← heq, isOpen_close] at h
  cases h

end Record

theorem Operation.isOpen_of_mem_opens {operation : Operation} {record : Record}
    (h : record ∈ operation.opens) : record.isOpen = true := by
  cases operation with
  | disable span rules => exact (of_mem_openedRecords h).1
  | enable span rules => exact absurd h List.not_mem_nil

namespace ClosedSome

variable {offset : Nat} {records closed : List Record}

theorem map_opening (h : ClosedSome offset records closed) :
    closed.map Record.opening = records.map Record.opening := by
  induction h with
  | nil => rfl
  | cons hhead _ ih =>
    rcases hhead with rfl | rfl <;> simp [ih]

/-- Every record keeps its place. -/
theorem exists_getElem? (h : ClosedSome offset records closed) {i : Nat} {record : Record}
    (hrecord : records[i]? = some record) :
    ∃ kept, closed[i]? = some kept ∧ (kept = record ∨ kept = record.close offset) := by
  induction h generalizing i with
  | nil => simp at hrecord
  | @cons head kept _ _ hhead _ ih =>
    cases i with
    | zero =>
      obtain rfl : head = record := by simpa using hrecord
      exact ⟨kept, rfl, hhead⟩
    | succ i => simpa using ih (by simpa using hrecord)

end ClosedSome

namespace Tracker

/-- An operation appends what it opens.  Before that, an enable directive closes some of the
records at its start. -/
theorem perform_records_eq (tracker : Tracker) (operation : Operation) :
    ∃ kept, (tracker.perform operation).records = kept ++ operation.opens ∧
      ClosedSome operation.start tracker.records kept ∧
      ∀ span rules, operation = .disable span rules → kept = tracker.records := by
  cases operation with
  | disable span rules => exact ⟨tracker.records, rfl, .refl _ _, fun _ _ _ => rfl⟩
  | enable span rules =>
    exact ⟨_, (List.append_nil _).symm, tracker.closedSome_enable span.start rules, nofun⟩

theorem opening_perform (tracker : Tracker) (operation : Operation) :
    (tracker.perform operation).records.map Record.opening =
      tracker.records.map Record.opening ++ operation.opens := by
  obtain ⟨kept, hrecords, hclosed, -⟩ := tracker.perform_records_eq operation
  have hopens : operation.opens.map Record.opening = operation.opens :=
    (List.map_congr_left fun record hrecord =>
      Record.opening_eq_self (Operation.isOpen_of_mem_opens hrecord)).trans (List.map_id _)
  rw [hrecords, List.map_append, hclosed.map_opening, hopens]

/-- A run adds the records that its operations open, and takes none away. -/
theorem opening_performAll (tracker : Tracker) (operations : List Operation) :
    (tracker.performAll operations).records.map Record.opening =
      tracker.records.map Record.opening ++ operations.flatMap Operation.opens := by
  induction operations generalizing tracker with
  | nil => simp
  | cons operation operations ih =>
    rw [performAll_cons, ih, opening_perform, List.append_assoc, List.flatMap_cons]

end Tracker

/-! ## Listed rules -/

/-- The record is open, and it is about `rule`. -/
def Record.isOpenFor (rule : String) (record : Record) : Bool :=
  record.isOpen && record.rule = some rule

/-- An enable directive that lists `rules` closes the record, behind which `later` were opened:
it is open, and its rule is listed more often than there are later open records of the rule. -/
def Reaches (rules : List String) (later : List Record) (record : Record) : Prop :=
  record.isOpen = true ∧ ∃ rule, record.rule = some rule ∧
    later.countP (Record.isOpenFor rule) < rules.count rule

theorem Record.isOpenFor_iff {rule : String} {record : Record} :
    record.isOpenFor rule = true ↔ record.isOpen = true ∧ record.rule = some rule := by
  simp [isOpenFor]

/-- Where no rule is listed twice, the latest open record of each is closed. -/
theorem reaches_iff_of_nodup {rules : List String} (h : rules.Nodup) {later : List Record}
    {record : Record} :
    Reaches rules later record ↔
      ∃ rule ∈ rules, record.isOpenFor rule = true ∧
        ∀ other ∈ later, other.isOpenFor rule = false := by
  have hnone (rule : String) : later.countP (Record.isOpenFor rule) = 0 ↔
      ∀ other ∈ later, other.isOpenFor rule = false := by
    simp [List.countP_eq_zero]
  constructor
  · rintro ⟨hopen, rule, hrule, hlt⟩
    have hone := List.nodup_iff_count_le_one.1 h rule
    have hmem : rule ∈ rules := List.count_pos_iff.1 (by omega)
    exact ⟨rule, hmem, Record.isOpenFor_iff.2 ⟨hopen, hrule⟩, (hnone rule).1 (by omega)⟩
  · rintro ⟨rule, hmem, hrecord, hlater⟩
    obtain ⟨hopen, hrule⟩ := Record.isOpenFor_iff.1 hrecord
    refine ⟨hopen, rule, hrule, ?_⟩
    rw [(hnone rule).2 hlater]
    exact List.count_pos_iff.2 hmem

section LatestFirst

variable {offset : Nat} {rule : String} {record : Record} {later earlier : List Record}

theorem closeLatest_cons (offset : Nat) (rule : String) (record : Record)
    (earlier : List Record) :
    closeLatest offset rule (record :: earlier) =
      if record.isOpenFor rule then record.close offset :: earlier
      else record :: closeLatest offset rule earlier := rfl

theorem closeLatest_append_of_not_open (h : ∀ other ∈ later, other.isOpenFor rule = false)
    (offset : Nat) (earlier : List Record) :
    closeLatest offset rule (later ++ earlier) = later ++ closeLatest offset rule earlier := by
  induction later with
  | nil => rfl
  | cons other later ih =>
    rw [List.forall_mem_cons] at h
    rw [List.cons_append, closeLatest_cons, h.1, ih h.2]
    rfl

theorem closeLatest_append_of_open (h : ∃ other ∈ later, other.isOpenFor rule = true)
    (offset : Nat) (earlier : List Record) :
    closeLatest offset rule (later ++ earlier) = closeLatest offset rule later ++ earlier := by
  induction later with
  | nil => simp at h
  | cons other later ih =>
    rw [List.cons_append, closeLatest_cons, closeLatest_cons]
    cases hother : other.isOpenFor rule with
    | true => rfl
    | false =>
      rw [List.exists_mem_cons_iff, hother] at h
      rw [ih (h.resolve_left Bool.false_ne_true)]
      rfl

/-- Closing the latest open record of a rule leaves one fewer of that rule, and those of other
rules. -/
theorem countP_closeLatest (offset : Nat) (rule other : String) (records : List Record) :
    (closeLatest offset rule records).countP (Record.isOpenFor other) =
      records.countP (Record.isOpenFor other) - if other = rule then 1 else 0 := by
  induction records with
  | nil => simp [closeLatest]
  | cons record earlier ih =>
    rw [closeLatest_cons]
    cases hrecord : record.isOpenFor rule with
    | true =>
      obtain ⟨hopen, hrule⟩ := Record.isOpenFor_iff.1 hrecord
      by_cases hother : other = rule
      · simp [Record.isOpenFor, hopen, hrule, hother]
      · simp [Record.isOpenFor, hopen, hrule, hother, Ne.symm hother]
    | false =>
      simp only [Bool.false_eq_true, if_false, List.countP_cons, ih]
      by_cases hother : other = rule
      · subst hother
        simp [hrecord]
      · simp [hother]

/-- When a later record is closed for a listed rule, the rule has to be listed once less. -/
theorem reaches_closeLatest_iff (h : ∃ other ∈ later, other.isOpenFor rule = true) (offset : Nat)
    (rules : List String) (record : Record) :
    Reaches rules (closeLatest offset rule later) record ↔
      Reaches (rule :: rules) later record := by
  have hpos : 0 < later.countP (Record.isOpenFor rule) := List.countP_pos_iff.2 h
  have hlt (other : String) :
      (closeLatest offset rule later).countP (Record.isOpenFor other) < rules.count other ↔
        later.countP (Record.isOpenFor other) < (rule :: rules).count other := by
    rw [countP_closeLatest, List.count_cons]
    by_cases hother : other = rule
    · subst hother
      simp only [if_true, beq_self_eq_true]
      omega
    · simp [hother, Ne.symm hother]
  simp only [Reaches, hlt]

/-- A record that is not open for a rule is not closed for it. -/
theorem reaches_cons_iff (h : record.isOpenFor rule = false) (rules : List String)
    (later : List Record) :
    Reaches (rule :: rules) later record ↔ Reaches rules later record := by
  refine and_congr_right fun hopen => exists_congr fun other => and_congr_right fun hother => ?_
  have hne : rule ≠ other := by
    rintro rfl
    rw [Record.isOpenFor_iff.2 ⟨hopen, hother⟩] at h
    cases h
  rw [List.count_cons_of_ne hne]

/-- What an enable directive with rules does to a record, in records listed latest first. -/
theorem foldl_closeLatest (offset : Nat) (rules : List String) (later : List Record)
    (record : Record) (earlier : List Record) :
    ∃ later' record' earlier',
      rules.foldl (fun records rule => closeLatest offset rule records)
          (later ++ record :: earlier) = later' ++ record' :: earlier' ∧
        earlier'.length = earlier.length ∧
        (Reaches rules later record → record' = record.close offset) ∧
        (¬ Reaches rules later record → record' = record) := by
  induction rules generalizing later record earlier with
  | nil => exact ⟨later, record, earlier, rfl, rfl, by simp [Reaches], fun _ => rfl⟩
  | cons rule rules ih =>
    rw [List.foldl_cons]
    by_cases hlater : ∃ other ∈ later, other.isOpenFor rule = true
    · rw [closeLatest_append_of_open hlater, ← reaches_closeLatest_iff hlater offset]
      exact ih (closeLatest offset rule later) record earlier
    · have hnone : ∀ other ∈ later, other.isOpenFor rule = false := by simpa using hlater
      rw [closeLatest_append_of_not_open hnone, closeLatest_cons]
      cases hrecord : record.isOpenFor rule with
      | false =>
        have hlength : (closeLatest offset rule earlier).length = earlier.length :=
          (ClosedSome.closeLatest offset rule earlier).length_eq.symm
        rw [reaches_cons_iff hrecord, ← hlength]
        exact ih later record (closeLatest offset rule earlier)
      | true =>
        -- The record is closed, and closed records stay as they are.
        obtain ⟨later', record', earlier', hfold, hlength, -, hkept⟩ :=
          ih later (record.close offset) earlier
        have hclosed : ¬ Reaches rules later (record.close offset) := by simp [Reaches]
        have hreaches : Reaches (rule :: rules) later record := by
          obtain ⟨hopen, hrule⟩ := Record.isOpenFor_iff.1 hrecord
          refine ⟨hopen, rule, hrule, ?_⟩
          rw [List.countP_eq_zero.2 (by simpa using hnone), List.count_cons_self]
          exact Nat.succ_pos _
        exact ⟨later', record', earlier', hfold, hlength, fun _ => hkept hclosed,
          fun hnot => absurd hreaches hnot⟩

end LatestFirst

namespace Tracker

theorem records_enableEach (offset : Nat) (rules : List String) (tracker : Tracker) :
    (tracker.enableEach offset rules).records =
      (rules.foldl (fun records rule => closeLatest offset rule records)
        tracker.records.reverse).reverse := by
  induction rules generalizing tracker with
  | nil => simp
  | cons rule rules ih =>
    rw [enableEach_cons, ih, mapLatestFirst, List.reverse_reverse, List.foldl_cons]

/-- An enable directive with rules closes the records that it reaches, and no others. -/
theorem exists_getElem?_enable {tracker : Tracker} {earlier later : List Record} {record : Record}
    (h : tracker.records = earlier ++ record :: later) {rules : List String} (hne : rules ≠ [])
    (offset : Nat) :
    ∃ kept, (tracker.enable offset rules).records[earlier.length]? = some kept ∧
      (kept ≠ record ↔ Reaches rules later record) := by
  have hreverse : tracker.records.reverse = later.reverse ++ record :: earlier.reverse := by
    simp [h]
  have hreaches : Reaches rules later.reverse record ↔ Reaches rules later record := by
    simp only [Reaches, List.countP_reverse]
  obtain ⟨later', kept, earlier', hfold, hlength, hclosed, hkept⟩ :=
    foldl_closeLatest offset rules later.reverse record earlier.reverse
  rw [List.length_reverse] at hlength
  rw [hreaches] at hclosed hkept
  refine ⟨kept, ?_, ?_⟩
  · rw [enable_of_ne_nil hne, records_enableEach, hreverse, hfold, ← hlength]
    simp
  · by_cases hreached : Reaches rules later record
    · rw [hclosed hreached]
      exact iff_of_true (Record.close_ne_self hreached.1 offset) hreached
    · exact iff_of_false (fun hne => hne (hkept hreached)) hreached

end Tracker

/-! ## One operation -/

/-- The records `next` follow on `records` by an operation. -/
structure Follows (operation : Operation) (records next : List Record) : Prop where
  /-- Behind the records come those that the operation opens. -/
  opens : next.drop records.length = operation.opens
  /-- Every record keeps its place, its start and its rule.  If it changes it was open, and an
  enable directive has closed it. -/
  keeps : ∀ (i : Nat) (record : Record), records[i]? = some record → ∃ kept : Record,
    next[i]? = some kept ∧ kept.opening = record.opening ∧
    (kept ≠ record → record.isOpen = true ∧ ∃ span rules, operation = .enable span rules ∧
      kept.stop = some (max span.start record.start))
  /-- With rules, those records are closed that the directive reaches. -/
  reaches : ∀ span rules, operation = .enable span rules → rules ≠ [] →
    ∀ earlier record later, records = earlier ++ record :: later →
      ∃ kept, next[earlier.length]? = some kept ∧ (kept ≠ record ↔ Reaches rules later record)

theorem follows_perform (tracker : Tracker) (operation : Operation) :
    Follows operation tracker.records (tracker.perform operation).records := by
  obtain ⟨closed, hrecords, hclosed, hdisable⟩ := tracker.perform_records_eq operation
  have hlength : tracker.records.length = closed.length := hclosed.length_eq
  refine ⟨?_, ?_, ?_⟩
  · rw [hrecords, hlength, List.drop_left]
  · intro i record hrecord
    obtain ⟨kept, hkept, hcases⟩ := hclosed.exists_getElem? hrecord
    have hnext : (tracker.perform operation).records[i]? = some kept := by
      rw [hrecords, List.getElem?_append_left (List.getElem?_eq_some_iff.1 hkept).1, hkept]
    refine ⟨kept, hnext, by rcases hcases with rfl | rfl <;> simp, fun hne => ?_⟩
    obtain rfl := hcases.resolve_left hne
    have hopen : record.isOpen = true := by
      by_contra hnot
      exact hne (Record.close_of_isOpen_eq_false (Bool.eq_false_iff.2 hnot) _)
    refine ⟨hopen, ?_⟩
    cases operation with
    | disable span rules =>
      rw [hdisable span rules rfl, hrecord] at hkept
      exact absurd (Option.some.inj hkept).symm hne
    | enable span rules =>
      exact ⟨span, rules, rfl, by rw [Record.close_of_isOpen hopen]; rfl⟩
  · rintro span rules rfl hne earlier record later hsplit
    exact Tracker.exists_getElem?_enable hsplit hne span.start

/-! ## Runs -/

namespace Tracker

/-- A closed record is never changed. -/
theorem closed_performAll {tracker : Tracker} {i : Nat} {record : Record}
    (hrecord : tracker.records[i]? = some record) (hclosed : record.isOpen = false)
    (operations : List Operation) :
    (tracker.performAll operations).records[i]? = some record := by
  induction operations generalizing tracker with
  | nil => exact hrecord
  | cons operation operations ih =>
    obtain ⟨kept, hkept, -, hchanged⟩ :=
      (follows_perform tracker operation).keeps i record hrecord
    by_cases heq : kept = record
    · exact ih (heq ▸ hkept)
    · rw [(hchanged heq).1] at hclosed
      cases hclosed

/-- No record ends before it starts. -/
theorem start_le_stop_performAll {tracker : Tracker}
    (h : ∀ record ∈ tracker.records, ∀ stop, record.stop = some stop → record.start ≤ stop)
    (operations : List Operation) :
    ∀ record ∈ (tracker.performAll operations).records, ∀ stop,
      record.stop = some stop → record.start ≤ stop := by
  induction operations generalizing tracker with
  | nil => exact h
  | cons operation operations ih =>
    refine ih fun record hrecord stop hstop => ?_
    obtain ⟨closed, hrecords, hclosed, -⟩ := tracker.perform_records_eq operation
    rw [hrecords, List.mem_append] at hrecord
    rcases hrecord with hrecord | hrecord
    · obtain ⟨old, hold, rfl | rfl⟩ := hclosed.exists_of_mem hrecord
      · exact h record hold stop hstop
      · rw [Record.start_close]
        cases hopen : old.isOpen with
        | false =>
          rw [Record.close_of_isOpen_eq_false hopen] at hstop
          exact h old hold stop hstop
        | true =>
          rw [Record.close_of_isOpen hopen] at hstop
          obtain rfl := Option.some.inj hstop
          exact Nat.le_max_right _ _
    · have hopen := Operation.isOpen_of_mem_opens hrecord
      rw [Record.isOpen, hstop] at hopen
      cases hopen

end Tracker

/-- The range that is left of a record when the document ends at `documentStop`. -/
structure IsFinal (documentStop : Nat) (record : Record) (range : SuppressedRange) : Prop where
  start : range.span.start = record.start
  rule : range.rule = record.rule
  ordered : range.span.start ≤ range.span.stop
  of_closed : ∀ stop, record.stop = some stop → range.span.stop = stop
  of_open : record.stop = none → range.span.stop = max documentStop record.start

theorem isFinal_toRange {record : Record}
    (h : ∀ stop, record.stop = some stop → record.start ≤ stop) (documentStop : Nat) :
    IsFinal documentStop record (record.toRange documentStop) := by
  obtain ⟨start, rule, stop⟩ := record
  cases stop with
  | none => exact ⟨rfl, rfl, Nat.le_max_right _ _, nofun, fun _ => rfl⟩
  | some stop => exact ⟨rfl, rfl, h stop rfl, fun _ heq => Option.some.inj heq, nofun⟩

/-- Whatever the directives are and under either policy, a tracker has one record for each range
that was opened, in the order of opening.  From one operation to the next the records only
follow on each other, a record that is closed stays what it is, and when the document ends each
record leaves one range. -/
theorem records_are_closed_once (policy : BareEnable) (operations : List Operation) :
    let tracker := Tracker.performAll ⟨policy, []⟩ operations
    tracker.records.map Record.opening = operations.flatMap Operation.opens ∧
      (∀ operation, Follows operation tracker.records (tracker.perform operation).records) ∧
      (∀ later (i : Nat) record, tracker.records[i]? = some record → record.isOpen = false →
        (tracker.performAll later).records[i]? = some record) ∧
      (∀ rules : List String, rules.Nodup → ∀ record later,
        Reaches rules later record ↔ ∃ rule ∈ rules, record.isOpenFor rule = true ∧
          ∀ other ∈ later, other.isOpenFor rule = false) ∧
      ∀ documentStop, List.Forall₂ (IsFinal documentStop) tracker.records
        (tracker.finish documentStop) := by
  intro tracker
  refine ⟨?_, follows_perform tracker, ?_, ?_, ?_⟩
  · simpa using Tracker.opening_performAll ⟨policy, []⟩ operations
  · intro later i record hrecord hclosed
    exact Tracker.closed_performAll hrecord hclosed later
  · intro rules hnodup record later
    exact reaches_iff_of_nodup hnodup
  · intro documentStop
    have hordered : ∀ record ∈ tracker.records, ∀ stop, record.stop = some stop →
        record.start ≤ stop := Tracker.start_le_stop_performAll (by simp) operations
    rw [Tracker.finish, List.forall₂_map_right_iff, List.forall₂_same]
    exact fun record hrecord => isFinal_toRange (hordered record hrecord) documentStop

/-- Directives whose starts go back and forth, the last of which lists a rule twice. -/
def backAndForth : List Operation :=
  [.disable ⟨10, 4⟩ ["a", "b"], .disable ⟨5, 9⟩ [], .disable ⟨30, 31⟩ ["a"],
    .enable ⟨20, 24⟩ ["a", "a"]]

/-- The rule that is listed twice is closed twice, and the record that starts behind the
directive ends where it starts.  What comes later changes neither. -/
theorem backAndForth_are_closed_once :
    let tracker := Tracker.performAll ⟨.trailingRun, []⟩ backAndForth
    tracker.records = [⟨10, some "a", some 20⟩, ⟨10, some "b", none⟩, ⟨5, none, none⟩,
        ⟨30, some "a", some 30⟩] ∧
      Follows (.enable ⟨7, 3⟩ []) tracker.records
        (tracker.perform (.enable ⟨7, 3⟩ [])).records ∧
      (tracker.performAll [.enable ⟨7, 3⟩ [], .enable ⟨40, 44⟩ ["a"]]).records[0]? =
        some ⟨10, some "a", some 20⟩ ∧
      List.Forall₂ (IsFinal 25) tracker.records (tracker.finish 25) := by
  intro tracker
  obtain ⟨-, hfollows, hclosed, -, hfinal⟩ := records_are_closed_once .trailingRun backAndForth
  exact ⟨by decide, hfollows _, hclosed _ 0 _ (by decide) rfl, hfinal 25⟩

end LintDirectives.Suppression
