import LintDirectives.Proofs.Suppression.Operation

/-!
# The tracker and a replay of its operations

The tracker keeps one growing list of open and closed records.  What the list
means is a moving set of open ranges: a byte is suppressed for a rule when a
range for the rule, or for every rule, is open once every directive up to that
byte has been carried out.  `Replay` is that reading, on a list that holds the
open ranges and nothing else.

There are four groups.

* The replay.  `Replay.step` carries out one operation, `Replay.run` several.
* One operation.  `openEntries_perform` says that the open records of a
  tracker move as the replay does, as long as the records are `Ordered`.
* A run.  `openEntries_performAll` is the same for operations whose starts do
  not decrease.
* Bytes.  `coversAt` says that a byte belongs to a record whatever comes
  later.  Operations that start after a byte change nothing for it, and after
  the operations up to it the records that cover it are the open ones.
  `suppressed_iff_open_in_replay` is the result.
-/

namespace LintDirectives.Suppression

/-! ## The replay -/

/-- A range that is open. -/
structure OpenEntry where
  start : Nat
  /-- The rule; `none` stands for every rule. -/
  rule : Option String
deriving DecidableEq, Repr

namespace Replay

/-- Removes the entry of `rule` that was appended last. -/
def removeLatest (entries : List OpenEntry) (rule : String) : List OpenEntry :=
  (entries.reverse.eraseP (·.rule = some rule)).reverse

/-- The greatest start of an entry. -/
def greatestStart? (entries : List OpenEntry) : Option Nat :=
  (entries.map OpenEntry.start).max?

/-- The open ranges after an operation. -/
def step (policy : BareEnable) (entries : List OpenEntry) : Operation → List OpenEntry
  | .disable span rules =>
    if rules = [] then entries ++ [⟨span.start, none⟩]
    else entries ++ rules.map fun rule => ⟨span.start, some rule⟩
  | .enable _ rules =>
    if rules = [] then
      match policy with
      | .all => []
      | .trailingRun => entries.filter fun entry => some entry.start ≠ greatestStart? entries
    else rules.foldl removeLatest entries

/-- The open ranges after several operations on no open range. -/
def run (policy : BareEnable) (operations : List Operation) : List OpenEntry :=
  operations.foldl (step policy) []

end Replay

/-! ## The open records -/

/-- The entry of an open record. -/
def Record.openEntry? (record : Record) : Option OpenEntry :=
  if record.isOpen then some ⟨record.start, record.rule⟩ else none

/-- The entries of the open ones among `records`. -/
def openEntries (records : List Record) : List OpenEntry :=
  records.filterMap Record.openEntry?

@[simp] theorem openEntries_nil : openEntries [] = [] := rfl

@[simp] theorem openEntries_append (xs ys : List Record) :
    openEntries (xs ++ ys) = openEntries xs ++ openEntries ys :=
  List.filterMap_append

@[simp] theorem openEntries_reverse (records : List Record) :
    openEntries records.reverse = (openEntries records).reverse :=
  List.filterMap_reverse

theorem openEntries_cons_of_isOpen {record : Record} (h : record.isOpen = true)
    (records : List Record) :
    openEntries (record :: records) = ⟨record.start, record.rule⟩ :: openEntries records := by
  simp [openEntries, Record.openEntry?, h]

theorem openEntries_cons_of_closed {record : Record} (h : record.isOpen = false)
    (records : List Record) : openEntries (record :: records) = openEntries records := by
  simp [openEntries, Record.openEntry?, h]

@[simp] theorem openEntries_cons_close (offset : Nat) (record : Record) (records : List Record) :
    openEntries (record.close offset :: records) = openEntries records :=
  openEntries_cons_of_closed (record.isOpen_close offset) records

theorem mem_openEntries {entry : OpenEntry} {records : List Record} :
    entry ∈ openEntries records ↔
      ∃ record ∈ records,
        record.isOpen = true ∧ (⟨record.start, record.rule⟩ : OpenEntry) = entry := by
  simp [openEntries, Record.openEntry?]

/-! ## One operation -/

theorem openEntries_map_close (offset : Nat) (records : List Record) :
    openEntries (records.map (Record.close offset)) = [] := by
  induction records with
  | nil => rfl
  | cons record records ih => simpa using ih

theorem openEntries_closeLatest (offset : Nat) (rule : String) (records : List Record) :
    openEntries (closeLatest offset rule records) =
      (openEntries records).eraseP (·.rule = some rule) := by
  induction records with
  | nil => rfl
  | cons record earlier ih =>
    unfold closeLatest
    cases hopen : record.isOpen with
    | false => simp [openEntries_cons_of_closed hopen, ih]
    | true =>
      by_cases hrule : record.rule = some rule
      · simp [openEntries_cons_of_isOpen hopen, hrule]
      · simp [openEntries_cons_of_isOpen hopen, hrule, ih]

/-- Closing a run at `marker`, in records that start there or before with the latest
first, leaves the open records that start elsewhere. -/
theorem openEntries_closeRun (offset marker : Nat) (records : List Record)
    (hsorted : records.Pairwise (·.start ≥ ·.start))
    (hmarker : ∀ record ∈ records, record.start ≤ marker) :
    openEntries (closeRun offset marker records) =
      (openEntries records).filter (·.start ≠ marker) := by
  induction records with
  | nil => rfl
  | cons record earlier ih =>
    obtain ⟨hhead, htail⟩ := List.pairwise_cons.1 hsorted
    unfold closeRun
    split
    · next hstart =>
      rw [openEntries_cons_close,
        ih htail fun other hother => hmarker other (List.mem_cons_of_mem record hother)]
      cases hopen : record.isOpen with
      | false => rw [openEntries_cons_of_closed hopen]
      | true => simp [openEntries_cons_of_isOpen hopen, hstart]
    · next hstart =>
      -- The run has ended: everything from here on starts strictly before the marker.
      have hlt : record.start < marker := by
        have := hmarker record List.mem_cons_self
        omega
      refine (List.filter_eq_self.2 fun entry hentry => ?_).symm
      obtain ⟨other, hother, -, rfl⟩ := mem_openEntries.1 hentry
      rcases List.mem_cons.1 hother with rfl | hother
      · simpa using hstart
      · have := hhead other hother
        simp only [ne_eq, decide_not, Bool.not_eq_eq_eq_not, Bool.not_true, decide_eq_false_iff_not]
        omega

/-- Closing the trailing run leaves the open records that do not start last. -/
theorem openEntries_closeTrailing (offset : Nat) (records : List Record)
    (hsorted : records.Pairwise (·.start ≥ ·.start)) :
    openEntries (closeTrailing offset records) =
      (openEntries records).filter
        fun entry => some entry.start ≠ Replay.greatestStart? (openEntries records) := by
  induction records with
  | nil => rfl
  | cons record earlier ih =>
    obtain ⟨hhead, htail⟩ := List.pairwise_cons.1 hsorted
    unfold closeTrailing
    cases hopen : record.isOpen with
    | false => simp [openEntries_cons_of_closed hopen, ih htail]
    | true =>
      have hmarker : ∀ other ∈ record :: earlier, other.start ≤ record.start := by
        intro other hother
        rcases List.mem_cons.1 hother with rfl | hother
        · exact Nat.le_refl _
        · exact hhead other hother
      have hgreatest :
          Replay.greatestStart? (openEntries (record :: earlier)) = some record.start := by
        refine List.max?_eq_some_iff.2 ⟨?_, ?_⟩
        · simp [openEntries_cons_of_isOpen hopen]
        · intro start hstart
          obtain ⟨entry, hentry, rfl⟩ := List.mem_map.1 hstart
          obtain ⟨other, hother, -, rfl⟩ := mem_openEntries.1 hentry
          exact hmarker other hother
      rw [if_pos rfl, openEntries_closeRun offset record.start _ hsorted hmarker, hgreatest]
      simp

/-- Records in the order of their starts, none of which starts after `bound`. -/
structure Ordered (bound : Nat) (records : List Record) : Prop where
  sorted : records.Pairwise (·.start ≤ ·.start)
  bounded : ∀ record ∈ records, record.start ≤ bound

namespace Ordered

variable {bound : Nat} {records : List Record}

protected theorem nil (bound : Nat) : Ordered bound [] :=
  ⟨.nil, by simp⟩

protected theorem mono {later : Nat} (h : Ordered bound records) (hle : bound ≤ later) :
    Ordered later records :=
  ⟨h.sorted, fun record hrecord => Nat.le_trans (h.bounded record hrecord) hle⟩

theorem closedSome {offset : Nat} {closed : List Record} (h : Ordered bound records)
    (hclosed : ClosedSome offset records closed) : Ordered bound closed := by
  have hstarts := hclosed.map_start
  constructor
  · have hsorted := List.pairwise_map.2 h.sorted
    rw [← hstarts] at hsorted
    exact List.pairwise_map.1 hsorted
  · intro record hrecord
    have hmem : record.start ∈ records.map Record.start :=
      hstarts ▸ List.mem_map_of_mem hrecord
    obtain ⟨old, hold, hstart⟩ := List.mem_map.1 hmem
    exact hstart ▸ h.bounded old hold

/-- An operation that starts at or after every record keeps the records in order. -/
theorem perform {tracker : Tracker} {operation : Operation}
    (h : Ordered operation.start tracker.records) :
    Ordered operation.start (tracker.perform operation).records := by
  obtain ⟨closed, opened, hrecords, hclosed, hopened⟩ := tracker.perform_records operation
  have hold := h.closedSome hclosed
  rw [hrecords]
  constructor
  · refine List.pairwise_append.2 ⟨hold.sorted, ?_, ?_⟩
    · refine List.pairwise_of_forall_mem_list fun record hrecord other hother => ?_
      exact Nat.le_of_eq ((hopened record hrecord).1.trans (hopened other hother).1.symm)
    · intro record hrecord other hother
      rw [(hopened other hother).1]
      exact hold.bounded record hrecord
  · intro record hrecord
    rcases List.mem_append.1 hrecord with hrecord | hrecord
    · exact hold.bounded record hrecord
    · exact Nat.le_of_eq (hopened record hrecord).1

end Ordered

theorem greatestStart?_reverse (entries : List OpenEntry) :
    Replay.greatestStart? entries.reverse = Replay.greatestStart? entries := by
  refine Option.ext fun start => ?_
  simp [Replay.greatestStart?, List.max?_eq_some_iff]

theorem openEntries_enable_trailing {offset : Nat} {tracker : Tracker}
    (h : tracker.records.Pairwise (·.start ≤ ·.start)) :
    openEntries (tracker.mapLatestFirst (closeTrailing offset)).records =
      (openEntries tracker.records).filter
        fun entry => some entry.start ≠ Replay.greatestStart? (openEntries tracker.records) := by
  have hlatest : tracker.records.reverse.Pairwise (·.start ≥ ·.start) :=
    List.pairwise_reverse.2 h
  rw [Tracker.mapLatestFirst, openEntries_reverse,
    openEntries_closeTrailing offset tracker.records.reverse hlatest, openEntries_reverse,
    greatestStart?_reverse, List.filter_reverse, List.reverse_reverse]

theorem openEntries_enable_rules (offset : Nat) (rules : List String) (tracker : Tracker) :
    openEntries (rules.foldl
        (fun tracker rule => tracker.mapLatestFirst (closeLatest offset rule)) tracker).records =
      rules.foldl Replay.removeLatest (openEntries tracker.records) := by
  induction rules generalizing tracker with
  | nil => rfl
  | cons rule rules ih =>
    rw [List.foldl_cons, List.foldl_cons, ih]
    simp [Tracker.mapLatestFirst, Replay.removeLatest, openEntries_closeLatest]

/-- One operation moves the open records as the replay does. -/
theorem openEntries_perform {tracker : Tracker} (operation : Operation)
    (h : tracker.records.Pairwise (·.start ≤ ·.start)) :
    openEntries (tracker.perform operation).records =
      Replay.step tracker.policy (openEntries tracker.records) operation := by
  cases operation with
  | disable span rules =>
    rw [Tracker.perform, Tracker.disable, openEntries_append]
    cases rules with
    | nil => rfl
    | cons rule rules =>
      simp [Replay.step, openEntries, Record.openEntry?, Record.isOpen, Function.comp_def,
        List.filterMap_map]
  | enable span rules =>
    cases rules with
    | nil =>
      cases hpolicy : tracker.policy with
      | all => simp [Tracker.perform, Tracker.enable, Replay.step, hpolicy, openEntries_map_close]
      | trailingRun =>
        simpa [Tracker.perform, Tracker.enable, Replay.step, hpolicy] using
          openEntries_enable_trailing h
    | cons rule rules => exact openEntries_enable_rules span.start (rule :: rules) tracker

/-! ## A run -/

/-- Operations whose starts do not decrease move the open records as the replay does. -/
theorem openEntries_performAll {tracker : Tracker} {bound : Nat} {operations : List Operation}
    (h : Ordered bound tracker.records) (hsorted : operations.Pairwise (·.start ≤ ·.start))
    (hbound : ∀ operation ∈ operations, bound ≤ operation.start) :
    openEntries (tracker.performAll operations).records =
      operations.foldl (Replay.step tracker.policy) (openEntries tracker.records) := by
  induction operations generalizing tracker bound with
  | nil => rfl
  | cons operation operations ih =>
    obtain ⟨hhead, htail⟩ := List.pairwise_cons.1 hsorted
    have hordered := h.mono (hbound operation List.mem_cons_self)
    rw [Tracker.performAll_cons, ih hordered.perform htail hhead,
      openEntries_perform operation hordered.sorted, Tracker.policy_perform, List.foldl_cons]

/-! ## Bytes -/

namespace Record

/-- The byte at `offset` belongs to the range of the record, and no later operation can
change that. -/
def coversAt (offset : Nat) (record : Record) : Bool :=
  record.start ≤ offset && record.stop.all (offset < ·)

/-- Closing a record beyond a byte changes nothing for the byte. -/
theorem coversAt_close {offset stop : Nat} (h : offset < stop) (record : Record) :
    (record.close stop).coversAt offset = record.coversAt offset := by
  unfold close
  split
  · next hopen =>
    have hstop : record.stop = none := by simpa [isOpen] using hopen
    have hlt : offset < max stop record.start := by omega
    simp [coversAt, hstop, hlt]
  · rfl

/-- Before the end of the document the range of a record holds the bytes that it covers. -/
theorem contains_toRange {offset documentStop : Nat} (h : offset < documentStop)
    (record : Record) :
    (record.toRange documentStop).span.contains offset = record.coversAt offset := by
  have hlt : offset < max documentStop record.start := by omega
  cases hstop : record.stop with
  | none => simp [toRange, Span.contains, coversAt, hstop, hlt]
  | some stop => simp [toRange, Span.contains, coversAt, hstop]

end Record

/-- Some record that covers the byte at `offset` is about `rule`, or about every rule. -/
def Covered (offset : Nat) (rule : String) (records : List Record) : Prop :=
  ∃ record ∈ records, record.coversAt offset = true ∧
    (record.rule = none ∨ record.rule = some rule)

/-- Before the end of the document a byte is suppressed when some record covers it. -/
theorem exists_mem_finish_iff {offset documentStop : Nat} (h : offset < documentStop)
    (rule : String) (tracker : Tracker) :
    (∃ range ∈ tracker.finish documentStop, (range.rule = none ∨ range.rule = some rule) ∧
        range.span.start ≤ offset ∧ offset < range.span.stop) ↔
      Covered offset rule tracker.records := by
  have hcontains := Record.contains_toRange h
  constructor
  · rintro ⟨range, hrange, hrule, hspan⟩
    obtain ⟨record, hrecord, rfl⟩ := List.mem_map.1 hrange
    exact ⟨record, hrecord, hcontains record ▸ Span.contains_eq_true.2 hspan, hrule⟩
  · rintro ⟨record, hrecord, hcovers, hrule⟩
    refine ⟨record.toRange documentStop, List.mem_map_of_mem hrecord, hrule, ?_⟩
    exact Span.contains_eq_true.1 ((hcontains record).trans hcovers)

section Later

variable {offset : Nat} (rule : String)

theorem covered_of_closedSome {stop : Nat} (hlt : offset < stop) {records closed : List Record}
    (h : ClosedSome stop records closed) :
    Covered offset rule closed ↔ Covered offset rule records := by
  induction h with
  | nil => exact Iff.rfl
  | cons hhead _ ih =>
    rcases hhead with rfl | rfl <;>
      simp only [Covered, List.exists_mem_cons_iff, Record.coversAt_close hlt,
        Record.rule_close] at ih ⊢ <;> rw [ih]

/-- An operation that starts after a byte changes nothing for the byte. -/
theorem covered_perform {tracker : Tracker} {operation : Operation}
    (hlt : offset < operation.start) :
    Covered offset rule (tracker.perform operation).records ↔
      Covered offset rule tracker.records := by
  obtain ⟨closed, opened, hrecords, hclosed, hopened⟩ := tracker.perform_records operation
  rw [hrecords, ← covered_of_closedSome rule hlt hclosed]
  constructor
  · rintro ⟨record, hrecord, hcovers, hrule⟩
    rcases List.mem_append.1 hrecord with hrecord | hrecord
    · exact ⟨record, hrecord, hcovers, hrule⟩
    · have hstart := (hopened record hrecord).1
      simp only [Record.coversAt, Bool.and_eq_true, decide_eq_true_eq] at hcovers
      omega
  · rintro ⟨record, hrecord, hcovers⟩
    exact ⟨record, List.mem_append_left opened hrecord, hcovers⟩

theorem covered_performAll {tracker : Tracker} {operations : List Operation}
    (hlt : ∀ operation ∈ operations, offset < operation.start) :
    Covered offset rule (tracker.performAll operations).records ↔
      Covered offset rule tracker.records := by
  induction operations generalizing tracker with
  | nil => exact Iff.rfl
  | cons operation operations ih =>
    rw [Tracker.performAll_cons, ih fun later hlater => hlt later (List.mem_cons_of_mem _ hlater),
      covered_perform rule (hlt operation List.mem_cons_self)]

end Later

/-- No record starts or has been closed after `offset`. -/
def SettledAt (offset : Nat) (records : List Record) : Prop :=
  ∀ record ∈ records, record.start ≤ offset ∧ ∀ stop, record.stop = some stop → stop ≤ offset

namespace SettledAt

variable {offset : Nat}

/-- An operation that starts at or before a byte settles nothing after it. -/
theorem perform {tracker : Tracker} {operation : Operation}
    (h : SettledAt offset tracker.records) (hle : operation.start ≤ offset) :
    SettledAt offset (tracker.perform operation).records := by
  obtain ⟨closed, opened, hrecords, hclosed, hopened⟩ := tracker.perform_records operation
  rw [hrecords]
  intro record hrecord
  rcases List.mem_append.1 hrecord with hrecord | hrecord
  · obtain ⟨old, hold, rfl | rfl⟩ := hclosed.exists_of_mem hrecord
    · exact h record hold
    · obtain ⟨hstart, hstop⟩ := h old hold
      refine ⟨by simpa using hstart, fun stop heq => ?_⟩
      unfold Record.close at heq
      split at heq
      · obtain rfl := Option.some.inj heq
        omega
      · exact hstop stop heq
  · obtain ⟨hstart, hstop⟩ := hopened record hrecord
    exact ⟨hstart ▸ hle, by simp [hstop]⟩

theorem performAll {tracker : Tracker} {operations : List Operation}
    (h : SettledAt offset tracker.records)
    (hle : ∀ operation ∈ operations, operation.start ≤ offset) :
    SettledAt offset (tracker.performAll operations).records := by
  induction operations generalizing tracker with
  | nil => exact h
  | cons operation operations ih =>
    exact ih (h.perform (hle operation List.mem_cons_self))
      fun later hlater => hle later (List.mem_cons_of_mem _ hlater)

/-- Among settled records those that cover the byte are the open ones. -/
theorem covered_iff {records : List Record} (h : SettledAt offset records) (rule : String) :
    Covered offset rule records ↔
      ∃ entry ∈ openEntries records, entry.rule = none ∨ entry.rule = some rule := by
  have hcovers : ∀ record ∈ records, record.coversAt offset = record.isOpen := by
    intro record hrecord
    obtain ⟨hstart, hstop⟩ := h record hrecord
    cases heq : record.stop with
    | none => simp [Record.coversAt, Record.isOpen, heq, hstart]
    | some stop =>
      have hle := hstop stop heq
      simp [Record.coversAt, Record.isOpen, heq, hle]
  constructor
  · rintro ⟨record, hrecord, hcover, hrule⟩
    rw [hcovers record hrecord] at hcover
    exact ⟨_, mem_openEntries.2 ⟨record, hrecord, hcover, rfl⟩, hrule⟩
  · rintro ⟨entry, hentry, hrule⟩
    obtain ⟨record, hrecord, hopen, rfl⟩ := mem_openEntries.1 hentry
    exact ⟨record, hrecord, (hcovers record hrecord).trans hopen, hrule⟩

end SettledAt

/-- Operations in the order of their starts are those up to a byte and then those after it. -/
theorem filter_append_filter_start {operations : List Operation}
    (hsorted : operations.Pairwise (·.start ≤ ·.start)) (offset : Nat) :
    operations.filter (·.start ≤ offset) ++ operations.filter (offset < ·.start) = operations := by
  induction operations with
  | nil => rfl
  | cons operation operations ih =>
    obtain ⟨hhead, htail⟩ := List.pairwise_cons.1 hsorted
    by_cases hle : operation.start ≤ offset
    · have hlt : ¬ offset < operation.start := by omega
      simp [hle, hlt, ih htail]
    · have hlater : ∀ later ∈ operation :: operations, offset < later.start := by
        intro later hmem
        rcases List.mem_cons.1 hmem with rfl | hmem
        · omega
        · have := hhead later hmem
          omega
      rw [List.filter_eq_nil_iff.2, List.filter_eq_self.2, List.nil_append]
      · exact fun later hmem => decide_eq_true (hlater later hmem)
      · intro later hmem
        have := hlater later hmem
        simpa using this

/-- A byte before the end of the document is suppressed for a rule exactly when, after
the operations that start at or before it, the replay holds an open range for the rule
or for every rule. -/
theorem suppressed_iff_open_in_replay (policy : BareEnable) (operations : List Operation)
    (hsorted : operations.Pairwise (·.start ≤ ·.start)) {offset documentStop : Nat}
    (hoffset : offset < documentStop) (rule : String) :
    (∃ range ∈ (Tracker.performAll ⟨policy, []⟩ operations).finish documentStop,
        (range.rule = none ∨ range.rule = some rule) ∧
          range.span.start ≤ offset ∧ offset < range.span.stop) ↔
      ∃ entry ∈ Replay.run policy (operations.filter (·.start ≤ offset)),
        entry.rule = none ∨ entry.rule = some rule := by
  let start : Tracker := ⟨policy, []⟩
  let earlier := operations.filter (·.start ≤ offset)
  let later := operations.filter (offset < ·.start)
  have hsplit : earlier ++ later = operations := filter_append_filter_start hsorted offset
  have hlater : ∀ operation ∈ later, offset < operation.start := by simp [later]
  have hearlier : ∀ operation ∈ earlier, operation.start ≤ offset := by simp [earlier]
  have hsettled : SettledAt offset (start.performAll earlier).records :=
    SettledAt.performAll (by simp [SettledAt, start]) hearlier
  have hopen : openEntries (start.performAll earlier).records = Replay.run policy earlier :=
    openEntries_performAll (.nil 0) (hsorted.filter _) fun _ _ => Nat.zero_le _
  calc (∃ range ∈ (start.performAll operations).finish documentStop,
        (range.rule = none ∨ range.rule = some rule) ∧
          range.span.start ≤ offset ∧ offset < range.span.stop)
      ↔ Covered offset rule (start.performAll operations).records :=
        exists_mem_finish_iff hoffset rule _
    _ ↔ Covered offset rule (start.performAll earlier).records := by
        rw [← hsplit, Tracker.performAll_append, covered_performAll rule hlater]
    _ ↔ ∃ entry ∈ Replay.run policy earlier, entry.rule = none ∨ entry.rule = some rule := by
        rw [hsettled.covered_iff rule, hopen]

/-- Two ranges for a rule, one in the other, and one for a second rule.  The last directive
has no rules. -/
def nestedOperations : List Operation :=
  [.disable ⟨0, 4⟩ ["a"], .disable ⟨10, 14⟩ ["a", "b"], .enable ⟨20, 24⟩ ["a"], .enable ⟨30, 34⟩ []]

/-- The outer range is open to the end, so the first rule is suppressed there. -/
theorem suppressed_in_nested_operations :
    nestedOperations.Pairwise (·.start ≤ ·.start) ∧ 30 < 40 ∧
      Replay.run .trailingRun (nestedOperations.filter (·.start ≤ 30)) = [⟨0, some "a"⟩] ∧
      ∃ range ∈ (Tracker.performAll ⟨.trailingRun, []⟩ nestedOperations).finish 40,
        (range.rule = none ∨ range.rule = some "a") ∧
          range.span.start ≤ 30 ∧ 30 < range.span.stop := by
  have hsorted : nestedOperations.Pairwise (·.start ≤ ·.start) := by decide
  have hlt : 30 < 40 := by decide
  have hreplay : Replay.run .trailingRun (nestedOperations.filter (·.start ≤ 30)) =
      [⟨0, some "a"⟩] := by decide
  refine ⟨hsorted, hlt, hreplay, ?_⟩
  rw [suppressed_iff_open_in_replay .trailingRun nestedOperations hsorted hlt "a", hreplay]
  exact ⟨⟨0, some "a"⟩, List.mem_singleton_self _, .inr rfl⟩

end LintDirectives.Suppression
