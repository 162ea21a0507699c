import LintDirectives.Suppression
import Mathlib.Data.List.Forall2

/-!
# Operations on a tracker

A tracker is driven by the disable and enable directives of a document.  This
module says once what one of them can do to the records, for every policy and
for spans in any order.

There are four groups.

* The operations.  `Operation` is a directive with the span of its comment,
  `Tracker.perform` hands it to the tracker, and `Tracker.performAll` does so
  with several.
* What directives ask for.  `openedRecords` are the records that a disable
  directive appends, and `Tracker.enableEach` is what an enable directive with
  rules does.
* The records that closing leaves.  `ClosedSome` relates two lists of records
  of which the second is the first with some members closed at one offset.
* One operation.  `perform_records` is the inversion lemma: an operation
  closes some of the records at its own start and appends open records that
  start there.
-/

namespace LintDirectives.Suppression

/-! ## The operations -/

/-- A disable or an enable directive. -/
inductive Operation where
  /-- Stop reporting `rules`, or every rule, from the start of `span` on. -/
  | disable (span : Span) (rules : List String)
  /-- Report `rules`, or what the policy names, from the start of `span` on. -/
  | enable (span : Span) (rules : List String)
deriving DecidableEq, Repr

/-- Where the comment of an operation starts. -/
def Operation.start : Operation → Nat
  | .disable span _ => span.start
  | .enable span _ => span.start

/-- The directive enables without naming a rule. -/
def Operation.isBareEnable : Operation → Bool
  | .disable _ _ => false
  | .enable _ rules => rules.isEmpty

namespace Tracker

/-- Hands an operation to the tracker. -/
def perform (tracker : Tracker) : Operation → Tracker
  | .disable span rules => tracker.disable span.start rules
  | .enable span rules => tracker.enable span.start rules

/-- Hands several operations to the tracker, one after the other. -/
def performAll (tracker : Tracker) (operations : List Operation) : Tracker :=
  operations.foldl perform tracker

@[simp] theorem performAll_nil (tracker : Tracker) : tracker.performAll [] = tracker := rfl

@[simp] theorem performAll_cons (tracker : Tracker) (operation : Operation)
    (operations : List Operation) :
    tracker.performAll (operation :: operations) =
      (tracker.perform operation).performAll operations := rfl

theorem performAll_append (tracker : Tracker) (xs ys : List Operation) :
    tracker.performAll (xs ++ ys) = (tracker.performAll xs).performAll ys :=
  List.foldl_append

end Tracker

/-! ## What directives ask for -/

/-- The open ranges of a disable directive at `start`: one for each of `rules`, or one for every
rule. -/
def openedRecords (start : Nat) (rules : List String) : List Record :=
  if rules.isEmpty then [⟨start, none, none⟩] else rules.map fun rule => ⟨start, some rule, none⟩

@[simp] theorem openedRecords_nil (start : Nat) : openedRecords start [] = [⟨start, none, none⟩] :=
  rfl

theorem openedRecords_of_ne_nil {rules : List String} (h : rules ≠ []) (start : Nat) :
    openedRecords start rules = rules.map fun rule => ⟨start, some rule, none⟩ :=
  if_neg (by simpa using h)

theorem openedRecords_ne_nil (start : Nat) (rules : List String) :
    openedRecords start rules ≠ [] := by
  cases rules with
  | nil => simp
  | cons rule rules => simp [openedRecords_of_ne_nil]

/-- What a disable directive opens is open and starts where the directive stands. -/
theorem of_mem_openedRecords {start : Nat} {rules : List String} {record : Record}
    (h : record ∈ openedRecords start rules) : record.isOpen = true ∧ record.start = start := by
  cases rules with
  | nil =>
    obtain rfl := List.mem_singleton.1 h
    exact ⟨rfl, rfl⟩
  | cons rule rules =>
    rw [openedRecords_of_ne_nil (by simp)] at h
    obtain ⟨name, -, rfl⟩ := List.mem_map.1 h
    exact ⟨rfl, rfl⟩

namespace Tracker

/-- Closes at `offset` the latest open range of each of `rules`. -/
def enableEach (offset : Nat) (rules : List String) (tracker : Tracker) : Tracker :=
  rules.foldl (fun tracker rule => tracker.mapLatestFirst (closeLatest offset rule)) tracker

@[simp] theorem enableEach_nil (offset : Nat) (tracker : Tracker) :
    tracker.enableEach offset [] = tracker := rfl

@[simp] theorem enableEach_cons (offset : Nat) (rule : String) (rules : List String)
    (tracker : Tracker) :
    tracker.enableEach offset (rule :: rules) =
      (tracker.mapLatestFirst (closeLatest offset rule)).enableEach offset rules := rfl

theorem disable_eq (start : Nat) (rules : List String) (tracker : Tracker) :
    tracker.disable start rules =
      { tracker with records := tracker.records ++ openedRecords start rules } := rfl

theorem enable_of_ne_nil {rules : List String} (h : rules ≠ []) (offset : Nat)
    (tracker : Tracker) : tracker.enable offset rules = tracker.enableEach offset rules :=
  if_neg (by simpa using h)

end Tracker

/-! ## The records that closing leaves -/

namespace Record

@[simp] theorem start_close (offset : Nat) (record : Record) :
    (record.close offset).start = record.start := by
  unfold close
  split <;> rfl

@[simp] theorem rule_close (offset : Nat) (record : Record) :
    (record.close offset).rule = record.rule := by
  unfold close
  split <;> rfl

@[simp] theorem isOpen_close (offset : Nat) (record : Record) :
    (record.close offset).isOpen = false := by
  unfold close
  split
  · rfl
  · next h => simpa using h

theorem close_of_isOpen_eq_false {record : Record} (h : record.isOpen = false) (offset : Nat) :
    record.close offset = record := by
  simp [close, h]

theorem close_close (offset : Nat) (record : Record) :
    (record.close offset).close offset = record.close offset :=
  close_of_isOpen_eq_false (record.isOpen_close offset) offset

end Record

/-- `closed` is `records` with some of the members closed at `offset`. -/
def ClosedSome (offset : Nat) (records closed : List Record) : Prop :=
  List.Forall₂ (fun record after => after = record ∨ after = record.close offset) records closed

namespace ClosedSome

variable {offset : Nat} {records closed : List Record}

protected theorem refl (offset : Nat) (records : List Record) :
    ClosedSome offset records records :=
  List.forall₂_same.2 fun _ _ => .inl rfl

/-- Closing twice at one offset is closing once. -/
protected theorem trans {after : List Record} (h₁ : ClosedSome offset records closed)
    (h₂ : ClosedSome offset closed after) : ClosedSome offset records after := by
  induction h₁ generalizing after with
  | nil => exact h₂
  | @cons record middle _ _ hhead _ ih =>
    cases h₂ with
    | cons hnext htail =>
      refine .cons ?_ (ih htail)
      rcases hhead with rfl | rfl
      · exact hnext
      · rcases hnext with rfl | rfl
        · exact .inr rfl
        · exact .inr (record.close_close offset)

protected theorem reverse (h : ClosedSome offset records closed) :
    ClosedSome offset records.reverse closed.reverse :=
  List.forall₂_reverse_iff.2 h

/-- Closing moves no start. -/
theorem map_start (h : ClosedSome offset records closed) :
    closed.map Record.start = records.map Record.start := by
  induction h with
  | nil => rfl
  | cons hhead _ ih =>
    rcases hhead with rfl | rfl <;> simp [ih]

theorem exists_of_mem (h : ClosedSome offset records closed) {record : Record}
    (hrecord : record ∈ closed) :
    ∃ old ∈ records, record = old ∨ record = old.close offset := by
  induction h with
  | nil => simp at hrecord
  | @cons old after _ _ hhead _ ih =>
    rcases List.mem_cons.1 hrecord with rfl | hrecord
    · exact ⟨old, List.mem_cons_self, hhead⟩
    · obtain ⟨other, hother, heq⟩ := ih hrecord
      exact ⟨other, List.mem_cons_of_mem old hother, heq⟩

theorem map_close (offset : Nat) (records : List Record) :
    ClosedSome offset records (records.map (Record.close offset)) :=
  List.forall₂_map_right_iff.2 (List.forall₂_same.2 fun _ _ => .inr rfl)

theorem closeLatest (offset : Nat) (rule : String) (records : List Record) :
    ClosedSome offset records (closeLatest offset rule records) := by
  induction records with
  | nil => exact .nil
  | cons record earlier ih =>
    unfold Suppression.closeLatest
    split
    · exact .cons (.inr rfl) (ClosedSome.refl offset earlier)
    · exact .cons (.inl rfl) ih

theorem closeRun (offset marker : Nat) (records : List Record) :
    ClosedSome offset records (closeRun offset marker records) := by
  induction records with
  | nil => exact .nil
  | cons record earlier ih =>
    unfold Suppression.closeRun
    split
    · exact .cons (.inr rfl) ih
    · exact .refl offset (record :: earlier)

theorem closeTrailing (offset : Nat) (records : List Record) :
    ClosedSome offset records (closeTrailing offset records) := by
  induction records with
  | nil => exact .nil
  | cons record earlier ih =>
    unfold Suppression.closeTrailing
    split
    · exact .closeRun offset record.start (record :: earlier)
    · exact .cons (.inl rfl) ih

end ClosedSome

/-! ## One operation -/

namespace Tracker

/-- A change that closes some of the records listed latest first closes some of the
records of the tracker. -/
theorem closedSome_mapLatestFirst {offset : Nat} {f : List Record → List Record}
    (hf : ∀ records, ClosedSome offset records (f records)) (tracker : Tracker) :
    ClosedSome offset tracker.records (tracker.mapLatestFirst f).records := by
  simpa [mapLatestFirst] using (hf tracker.records.reverse).reverse

theorem closedSome_enableEach (offset : Nat) (rules : List String) (tracker : Tracker) :
    ClosedSome offset tracker.records (tracker.enableEach offset rules).records := by
  induction rules generalizing tracker with
  | nil => exact .refl offset tracker.records
  | cons rule rules ih =>
    have hlatest := tracker.closedSome_mapLatestFirst (.closeLatest offset rule)
    exact hlatest.trans (ih _)

/-- An enable directive closes some of the records at its start. -/
theorem closedSome_enable (offset : Nat) (rules : List String) (tracker : Tracker) :
    ClosedSome offset tracker.records (tracker.enable offset rules).records := by
  cases rules with
  | nil =>
    simp only [enable, List.isEmpty_nil, if_true]
    split
    · exact .map_close offset tracker.records
    · exact tracker.closedSome_mapLatestFirst (.closeTrailing offset)
  | cons rule rules =>
    rw [enable_of_ne_nil (by simp)]
    exact tracker.closedSome_enableEach offset (rule :: rules)

/-- What an operation does to the records: some are closed at its start, and open ones
that start there come after them. -/
theorem perform_records (tracker : Tracker) (operation : Operation) :
    ∃ closed opened, (tracker.perform operation).records = closed ++ opened ∧
      ClosedSome operation.start tracker.records closed ∧
      ∀ record ∈ opened, record.start = operation.start ∧ record.stop = none := by
  cases operation with
  | disable span rules =>
    refine ⟨tracker.records, openedRecords span.start rules, rfl, .refl _ _, ?_⟩
    intro record hrecord
    obtain ⟨hopen, hstart⟩ := of_mem_openedRecords hrecord
    exact ⟨hstart, by simpa [Record.isOpen] using hopen⟩
  | enable span rules =>
    exact ⟨_, [], (List.append_nil _).symm, tracker.closedSome_enable span.start rules, by simp⟩

@[simp] theorem policy_mapLatestFirst (f : List Record → List Record) (tracker : Tracker) :
    (tracker.mapLatestFirst f).policy = tracker.policy := rfl

@[simp] theorem policy_enableEach (offset : Nat) (rules : List String) (tracker : Tracker) :
    (tracker.enableEach offset rules).policy = tracker.policy := by
  induction rules generalizing tracker with
  | nil => rfl
  | cons rule rules ih => rw [enableEach_cons, ih, policy_mapLatestFirst]

/-- No operation changes the policy. -/
@[simp] theorem policy_perform (tracker : Tracker) (operation : Operation) :
    (tracker.perform operation).policy = tracker.policy := by
  cases operation with
  | disable span rules => rfl
  | enable span rules =>
    cases rules with
    | nil =>
      simp only [perform, enable, List.isEmpty_nil, if_true]
      split <;> rfl
    | cons rule rules =>
      rw [perform, enable_of_ne_nil (by simp), policy_enableEach]

@[simp] theorem policy_performAll (tracker : Tracker) (operations : List Operation) :
    (tracker.performAll operations).policy = tracker.policy := by
  induction operations generalizing tracker with
  | nil => rfl
  | cons operation operations ih => rw [performAll_cons, ih, policy_perform]

end Tracker

end LintDirectives.Suppression
