import LintDirectives.Proofs.Suppression.Apply
import LintDirectives.Proofs.Suppression.Operation

/-!
# Rules that do not interfere

All rules share one list of records, and closing a range is a search through
that list.  Still the ranges of one rule do not depend on the directives for
another one, except through an enable directive without rules under the policy
`trailingRun`: what is the latest disable directive depends on all of them.

There are three groups.

* Leaving a rule out.  `Operation.without?` leaves a rule out of a directive,
  and `Tracker.without` leaves its records out of a tracker.
* One operation.  Leaving a rule out before an operation is leaving it out
  afterwards (`without_perform`).
* The result.  `other_ranges_without_rule` compares the ranges of a document
  with those of the document that never names the rule.
-/

namespace LintDirectives.Suppression

/-! ## Leaving a rule out -/

/-- The rules of a directive other than `rule`; `none` when `rule` is the only one. -/
def rulesWithout? (rule : String) (rules : List String) : Option (List String) :=
  if rules ≠ [] ∧ rules.filter (· ≠ rule) = [] then none else some (rules.filter (· ≠ rule))

section Rules

variable {rule : String} {rules : List String}

/-- A directive for every rule stays what it is. -/
theorem rulesWithout?_nil (rule : String) : rulesWithout? rule [] = some [] := rfl

theorem rulesWithout?_of_filter_eq_nil (hrules : rules ≠ [])
    (hkept : rules.filter (· ≠ rule) = []) : rulesWithout? rule rules = none :=
  if_pos ⟨hrules, hkept⟩

theorem rulesWithout?_of_filter_ne_nil (hkept : rules.filter (· ≠ rule) ≠ []) :
    rulesWithout? rule rules = some (rules.filter (· ≠ rule)) :=
  if_neg fun h => hkept h.2

end Rules

namespace Operation

/-- The directive without `rule`; `none` when it is for that rule only. -/
def without? (rule : String) : Operation → Option Operation
  | .disable span rules => (rulesWithout? rule rules).map (.disable span)
  | .enable span rules => (rulesWithout? rule rules).map (.enable span)

end Operation

/-- The records that are not for `rule`. -/
def recordsWithout (rule : String) (records : List Record) : List Record :=
  records.filter (·.rule ≠ some rule)

/-- The tracker without the records for `rule`. -/
def Tracker.without (rule : String) (tracker : Tracker) : Tracker :=
  { tracker with records := recordsWithout rule tracker.records }

section Records

variable {rule : String}

theorem recordsWithout_append (xs ys : List Record) :
    recordsWithout rule (xs ++ ys) = recordsWithout rule xs ++ recordsWithout rule ys :=
  List.filter_append xs ys

theorem recordsWithout_reverse (records : List Record) :
    recordsWithout rule records.reverse = (recordsWithout rule records).reverse :=
  List.filter_reverse

theorem recordsWithout_cons_of_eq {record : Record} (h : record.rule = some rule)
    (records : List Record) :
    recordsWithout rule (record :: records) = recordsWithout rule records := by
  simp [recordsWithout, h]

theorem recordsWithout_cons_of_ne {record : Record} (h : record.rule ≠ some rule)
    (records : List Record) :
    recordsWithout rule (record :: records) = record :: recordsWithout rule records := by
  simp [recordsWithout, h]

theorem recordsWithout_map_close (offset : Nat) (records : List Record) :
    recordsWithout rule (records.map (Record.close offset)) =
      (recordsWithout rule records).map (Record.close offset) := by
  simp [recordsWithout, List.filter_map, Function.comp_def]

/-- Closing a range of the rule closes nothing else. -/
theorem recordsWithout_closeLatest_self (offset : Nat) (records : List Record) :
    recordsWithout rule (closeLatest offset rule records) = recordsWithout rule records := by
  induction records with
  | nil => rfl
  | cons record earlier ih =>
    unfold closeLatest
    split
    · next hfound =>
      have hrule : record.rule = some rule := by
        simp only [Bool.and_eq_true, decide_eq_true_eq] at hfound
        exact hfound.2
      have hclose : (record.close offset).rule = some rule := by rw [Record.rule_close, hrule]
      rw [recordsWithout_cons_of_eq hclose, recordsWithout_cons_of_eq hrule]
    · by_cases hrule : record.rule = some rule
      · rw [recordsWithout_cons_of_eq hrule, recordsWithout_cons_of_eq hrule, ih]
      · rw [recordsWithout_cons_of_ne hrule, recordsWithout_cons_of_ne hrule, ih]

/-- The latest range of another rule is the same one among the other records. -/
theorem recordsWithout_closeLatest_of_ne {other : String} (hother : other ≠ rule) (offset : Nat)
    (records : List Record) :
    recordsWithout rule (closeLatest offset other records) =
      closeLatest offset other (recordsWithout rule records) := by
  induction records with
  | nil => rfl
  | cons record earlier ih =>
    by_cases hrule : record.rule = some rule
    · have hskip : ¬ (record.isOpen && record.rule = some other) = true := by
        simp [hrule, Ne.symm hother]
      rw [closeLatest, if_neg hskip, recordsWithout_cons_of_eq hrule,
        recordsWithout_cons_of_eq hrule, ih]
    · rw [recordsWithout_cons_of_ne hrule, closeLatest, closeLatest]
      split
      · have hclose : (record.close offset).rule ≠ some rule := by rwa [Record.rule_close]
        rw [recordsWithout_cons_of_ne hclose]
      · rw [recordsWithout_cons_of_ne hrule, ih]

/-- What a disable directive opens for the rules other than `rule`. -/
theorem recordsWithout_openedRecords {rules : List String} (hrules : rules ≠ []) (start : Nat) :
    recordsWithout rule (openedRecords start rules) =
      (rules.filter (· ≠ rule)).map fun name => ⟨start, some name, none⟩ := by
  rw [openedRecords_of_ne_nil hrules, recordsWithout, List.filter_map]
  simp [Function.comp_def]

end Records

/-! ## One operation -/

namespace Tracker

variable {rule : String} {tracker : Tracker}

@[simp] theorem records_without (rule : String) (tracker : Tracker) :
    (tracker.without rule).records = recordsWithout rule tracker.records := rfl

@[simp] theorem mapLatestFirst_id (tracker : Tracker) : tracker.mapLatestFirst id = tracker := by
  simp [mapLatestFirst]

/-- A change of the records that does not mind the rule, on a tracker. -/
theorem without_mapLatestFirst {f g : List Record → List Record}
    (h : ∀ records, recordsWithout rule (f records) = g (recordsWithout rule records)) :
    (tracker.mapLatestFirst f).without rule = (tracker.without rule).mapLatestFirst g := by
  simp only [without, mapLatestFirst, recordsWithout_reverse, h]

/-- Only the open ranges that a directive asks for are left out. -/
theorem without_disable (offset : Nat) (rules : List String) :
    (tracker.disable offset rules).without rule =
      { tracker with
        records := recordsWithout rule tracker.records ++
          recordsWithout rule (openedRecords offset rules) } := by
  rw [disable_eq, without, recordsWithout_append]

theorem without_enableEach (offset : Nat) (rules : List String) :
    (tracker.enableEach offset rules).without rule =
      (tracker.without rule).enableEach offset (rules.filter (· ≠ rule)) := by
  induction rules generalizing tracker with
  | nil => rfl
  | cons name rules ih =>
    rw [enableEach_cons, ih]
    by_cases hname : name = rule
    · subst hname
      have hself : (tracker.mapLatestFirst (closeLatest offset name)).without name =
          (tracker.without name).mapLatestFirst id :=
        without_mapLatestFirst (recordsWithout_closeLatest_self offset)
      rw [hself, mapLatestFirst_id, List.filter_cons_of_neg (by simp)]
    · have hother : (tracker.mapLatestFirst (closeLatest offset name)).without rule =
          (tracker.without rule).mapLatestFirst (closeLatest offset name) :=
        without_mapLatestFirst (recordsWithout_closeLatest_of_ne hname offset)
      rw [hother, List.filter_cons_of_pos (by simpa using hname), enableEach_cons]

/-- Under the policy `all` a directive without rules treats all rules alike. -/
theorem without_enable_nil (hpolicy : tracker.policy = .all) (offset : Nat) :
    (tracker.enable offset []).without rule = (tracker.without rule).enable offset [] := by
  simp [enable, hpolicy, without, recordsWithout_map_close]

/-- A directive without `rule` does to a tracker without it what the whole directive does. -/
theorem without_perform (operation : Operation)
    (h : tracker.policy = .all ∨ operation.isBareEnable = false) :
    (tracker.perform operation).without rule =
      (tracker.without rule).performAll (operation.without? rule).toList := by
  cases operation with
  | disable span rules =>
    rw [perform, Operation.without?, without_disable]
    by_cases hrules : rules = []
    · subst hrules
      have hopened : recordsWithout rule (openedRecords span.start []) =
          openedRecords span.start [] := recordsWithout_cons_of_ne (by simp) []
      rw [hopened, rulesWithout?_nil]
      rfl
    · rw [recordsWithout_openedRecords hrules]
      by_cases hkept : rules.filter (· ≠ rule) = []
      · rw [rulesWithout?_of_filter_eq_nil hrules hkept, hkept, List.map_nil, List.append_nil]
        rfl
      · rw [rulesWithout?_of_filter_ne_nil hkept, ← openedRecords_of_ne_nil hkept]
        rfl
  | enable span rules =>
    rw [perform, Operation.without?]
    by_cases hrules : rules = []
    · subst hrules
      have hpolicy : tracker.policy = .all := by simpa [Operation.isBareEnable] using h
      rw [rulesWithout?_nil]
      exact without_enable_nil hpolicy span.start
    · rw [enable_of_ne_nil hrules, without_enableEach]
      by_cases hkept : rules.filter (· ≠ rule) = []
      · rw [rulesWithout?_of_filter_eq_nil hrules hkept, hkept]
        rfl
      · rw [rulesWithout?_of_filter_ne_nil hkept, ← enable_of_ne_nil hkept]
        rfl

/-! ## The result -/

theorem without_performAll {operations : List Operation}
    (h : tracker.policy = .all ∨ ∀ operation ∈ operations, operation.isBareEnable = false) :
    (tracker.performAll operations).without rule =
      (tracker.without rule).performAll (operations.filterMap (·.without? rule)) := by
  induction operations generalizing tracker with
  | nil => rfl
  | cons operation operations ih =>
    have hhead : tracker.policy = .all ∨ operation.isBareEnable = false :=
      h.imp_right fun hall => hall operation List.mem_cons_self
    have htail : (tracker.perform operation).policy = .all ∨
        ∀ later ∈ operations, later.isBareEnable = false := by
      rw [policy_perform]
      exact h.imp_right fun hall later hlater => hall later (List.mem_cons_of_mem _ hlater)
    rw [performAll_cons, ih htail, without_perform operation hhead, ← performAll_append]
    cases hleft : operation.without? rule <;> simp [hleft]

end Tracker

/-- The ranges that are not for `rule` are those of the document that never names it, when no
directive looks for the latest disable directive.  So reports of other rules are suppressed in
the same places. -/
theorem other_ranges_without_rule (policy : BareEnable) (operations : List Operation)
    (h : policy = .all ∨ ∀ operation ∈ operations, operation.isBareEnable = false)
    (rule : String) (documentStop : Nat) :
    let ranges := (Tracker.performAll ⟨policy, []⟩ operations).finish documentStop
    let without := (Tracker.performAll ⟨policy, []⟩
      (operations.filterMap (·.without? rule))).finish documentStop
    ranges.filter (·.rule ≠ some rule) = without ∧
      ∀ offset other, other ≠ rule → SuppressedRange.ignored ranges offset other =
        SuppressedRange.ignored without offset other := by
  intro ranges without
  have htracker : (Tracker.performAll ⟨policy, []⟩ operations).without rule =
      Tracker.performAll ⟨policy, []⟩ (operations.filterMap (·.without? rule)) :=
    Tracker.without_performAll h
  have hranges : ranges.filter (·.rule ≠ some rule) = without := by
    simp only [ranges, without, ← htracker, Tracker.finish, Tracker.records_without]
    rw [recordsWithout, List.filter_map]
    rfl
  refine ⟨hranges, ?_⟩
  intro offset other hother
  have hpoint : ∀ range : SuppressedRange, range.suppresses offset other =
      (decide (range.rule ≠ some rule) && range.suppresses offset other) := by
    intro range
    by_cases hrule : range.rule = some rule
    · simp [SuppressedRange.suppresses, hrule, Ne.symm hother]
    · simp [hrule]
  rw [← hranges, SuppressedRange.ignored, SuppressedRange.ignored, List.any_filter]
  exact congrArg ranges.any (funext hpoint)

/-- Directives for two rules, together and apart, and one without rules. -/
def sharedOperations : List Operation :=
  [.disable ⟨0, 4⟩ ["a", "b"], .disable ⟨10, 14⟩ ["b"], .enable ⟨20, 24⟩ ["b", "a"],
    .disable ⟨30, 34⟩ ["b"], .enable ⟨40, 44⟩ []]

/-- The ranges for the first rule are what the directives leave when the second one is left
out. -/
theorem sharedOperations_without_rule :
    let ranges := (Tracker.performAll ⟨.all, []⟩ sharedOperations).finish 50
    let apart : List Operation :=
      [.disable ⟨0, 4⟩ ["a"], .enable ⟨20, 24⟩ ["a"], .enable ⟨40, 44⟩ []]
    sharedOperations.filterMap (·.without? "b") = apart ∧
      ranges.filter (·.rule ≠ some "b") = (Tracker.performAll ⟨.all, []⟩ apart).finish 50 ∧
      ranges.filter (·.rule ≠ some "b") = [⟨⟨0, 20⟩, some "a"⟩] := by
  intro ranges apart
  have hpolicy : BareEnable.all = .all ∨
      ∀ operation ∈ sharedOperations, operation.isBareEnable = false := .inl rfl
  have hapart : sharedOperations.filterMap (·.without? "b") = apart := by decide
  obtain ⟨hranges, -⟩ := other_ranges_without_rule .all sharedOperations hpolicy "b" 50
  rw [hapart] at hranges
  exact ⟨hapart, hranges, by decide⟩

/-- Under `trailingRun` a disable directive for another rule can keep an enable directive without
rules from closing a range. -/
example :
    let operations : List Operation :=
      [.disable ⟨0, 4⟩ ["a"], .disable ⟨10, 14⟩ ["b"], .enable ⟨20, 24⟩ []]
    let finish := fun operations => (Tracker.performAll ⟨.trailingRun, []⟩ operations).finish 30
    (finish operations).filter (·.rule ≠ some "b") = [⟨⟨0, 30⟩, some "a"⟩] ∧
      finish (operations.filterMap (·.without? "b")) = [⟨⟨0, 20⟩, some "a"⟩] := by
  decide

end LintDirectives.Suppression
