import LintDirectives.Proofs.Suppression.Replay

/-!
# Directives that nest

An enable directive names no disable directive: it closes what the tracker finds
from the end of its records backwards.  Where directives stand like brackets it
still finds what its own disable directive opened, although closed ranges of the
same rules and ranges of other directives lie in between.

There are four groups.

* Brackets.  `Bracketing` is what nests, with the directives that it stands
  for and the ranges that it leaves.
* Searching backwards.  What closing does to records of which the latest ones
  are of no interest to it.
* One pair.  `records_enable_pair` says what the closing directive of a pair
  does after what stands inside has been closed.
* The result.  `records_performAll_bracketing` is the induction over the
  brackets, and `bracketing_closes_what_it_opens` is the statement for a tracker
  that has been driven by any directives before.
-/

namespace LintDirectives.Suppression

/-! ## Brackets -/

/-- Directives that disable and enable like brackets. -/
inductive Bracketing where
  /-- No directive. -/
  | empty
  /-- Brackets one after the other. -/
  | append (first second : Bracketing)
  /-- A disable directive for `rules`, brackets inside, and an enable directive that lists the
  same rules, or none when it is `bare`. -/
  | pair (opening : Span) (rules : List String) (nodup : rules.Nodup) (inner : Bracketing)
      (closing : Span) (bare : Bool)

/-- The ranges of a disable directive at `start` that have been closed at `stop`. -/
def closedRecords (start stop : Nat) (rules : List String) : List Record :=
  (openedRecords start rules).map fun record => { record with stop := some stop }

namespace Bracketing

/-- The directives, in the order of the document. -/
def operations : Bracketing → List Operation
  | empty => []
  | append first second => first.operations ++ second.operations
  | pair opening rules _ inner closing bare =>
    .disable opening rules :: (inner.operations ++ [.enable closing (if bare then [] else rules)])

/-- The ranges, in the order in which they are opened.  Each ends where its own pair ends. -/
def records : Bracketing → List Record
  | empty => []
  | append first second => first.records ++ second.records
  | pair opening rules _ inner closing _ =>
    closedRecords opening.start closing.start rules ++ inner.records

theorem isOpen_of_mem_records {brackets : Bracketing} {record : Record}
    (h : record ∈ brackets.records) : record.isOpen = false := by
  induction brackets with
  | empty => simp [records] at h
  | append first second ihfirst ihsecond =>
    rcases List.mem_append.1 h with h | h
    · exact ihfirst h
    · exact ihsecond h
  | pair opening rules nodup inner closing bare ih =>
    rcases List.mem_append.1 h with h | h
    · obtain ⟨opened, -, rfl⟩ := List.mem_map.1 h
      rfl
    · exact ih h

end Bracketing

/-! ## Searching backwards -/

section Backwards

variable {offset marker : Nat} {rule : String} {later run earlier : List Record}

/-- Closed records do not stop the search for the trailing run. -/
theorem closeTrailing_append_of_closed (h : ∀ record ∈ later, record.isOpen = false) :
    closeTrailing offset (later ++ earlier) = later ++ closeTrailing offset earlier := by
  induction later with
  | nil => rfl
  | cons record later ih =>
    have hhead : record.isOpen = false := h record List.mem_cons_self
    have htail := ih fun other hother => h other (List.mem_cons_of_mem record hother)
    rw [List.cons_append, closeTrailing, hhead, htail]
    rfl

/-- A run ends before the first record that starts elsewhere. -/
theorem closeRun_append (hrun : ∀ record ∈ run, record.start = marker)
    (hearlier : ∀ record ∈ earlier, record.start ≠ marker) :
    closeRun offset marker (run ++ earlier) = run.map (Record.close offset) ++ earlier := by
  induction run with
  | nil =>
    cases earlier with
    | nil => rfl
    | cons record earlier =>
      have hne : record.start ≠ marker := hearlier record List.mem_cons_self
      rw [List.nil_append, closeRun, if_neg hne]
      rfl
  | cons record run ih =>
    have hstart : record.start = marker := hrun record List.mem_cons_self
    have htail := ih fun other hother => hrun other (List.mem_cons_of_mem record hother)
    rw [List.cons_append, closeRun, if_pos hstart, htail]
    rfl

/-- Open records that start together, with nothing else there, are the trailing run. -/
theorem closeTrailing_append_run (hne : run ≠ [])
    (hrun : ∀ record ∈ run, record.isOpen = true ∧ record.start = marker)
    (hearlier : ∀ record ∈ earlier, record.start ≠ marker) :
    closeTrailing offset (run ++ earlier) = run.map (Record.close offset) ++ earlier := by
  cases run with
  | nil => exact absurd rfl hne
  | cons record run =>
    obtain ⟨hopen, hstart⟩ := hrun record List.mem_cons_self
    rw [List.cons_append, closeTrailing, if_pos hopen, hstart, ← List.cons_append]
    exact closeRun_append (fun other hother => (hrun other hother).2) hearlier

/-- The search for the latest open record of a rule passes over all others. -/
theorem closeLatest_append_cons {record : Record}
    (hlater : ∀ other ∈ later, other.isOpen = true → other.rule ≠ some rule)
    (hopen : record.isOpen = true) (hrule : record.rule = some rule) :
    closeLatest offset rule (later ++ record :: earlier) =
      later ++ record.close offset :: earlier := by
  induction later with
  | nil => simp [closeLatest, hopen, hrule]
  | cons other later ih =>
    have hother := hlater other List.mem_cons_self
    have htail := ih fun next hnext => hlater next (List.mem_cons_of_mem other hnext)
    have hnot : ¬ (other.isOpen && other.rule = some rule) = true := by
      simpa using hother
    rw [List.cons_append, closeLatest, if_neg hnot, htail]
    rfl

end Backwards

namespace Tracker

variable {tracker : Tracker} {before after run : List Record} {offset marker : Nat}

/-- The trailing run is closed in its place. -/
theorem records_closeTrailing (h : tracker.records = before ++ run ++ after) (hne : run ≠ [])
    (hrun : ∀ record ∈ run, record.isOpen = true ∧ record.start = marker)
    (hbefore : ∀ record ∈ before, record.start ≠ marker)
    (hafter : ∀ record ∈ after, record.isOpen = false) :
    (tracker.mapLatestFirst (closeTrailing offset)).records =
      before ++ run.map (Record.close offset) ++ after := by
  have hclose : closeTrailing offset tracker.records.reverse =
      after.reverse ++ (run.reverse.map (Record.close offset) ++ before.reverse) := by
    rw [h, List.reverse_append, List.reverse_append,
      closeTrailing_append_of_closed (by simpa using hafter),
      closeTrailing_append_run (by simpa using hne) (by simpa using hrun) (by simpa using hbefore)]
  rw [mapLatestFirst, hclose]
  simp

/-- The latest open record of a rule is closed in its place. -/
theorem records_closeLatest {record : Record} {rule : String}
    (h : tracker.records = before ++ record :: after) (hopen : record.isOpen = true)
    (hrule : record.rule = some rule)
    (hafter : ∀ other ∈ after, other.isOpen = true → other.rule ≠ some rule) :
    (tracker.mapLatestFirst (closeLatest offset rule)).records =
      before ++ record.close offset :: after := by
  have hclose : closeLatest offset rule tracker.records.reverse =
      after.reverse ++ record.close offset :: before.reverse := by
    rw [h, List.reverse_append, List.reverse_cons, List.append_assoc, List.singleton_append]
    exact closeLatest_append_cons (by simpa using hafter) hopen hrule
  rw [mapLatestFirst, hclose]
  simp

end Tracker

/-! ## One pair -/

/-- Closing ranges at a place behind their start ends them there. -/
theorem map_close_openedRecords {start stop : Nat} (h : start < stop) (rules : List String) :
    (openedRecords start rules).map (Record.close stop) = closedRecords start stop rules := by
  refine List.map_congr_left ?_
  intro record hrecord
  obtain ⟨hopen, hstart⟩ := of_mem_openedRecords hrecord
  have hmax : max stop record.start = stop := by omega
  rw [Record.close, if_pos hopen, hmax]

namespace Tracker

variable {tracker : Tracker} {before after : List Record} {start stop : Nat} {rules : List String}

/-- Closing each of several rules, once, closes the ranges that were opened for them. -/
theorem records_closeLatest_each (hnodup : rules.Nodup)
    (h : tracker.records = before ++ rules.map (fun rule => ⟨start, some rule, none⟩) ++ after)
    (hafter : ∀ record ∈ after, record.isOpen = false) :
    (tracker.enableEach stop rules).records =
      before ++ rules.map (fun rule => Record.close stop ⟨start, some rule, none⟩) ++ after := by
  induction rules generalizing tracker before with
  | nil => simpa using h
  | cons rule rules ih =>
    obtain ⟨hnot, hrest⟩ := List.nodup_cons.1 hnodup
    let closed : Record := Record.close stop ⟨start, some rule, none⟩
    -- Behind the range of the first rule lie those of the others, and what is closed.
    have hlater : ∀ other ∈ rules.map (fun rule => (⟨start, some rule, none⟩ : Record)) ++ after,
        other.isOpen = true → other.rule ≠ some rule := by
      intro other hother hopen hrule
      rcases List.mem_append.1 hother with hother | hother
      · obtain ⟨name, hname, rfl⟩ := List.mem_map.1 hother
        obtain rfl : name = rule := Option.some.inj hrule
        exact hnot hname
      · exact absurd ((hafter other hother).symm.trans hopen) (by simp)
    have hfirst : (tracker.mapLatestFirst (closeLatest stop rule)).records =
        before ++ closed ::
          (rules.map (fun rule => (⟨start, some rule, none⟩ : Record)) ++ after) :=
      records_closeLatest (by simpa using h) rfl rfl hlater
    have hagain : (tracker.mapLatestFirst (closeLatest stop rule)).records =
        (before ++ [closed]) ++ rules.map (fun rule => ⟨start, some rule, none⟩) ++ after := by
      simpa using hfirst
    rw [enableEach_cons, ih hrest hagain]
    simp [closed]

/-- The closing directive of a pair closes what the opening one opened and nothing else. -/
theorem records_enable_pair (hpolicy : tracker.policy = .trailingRun) (hnodup : rules.Nodup)
    (h : tracker.records = before ++ openedRecords start rules ++ after) (hlt : start < stop)
    (hbefore : ∀ record ∈ before, record.start < start)
    (hafter : ∀ record ∈ after, record.isOpen = false) (bare : Bool) :
    (tracker.enable stop (if bare then [] else rules)).records =
      before ++ closedRecords start stop rules ++ after := by
  have htrailing : (tracker.enable stop []).records =
      before ++ closedRecords start stop rules ++ after := by
    have hne : ∀ record ∈ before, record.start ≠ start := by
      intro record hrecord
      exact Nat.ne_of_lt (hbefore record hrecord)
    have hclose : (tracker.mapLatestFirst (closeTrailing stop)).records =
        before ++ (openedRecords start rules).map (Record.close stop) ++ after :=
      records_closeTrailing h (openedRecords_ne_nil start rules)
        (fun _ hrecord => of_mem_openedRecords hrecord) hne hafter
    rw [map_close_openedRecords hlt] at hclose
    simpa [enable, hpolicy] using hclose
  cases bare with
  | true => exact htrailing
  | false =>
    cases rules with
    | nil => exact htrailing
    | cons rule rules =>
      have hrules : rule :: rules ≠ [] := by simp
      rw [openedRecords_of_ne_nil hrules] at h
      rw [← map_close_openedRecords hlt, openedRecords_of_ne_nil hrules, List.map_map]
      exact records_closeLatest_each hnodup h hafter

end Tracker

/-! ## The result -/

/-- Every record starts where a directive stands. -/
theorem start_lt_of_mem_performAll {tracker : Tracker} {operations : List Operation} {offset : Nat}
    (hrecords : ∀ record ∈ tracker.records, record.start < offset)
    (hoperations : ∀ operation ∈ operations, operation.start < offset) :
    ∀ record ∈ (tracker.performAll operations).records, record.start < offset := by
  induction operations generalizing tracker with
  | nil => exact hrecords
  | cons operation operations ih =>
    have hhead : operation.start < offset := hoperations operation List.mem_cons_self
    refine ih ?_ fun later hlater => hoperations later (List.mem_cons_of_mem operation hlater)
    obtain ⟨closed, opened, hsplit, hclosed, hopened⟩ := tracker.perform_records operation
    rw [hsplit]
    intro record hrecord
    rcases List.mem_append.1 hrecord with hrecord | hrecord
    · obtain ⟨old, hold, rfl | rfl⟩ := hclosed.exists_of_mem hrecord
      · exact hrecords record hold
      · rw [Record.start_close]
        exact hrecords old hold
    · rw [(hopened record hrecord).1]
      exact hhead

/-- Brackets behind all records add their own closed ranges and touch nothing else. -/
theorem records_performAll_bracketing {tracker : Tracker} (hpolicy : tracker.policy = .trailingRun)
    (brackets : Bracketing) (hstarts : brackets.operations.Pairwise (·.start < ·.start))
    (hbefore : ∀ operation ∈ brackets.operations, ∀ record ∈ tracker.records,
      record.start < operation.start) :
    (tracker.performAll brackets.operations).records = tracker.records ++ brackets.records := by
  induction brackets generalizing tracker with
  | empty => simp [Bracketing.operations, Bracketing.records]
  | append first second ihfirst ihsecond =>
    obtain ⟨hfirst, hsecond, hcross⟩ := List.pairwise_append.1 hstarts
    have hmiddle := ihfirst hpolicy hfirst fun operation hoperation =>
      hbefore operation (List.mem_append_left _ hoperation)
    have hbehind : ∀ operation ∈ second.operations,
        ∀ record ∈ (tracker.performAll first.operations).records,
          record.start < operation.start := by
      intro operation hoperation
      refine start_lt_of_mem_performAll ?_ ?_
      · exact hbefore operation (List.mem_append_right _ hoperation)
      · intro other hother
        exact hcross other hother operation hoperation
    have hpolicy' : (tracker.performAll first.operations).policy = .trailingRun := by
      rw [Tracker.policy_performAll, hpolicy]
    rw [Bracketing.operations, Tracker.performAll_append, ihsecond hpolicy' hsecond hbehind,
      hmiddle, Bracketing.records, List.append_assoc]
  | pair opening rules nodup inner closing bare ih =>
    obtain ⟨hopening, hrest⟩ := List.pairwise_cons.1 hstarts
    obtain ⟨hinner, -, -⟩ := List.pairwise_append.1 hrest
    have hlt : opening.start < closing.start :=
      hopening _ (List.mem_append_right _ (List.mem_singleton_self _))
    have hold : ∀ record ∈ tracker.records, record.start < opening.start :=
      hbefore _ List.mem_cons_self
    let opened := tracker.perform (.disable opening rules)
    have hopened : opened.records = tracker.records ++ openedRecords opening.start rules :=
      congrArg Tracker.records (tracker.disable_eq opening.start rules)
    have hbehind : ∀ operation ∈ inner.operations, ∀ record ∈ opened.records,
        record.start < operation.start := by
      intro operation hoperation record hrecord
      have hlater : opening.start < operation.start :=
        hopening operation (List.mem_append_left _ hoperation)
      rw [hopened] at hrecord
      rcases List.mem_append.1 hrecord with hrecord | hrecord
      · exact Nat.lt_trans (hold record hrecord) hlater
      · rw [(of_mem_openedRecords hrecord).2]
        exact hlater
    have hinside : (opened.performAll inner.operations).records =
        opened.records ++ inner.records := ih hpolicy hinner hbehind
    rw [hopened] at hinside
    have hpolicy' : (opened.performAll inner.operations).policy = .trailingRun := by
      rw [Tracker.policy_performAll]
      exact hpolicy
    have hclose := Tracker.records_enable_pair hpolicy' nodup hinside hlt hold
      (fun record hrecord => Bracketing.isOpen_of_mem_records hrecord) bare
    rw [Bracketing.operations, Tracker.performAll_cons, Tracker.performAll_append,
      Bracketing.records, ← List.append_assoc]
    exact hclose

/-- Under the default policy, and behind directives in any order, brackets leave the same
ranges open as before, alter no range that was there, and add ranges each of which ends where
its own pair ends. -/
theorem bracketing_closes_what_it_opens (earlier : List Operation) (brackets : Bracketing)
    (hstarts : brackets.operations.Pairwise (·.start < ·.start))
    (hlater : ∀ before ∈ earlier, ∀ operation ∈ brackets.operations,
      before.start < operation.start) :
    let tracker := Tracker.performAll ⟨.trailingRun, []⟩ earlier
    let after := tracker.performAll brackets.operations
    after.records = tracker.records ++ brackets.records ∧
      openEntries after.records = openEntries tracker.records ∧
      after.openCount = tracker.openCount := by
  intro tracker after
  have hpolicy : tracker.policy = .trailingRun := Tracker.policy_performAll _ earlier
  have hbefore : ∀ operation ∈ brackets.operations, ∀ record ∈ tracker.records,
      record.start < operation.start := by
    intro operation hoperation
    refine start_lt_of_mem_performAll (by simp) ?_
    intro before hmem
    exact hlater before hmem operation hoperation
  have hrecords : after.records = tracker.records ++ brackets.records :=
    records_performAll_bracketing hpolicy brackets hstarts hbefore
  have hopen : openEntries brackets.records = [] := by
    refine List.filterMap_eq_nil_iff.2 ?_
    intro record hrecord
    simp [Record.openEntry?, Bracketing.isOpen_of_mem_records hrecord]
  have hcount : brackets.records.countP Record.isOpen = 0 := by
    refine List.countP_eq_zero.2 ?_
    intro record hrecord
    simp [Bracketing.isOpen_of_mem_records hrecord]
  refine ⟨hrecords, ?_, ?_⟩
  · rw [hrecords, openEntries_append, hopen, List.append_nil]
  · rw [Tracker.openCount, Tracker.openCount, hrecords, List.countP_append, hcount, Nat.add_zero]

/-- A pair for every rule with two pairs for one rule inside, one of them in the other. -/
def pairsInPair : Bracketing :=
  .pair ⟨20, 24⟩ [] .nil
    (.pair ⟨30, 34⟩ ["a", "b"] (by decide) (.pair ⟨40, 44⟩ ["a"] (by decide) .empty ⟨50, 54⟩ false)
      ⟨60, 64⟩ false)
    ⟨70, 74⟩ true

/-- A range of the same rule that has been opened before stays open. -/
theorem pairsInPair_leaves_outer_range :
    let tracker := Tracker.performAll ⟨.trailingRun, []⟩ [.disable ⟨0, 4⟩ ["a"]]
    let after := tracker.performAll pairsInPair.operations
    pairsInPair.operations.Pairwise (·.start < ·.start) ∧
      after.records = [⟨0, some "a", none⟩, ⟨20, none, some 70⟩, ⟨30, some "a", some 60⟩,
        ⟨30, some "b", some 60⟩, ⟨40, some "a", some 50⟩] ∧
      openEntries after.records = [⟨0, some "a"⟩] := by
  intro tracker after
  have hstarts : pairsInPair.operations.Pairwise (·.start < ·.start) := by decide
  have hlater : ∀ before ∈ ([.disable ⟨0, 4⟩ ["a"]] : List Operation),
      ∀ operation ∈ pairsInPair.operations, before.start < operation.start := by decide
  obtain ⟨hrecords, hopen, -⟩ :=
    bracketing_closes_what_it_opens [.disable ⟨0, 4⟩ ["a"]] pairsInPair hstarts hlater
  exact ⟨hstarts, hrecords, hopen⟩

end LintDirectives.Suppression
