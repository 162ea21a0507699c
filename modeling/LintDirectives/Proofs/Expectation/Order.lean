import LintDirectives.Proofs.Expectation.Fewer

/-!
# The order of the diagnostics

The rules of a document report in no fixed order, but an expectation takes the
first diagnostic that it accepts.  So the order may decide which diagnostics
are left for the expectations after it.  This module says exactly when it does.

There are four groups.

* Counting what fits.  `isNone_assign_eq_of_countP` says that first fit only
  looks at how many positions fit each request, as long as a later request
  accepts all or none of the positions that an earlier one may take.
* A conflict.  Where a later request accepts only some of them,
  `exists_perm_of_conflict` finds positions that serve more requests in one
  order than in another.
* Any order.  `length_remaining_perm_le` compares two orders without a
  condition: one serves at most twice as many requests as the other.
* The result.  `order_immaterial_iff_all_or_none` is all of this for the
  expectations of a document, and `order_decides_unmet` is a document whose
  expectations are in conflict.
-/

namespace LintDirectives.Expectation

/-! ## Counting what fits -/

section FirstFit

variable {κ ι : Type} {fits : κ → ι → Bool} {offered free other : List ι}

/-- A request finds a position exactly when some fit it. -/
theorem find?_eq_none_iff_countP {f : ι → Bool} : free.find? f = none ↔ free.countP f = 0 := by
  rw [List.find?_eq_none, List.countP_eq_zero]

theorem eraseP_eq_self {f : ι → Bool} (h : free.find? f = none) : free.eraseP f = free :=
  List.eraseP_of_forall_not (by simpa using h)

/-- Erasing the first position that fits takes away that position and no other. -/
theorem perm_cons_eraseP {f : ι → Bool} {p : ι} (h : free.find? f = some p) :
    free.Perm (p :: free.eraseP f) := by
  induction free with
  | nil => simp at h
  | cons q free ih =>
    cases hq : f q with
    | true =>
      have heq : q = p := by simpa [hq] using h
      rw [List.eraseP_cons_of_pos hq, heq]
    | false =>
      have hrest : free.find? f = some p := by simpa [hq] using h
      rw [List.eraseP_cons_of_neg (by simp [hq])]
      exact ((ih hrest).cons q).trans (.swap p q _)

/-- In another order a request finds a position when it does in this one. -/
theorem find?_eq_none_of_perm (hperm : free.Perm other) {f : ι → Bool}
    (h : free.find? f = none) : other.find? f = none := by
  rw [find?_eq_none_iff_countP] at h ⊢
  rw [← hperm.countP_eq, h]

/-- Of the positions in `offered` that fit the `earlier` request all fit the `later` one, or
none. -/
def FitsAllOrNone (fits : κ → ι → Bool) (offered : List ι) (earlier later : κ) : Prop :=
  ∀ p ∈ offered, ∀ q ∈ offered, fits earlier p = true → fits earlier q = true →
    fits later q = true → fits later p = true

theorem FitsAllOrNone.eq {earlier later : κ} (h : FitsAllOrNone fits offered earlier later)
    {p q : ι} (hp : p ∈ offered) (hq : q ∈ offered) (hfitsp : fits earlier p = true)
    (hfitsq : fits earlier q = true) : fits later p = fits later q := by
  rw [Bool.eq_iff_iff]
  constructor
  · intro hlater
    exact h q hq p hp hfitsq hfitsp hlater
  · intro hlater
    exact h p hp q hq hfitsp hfitsq hlater

/-- Serving one request takes the same away from the counts of a later one, whichever
positions are free. -/
theorem countP_eraseP_eq {earlier later : κ} (hfree : free ⊆ offered) (hother : other ⊆ offered)
    (hall : FitsAllOrNone fits offered earlier later)
    (hearlier : free.countP (fits earlier) = other.countP (fits earlier))
    (hlater : free.countP (fits later) = other.countP (fits later)) :
    (free.eraseP (fits earlier)).countP (fits later) =
      (other.eraseP (fits earlier)).countP (fits later) := by
  have hiff : free.find? (fits earlier) = none ↔ other.find? (fits earlier) = none := by
    rw [find?_eq_none_iff_countP, find?_eq_none_iff_countP, hearlier]
  cases hfind : free.find? (fits earlier) with
  | none => rw [eraseP_eq_self hfind, eraseP_eq_self (hiff.1 hfind), hlater]
  | some p =>
    cases hfind' : other.find? (fits earlier) with
    | none => exact absurd ((hiff.2 hfind').symm.trans hfind) (by simp)
    | some q =>
      have hp : p ∈ offered := hfree (List.mem_of_find?_eq_some hfind)
      have hq : q ∈ offered := hother (List.mem_of_find?_eq_some hfind')
      have hsame : fits later p = fits later q :=
        hall.eq hp hq (List.find?_some hfind) (List.find?_some hfind')
      rw [(perm_cons_eraseP hfind).countP_eq, (perm_cons_eraseP hfind').countP_eq,
        List.countP_cons, List.countP_cons, hsame] at hlater
      omega

/-- Whether a request is served depends only on how many free positions fit each request. -/
theorem isNone_assign_eq_of_countP [DecidableEq κ] {requests : List κ}
    (hrequests : requests.Pairwise (FitsAllOrNone fits offered))
    (hfree : free ⊆ offered) (hother : other ⊆ offered)
    (hcount : ∀ k ∈ requests, free.countP (fits k) = other.countP (fits k)) (asked : κ) :
    (assign fits free requests asked).isNone = (assign fits other requests asked).isNone := by
  induction requests generalizing free other with
  | nil => rfl
  | cons request requests ih =>
    obtain ⟨hhead, htail⟩ := List.pairwise_cons.1 hrequests
    have hfirst := hcount request List.mem_cons_self
    by_cases hasked : asked = request
    · subst hasked
      rw [assign_head, assign_head, Bool.eq_iff_iff, Option.isNone_iff_eq_none,
        Option.isNone_iff_eq_none, find?_eq_none_iff_countP, find?_eq_none_iff_countP, hfirst]
    · rw [assign_of_ne hasked, assign_of_ne hasked]
      have hfree' : free.eraseP (fits request) ⊆ offered :=
        fun p hp => hfree (List.mem_of_mem_eraseP hp)
      have hother' : other.eraseP (fits request) ⊆ offered :=
        fun p hp => hother (List.mem_of_mem_eraseP hp)
      refine ih htail hfree' hother' ?_
      intro k hk
      have hlater := hcount k (List.mem_cons_of_mem request hk)
      exact countP_eraseP_eq hfree hother (hhead k hk) hfirst hlater

/-! ## A conflict -/

/-- Copies of one position, as many as there are requests, serve the requests that it fits. -/
theorem length_remaining_replicate {requests : List κ} {n : Nat} (a : ι)
    (hn : requests.length ≤ n) :
    (remaining fits (List.replicate n a) requests).length +
      requests.countP (fun k => fits k a) = n := by
  induction requests generalizing n with
  | nil => simp
  | cons request requests ih =>
    rw [List.length_cons] at hn
    rw [remaining_cons, List.countP_cons]
    cases hfits : fits request a with
    | true =>
      obtain ⟨m, rfl⟩ : ∃ m, n = m + 1 := ⟨n - 1, by omega⟩
      have hrest := ih (n := m) (by omega)
      rw [List.replicate_succ, List.eraseP_cons_of_pos hfits, if_pos rfl]
      omega
    | false =>
      have hrest := ih (n := n) (by omega)
      have herase : (List.replicate n a).eraseP (fits request) = List.replicate n a :=
        List.eraseP_of_forall_not (by simp [hfits])
      rw [herase, if_neg (by simp)]
      exact hrest

/-- One position more, behind the copies, serves one request more, when some request wants it
and not the copies. -/
theorem length_remaining_replicate_append {requests : List κ} {n : Nat} {a b : ι}
    (hn : requests.length ≤ n) {wanting : κ} (hwanting : wanting ∈ requests)
    (hb : fits wanting b = true) (ha : fits wanting a = false) :
    (remaining fits (List.replicate n a ++ [b]) requests).length +
      requests.countP (fun k => fits k a) ≤ n := by
  induction requests generalizing n with
  | nil => simp at hwanting
  | cons request requests ih =>
    rw [List.length_cons] at hn
    rw [remaining_cons, List.countP_cons]
    cases hfits : fits request a with
    | true =>
      -- The request takes a copy, so it is not the one that wants the last position.
      have hne : wanting ≠ request := by
        rintro rfl
        exact absurd (ha.symm.trans hfits) (by simp)
      have hrest : wanting ∈ requests := List.mem_of_ne_of_mem hne hwanting
      obtain ⟨m, rfl⟩ : ∃ m, n = m + 1 := ⟨n - 1, by omega⟩
      have hle := ih (n := m) (by omega) hrest
      rw [List.replicate_succ, List.cons_append, List.eraseP_cons_of_pos hfits, if_pos rfl]
      omega
    | false =>
      have hcopies : ∀ p ∈ List.replicate n a, ¬ fits request p = true := by
        intro p hp
        rw [List.eq_of_mem_replicate hp, hfits]
        simp
      rw [List.eraseP_append_right _ hcopies, if_neg (by simp)]
      cases hlast : fits request b with
      | true =>
        have hrest : (remaining fits (List.replicate n a) requests).length +
            requests.countP (fun k => fits k a) = n := length_remaining_replicate a (by omega)
        rw [List.eraseP_cons_of_pos hlast, List.append_nil]
        omega
      | false =>
        have hne : wanting ≠ request := by
          rintro rfl
          exact absurd (hb.symm.trans hlast) (by simp)
        have hrest : wanting ∈ requests := List.mem_of_ne_of_mem hne hwanting
        rw [List.eraseP_cons_of_neg (by simp [hlast]), List.eraseP_nil]
        exact ih (by omega) hrest

/-- Where a later request wants one of two positions that an earlier one would take, some
positions serve more requests in one order than in another. -/
theorem exists_perm_of_conflict {requests : List κ} {earlier later : κ}
    (hconflict : [earlier, later].Sublist requests) {a b : ι} (ha : fits earlier a = true)
    (hb : fits earlier b = true) (hlater : fits later b = true) (hnot : fits later a = false) :
    ∃ free other : List ι, free.Perm other ∧
      (remaining fits free requests).length ≠ (remaining fits other requests).length := by
  induction requests with
  | nil => exact absurd hconflict (by simp)
  | cons request requests ih =>
    cases hconflict with
    | cons _ htail =>
      obtain ⟨free, other, hperm, hne⟩ := ih htail
      cases hfind : free.find? (fits request) with
      | none =>
        -- The request takes nothing in either order.
        have hnone := find?_eq_none_of_perm hperm hfind
        refine ⟨free, other, hperm, ?_⟩
        rw [remaining_cons, remaining_cons, eraseP_eq_self hfind, eraseP_eq_self hnone]
        exact hne
      | some c =>
        -- It takes a further copy of what it finds.
        have hc : fits request c = true := List.find?_some hfind
        refine ⟨c :: free, c :: other, hperm.cons c, ?_⟩
        rw [remaining_cons, remaining_cons, List.eraseP_cons_of_pos hc,
          List.eraseP_cons_of_pos hc]
        exact hne
    | cons_cons _ htail =>
      have hmem : later ∈ requests := List.singleton_sublist.1 htail
      let copies := List.replicate requests.length a
      have hall : (remaining fits (a :: copies) requests).length +
          requests.countP (fun k => fits k a) = requests.length + 1 :=
        length_remaining_replicate a (Nat.le_succ requests.length)
      have hmore : (remaining fits (copies ++ [b]) requests).length +
          requests.countP (fun k => fits k a) ≤ requests.length :=
        length_remaining_replicate_append (Nat.le_refl _) hmem hlater hnot
      refine ⟨a :: (copies ++ [b]), b :: a :: copies, ?_, ?_⟩
      · exact List.perm_append_singleton b (a :: copies)
      · rw [remaining_cons, remaining_cons, List.eraseP_cons_of_pos ha,
          List.eraseP_cons_of_pos hb]
        omega

/-! ## Any order -/

/-- What two orders have left when one position has been taken from each. -/
theorem perm_erase_of_perm_cons [DecidableEq ι] {p q : ι} (hne : p ≠ q)
    (h : (p :: free).Perm (q :: other)) : (free.erase q).Perm (other.erase p) := by
  have herase := (h.erase q).erase p
  rw [List.erase_cons_head, List.erase_cons_tail (by simpa using hne),
    List.erase_cons_head] at herase
  exact herase

variable [DecidableEq κ]

/-- More free positions serve at least as many requests. -/
theorem length_add_remaining_le (h : free.Sublist other) {requests : List κ}
    (hrequests : requests.Nodup) :
    free.length + (remaining fits other requests).length ≤
      other.length + (remaining fits free requests).length := by
  have hfree : (remaining fits free requests).length +
      requests.countP (fun k => (assign fits free requests k).isSome) = free.length :=
    length_remaining free hrequests
  have hother : (remaining fits other requests).length +
      requests.countP (fun k => (assign fits other requests k).isSome) = other.length :=
    length_remaining other hrequests
  have hserved : requests.countP (fun k => (assign fits free requests k).isSome) ≤
      requests.countP fun k => (assign fits other requests k).isSome := by
    refine List.countP_mono_left ?_
    intro k _ hsome
    rw [Option.isSome_iff_ne_none] at hsome ⊢
    intro hnone
    exact hsome (assign_eq_none_of_sublist h hnone)
  omega

/-- Two orders from which different positions have been taken.  Without both positions the rests
are one list in two orders, and each of the two positions is worth one request at most. -/
theorem length_remaining_rest_le [DecidableEq ι] {p q : ι} (hne : p ≠ q)
    (hrests : (p :: free).Perm (q :: other)) {requests : List κ} (hrequests : requests.Nodup)
    (hle : 2 * (remaining fits (other.erase p) requests).length ≤
      (free.erase q).length + (remaining fits (free.erase q) requests).length) :
    2 * (remaining fits other requests).length ≤
      free.length + 1 + (remaining fits free requests).length := by
  have hq : q ∈ free := List.mem_of_ne_of_mem (Ne.symm hne) (hrests.symm.subset List.mem_cons_self)
  have hp : p ∈ other := List.mem_of_ne_of_mem hne (hrests.subset List.mem_cons_self)
  have hfree : (free.erase q).length = free.length - 1 := List.length_erase_of_mem hq
  have hother : (other.erase p).length = other.length - 1 := List.length_erase_of_mem hp
  have hfewer : (remaining fits (free.erase q) requests).length ≤
      (remaining fits free requests).length :=
    (remaining_sublist List.erase_sublist requests).length_le
  have hmore : (other.erase p).length + (remaining fits other requests).length ≤
      other.length + (remaining fits (other.erase p) requests).length :=
    length_add_remaining_le List.erase_sublist hrequests
  have hpos : 0 < free.length := List.length_pos_of_mem hq
  have hpos' : 0 < other.length := List.length_pos_of_mem hp
  omega

/-- In another order at least half as many requests are served. -/
theorem length_remaining_perm_le {requests : List κ} (hrequests : requests.Nodup)
    (hperm : free.Perm other) :
    2 * (remaining fits other requests).length ≤
      free.length + (remaining fits free requests).length := by
  classical
  induction requests generalizing free other with
  | nil =>
    have hlength := hperm.length_eq
    rw [remaining_nil, remaining_nil]
    omega
  | cons request requests ih =>
    have hnodup := (List.nodup_cons.1 hrequests).2
    rw [remaining_cons, remaining_cons]
    cases hfind : free.find? (fits request) with
    | none =>
      have hnone := find?_eq_none_of_perm hperm hfind
      rw [eraseP_eq_self hfind, eraseP_eq_self hnone]
      exact ih hnodup hperm
    | some p =>
      cases hfind' : other.find? (fits request) with
      | none =>
        have hnone := find?_eq_none_of_perm hperm.symm hfind'
        exact absurd (hnone.symm.trans hfind) (by simp)
      | some q =>
        have hp : free.Perm (p :: free.eraseP (fits request)) := perm_cons_eraseP hfind
        have hq : other.Perm (q :: other.eraseP (fits request)) := perm_cons_eraseP hfind'
        generalize free.eraseP (fits request) = rest at hp ⊢
        generalize other.eraseP (fits request) = rest' at hq ⊢
        have hrests : (p :: rest).Perm (q :: rest') := hp.symm.trans (hperm.trans hq)
        have hlength : free.length = rest.length + 1 := hp.length_eq
        by_cases hsame : p = q
        · subst hsame
          have hle := ih hnodup hrests.cons_inv
          omega
        · have hle := ih hnodup (perm_erase_of_perm_cons hsame hrests)
          have hrest := length_remaining_rest_le hsame hrests hnodup hle
          omega

end FirstFit

/-! ## The result -/

section Order

variable (index : LineIndex)

/-- Of the diagnostics that the `earlier` expectation accepts, the `later` one accepts all or
none. -/
def AllOrNone (diagnostics : List Diagnostic) (earlier later : Expectation) : Prop :=
  ∀ a ∈ diagnostics, ∀ b ∈ diagnostics,
    Acceptable index earlier a → Acceptable index earlier b → Acceptable index later b →
      Acceptable index later a

variable {index} {expectations : List Expectation}

theorem fitsAllOrNone_asks_iff {diagnostics : List Diagnostic} {i j : Fin expectations.length} :
    FitsAllOrNone (asks index expectations) diagnostics i j ↔
      AllOrNone index diagnostics (expectations.get i) (expectations.get j) := by
  have hasks : ∀ k a, asks index expectations k a = true ↔
      Acceptable index (expectations.get k) a := fun k a => accepts_iff
  simp only [FitsAllOrNone, AllOrNone, hasks]

theorem pairwise_asks_iff {diagnostics : List Diagnostic} :
    (List.finRange expectations.length).Pairwise
        (FitsAllOrNone (asks index expectations) diagnostics) ↔
      expectations.Pairwise (AllOrNone index diagnostics) := by
  have hget := List.map_get_finRange expectations
  constructor
  · intro h
    rw [← hget, List.pairwise_map]
    exact h.imp fitsAllOrNone_asks_iff.1
  · intro h
    rw [← hget, List.pairwise_map] at h
    exact h.imp fitsAllOrNone_asks_iff.2

/-- Without a conflict the same expectations are unmet in every order. -/
theorem unmetAt_eq_of_perm {diagnostics reordered : List Diagnostic}
    (hperm : diagnostics.Perm reordered)
    (hall : expectations.Pairwise (AllOrNone index diagnostics)) :
    unmetAt index expectations reordered = unmetAt index expectations diagnostics := by
  refine List.filter_congr ?_
  intro i _
  have hcount : ∀ k ∈ List.finRange expectations.length,
      reordered.countP (asks index expectations k) =
        diagnostics.countP (asks index expectations k) :=
    fun k _ => hperm.symm.countP_eq _
  exact isNone_assign_eq_of_countP (pairwise_asks_iff.2 hall) hperm.symm.subset
    (List.Subset.refl diagnostics) hcount i

/-- Expectations for different windows do not compete, and over one window only a named rule
behind an expectation of any rule is in conflict. -/
theorem allOrNone_of_windows {diagnostics : List Diagnostic} {earlier later : Expectation}
    (h : earlier.window.stop ≤ later.window.start ∨ later.window.stop ≤ earlier.window.start ∨
      earlier.window = later.window ∧ (earlier.rule = none → later.rule = none)) :
    AllOrNone index diagnostics earlier later := by
  rintro a - b - ⟨offset, hoffset, hstart, hstop, hrule⟩ ⟨offset', hoffset', hstart', hstop', hrule'⟩
    ⟨other, hother, hlstart, hlstop, hlrule⟩
  obtain rfl := Option.some.inj (hoffset'.symm.trans hother)
  rcases h with h | h | ⟨hwindow, hnone⟩
  · omega
  · omega
  · refine ⟨offset, hoffset, hwindow ▸ hstart, hwindow ▸ hstop, ?_⟩
    cases hearlier : earlier.rule with
    | none => exact .inl (hnone hearlier)
    | some rule =>
      -- Both diagnostics are of the rule that the earlier expectation names.
      have hrulea : rule = a.rule := by simpa [hearlier] using hrule
      have hruleb : rule = b.rule := by simpa [hearlier] using hrule'
      rw [← hrulea, hruleb]
      exact hlrule

/-- The expectations that are unmet, counted by what no expectation takes. -/
theorem length_unmetAt_add_remaining (index : LineIndex) (expectations : List Expectation)
    (diagnostics : List Diagnostic) :
    (unmetAt index expectations diagnostics).length + diagnostics.length =
      expectations.length + (remaining (asks index expectations) diagnostics
        (List.finRange expectations.length)).length := by
  have hcount := length_unmetAt_add index expectations diagnostics
  rw [settle_eq_unmetAt] at hcount
  exact hcount

/-- In another order at least half as many expectations are met. -/
theorem length_unmetAt_perm_le {diagnostics reordered : List Diagnostic}
    (hperm : diagnostics.Perm reordered) :
    expectations.length - (unmetAt index expectations diagnostics).length ≤
      2 * (expectations.length - (unmetAt index expectations reordered).length) := by
  have hcount := length_unmetAt_add_remaining index expectations diagnostics
  have hcount' := length_unmetAt_add_remaining index expectations reordered
  have hlength := hperm.length_eq
  have hhalf : 2 * (remaining (asks index expectations) reordered
        (List.finRange expectations.length)).length ≤
      diagnostics.length + (remaining (asks index expectations) diagnostics
        (List.finRange expectations.length)).length :=
    length_remaining_perm_le (List.nodup_finRange _) hperm
  omega

/-- A conflict shows in the number of unmet expectations of some diagnostics. -/
theorem exists_perm_of_not_allOrNone {diagnostics : List Diagnostic}
    (h : ¬ expectations.Pairwise (AllOrNone index diagnostics)) :
    ∃ offered reordered : List Diagnostic, offered.Perm reordered ∧
      (unmetAt index expectations reordered).length ≠
        (unmetAt index expectations offered).length := by
  rw [← pairwise_asks_iff, List.pairwise_iff_forall_sublist] at h
  unfold FitsAllOrNone at h
  push Not at h
  obtain ⟨i, j, hconflict, a, -, b, -, ha, hb, hlater, hnot⟩ := h
  obtain ⟨offered, reordered, hperm, hne⟩ :=
    exists_perm_of_conflict hconflict ha hb hlater (by simpa using hnot)
  refine ⟨offered, reordered, hperm, ?_⟩
  have hcount := length_unmetAt_add_remaining index expectations offered
  have hcount' := length_unmetAt_add_remaining index expectations reordered
  have hlength := hperm.length_eq
  omega

end Order

/-- When each expectation accepts all or none of the diagnostics that an earlier one accepts,
the same expectations are unmet in every order of the diagnostics.  Nothing less would do for
all diagnostics, and without it one order meets at most twice as many expectations as
another. -/
theorem order_immaterial_iff_all_or_none (text : String) (expectations : List Expectation) :
    let index := LineIndex.ofText text
    let unmet := unmetAt index expectations
    (∀ diagnostics, verify text expectations diagnostics =
      (settle index diagnostics expectations).1 ++
        (unmet diagnostics).map fun i => unmetDiagnostic index (expectations.get i)) ∧
    (∀ diagnostics reordered, diagnostics.Perm reordered →
      expectations.Pairwise (AllOrNone index diagnostics) →
        unmet reordered = unmet diagnostics) ∧
    ((∀ diagnostics reordered, diagnostics.Perm reordered →
        (unmet reordered).length = (unmet diagnostics).length) ↔
      ∀ diagnostics, expectations.Pairwise (AllOrNone index diagnostics)) ∧
    ∀ diagnostics reordered, diagnostics.Perm reordered →
      expectations.length - (unmet diagnostics).length ≤
        2 * (expectations.length - (unmet reordered).length) := by
  intro index unmet
  refine ⟨verify_eq_unmetAt expectations text, ?_, ⟨?_, ?_⟩, ?_⟩
  · intro diagnostics reordered hperm hall
    exact unmetAt_eq_of_perm hperm hall
  · intro hsame diagnostics
    by_contra hconflict
    obtain ⟨offered, reordered, hperm, hne⟩ := exists_perm_of_not_allOrNone hconflict
    exact hne (hsame offered reordered hperm)
  · intro hall diagnostics reordered hperm
    exact congrArg List.length (unmetAt_eq_of_perm hperm (hall diagnostics))
  · intro diagnostics reordered hperm
    exact length_unmetAt_perm_le hperm

/-- Two expectations over one window, the named rule first, and one over a window of its own. -/
def namedFirstExpectations : List Expectation :=
  [⟨⟨0, 2⟩, some "ruleB"⟩, ⟨⟨0, 2⟩, none⟩, ⟨⟨2, 3⟩, some "ruleA"⟩]

/-- In both orders only the expectation over the window of its own is unmet. -/
theorem named_rule_first_in_both_orders :
    let index := LineIndex.ofText "abc"
    let unmet := unmetAt index namedFirstExpectations
    twoDiagnostics.Perm twoDiagnostics.reverse ∧
      namedFirstExpectations.Pairwise (AllOrNone index twoDiagnostics) ∧
      unmet twoDiagnostics = [⟨2, by decide⟩] ∧
      unmet twoDiagnostics.reverse = unmet twoDiagnostics := by
  intro index unmet
  have hperm : twoDiagnostics.Perm twoDiagnostics.reverse := (List.reverse_perm _).symm
  have hall : namedFirstExpectations.Pairwise (AllOrNone index twoDiagnostics) := by
    refine .cons ?_ (.cons ?_ (List.pairwise_singleton _ _)) <;> intro later hlater
    · simp only [List.mem_cons, List.not_mem_nil, or_false] at hlater
      rcases hlater with rfl | rfl <;> exact allOrNone_of_windows (by decide)
    · obtain rfl := List.mem_singleton.1 hlater
      exact allOrNone_of_windows (by decide)
  obtain ⟨-, hsame, -⟩ := order_immaterial_iff_all_or_none "abc" namedFirstExpectations
  exact ⟨hperm, hall, by decide +kernel, hsame _ _ hperm hall⟩

/-- Where an expectation of any rule comes before one of a named rule, the order of two
diagnostics decides whether both are met. -/
theorem order_decides_unmet :
    let unmet := fun text expectations diagnostics =>
      (unmetAt (LineIndex.ofText text) expectations diagnostics).length
    (¬ ∀ text expectations (diagnostics reordered : List Diagnostic),
        diagnostics.Perm reordered →
          unmet text expectations reordered = unmet text expectations diagnostics) ∧
      unmet "ab" overlappingExpectations twoDiagnostics = 0 ∧
      unmet "ab" overlappingExpectations twoDiagnostics.reverse = 1 ∧
      verify "ab" overlappingExpectations twoDiagnostics = [] ∧
      (verify "ab" overlappingExpectations twoDiagnostics.reverse).map Diagnostic.rule =
        ["ruleA", unmetRule] := by
  intro unmet
  have hnone : unmet "ab" overlappingExpectations twoDiagnostics = 0 := by decide +kernel
  have hone : unmet "ab" overlappingExpectations twoDiagnostics.reverse = 1 := by decide +kernel
  refine ⟨?_, hnone, hone, by decide +kernel, by decide +kernel⟩
  intro hsame
  have hperm : twoDiagnostics.Perm twoDiagnostics.reverse := (List.reverse_perm _).symm
  have hequal := hsame "ab" overlappingExpectations _ _ hperm
  rw [hnone, hone] at hequal
  exact absurd hequal (by decide)

end LintDirectives.Expectation
