import LintDirectives.Expectation.Verification
import Mathlib.Data.List.FinRange

/-!
# What expectations consume

Checking removes diagnostics from a list one after the other.  What that means
for the whole list is a pairing of expectations with positions of diagnostics,
and this module names the pairing.

There are four groups.

* First fit.  `assign` gives each request the first free position that fits
  it.  The lemmas say that no position is given twice, that a position is
  passed over only when it is taken already, and how many stay free.
* The check by positions.  `settle_eq` says that the check consumes the
  positions that `assign` gives, and leaves the others in order.
* Pairings.  `IsFirstFit` is what a pairing of the expectations of a document
  with its diagnostics has to satisfy.
* The result.  `verify_eq_of_first_fit` describes the diagnostics after a
  check by such a pairing.
-/

namespace LintDirectives.Expectation

/-! ## First fit -/

section FirstFit

variable {κ ι : Type} [DecidableEq κ] (fits : κ → ι → Bool)

/-- The position that a request gets when `requests` are served in order: the first one of
those still free that fits. -/
def assign : List ι → List κ → κ → Option ι
  | _, [], _ => none
  | free, request :: requests, asked =>
    if asked = request then free.find? (fits request)
    else assign (free.eraseP (fits request)) requests asked

/-- The positions that are free after `requests` have been served. -/
def remaining (free : List ι) (requests : List κ) : List ι :=
  requests.foldl (fun free request => free.eraseP (fits request)) free

variable {fits}

omit [DecidableEq κ] in
@[simp] theorem remaining_nil (free : List ι) : remaining fits free [] = free := rfl

omit [DecidableEq κ] in
@[simp] theorem remaining_cons (free : List ι) (request : κ) (requests : List κ) :
    remaining fits free (request :: requests) =
      remaining fits (free.eraseP (fits request)) requests := rfl

theorem assign_head (free : List ι) (request : κ) (requests : List κ) :
    assign fits free (request :: requests) request = free.find? (fits request) :=
  if_pos rfl

theorem assign_of_ne {request asked : κ} (h : asked ≠ request) (free : List ι)
    (requests : List κ) :
    assign fits free (request :: requests) asked =
      assign fits (free.eraseP (fits request)) requests asked :=
  if_neg h

/-- Later requests are served from what the first one leaves. -/
theorem assign_of_mem {request asked : κ} {requests : List κ}
    (h : (request :: requests).Nodup) (hasked : asked ∈ requests) (free : List ι) :
    assign fits free (request :: requests) asked =
      assign fits (free.eraseP (fits request)) requests asked :=
  assign_of_ne (ne_of_mem_of_not_mem hasked (List.nodup_cons.1 h).1) free requests

/-- A request gets a free position that fits it. -/
theorem assign_eq_some {free : List ι} {requests : List κ} {k : κ} {p : ι}
    (h : assign fits free requests k = some p) : k ∈ requests ∧ p ∈ free ∧ fits k p = true := by
  induction requests generalizing free with
  | nil => simp [assign] at h
  | cons request requests ih =>
    by_cases hk : k = request
    · subst hk
      rw [assign_head] at h
      exact ⟨List.mem_cons_self, List.mem_of_find?_eq_some h, List.find?_some h⟩
    · rw [assign_of_ne hk] at h
      obtain ⟨hmem, hp, hfits⟩ := ih h
      exact ⟨List.mem_cons_of_mem request hmem, List.mem_of_mem_eraseP hp, hfits⟩

/-- Each request that gets a position takes one of the free ones. -/
theorem length_remaining (free : List ι) {requests : List κ} (hrequests : requests.Nodup) :
    (remaining fits free requests).length +
      requests.countP (fun k => (assign fits free requests k).isSome) = free.length := by
  induction requests generalizing free with
  | nil => simp [remaining]
  | cons request requests ih =>
    have htail := ih (free.eraseP (fits request)) (List.nodup_cons.1 hrequests).2
    have hcount : requests.countP (fun k => (assign fits free (request :: requests) k).isSome) =
        requests.countP fun k => (assign fits (free.eraseP (fits request)) requests k).isSome :=
      List.countP_congr fun k hk => by rw [assign_of_mem hrequests hk]
    rw [List.countP_cons, assign_head, hcount]
    cases hfind : free.find? (fits request) with
    | none =>
      have hsame : free.eraseP (fits request) = free :=
        List.eraseP_of_forall_not (by simpa using hfind)
      rw [remaining_cons]
      simp only [hsame, Option.isSome_none, Bool.false_eq_true, if_false] at htail ⊢
      omega
    | some p =>
      have hlength := List.length_eraseP_of_mem (List.mem_of_find?_eq_some hfind)
        (List.find?_some hfind)
      have hpos := List.length_pos_of_mem (List.mem_of_find?_eq_some hfind)
      rw [remaining_cons]
      simp only [Option.isSome_some, if_true]
      omega

/-- Of positions in order the first one that fits is at or before any other. -/
theorem find?_eq_or_lt [LT ι] {free : List ι} (hfree : free.Pairwise (· < ·)) {f : ι → Bool}
    {q : ι} (hq : q ∈ free) (hf : f q = true) :
    free.find? f = some q ∨ ∃ p, p < q ∧ free.find? f = some p := by
  induction free with
  | nil => simp at hq
  | cons p free ih =>
    obtain ⟨hhead, htail⟩ := List.pairwise_cons.1 hfree
    rcases List.mem_cons.1 hq with rfl | hq
    · exact .inl (List.find?_cons_of_pos hf)
    · cases hp : f p with
      | true => exact .inr ⟨p, hhead q hq, List.find?_cons_of_pos hp⟩
      | false => simpa [hp] using ih htail hq

variable [DecidableEq ι]

/-- Serving a request takes away the position that it gets. -/
theorem eraseP_eq_filter {free : List ι} (h : free.Nodup) (f : ι → Bool) :
    free.eraseP f = free.filter fun p => free.find? f ≠ some p := by
  induction free with
  | nil => rfl
  | cons p free ih =>
    obtain ⟨hp, hfree⟩ := List.nodup_cons.1 h
    cases hf : f p with
    | true =>
      have hkept : ∀ q ∈ free, p ≠ q := fun q hq heq => hp (heq ▸ hq)
      simpa [hf] using (List.filter_eq_self.2 fun q hq => by simp [hkept q hq]).symm
    | false =>
      have hnot : free.find? f ≠ some p := fun hsome => hp (List.mem_of_find?_eq_some hsome)
      simp [hf, hnot, ih hfree]

theorem mem_eraseP_iff {free : List ι} (h : free.Nodup) {f : ι → Bool} {p : ι} :
    p ∈ free.eraseP f ↔ p ∈ free ∧ free.find? f ≠ some p := by
  rw [eraseP_eq_filter h, List.mem_filter, decide_eq_true_eq]

/-- No position is given to two requests. -/
theorem assign_injective {free : List ι} (hfree : free.Nodup) {requests : List κ} {k l : κ}
    {p : ι} (hk : assign fits free requests k = some p)
    (hl : assign fits free requests l = some p) : k = l := by
  induction requests generalizing free with
  | nil => simp [assign] at hk
  | cons request requests ih =>
    -- What the first request gets is not free for the others.
    have hgone : ∀ {other}, free.find? (fits request) = some p →
        assign fits (free.eraseP (fits request)) requests other ≠ some p := by
      intro other hfirst hother
      exact ((mem_eraseP_iff hfree).1 (assign_eq_some hother).2.1).2 hfirst
    unfold assign at hk hl
    split at hk <;> split at hl
    · next hk' hl' => exact hk'.trans hl'.symm
    · exact absurd hl (hgone hk)
    · exact absurd hk (hgone hl)
    · exact ih (hfree.eraseP _) hk hl

/-- The positions that stay free are those that no request gets. -/
theorem remaining_eq_filter {free : List ι} (hfree : free.Nodup) {requests : List κ}
    (hrequests : requests.Nodup) :
    remaining fits free requests =
      free.filter fun p => ∀ k ∈ requests, assign fits free requests k ≠ some p := by
  induction requests generalizing free with
  | nil => simp [remaining]
  | cons request requests ih =>
    have hrest : ∀ p, (∀ k ∈ requests, assign fits free (request :: requests) k ≠ some p) ↔
        ∀ k ∈ requests, assign fits (free.eraseP (fits request)) requests k ≠ some p :=
      fun p => forall₂_congr fun k hk => by rw [assign_of_mem hrequests hk]
    calc remaining fits free (request :: requests)
        = (free.eraseP (fits request)).filter fun p =>
            ∀ k ∈ requests, assign fits (free.eraseP (fits request)) requests k ≠ some p :=
          ih (hfree.eraseP _) (List.nodup_cons.1 hrequests).2
      _ = (free.filter fun p => free.find? (fits request) ≠ some p).filter fun p =>
            ∀ k ∈ requests, assign fits free (request :: requests) k ≠ some p := by
          simp only [hrest, ← eraseP_eq_filter hfree]
      _ = _ := by
          rw [List.filter_filter]
          refine List.filter_congr fun p _ => ?_
          simp only [List.forall_mem_cons, assign_head, ← Bool.decide_and, and_comm]

/-- A free position that fits a request is given to it, or has been given to an earlier
one, or the request gets a position before it. -/
theorem assign_of_fits [Preorder κ] [Preorder ι] {free : List ι}
    (hfree : free.Pairwise (· < ·)) {requests : List κ} (hrequests : requests.Pairwise (· < ·))
    {k : κ} (hk : k ∈ requests) {q : ι} (hq : q ∈ free) (hfits : fits k q = true) :
    assign fits free requests k = some q ∨
      (∃ j, j < k ∧ assign fits free requests j = some q) ∨
      ∃ p, p < q ∧ assign fits free requests k = some p := by
  induction requests generalizing free with
  | nil => simp at hk
  | cons request requests ih =>
    obtain ⟨hhead, htail⟩ := List.pairwise_cons.1 hrequests
    rcases List.mem_cons.1 hk with rfl | hk
    · rw [assign_head]
      exact (find?_eq_or_lt hfree hq hfits).imp_right .inr
    · by_cases hfirst : free.find? (fits request) = some q
      · exact .inr (.inl ⟨request, hhead k hk, (assign_head ..).trans hfirst⟩)
      · have hleft : q ∈ free.eraseP (fits request) :=
          (mem_eraseP_iff hfree.nodup).2 ⟨hq, hfirst⟩
        have hlater : ∀ {j}, request < j → assign fits free (request :: requests) j =
            assign fits (free.eraseP (fits request)) requests j :=
          fun h => assign_of_ne (ne_of_gt h) free requests
        rw [hlater (hhead k hk)]
        rcases ih (hfree.sublist List.eraseP_sublist) htail hk hleft with h | ⟨j, hj, h⟩ | h
        · exact .inl h
        · have hmem := (assign_eq_some h).1
          exact .inr (.inl ⟨j, hj, (hlater (hhead j hmem)).trans h⟩)
        · exact .inr (.inr h)

end FirstFit

/-! ## The check by positions -/

section Positions

variable {κ ι : Type} (index : LineIndex) (ask : κ → Expectation) (pick : ι → Diagnostic)

/-- The diagnostic at a position is one that an expectation asks for. -/
def fitsAt (k : κ) (p : ι) : Bool :=
  (ask k).accepts index (pick p)

/-- An expectation consumes the diagnostic at the first position that fits it. -/
theorem consume?_map (k : κ) (free : List ι) :
    (ask k).consume? index (free.map pick) =
      (free.find? (fitsAt index ask pick k)).map
        fun _ => (free.eraseP (fitsAt index ask pick k)).map pick := by
  induction free with
  | nil => rfl
  | cons p free ih =>
    rw [List.map_cons, consume?, ih]
    cases hfits : fitsAt index ask pick k p with
    | true =>
      have haccepts : (ask k).accepts index (pick p) = true := hfits
      simp [hfits, haccepts]
    | false =>
      have haccepts : (ask k).accepts index (pick p) = false := hfits
      simp [hfits, haccepts, Function.comp_def]

/-- The check consumes the positions that first fit gives, and leaves the others. -/
theorem settle_eq [DecidableEq κ] (free : List ι) {requests : List κ} (hrequests : requests.Nodup) :
    settle index (free.map pick) (requests.map ask) =
      ((remaining (fitsAt index ask pick) free requests).map pick,
        (requests.filter fun k =>
          (assign (fitsAt index ask pick) free requests k).isNone).map ask) := by
  induction requests generalizing free with
  | nil => rfl
  | cons request requests ih =>
    have htail := ih (free.eraseP (fitsAt index ask pick request)) (List.nodup_cons.1 hrequests).2
    have hfilter : (requests.filter fun k =>
          (assign (fitsAt index ask pick) free (request :: requests) k).isNone) =
        requests.filter fun k => (assign (fitsAt index ask pick)
          (free.eraseP (fitsAt index ask pick request)) requests k).isNone :=
      List.filter_congr fun k hk => by rw [assign_of_mem hrequests hk]
    rw [List.map_cons, settle, consume?_map, List.filter_cons, assign_head, hfilter,
      remaining_cons]
    cases hfind : free.find? (fitsAt index ask pick request) with
    | none =>
      have hsame : free.eraseP (fitsAt index ask pick request) = free :=
        List.eraseP_of_forall_not (by simpa using hfind)
      rw [hsame] at htail
      simp [htail, hsame]
    | some p => simp [htail]

end Positions

/-! ## Pairings -/

/-- The diagnostic has a place in the window of the expectation, and its rule is the
expected one. -/
def Acceptable (index : LineIndex) (expectation : Expectation) (diagnostic : Diagnostic) :
    Prop :=
  ∃ offset, diagnostic.offset? index = some offset ∧
    expectation.window.start ≤ offset ∧ offset < expectation.window.stop ∧
    (expectation.rule = none ∨ expectation.rule = some diagnostic.rule)

theorem accepts_iff {index : LineIndex} {expectation : Expectation} {diagnostic : Diagnostic} :
    expectation.accepts index diagnostic = true ↔ Acceptable index expectation diagnostic := by
  unfold accepts acceptsRule covers Acceptable
  cases diagnostic.offset? index with
  | none => simp
  | some offset =>
    cases expectation.rule with
    | none => simp
    | some rule => simp [and_assoc]

section Pairings

variable {diagnostics : List Diagnostic} {expectations : List Expectation}

/-- What a pairing of expectations with the `free` ones of `diagnostics` satisfies when the
expectations are served in order and each takes the first diagnostic that is left for it. -/
structure IsFirstFit (index : LineIndex) (diagnostics : List Diagnostic)
    (expectations : List Expectation) (free : List (Fin diagnostics.length))
    (paired : Fin expectations.length → Option (Fin diagnostics.length)) : Prop where
  /-- No diagnostic is consumed twice. -/
  injective : ∀ {i j p}, paired i = some p → paired j = some p → i = j
  mem_free : ∀ {i p}, paired i = some p → p ∈ free
  acceptable : ∀ {i p}, paired i = some p →
    Acceptable index (expectations.get i) (diagnostics.get p)
  /-- What is left is of no use to an expectation that is not met. -/
  maximal : ∀ {i p}, paired i = none → p ∈ free → (∀ j, paired j ≠ some p) →
    ¬ Acceptable index (expectations.get i) (diagnostics.get p)
  /-- An acceptable diagnostic is passed over only when an earlier expectation has it. -/
  earliest : ∀ {i p q}, paired i = some p → q ∈ free → q < p →
    Acceptable index (expectations.get i) (diagnostics.get q) → ∃ j, j < i ∧ paired j = some q

/-- The free diagnostics that no expectation consumes. -/
def survivors (free : List (Fin diagnostics.length))
    (paired : Fin expectations.length → Option (Fin diagnostics.length)) : List Diagnostic :=
  (free.filter fun p => ∀ i, paired i ≠ some p).map diagnostics.get

/-- The expectations that consume nothing. -/
def unmet (paired : Fin expectations.length → Option (Fin diagnostics.length)) :
    List Expectation :=
  ((List.finRange expectations.length).filter fun i => paired i = none).map expectations.get

/-- The number of expectations that consume a diagnostic. -/
def met (paired : Fin expectations.length → Option (Fin diagnostics.length)) : Nat :=
  (List.finRange expectations.length).countP fun i => (paired i).isSome

/-- An expectation, by its position, asks for the diagnostic at a position. -/
def fitting (index : LineIndex) (diagnostics : List Diagnostic) (expectations : List Expectation) :
    Fin expectations.length → Fin diagnostics.length → Bool :=
  fitsAt index expectations.get diagnostics.get

theorem fitting_iff {index : LineIndex} {i : Fin expectations.length}
    {p : Fin diagnostics.length} :
    fitting index diagnostics expectations i p = true ↔
      Acceptable index (expectations.get i) (diagnostics.get p) :=
  accepts_iff

/-- First fit for all expectations of a document. -/
def firstFit (index : LineIndex) (diagnostics : List Diagnostic)
    (expectations : List Expectation) (free : List (Fin diagnostics.length)) :
    Fin expectations.length → Option (Fin diagnostics.length) :=
  assign (fitting index diagnostics expectations) free (List.finRange expectations.length)

variable (index : LineIndex) {free : List (Fin diagnostics.length)}

theorem isFirstFit_firstFit (hfree : free.Pairwise (· < ·)) :
    IsFirstFit index diagnostics expectations free
      (firstFit index diagnostics expectations free) := by
  have hrequests : (List.finRange expectations.length).Pairwise (· < ·) :=
    List.pairwise_lt_finRange _
  have hcases : ∀ i q, q ∈ free → Acceptable index (expectations.get i) (diagnostics.get q) →
      firstFit index diagnostics expectations free i = some q ∨
        (∃ j, j < i ∧ firstFit index diagnostics expectations free j = some q) ∨
        ∃ p, p < q ∧ firstFit index diagnostics expectations free i = some p :=
    fun i q hq hacceptable =>
      assign_of_fits hfree hrequests (List.mem_finRange i) hq (fitting_iff.2 hacceptable)
  refine ⟨fun hi hj => assign_injective hfree.nodup hi hj, fun h => (assign_eq_some h).2.1,
    fun h => fitting_iff.1 (assign_eq_some h).2.2, ?_, ?_⟩
  · intro i p hnone hp hleft hacceptable
    rcases hcases i p hp hacceptable with h | ⟨j, -, h⟩ | ⟨q, -, h⟩
    · exact hleft i h
    · exact hleft j h
    · exact absurd (h.symm.trans hnone) (by simp)
  · intro i p q hsome hq hlt hacceptable
    rcases hcases i q hq hacceptable with h | h | ⟨r, hr, h⟩
    · obtain rfl := Option.some.inj (h.symm.trans hsome)
      exact absurd hlt (lt_irrefl q)
    · exact h
    · obtain rfl := Option.some.inj (h.symm.trans hsome)
      exact absurd (hlt.trans hr) (lt_irrefl q)

theorem remaining_eq_filter_firstFit (hfree : free.Nodup) :
    remaining (fitting index diagnostics expectations) free
        (List.finRange expectations.length) =
      free.filter fun p => ∀ i, firstFit index diagnostics expectations free i ≠ some p := by
  rw [remaining_eq_filter hfree (List.nodup_finRange _)]
  exact List.filter_congr fun p _ => decide_eq_decide.2 (by simp [firstFit])

/-- The check leaves what first fit leaves. -/
theorem settle_eq_of_firstFit (hfree : free.Nodup) :
    settle index (free.map diagnostics.get) expectations =
      (survivors free (firstFit index diagnostics expectations free),
        unmet (firstFit index diagnostics expectations free)) := by
  have hsettle := settle_eq index expectations.get diagnostics.get free (List.nodup_finRange _)
  rw [← fitting, remaining_eq_filter_firstFit index hfree, List.map_get_finRange] at hsettle
  rw [hsettle]
  simp [survivors, unmet, firstFit, ← Option.isNone_iff_eq_none]

theorem length_unmet (paired : Fin expectations.length → Option (Fin diagnostics.length)) :
    (unmet paired).length + met paired = expectations.length := by
  have hcount := List.length_eq_countP_add_countP (fun i => (paired i).isSome)
    (l := List.finRange expectations.length)
  rw [List.length_finRange] at hcount
  rw [unmet, met, List.length_map, ← List.countP_eq_length_filter]
  simp only [Bool.not_eq_true, Option.isSome_eq_false_iff, Option.isNone_iff_eq_none] at hcount
  omega

theorem length_survivors (hfree : free.Nodup) :
    (survivors free (firstFit index diagnostics expectations free)).length +
      met (firstFit index diagnostics expectations free) = free.length := by
  rw [survivors, List.length_map, ← remaining_eq_filter_firstFit index hfree]
  exact length_remaining free (List.nodup_finRange expectations.length)

/-! ## The result -/

/-- A check of the free diagnostics reports those that no expectation consumes, and then one
for each expectation that consumes nothing. -/
theorem verify_eq_survivors (text : String) {free : List (Fin diagnostics.length)}
    (hfree : free.Nodup) :
    verify text expectations (free.map diagnostics.get) =
      survivors free (firstFit (.ofText text) diagnostics expectations free) ++
        (unmet (firstFit (.ofText text) diagnostics expectations free)).map
          (unmetDiagnostic (.ofText text)) := by
  rw [verify, settle_eq_of_firstFit _ hfree]

end Pairings

/-- The diagnostics after a check are those that no expectation consumes, in order, and
then one for each expectation that consumes nothing, in the order of the expectations.
Each expectation takes the first acceptable diagnostic that no earlier one has taken. -/
theorem verify_eq_of_first_fit (text : String) (expectations : List Expectation)
    (diagnostics : List Diagnostic) :
    ∃ paired, IsFirstFit (.ofText text) diagnostics expectations
        (List.finRange diagnostics.length) paired ∧
      verify text expectations diagnostics =
        survivors (List.finRange diagnostics.length) paired ++
          (unmet paired).map (unmetDiagnostic (.ofText text)) ∧
      (verify text expectations diagnostics).length + 2 * met paired =
        diagnostics.length + expectations.length := by
  have hnodup : (List.finRange diagnostics.length).Nodup := List.nodup_finRange _
  let paired := firstFit (.ofText text) diagnostics expectations (List.finRange diagnostics.length)
  have hverify : verify text expectations diagnostics =
      survivors (List.finRange diagnostics.length) paired ++
        (unmet paired).map (unmetDiagnostic (.ofText text)) := by
    rw [← verify_eq_survivors text hnodup, List.map_get_finRange]
  have hsurvivors : (survivors (List.finRange diagnostics.length) paired).length + met paired =
      diagnostics.length :=
    (length_survivors (.ofText text) hnodup).trans List.length_finRange
  have hunmet := length_unmet paired
  refine ⟨paired, isFirstFit_firstFit _ (List.pairwise_lt_finRange _), hverify, ?_⟩
  rw [hverify, List.length_append, List.length_map]
  omega

end LintDirectives.Expectation
