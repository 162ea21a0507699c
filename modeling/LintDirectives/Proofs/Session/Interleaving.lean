import LintDirectives.Proofs.Session.Phases

/-!
# Interleaved documents

The inspection and the check of a document need not follow each other: other
documents may be inspected and checked in between, in the same store.  This
module says that they do not notice each other, whatever the order is.

There are three groups.

* The phases that remain.  `Phase.Remain` is what a schedule keeps while it is
  performed from the front, and `Phase.Waits` says of a job that its check is
  what remains of it.
* The store.  `HoldsWaiting` is the invariant: the store holds the entries of
  the jobs that wait, beside what it held in the beginning.
* The result.  `performPhases_append` is the induction, and
  `interleaved_phases_answer_alone` the case of a whole schedule.
-/

namespace LintDirectives.Session

open Expectation Inspection

/-! ## The phases that remain -/

/-- A document, its tree, and the diagnostics that are checked for it. -/
structure Job where
  document : Document
  root : Node
  diagnostics : List Diagnostic

/-- One of the two phases of a job. -/
inductive Phase (ι : Type) where
  | inspect (job : ι)
  | verify (job : ι)
deriving DecidableEq

namespace Phase

variable {ι : Type}

/-- The job that a phase belongs to. -/
def job : Phase ι → ι
  | inspect i => i
  | verify i => i

/-- The phases of each job are at the end of its two phases, in their order: of a job that
has been started only the check is to come, of one that has been checked nothing. -/
def Remain [DecidableEq ι] (phases : List (Phase ι)) : Prop :=
  ∀ i, phases.filter (·.job = i) <:+ [inspect i, verify i]

/-- The inspection of a job is done and its check is to come. -/
def Waits [DecidableEq ι] (phases : List (Phase ι)) (i : ι) : Prop :=
  phases.filter (·.job = i) = [verify i]

section Remain

variable [DecidableEq ι] {phases : List (Phase ι)} {i j : ι}

theorem filter_cons_of_ne {phase : Phase ι} (h : phase.job ≠ i) :
    (phase :: phases).filter (·.job = i) = phases.filter (·.job = i) :=
  List.filter_cons_of_neg (by simpa using h)

theorem waits_cons_of_ne {phase : Phase ι} (h : phase.job ≠ i) :
    Waits (phase :: phases) i ↔ Waits phases i := by
  rw [Waits, filter_cons_of_ne h, Waits]

theorem Remain.tail {phase : Phase ι} (h : Remain (phase :: phases)) : Remain phases := by
  intro i
  refine List.IsSuffix.trans ?_ (h i)
  rw [List.filter_cons]
  split
  · exact List.suffix_cons _ _
  · exact List.suffix_refl _

/-- After the inspection of a job its check is to come, and before it the job does not wait. -/
theorem Remain.waits_of_inspect (h : Remain (.inspect i :: phases)) :
    ¬ Waits (.inspect i :: phases) i ∧ Waits phases i := by
  have hcons : (Phase.inspect i :: phases).filter (·.job = i) =
      .inspect i :: phases.filter (·.job = i) := List.filter_cons_of_pos (by simp [job])
  have hsuffix := h i
  rw [hcons] at hsuffix
  refine ⟨by simp [Waits, hcons], ?_⟩
  rcases List.suffix_cons_iff.1 hsuffix with heq | hshort
  · exact (List.cons.inj heq).2
  · have hhead := hshort.subset List.mem_cons_self
    simp at hhead

/-- A job waits for its check, and after the check it does not. -/
theorem Remain.waits_of_verify (h : Remain (.verify i :: phases)) :
    Waits (.verify i :: phases) i ∧ ¬ Waits phases i := by
  have hcons : (Phase.verify i :: phases).filter (·.job = i) =
      .verify i :: phases.filter (·.job = i) := List.filter_cons_of_pos (by simp [job])
  have hsuffix := h i
  rw [hcons] at hsuffix
  have hrest : phases.filter (·.job = i) = [] := by
    rcases List.suffix_cons_iff.1 hsuffix with heq | hshort
    · simp at heq
    · exact List.length_eq_zero_iff.1 (by simpa using hshort.length_le)
  exact ⟨by rw [Waits, hcons, hrest], by simp [Waits, hrest]⟩

end Remain

end Phase

/-! ## The store -/

/-- Performs phases in order.  The result are the answers of the checks, and the session at
the end. -/
def performPhases {ι : Type} (jobs : ι → Job) (session : Session) :
    List (Phase ι) → List (ι × List Diagnostic) × Session
  | [] => ([], session)
  | .inspect i :: phases =>
    performPhases jobs (session.inspect (jobs i).document (jobs i).root).2 phases
  | .verify i :: phases =>
    let (left, session) := session.verify (jobs i).document (jobs i).diagnostics
    let (answers, session) := performPhases jobs session phases
    ((i, left) :: answers, session)

/-- What a job answers when its two phases follow each other on an empty store. -/
def Job.alone (config : Config) (job : Job) : List Diagnostic :=
  checked config .empty job.document job.root job.diagnostics

/-- What the checks among `phases` answer when each job is alone. -/
def answersAlone {ι : Type} (config : Config) (jobs : ι → Job) (phases : List (Phase ι)) :
    List (ι × List Diagnostic) :=
  phases.filterMap fun
    | .inspect _ => none
    | .verify i => some (i, (jobs i).alone config)

section Interleaving

variable {ι : Type} [DecidableEq ι] {config : Config} {jobs : ι → Job}

/-- What is stored for a job once it has been inspected. -/
def Job.recorded? (config : Config) (job : Job) : Option (List Expectation) :=
  entryOf? config job.document.text job.root

theorem Job.alone_eq (config : Config) (job : Job) :
    job.alone config =
      Expectation.verify job.document.text ((job.recorded? config).getD []) job.diagnostics := by
  rw [alone, checked, verify_inspect_of_empty, recorded?]

/-- A store holds the entries of the jobs that wait for their check, and nothing else. -/
structure HoldsWaiting (config : Config) (jobs : ι → Job) (phases : List (Phase ι))
    (store : Store) : Prop where
  waiting : ∀ {i}, Phase.Waits phases i →
    store.stored? (jobs i).document.key = (jobs i).recorded? config
  settled : ∀ {i}, ¬ Phase.Waits phases i → store.stored? (jobs i).document.key = none
  foreign : ∀ {key}, (∀ i, key ≠ (jobs i).document.key) → store.stored? key = none

namespace HoldsWaiting

variable {phases : List (Phase ι)} {store : Store} {i : ι}

/-- A change at the key of one job alone keeps what the store holds for the others. -/
theorem of_step (hkeys : Function.Injective fun i => (jobs i).document.key) {phase : Phase ι}
    (h : HoldsWaiting config jobs (phase :: phases) store) (hjob : phase.job = i) {after : Store}
    (hother : ∀ key, key ≠ (jobs i).document.key → after.stored? key = store.stored? key)
    (hwaits : Phase.Waits phases i →
      after.stored? (jobs i).document.key = (jobs i).recorded? config)
    (hsettled : ¬ Phase.Waits phases i → after.stored? (jobs i).document.key = none) :
    HoldsWaiting config jobs phases after := by
  have hkey : ∀ {j}, i ≠ j → (jobs j).document.key ≠ (jobs i).document.key :=
    fun hne heq => hne (hkeys heq).symm
  have hsame : ∀ {j}, i ≠ j → (Phase.Waits (phase :: phases) j ↔ Phase.Waits phases j) :=
    fun hne => Phase.waits_cons_of_ne (hjob ▸ hne)
  constructor
  case waiting =>
    intro j hj
    by_cases heq : i = j
    · exact heq ▸ hwaits (heq ▸ hj)
    · rw [hother _ (hkey heq), h.waiting ((hsame heq).2 hj)]
  case settled =>
    intro j hj
    by_cases heq : i = j
    · exact heq ▸ hsettled (heq ▸ hj)
    · rw [hother _ (hkey heq), h.settled fun hwait => hj ((hsame heq).1 hwait)]
  case foreign =>
    intro key hne
    rw [hother key (hne _), h.foreign hne]

theorem inspect (hkeys : Function.Injective fun i => (jobs i).document.key)
    (hremain : Phase.Remain (.inspect i :: phases))
    (h : HoldsWaiting config jobs (.inspect i :: phases) store) :
    HoldsWaiting config jobs phases
      (store.record (jobs i).document.key ((jobs i).recorded? config)) := by
  obtain ⟨hbefore, hafter⟩ := hremain.waits_of_inspect
  have hjob : (Phase.inspect i).job = i := rfl
  refine h.of_step hkeys hjob (fun key hne => ?_) (fun _ => ?_) fun hnot => absurd hafter hnot
  · rw [Store.stored?_record, if_neg hne]
  · rw [Store.stored?_record, if_pos rfl, h.settled hbefore, Option.or_none]

theorem verify (hkeys : Function.Injective fun i => (jobs i).document.key)
    (hremain : Phase.Remain (.verify i :: phases))
    (h : HoldsWaiting config jobs (.verify i :: phases) store) :
    HoldsWaiting config jobs phases (store.erase (jobs i).document.key) := by
  obtain ⟨-, hafter⟩ := hremain.waits_of_verify
  have hjob : (Phase.verify i).job = i := rfl
  refine h.of_step hkeys hjob (fun key hne => ?_) (fun hwait => absurd hwait hafter) fun _ => ?_
  · rw [Store.stored?_erase, if_neg hne]
  · rw [Store.stored?_erase, if_pos rfl]

/-- When no phase remains nothing waits. -/
theorem eq_empty (h : HoldsWaiting config jobs [] store) : store = .empty := by
  refine Store.eq_empty_of_stored? fun key => ?_
  by_cases hforeign : ∀ i, key ≠ (jobs i).document.key
  · exact h.foreign hforeign
  · obtain ⟨i, hi⟩ : ∃ i, key = (jobs i).document.key := by
      simpa using hforeign
    rw [hi]
    exact h.settled (by simp [Phase.Waits])

end HoldsWaiting

/-! ## The result -/

/-- Performing what remains of a schedule gives the answers of the jobs alone, and leaves what
the store held beside the entries of the jobs that wait. -/
theorem performPhases_append (hkeys : Function.Injective fun i => (jobs i).document.key)
    {store : Store} (hstore : ∀ i, store.stored? (jobs i).document.key = none)
    {phases : List (Phase ι)} (hremain : Phase.Remain phases) {waiting : Store}
    (h : HoldsWaiting config jobs phases waiting) :
    performPhases jobs { config := config, store := store ++ waiting } phases =
      (answersAlone config jobs phases, { config := config, store := store }) := by
  -- Every phase acts on what waits and leaves what the store held in the beginning: that has no
  -- entry for a job, so `++` lets a change at the key of a job through to `waiting`.
  induction phases generalizing waiting with
  | nil => rw [h.eq_empty, Store.append_empty]; rfl
  | cons phase phases ih =>
    cases phase with
    | inspect i =>
      rw [performPhases, inspect_snd, ← Job.recorded?]
      simp only
      rw [Store.record_append (hstore i), ih hremain.tail (h.inspect hkeys hremain)]
      rfl
    | verify i =>
      obtain ⟨hwaits, -⟩ := hremain.waits_of_verify
      have hanswer : (jobs i).alone config =
          Expectation.verify (jobs i).document.text
            (((store ++ waiting).stored? (jobs i).document.key).getD [])
            (jobs i).diagnostics := by
        rw [Job.alone_eq, Store.stored?_append (hstore i), h.waiting hwaits]
      rw [performPhases, verify_eq]
      simp only
      rw [Store.erase_append (hstore i), ih hremain.tail (h.verify hkeys hremain), ← hanswer]
      rfl

/-- Documents that differ in path or text may be inspected and checked in any order in which
each of them is checked after its inspection.  Every check answers as if its document had been
alone in an empty store, and in the end the store is the one of the beginning. -/
theorem interleaved_phases_answer_alone (jobs : ι → Job) (session : Session)
    (hkeys : Function.Injective fun i => (jobs i).document.key)
    (hstore : ∀ i, session.store.stored? (jobs i).document.key = none)
    {phases : List (Phase ι)}
    (hphases : ∀ i, phases.filter (·.job = i) = [.inspect i, .verify i]) :
    performPhases jobs session phases = (answersAlone session.config jobs phases, session) := by
  have hremain : Phase.Remain phases := fun i => (hphases i).symm ▸ List.suffix_refl _
  have hnothing : HoldsWaiting session.config jobs phases .empty := by
    refine ⟨fun {i} hwait => ?_, fun _ => rfl, fun _ => rfl⟩
    rw [Phase.Waits, hphases i] at hwait
    simp at hwait
  have hperformed := performPhases_append hkeys hstore hremain hnothing
  rw [Store.append_empty] at hperformed
  exact hperformed

end Interleaving

/-- One text at two places.  It expects errors of two rules.  The second job has one of them and
the first one has none. -/
def twinJobs : Fin 2 → Job
  | 0 => ⟨commentedDocument, commentedRoot, []⟩
  | 1 => ⟨{ commentedDocument with path := some ⟨"a.md"⟩ }, commentedRoot,
      [{ rule := "ruleB", index := some 100 }]⟩

theorem interleaved_twins_answer_alone :
    let session : Session := { store := Store.empty.insert markedDocument.key [⟨⟨32, 37⟩, none⟩] }
    let phases : List (Phase (Fin 2)) := [.inspect 1, .inspect 0, .verify 1, .verify 0]
    (Function.Injective fun i => (twinJobs i).document.key) ∧
      (∀ i, session.store.stored? (twinJobs i).document.key = none) ∧
      (∀ i, phases.filter (·.job = i) = [.inspect i, .verify i]) ∧
      performPhases twinJobs session phases =
        (answersAlone session.config twinJobs phases, session) := by
  intro session phases
  have hkeys : Function.Injective fun i => (twinJobs i).document.key := by
    unfold Function.Injective
    decide +kernel
  have hstore : ∀ i, session.store.stored? (twinJobs i).document.key = none := by decide +kernel
  have hphases : ∀ i, phases.filter (·.job = i) = [.inspect i, .verify i] := by decide
  exact ⟨hkeys, hstore, hphases,
    interleaved_phases_answer_alone twinJobs session hkeys hstore hphases⟩

end LintDirectives.Session
