import LintDirectives.Command.Run
import LintDirectives.Proofs.Session.Calls
import Mathlib.Logic.Equiv.Defs
import Mathlib.Data.List.OfFn

/-!
# Adjusting reports

A command adjusts all its reports with one session, one after the other.  The
session has forgotten a file when the report after it is adjusted, so each
report is adjusted as if it were the only one, also where several reports are
about one file.

There are three groups.

* One session.  `adjust_of_empty` says that a report leaves nothing behind, and
  `adjustAll_of_empty` is the induction over the reports.
* One report.  `messagesAlone` are the messages that a report gets, and
  `adjustReports_eq_map` says that the command gives them to each report.
* The result.  `adjustReports_pointwise` puts them together with the status of
  the command.
-/

namespace LintDirectives

/-! ## One session -/

namespace Session

variable (config : Config)

theorem process_of_empty (document : Document) (diagnostics : List Diagnostic) :
    (({ config := config } : Session).process document diagnostics).2 = { config := config } := by
  have hcall := perform_eq_answer config ⟨.process, document, diagnostics⟩
  exact congrArg Prod.snd hcall

/-- A report leaves nothing behind. -/
theorem adjust_of_empty (report : Report) (contents : Except Unreadable String) :
    (({ config := config } : Session).adjust report contents).2 = { config := config } := by
  cases contents with
  | error reason => rfl
  | ok text => exact process_of_empty config ⟨some ⟨report.filePath⟩, text⟩ report.messages

/-- What a session forgets after each report it forgets after all of them. -/
theorem adjustAll_of_empty (reports : List (Report × Except Unreadable String)) :
    (({ config := config } : Session).adjustAll reports).1 =
      reports.map fun entry => (({ config := config } : Session).adjust entry.1 entry.2).1 := by
  induction reports with
  | nil => rfl
  | cons entry rest ih =>
    have hcons : (({ config := config } : Session).adjustAll (entry :: rest)).1 =
        (({ config := config } : Session).adjust entry.1 entry.2).1 ::
          ((({ config := config } : Session).adjust entry.1 entry.2).2.adjustAll rest).1 := rfl
    rw [hcons, adjust_of_empty, ih, List.map_cons]

end Session

namespace Command

/-! ## One report -/

section

variable (files : FilePath → Except Unreadable String) (config : Config)

/-- The messages of a report whose file a fresh session processes.  A file that cannot be read
keeps its messages. -/
def messagesAlone (report : Report) : List Diagnostic :=
  match files ⟨report.filePath⟩ with
  | .error _ => report.messages
  | .ok text =>
    (({ config := config } : Session).process ⟨some ⟨report.filePath⟩, text⟩ report.messages).1

theorem adjust_eq (report : Report) :
    (({ config := config } : Session).adjust report (files ⟨report.filePath⟩)).1 =
      { report with messages := messagesAlone files config report } := by
  unfold messagesAlone
  cases files ⟨report.filePath⟩ <;> rfl

/-- Each report is adjusted alone. -/
theorem adjustReports_eq_map (reports : List Report) :
    adjustReports (m := Id) files config reports =
      reports.map fun report => { report with messages := messagesAlone files config report } := by
  have hcontents : (reports.mapM (m := Id) fun report => files ⟨report.filePath⟩) =
      reports.map fun report => files ⟨report.filePath⟩ := List.idRun_mapM
  have hadjust : adjustReports (m := Id) files config reports =
      (({ config := config } : Session).adjustAll
        (reports.zip (reports.mapM (m := Id) fun report => files ⟨report.filePath⟩))).1 := rfl
  have hzip : reports.zip (reports.map fun report => files ⟨report.filePath⟩) =
      reports.map fun report => (report, files ⟨report.filePath⟩) := by
    rw [List.zip_map_right, List.zip_eq_zipWith, List.zipWith_self, List.map_map]
    rfl
  rw [hadjust, hcontents, hzip, Session.adjustAll_of_empty, List.map_map]
  exact List.map_congr_left fun report _ => adjust_eq files config report

end

/-- An error is among the messages that are left. -/
def LeavesError (reports : List Report) : Prop :=
  ∃ report ∈ reports, ∃ message ∈ report.messages, message.severity = .error

theorem any_hasErrors_iff {reports : List Report} :
    reports.any Report.hasErrors = true ↔ LeavesError reports := by
  simp [LeavesError, Report.hasErrors]

section Apply

variable {files : FilePath → Except Unreadable String} {config : Config}
  {configPath : Option FilePath} {results : FilePath} {text : String} {reports : List Report}

/-- A command that can read what it needs writes the adjusted reports. -/
theorem apply_eq_outcome (hconfig : readConfig (m := Id) files configPath = .ok config)
    (hfile : files results = .ok text) (hreports : Report.readList text = .ok reports)
    (layout : Layout) :
    apply (m := Id) files configPath results layout =
      outcome layout (adjustReports (m := Id) files config reports) := by
  -- A file is read in `Id`, so what it gives is pure.
  have hreadConfig : readConfig (m := Id) files configPath = pure (.ok config) := hconfig
  have hread : files results = pure (f := Id) (.ok text) := hfile
  simp only [apply, hreadConfig, hread, pure_bind, hreports]
  rfl

end Apply

/-! ## The result -/

/-- Adjusting reports keeps their number, their order, their paths and their further fields.
Each report gets the messages that a fresh session gives it, or keeps its own if its file
cannot be read, so reports in another order are adjusted to the same reports in that order.
The status of the command is one exactly if an error is among the messages that are left. -/
theorem adjustReports_pointwise (files : FilePath → Except Unreadable String) (config : Config)
    (reports : List Report) :
    let adjusted : List Report := adjustReports (m := Id) files config reports
    ∃ same : adjusted.length = reports.length,
      (∀ i : Fin reports.length,
        let before := reports.get i
        let after := adjusted.get (i.cast same.symm)
        after.filePath = before.filePath ∧ after.extra = before.extra ∧
          after.messages = messagesAlone files config before) ∧
      (∀ order : Equiv.Perm (Fin reports.length),
        adjustReports (m := Id) files config (List.ofFn fun i => reports.get (order i)) =
          List.ofFn fun i => adjusted.get ((order i).cast same.symm)) ∧
      (∀ layout, ((outcome layout adjusted).status = 1 ↔ LeavesError adjusted) ∧
        ((outcome layout adjusted).status = 0 ↔ ¬ LeavesError adjusted)) ∧
      ∀ configPath results text layout,
        readConfig (m := Id) files configPath = .ok config → files results = .ok text →
        Report.readList text = .ok reports →
        apply (m := Id) files configPath results layout = outcome layout adjusted := by
  intro adjusted
  have hadjusted : adjusted = _ := adjustReports_eq_map files config reports
  have hlength : adjusted.length = reports.length := by rw [hadjusted, List.length_map]
  have hget (i : Fin reports.length) : adjusted.get (i.cast hlength.symm) =
      { reports.get i with messages := messagesAlone files config (reports.get i) } := by
    simp [hadjusted]
  refine ⟨hlength, fun i => ?_, fun order => ?_, fun layout => ?_, ?_⟩
  · rw [hget]
    exact ⟨rfl, rfl, rfl⟩
  · rw [adjustReports_eq_map, List.map_ofFn]
    exact congrArg List.ofFn (funext fun i => (hget (order i)).symm)
  · have hstatus : (outcome layout adjusted).status =
        if adjusted.any Report.hasErrors then 1 else 0 := rfl
    rw [hstatus, ← any_hasErrors_iff]
    split
    · next herror => simp [herror]
    · next herror => simp [herror]
  · intro configPath results text layout hconfig hfile hreports
    exact apply_eq_outcome hconfig hfile hreports layout

/-- Reports without an error: two are about one note, and one is about a file that is missing. -/
def reportsText : String :=
  "[\x7b\"filePath\":\"a.md\",\"messages\":[]\x7d," ++
    "\x7b\"filePath\":\"b.md\",\"messages\":" ++
    "[\x7b\"ruleId\":\"r\",\"message\":\"m\",\"severity\":1\x7d]\x7d," ++
    "\x7b\"filePath\":\"a.md\"\x7d]"

/-- The reports, and a note in which an error is expected. -/
def noteFiles (path : FilePath) : Except Unreadable String :=
  if path.text = "a.md" then .ok "<!-- textlint-expect-error -->\n\nText."
  else if path.text = "results.json" then .ok reportsText
  else .error .missing

/-- The command reports what it misses in the note. -/
theorem apply_noteFiles :
    ∃ reports, readConfig (m := Id) noteFiles none = .ok .default ∧
      noteFiles ⟨"results.json"⟩ = .ok reportsText ∧
      Report.readList reportsText = .ok reports ∧ ¬ LeavesError reports ∧
      let adjusted : List Report := adjustReports (m := Id) noteFiles .default reports
      adjusted.length = reports.length ∧ LeavesError adjusted ∧
        (apply (m := Id) noteFiles none ⟨"results.json"⟩ .text).status = 1 := by
  have hcomputed : (Report.readList reportsText).toOption.any (fun reports =>
      !reports.any Report.hasErrors &&
        List.any (adjustReports (m := Id) noteFiles .default reports) Report.hasErrors) = true := by
    decide +kernel
  cases hreports : Report.readList reportsText with
  | error failure => simp [hreports, Except.toOption] at hcomputed
  | ok reports =>
    rw [hreports, Except.toOption, Option.any_some, Bool.and_eq_true, Bool.not_eq_true'] at hcomputed
    obtain ⟨hbefore, hafter⟩ := hcomputed
    obtain ⟨hlength, -, -, hstatus, happly⟩ := adjustReports_pointwise noteFiles .default reports
    refine ⟨reports, rfl, rfl, rfl, ?_, hlength, any_hasErrors_iff.1 hafter, ?_⟩
    · rw [← any_hasErrors_iff, hbefore]
      exact Bool.false_ne_true
    · rw [happly none _ reportsText .text rfl rfl hreports]
      exact (hstatus .text).1.2 (any_hasErrors_iff.1 hafter)

end Command

end LintDirectives
