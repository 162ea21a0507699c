import LintDirectives.Proofs.Report.Rereading

/-!
# Reports that are written and read again

A list of reports that was read from a text is written, in either layout, and read
again.  If the numbers in the further fields are integers, this gives the same list,
or the text is refused (`reports_are_read_again`).  It is refused exactly if the list
is not `IsRereadable`, which has to do with the texts that may stand within a text:

* sorting a record may bring the name set aside for such texts to the front, and then
  the record is taken for one;
* what such a text holds counts towards the depth only once it is written in place.

Nothing else can go wrong: further fields keep apart from the known ones, and no record
is written that has a name twice.
-/

namespace LintDirectives.Report

open Json Json.Value

/-- The value is an integer, if it is a number. -/
def IsIntegral : Value → Prop
  | number n => ∃ i, n = .integer i
  | _ => True

/-- The value has no name twice, if it is a record. -/
def NamesOnce : Value → Prop
  | record fields => (Fields.names fields).Nodup
  | _ => True

/-- `P` holds of all that is in the further fields of the report and of its diagnostics. -/
def EveryExtra (P : Value → Prop) (report : Report) : Prop :=
  (∀ message ∈ report.messages, ∀ field ∈ message.extra, field.2.Every P) ∧
    ∀ field ∈ report.extra, field.2.Every P

/-- The written reports do not nest too deep, and nothing in them is taken for a text. -/
def IsRereadable (reports : List Report) : Prop :=
  (listToJson reports).depth ≤ Reader.depthLimit ∧
    ∀ report ∈ reports, report.EveryExtra fun part => ¬part.HoldsText

variable {reports again : List Report}

theorem isKept_of_listOfJson {text : String} (h : listOfJson text = .ok reports) :
    ∀ report ∈ reports, report.IsKept := by
  obtain ⟨items, hdraft, hitems⟩ := Decode.list_eq_ok_iff.1 (Decode.run_eq_ok_iff.1 h).2
  have hbounded := Draft.isBounded_read text
  rw [hdraft] at hbounded
  intro report hreport
  obtain ⟨item, hitem, hread⟩ := exists_mem_of_forall₂ (mapM_eq_ok_iff.1 hitems) hreport
  cases hbounded with
  | list _ hbounded => exact isKept_of_decode (hbounded item hitem) hread

theorem IsKept.everyExtra {report : Report} (h : report.IsKept) :
    report.EveryExtra Value.IsKept :=
  ⟨fun message hmessage => (h.messages message hmessage).values, h.values⟩

theorem EveryExtra.mono {P Q : Value → Prop} {report : Report} (h : report.EveryExtra P)
    (hsub : ∀ part, P part → Q part) : report.EveryExtra Q :=
  ⟨fun message hmessage field hfield => (h.1 message hmessage field hfield).mono hsub,
    fun field hfield => (h.2 field hfield).mono hsub⟩

theorem EveryExtra.and {P Q : Value → Prop} {report : Report} (hp : report.EveryExtra P)
    (hq : report.EveryExtra Q) : report.EveryExtra fun part => P part ∧ Q part :=
  ⟨fun message hmessage field hfield =>
      (hp.1 message hmessage field hfield).and (hq.1 message hmessage field hfield),
    fun field hfield => (hp.2 field hfield).and (hq.2 field hfield)⟩

/-- What holds of all strings and lists, of the numbers of 32 bits, and of every report and
diagnostic depends on the further fields. -/
theorem every_listToJson {P : Value → Prop} (hstring : ∀ s, P (.string s))
    (hlist : ∀ items, P (.list items)) (hnat : ∀ n < 2 ^ 32, P (.nat n))
    (hmessage : ∀ message : Diagnostic, message.IsKept → P message.toJson)
    (hreport : ∀ report : Report, report.IsKept → P report.toJson)
    (hkept : ∀ report ∈ reports, report.IsKept)
    (hextra : ∀ report ∈ reports, report.EveryExtra P) : (listToJson reports).Every P := by
  refine every_list.2 ⟨hlist _, ?_⟩
  simp only [List.mem_map, forall_exists_index, and_imp, forall_apply_eq_imp_iff₂]
  intro report hmem
  have hmessages : (Value.list (report.messages.map Diagnostic.toJson)).Every P := by
    refine every_list.2 ⟨hlist _, ?_⟩
    simp only [List.mem_map, forall_exists_index, and_imp, forall_apply_eq_imp_iff₂]
    intro message hmem'
    have hmsg := (hkept report hmem).messages message hmem'
    rw [Diagnostic.toJson_eq, every_record, List.forall_mem_append]
    exact ⟨hmessage message hmsg, Diagnostic.every_of_mem_knownFields hmsg hstring hlist hnat,
      (hextra report hmem).1 message hmem'⟩
  rw [toJson, every_record, List.forall_mem_append]
  refine ⟨hreport report (hkept report hmem), ?_, (hextra report hmem).2⟩
  simp [hstring, hmessages]

theorem fitsWord_of_isKept {part : Value} (h : part.IsKept ∧ IsIntegral part) :
    part.FitsWord := by
  cases part with
  | number n =>
    obtain ⟨hbounded, i, rfl⟩ := h
    exact ⟨i, rfl, hbounded i rfl⟩
  | _ => trivial

theorem every_fitsWord_listToJson (hkept : ∀ report ∈ reports, report.IsKept)
    (hintegral : ∀ report ∈ reports, report.EveryExtra IsIntegral) :
    (listToJson reports).Every FitsWord := by
  have hnat (n : Nat) (hn : n < 2 ^ 32) : (Value.nat n).FitsWord := ⟨n, rfl, by omega, by omega⟩
  refine every_listToJson (fun _ => trivial) (fun _ => trivial) hnat (fun _ _ => trivial)
    (fun _ _ => trivial) hkept fun report hreport => ?_
  exact ((hkept report hreport).everyExtra.and (hintegral report hreport)).mono
    fun _ => fitsWord_of_isKept

theorem namesOnce_of_isKept {part : Value} (h : part.IsKept) : NamesOnce part := by
  cases part with
  | record fields => exact h.1.nodup
  | _ => trivial

theorem every_namesOnce_listToJson (hkept : ∀ report ∈ reports, report.IsKept) :
    (listToJson reports).Every NamesOnce :=
  every_listToJson (fun _ => trivial) (fun _ => trivial) (fun _ _ => trivial)
    (fun _ hmessage => Diagnostic.nodup_names_toJson hmessage)
    (fun _ hreport => nodup_names_toJson hreport) hkept
    fun report hreport => (hkept report hreport).everyExtra.mono fun _ => namesOnce_of_isKept

theorem listOfJson_eq_of_isSpelled {spell : Value → List Char} {value : Value}
    (h : IsSpelled spell value) (hdepth : value.depth ≤ Reader.depthLimit) :
    listOfJson (String.ofList (spell value)) =
      Decode.list (decode .text) (Draft.ofValue value) := by
  rw [listOfJson, Decode.run, Draft.read_of_isSpelled h hdepth]
  dsimp only
  cases Decode.list (decode .text) (Draft.ofValue value) <;> rfl

/-- The text of reports is read as these reports, or not at all. -/
theorem listOfJson_of_isSpelled {spell : Value → List Char}
    (h : IsSpelled spell (listToJson reports)) (hkept : ∀ report ∈ reports, report.IsKept) :
    listOfJson (String.ofList (spell (listToJson reports))) = .ok again ↔
      again = reports ∧ IsRereadable reports := by
  have hdecode : Decode.list (decode .text) (Draft.ofValue (listToJson reports)) = .ok again ↔
      again = reports ∧ ∀ report ∈ reports, report.IsPlain :=
    Decode.list_ofValue_eq_ok_iff fun report hreport _ =>
      decode_toJson_eq_ok_iff (hkept report hreport)
  by_cases hdepth : (listToJson reports).depth ≤ Reader.depthLimit
  · rw [listOfJson_eq_of_isSpelled h hdepth, hdecode, IsRereadable]
    simp only [hdepth, true_and]
    rfl
  -- Only a text that was read to its end is taken.
  · refine iff_of_false (fun hread => ?_) fun hread => hdepth hread.2.1
    have hwhole := (isStrict_decode .text).list _ _ (Decode.run_eq_ok_iff.1 hread).2
    rw [Draft.isWhole_read_of_isSpelled h hdepth] at hwhole
    contradiction

/-- Reports that have been read are written and read again as they are, unless something in
them is taken for a text or nests too deep.  The names of known fields are never given to
further ones. -/
theorem reports_are_read_again {text : String} (h : listOfJson text = .ok reports) :
    ((∀ report ∈ reports, report.EveryExtra IsIntegral) → ∀ again,
      (listOfJson (listToJson reports).write = .ok again ↔
        again = reports ∧ IsRereadable reports) ∧
      (listOfJson (listToJson reports).writePretty = .ok again ↔
        again = reports ∧ IsRereadable reports)) ∧
    (∀ report ∈ reports, (∀ name ∈ Fields.names report.extra, name ∉ knownNames) ∧
      ∀ message ∈ report.messages, ∀ name ∈ Fields.names message.extra,
        name ∉ Diagnostic.knownNames) ∧
    (listToJson reports).Every NamesOnce := by
  have hkept := isKept_of_listOfJson h
  refine ⟨fun hintegral again => ?_, fun report hreport => ?_, every_namesOnce_listToJson hkept⟩
  · have hwords := every_fitsWord_listToJson hkept hintegral
    exact ⟨listOfJson_of_isSpelled (isSpelled_compact hwords) hkept,
      listOfJson_of_isSpelled (isSpelled_prettyAt hwords 0) hkept⟩
  · have hreport := hkept report hreport
    exact ⟨hreport.unknown, fun message hmessage => (hreport.messages message hmessage).unknown⟩

/-- Fields in no order, and one that is null. -/
def unorderedReports : Value :=
  .list [.record
    [("x", .record [("b", .list [.int (-1), .record [("é", .null)]]), ("a", .string "\x01\n☃")]),
      ("messages", .list [.record
        [("fix", .string "\x22\\"), ("line", .null), ("range", .list [.int 3, .int 2])]]),
      ("filePath", .string "f")]]

/-- The reports that `unorderedReports` gives. -/
def orderedReports : List Report :=
  [{ filePath := "f",
     messages := [{ rule := "", message := "", range := some (3, 2),
                    extra := [("fix", .string "\x22\\")] }],
     extra := [("x", .record
       [("a", .string "\x01\n☃"), ("b", .list [.int (-1), .record [("é", .null)]])])] }]

theorem orderedReports_are_read_again :
    listOfJson unorderedReports.write = .ok orderedReports ∧
      (∀ report ∈ orderedReports, report.EveryExtra IsIntegral) ∧
      listOfJson (listToJson orderedReports).writePretty = .ok orderedReports := by
  have hread : listOfJson unorderedReports.write = .ok orderedReports := by
    refine (listOfJson_eq_of_isSpelled (isSpelled_compact ?_) (by decide)).trans rfl
    simp [unorderedReports, every_list, every_record, FitsWord, Value.int, Number.IsWord]
  have hintegral : ∀ report ∈ orderedReports, report.EveryExtra IsIntegral := by
    simp [orderedReports, EveryExtra, every_list, every_record, IsIntegral, Value.int]
  have hagain : IsRereadable orderedReports := by
    refine ⟨by decide, ?_⟩
    simp [orderedReports, EveryExtra, every_list, every_record, HoldsText, Value.int, Fields.names,
      Embedded.fieldName]
  exact ⟨hread, hintegral, ((reports_are_read_again hread).1 hintegral _).2.2 ⟨rfl, hagain⟩⟩

/-- A record whose second name is the one set aside for texts. -/
def textBehind : Value :=
  .list [.record [("filePath", .string "a"), ("messages", .list []),
    ("x", .record [("a", .int 2), (Embedded.fieldName, .string "1")])]]

/-- In order, the name for texts comes first, and the record is taken for a text. -/
theorem textBehind_is_not_read_again :
    ∃ reports, listOfJson textBehind.write = .ok reports ∧
      (∀ report ∈ reports, report.EveryExtra IsIntegral) ∧
      listOfJson (listToJson reports).write = .error (.tooManyFields 2) := by
  have hread : listOfJson textBehind.write = .ok [⟨"a", [],
      [("x", .record [(Embedded.fieldName, .string "1"), ("a", .int 2)])]⟩] := by
    refine (listOfJson_eq_of_isSpelled (isSpelled_compact ?_) (by decide)).trans rfl
    simp [textBehind, every_list, every_record, FitsWord, Value.int, Number.IsWord]
  have hintegral : ∀ report ∈ [(⟨"a", [],
      [("x", .record [(Embedded.fieldName, .string "1"), ("a", .int 2)])]⟩ : Report)],
        report.EveryExtra IsIntegral := by
    simp [EveryExtra, every_record, IsIntegral, Value.int]
  refine ⟨_, hread, hintegral, ?_⟩
  -- Reports cannot be compared, so only the fault is computed.
  have hfault : (listOfJson (listToJson [⟨"a", [],
      [("x", .record [(Embedded.fieldName, .string "1"), ("a", .int 2)])]⟩]).write).map
        (fun _ => ()) = .error (.tooManyFields 2) := by decide +kernel
  rwa [map_eq_error_iff] at hfault

end LintDirectives.Report
