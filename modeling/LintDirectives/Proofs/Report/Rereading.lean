import LintDirectives.Proofs.Diagnostic.Rereading
import LintDirectives.Report.Json

/-!
# Reports that are read twice

As for diagnostics: no further field of a report that has been read has the name of a
known one (`isKept_of_decode`), and what is written for a report is read as the same
report, if nothing in its further fields is taken for a text
(`decode_toJson_eq_ok_iff`).
-/

namespace LintDirectives.Report

open Json Json.Decode

/-- The names of the fields that have a meaning. -/
def knownNames : List String :=
  ["filePath", "messages"]

/-- The report is as a reader leaves it. -/
structure IsKept (report : Report) : Prop where
  messages : ∀ message ∈ report.messages, message.IsKept
  sorted : Fields.IsSorted report.extra
  unknown : ∀ name ∈ Fields.names report.extra, name ∉ knownNames
  values : ∀ field ∈ report.extra, field.2.Every Value.IsKept

/-- Nothing in the further fields of the report and its diagnostics is taken for a text. -/
def IsPlain (report : Report) : Prop :=
  (∀ message ∈ report.messages, message.IsPlain) ∧ ∀ field ∈ report.extra, field.2.IsPlain

/-! ## Reading -/

namespace Draft

/-- The fields met so far are as a reader leaves them. -/
structure IsKept (draft : Draft) : Prop where
  messages : ∀ messages ∈ draft.messages, ∀ message ∈ messages, message.IsKept
  extra : ∀ field ∈ draft.extra, field.1 ∉ knownNames ∧ field.2.IsBounded

variable {origin : Origin} {draft next : Draft}

theorem fields_eq_foldlM (draft : Draft) (contents : List (String × Json.Draft)) :
    draft.fields origin contents =
      contents.foldlM (fun draft content => draft.field origin content.1 content.2) draft := by
  induction contents generalizing draft with
  | nil => rfl
  | cons content contents ih =>
    obtain ⟨name, content⟩ := content
    rw [fields, List.foldlM_cons]
    cases draft.field origin name content with
    | error fault => rfl
    | ok next => exact ih next

theorem isKept_of_list {content : Json.Draft} (hcontent : content.IsBounded)
    {messages : List Diagnostic}
    (h : Decode.list (Diagnostic.decode origin) content = .ok messages) :
    ∀ message ∈ messages, message.IsKept := by
  obtain ⟨items, rfl, hitems⟩ := list_eq_ok_iff.1 h
  intro message hmessage
  obtain ⟨item, hitem, hread⟩ := exists_mem_of_forall₂ (mapM_eq_ok_iff.1 hitems) hmessage
  cases hcontent with
  | list _ hbounded => exact Diagnostic.isKept_of_decode (hbounded item hitem) hread

/-- A field is taken up only if its content is whole. -/
theorem of_field {name : String} {content : Json.Draft}
    (h : draft.field origin name content = .ok next) :
    (draft.IsKept → content.IsBounded → next.IsKept) ∧ content.isWhole = true := by
  unfold field at h
  split_ifs at h with hpath _ hmessages
  all_goals
    obtain ⟨found, hfound, rfl⟩ := map_eq_ok_iff.1 h
  · exact ⟨fun hdraft _ => { hdraft with }, isStrict_stringAs _ _ _ hfound⟩
  · exact ⟨fun hdraft hcontent => { hdraft with
        messages := by simpa using isKept_of_list hcontent hfound },
      (Diagnostic.isStrict_decode origin).list _ _ hfound⟩
  · obtain ⟨rfl, hwhole⟩ := whole_eq_ok_iff.1 hfound
    have hunknown : name ∉ knownNames := by simp [knownNames, hpath, hmessages]
    exact ⟨fun hdraft hcontent =>
      { hdraft with extra := List.forall_mem_cons.2 ⟨⟨hunknown, hcontent⟩, hdraft.extra⟩ },
      hwhole⟩

theorem isKept_fields {contents : List (String × Json.Draft)}
    (hcontents : ∀ content ∈ contents, content.2.IsBounded) (hdraft : draft.IsKept)
    (h : draft.fields origin contents = .ok next) : next.IsKept := by
  rw [fields_eq_foldlM] at h
  exact foldlM_induction h hdraft fun content hcontent _ _ hkept hfield =>
    (of_field hfield).1 hkept (hcontents content hcontent)

theorem isWhole_of_fields {contents : List (String × Json.Draft)}
    (h : draft.fields origin contents = .ok next) :
    ∀ content ∈ contents, content.2.isWhole = true := by
  rw [fields_eq_foldlM] at h
  exact forall_mem_of_foldlM h fun content _ _ hfield => (of_field hfield).2

theorem isKept_finish (hdraft : draft.IsKept) {report : Report}
    (h : draft.finish = .ok report) : report.IsKept := by
  unfold finish at h
  split at h
  · cases h
  · obtain ⟨extra, hextra, rfl⟩ := map_eq_ok_iff.1 h
    have hmem : ∀ field ∈ draft.extra.reverse, field.1 ∉ knownNames ∧ field.2.IsBounded :=
      fun field hfield => hdraft.extra field (List.mem_reverse.1 hfield)
    obtain ⟨hsorted, hvalues, hnames⟩ :=
      Embedded.isKept_of_fields (fun field hfield => (hmem field hfield).2) hextra
    refine ⟨?_, hsorted, fun name hname => ?_, hvalues⟩
    · cases hmessages : draft.messages with
      | none => simp
      | some messages => exact hdraft.messages messages hmessages
    · obtain ⟨field, hfield, rfl⟩ := List.mem_map.1 (hnames name hname)
      exact (hmem field hfield).1

end Draft

theorem decode_eq_ok_iff {origin : Origin} {draft : Json.Draft} {report : Report} :
    decode origin draft = .ok report ↔
      ∃ contents met, draft = .record contents true ∧
        Draft.fields origin {} contents = .ok met ∧ met.finish = .ok report := by
  constructor
  · intro h
    unfold decode at h
    split at h
    · next contents complete =>
      split at h
      · cases h
      · next met hmet =>
        split_ifs at h with hcomplete
        exact ⟨contents, met, by rw [hcomplete], hmet, h⟩
    · cases h
  · rintro ⟨contents, met, rfl, hmet, hfinish⟩
    simp [decode, hmet, hfinish]

/-- A report that is read is as a reader leaves it. -/
theorem isKept_of_decode {origin : Origin} {draft : Json.Draft} (hdraft : draft.IsBounded)
    {report : Report} (h : decode origin draft = .ok report) : report.IsKept := by
  obtain ⟨contents, met, rfl, hmet, hfinish⟩ := decode_eq_ok_iff.1 h
  cases hdraft with
  | record _ hcontents =>
    have hempty : ({} : Draft).IsKept := by constructor <;> simp
    exact Draft.isKept_finish (Draft.isKept_fields hcontents hempty hmet) hfinish

theorem isStrict_decode (origin : Origin) : IsStrict (decode origin) := by
  intro draft report h
  obtain ⟨contents, met, rfl, hmet, -⟩ := decode_eq_ok_iff.1 h
  simpa [Draft.isWhole_record] using Draft.isWhole_of_fields hmet

/-! ## Reading what is written -/

namespace Draft

open Json.Draft (ofValue ofFields isWhole_ofValue)

variable {origin : Origin} {draft : Draft}

theorem fields_unknown {extra : Fields} (h : ∀ name ∈ Fields.names extra, name ∉ knownNames) :
    draft.fields origin (ofFields extra) =
      .ok { draft with extra := (ofFields extra).reverse ++ draft.extra } := by
  induction extra generalizing draft with
  | nil => rfl
  | cons field extra ih =>
    obtain ⟨name, value⟩ := field
    obtain ⟨hname, hextra⟩ := List.forall_mem_cons.1 h
    have hfield : draft.field origin name (ofValue value) =
        .ok { draft with extra := (name, ofValue value) :: draft.extra } := by
      simp only [knownNames, List.mem_cons, List.not_mem_nil, not_or] at hname
      simp [field, hname, whole_eq_ok_iff.2 ⟨rfl, isWhole_ofValue value⟩, Except.map]
    rw [ofFields, fields, hfield]
    simp [ih hextra]

/-- The path is met, then the diagnostics, and then the further fields. -/
theorem fields_ofFields_toJson {report : Report} (h : report.IsKept) :
    Draft.fields origin {} (ofFields ([("filePath", .string report.filePath),
        ("messages", .list (report.messages.map Diagnostic.toJson))] ++ report.extra)) =
      (Decode.list (Diagnostic.decode origin)
          (ofValue (.list (report.messages.map Diagnostic.toJson)))).map fun messages =>
        { filePath := some report.filePath
          messages := some messages
          extra := (ofFields report.extra).reverse } := by
  generalize Value.list (report.messages.map Diagnostic.toJson) = content
  have hpath : Draft.field origin {} "filePath" (ofValue (.string report.filePath)) =
      .ok { filePath := some report.filePath } := rfl
  have hmessages : Draft.field origin { filePath := some report.filePath } "messages"
      (ofValue content) = (Decode.list (Diagnostic.decode origin) (ofValue content)).map
        fun messages => { filePath := some report.filePath, messages := some messages } := rfl
  rw [List.cons_append, List.singleton_append, ofFields, ofFields, fields, hpath]
  simp only [fields, hmessages]
  cases Decode.list (Diagnostic.decode origin) (ofValue content) with
  | error fault => rfl
  | ok messages => simp [Except.map, fields_unknown h.unknown]

end Draft

/-- The known fields are read as they were written. -/
theorem decode_ofValue_toJson {origin : Origin} {report : Report} (h : report.IsKept) :
    decode origin (Json.Draft.ofValue report.toJson) =
      (Decode.list (Diagnostic.decode origin)
          (Json.Draft.ofValue (.list (report.messages.map Diagnostic.toJson)))).bind fun messages =>
        (Embedded.fields (Json.Draft.ofFields report.extra)).map fun extra =>
          ⟨report.filePath, messages, extra⟩ := by
  have hdraft : Json.Draft.ofValue report.toJson = .record (Json.Draft.ofFields
      ([("filePath", .string report.filePath),
        ("messages", .list (report.messages.map Diagnostic.toJson))] ++ report.extra)) true := rfl
  rw [hdraft, decode, Draft.fields_ofFields_toJson h]
  cases Decode.list (Diagnostic.decode origin)
      (Json.Draft.ofValue (.list (report.messages.map Diagnostic.toJson))) with
  | error fault => rfl
  | ok messages => simp [Except.map, Except.bind, Draft.finish]

/-- What is written for a report is read as the same report, if nothing in its further fields
is taken for a text. -/
theorem decode_toJson_eq_ok_iff {origin : Origin} {given again : Report} (h : given.IsKept) :
    decode origin (Json.Draft.ofValue given.toJson) = .ok again ↔
      again = given ∧ given.IsPlain := by
  have hmessages (found : List Diagnostic) :
      Decode.list (Diagnostic.decode origin)
          (Json.Draft.ofValue (.list (given.messages.map Diagnostic.toJson))) = .ok found ↔
        found = given.messages ∧ ∀ message ∈ given.messages, message.IsPlain :=
    list_ofValue_eq_ok_iff fun message hmessage _ =>
      Diagnostic.decode_toJson_eq_ok_iff (h.messages message hmessage)
  simp only [decode_ofValue_toJson h, bind_eq_ok_iff, map_eq_ok_iff, hmessages,
    Embedded.fields_ofFields_eq_ok_iff h.sorted h.values]
  constructor
  · rintro ⟨messages, ⟨rfl, hmessages⟩, extra, ⟨rfl, hextra⟩, rfl⟩
    exact ⟨rfl, hmessages, hextra⟩
  · rintro ⟨rfl, hmessages, hextra⟩
    exact ⟨again.messages, ⟨rfl, hmessages⟩, again.extra, ⟨rfl, hextra⟩, rfl⟩

/-! ## The parts of what is written -/

/-- No name is written twice. -/
theorem nodup_names_toJson {report : Report} (h : report.IsKept) :
    (knownNames ++ Fields.names report.extra).Nodup := by
  refine List.nodup_append.2 ⟨by decide, h.sorted.nodup, ?_⟩
  rintro name hname _ hextra rfl
  exact h.unknown name hextra hname

end LintDirectives.Report
