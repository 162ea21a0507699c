import LintDirectives.Diagnostic.Json
import LintDirectives.Proofs.Json.Embedded

/-!
# Diagnostics that are read twice

A diagnostic that has been read has numbers of 32 bits, and no further field of it has
the name of a known one (`isKept_of_decode`).  What is written for it is read as the
same diagnostic, if nothing in its further fields is taken for a text
(`decode_toJson_eq_ok_iff`).
-/

namespace LintDirectives.Diagnostic

open Json Json.Decode

/-- The names of the fields that have a meaning. -/
def knownNames : List String :=
  ["ruleId", "message", "index", "range", "line", "column", "severity"]

/-- The diagnostic is as a reader leaves it. -/
structure IsKept (diagnostic : Diagnostic) : Prop where
  index : ∀ n ∈ diagnostic.index, n < 2 ^ 32
  range : ∀ range ∈ diagnostic.range, range.1 < 2 ^ 32 ∧ range.2 < 2 ^ 32
  line : ∀ n ∈ diagnostic.line, n < 2 ^ 32
  column : ∀ n ∈ diagnostic.column, n < 2 ^ 32
  sorted : Fields.IsSorted diagnostic.extra
  unknown : ∀ name ∈ Fields.names diagnostic.extra, name ∉ knownNames
  values : ∀ field ∈ diagnostic.extra, field.2.Every Value.IsKept

/-- Nothing in the further fields is taken for a text. -/
def IsPlain (diagnostic : Diagnostic) : Prop :=
  ∀ field ∈ diagnostic.extra, field.2.IsPlain

/-! ## Reading -/

theorem lt_of_optional_word {content : Json.Draft} {o : Option Nat}
    (h : optional word content = .ok o) : ∀ n ∈ o, n < 2 ^ 32 := by
  rcases optional_eq_ok_iff.1 h with ⟨-, rfl⟩ | ⟨-, n, hn, rfl⟩
  · simp
  · simpa using (word_eq_ok_iff.1 hn).2

theorem lt_of_optional_pair {origin : Origin} {content : Json.Draft} {o : Option (Nat × Nat)}
    (h : optional (pair origin word) content = .ok o) :
    ∀ range ∈ o, range.1 < 2 ^ 32 ∧ range.2 < 2 ^ 32 := by
  rcases optional_eq_ok_iff.1 h with ⟨-, rfl⟩ | ⟨-, ⟨first, second⟩, hpair, rfl⟩
  · simp
  · obtain ⟨_, _, -, hfirst, hsecond⟩ := pair_eq_ok_iff.1 hpair
    simpa using ⟨(word_eq_ok_iff.1 hfirst).2, (word_eq_ok_iff.1 hsecond).2⟩

theorem isStrict_decodeSeverity : IsStrict decodeSeverity := by
  intro draft severity h
  unfold decodeSeverity at h
  split at h
  · cases h
  · next code hcode => exact isStrict_naturalAs _ _ draft code hcode

theorem forall_mem_getD {α : Type} {P : α → Prop} {met : Option (Option α)}
    (h : ∀ o ∈ met, ∀ a ∈ o, P a) : ∀ a ∈ met.getD none, P a := by
  cases met with
  | none => simp
  | some o => exact h o rfl

namespace Draft

/-- The fields met so far are as a reader leaves them. -/
structure IsKept (draft : Draft) : Prop where
  index : ∀ o ∈ draft.index, ∀ n ∈ o, n < 2 ^ 32
  range : ∀ o ∈ draft.range, ∀ range ∈ o, range.1 < 2 ^ 32 ∧ range.2 < 2 ^ 32
  line : ∀ o ∈ draft.line, ∀ n ∈ o, n < 2 ^ 32
  column : ∀ o ∈ draft.column, ∀ n ∈ o, n < 2 ^ 32
  extra : ∀ field ∈ draft.extra, field.1 ∉ knownNames ∧ field.2.IsBounded

variable {origin : Origin}

theorem fields_eq_foldlM (draft : Draft) (contents : List (String × Json.Draft)) :
    draft.fields origin contents =
      contents.foldlM (fun draft content => draft.field origin content.1 content.2) draft := by
  induction contents generalizing draft with
  | nil => rfl
  | cons content contents ih =>
    obtain ⟨name, content⟩ := content
    rw [fields, List.foldlM_cons]
    cases draft.field origin name content with
    | error fault => rfl
    | ok next => exact ih next

/-- A field is taken up only if its content is whole. -/
theorem of_field {draft next : Draft} {name : String} {content : Json.Draft}
    (h : draft.field origin name content = .ok next) :
    (draft.IsKept → content.IsBounded → next.IsKept) ∧ content.isWhole = true := by
  have hword := IsStrict.optional (isStrict_naturalAs (Nat.pow 2 32 - 1) .word)
  have hpair := ((isStrict_naturalAs (Nat.pow 2 32 - 1) .word).pair origin).optional
  unfold field at h
  -- One case for each known name, in the order of the reader, and the last one for the others.
  split_ifs at h with hrule _ hmessage _ hindex _ hrange _ hline _ hcolumn _ hseverity
  all_goals
    obtain ⟨found, hfound, rfl⟩ := map_eq_ok_iff.1 h
  · exact ⟨fun hdraft _ => { hdraft with }, isStrict_stringAs _ _ _ hfound⟩
  · exact ⟨fun hdraft _ => { hdraft with }, isStrict_stringAs _ _ _ hfound⟩
  · exact ⟨fun hdraft _ => { hdraft with index := by simpa using lt_of_optional_word hfound },
      hword _ _ hfound⟩
  · exact ⟨fun hdraft _ => { hdraft with range := by simpa using lt_of_optional_pair hfound },
      hpair _ _ hfound⟩
  · exact ⟨fun hdraft _ => { hdraft with line := by simpa using lt_of_optional_word hfound },
      hword _ _ hfound⟩
  · exact ⟨fun hdraft _ => { hdraft with column := by simpa using lt_of_optional_word hfound },
      hword _ _ hfound⟩
  · exact ⟨fun hdraft _ => { hdraft with }, isStrict_decodeSeverity _ _ hfound⟩
  · obtain ⟨rfl, hwhole⟩ := whole_eq_ok_iff.1 hfound
    have hunknown : name ∉ knownNames := by
      simp [knownNames, hrule, hmessage, hindex, hrange, hline, hcolumn, hseverity]
    exact ⟨fun hdraft hcontent =>
      { hdraft with extra := List.forall_mem_cons.2 ⟨⟨hunknown, hcontent⟩, hdraft.extra⟩ },
      hwhole⟩

theorem isKept_fields {contents : List (String × Json.Draft)} {draft met : Draft}
    (hcontents : ∀ content ∈ contents, content.2.IsBounded) (hdraft : draft.IsKept)
    (h : draft.fields origin contents = .ok met) : met.IsKept := by
  rw [fields_eq_foldlM] at h
  exact foldlM_induction h hdraft fun content hcontent _ _ hkept hfield =>
    (of_field hfield).1 hkept (hcontents content hcontent)

theorem isWhole_of_fields {contents : List (String × Json.Draft)} {draft met : Draft}
    (h : draft.fields origin contents = .ok met) :
    ∀ content ∈ contents, content.2.isWhole = true := by
  rw [fields_eq_foldlM] at h
  exact forall_mem_of_foldlM h fun content _ _ hfield => (of_field hfield).2

theorem isKept_finish {draft : Draft} (hdraft : draft.IsKept) {diagnostic : Diagnostic}
    (h : draft.finish = .ok diagnostic) : diagnostic.IsKept := by
  obtain ⟨extra, hextra, rfl⟩ := map_eq_ok_iff.1 h
  have hmem : ∀ field ∈ draft.extra.reverse, field.1 ∉ knownNames ∧ field.2.IsBounded :=
    fun field hfield => hdraft.extra field (List.mem_reverse.1 hfield)
  obtain ⟨hsorted, hvalues, hnames⟩ :=
    Embedded.isKept_of_fields (fun field hfield => (hmem field hfield).2) hextra
  refine ⟨?_, ?_, ?_, ?_, hsorted, fun name hname => ?_, hvalues⟩
  · exact forall_mem_getD hdraft.index
  · exact forall_mem_getD hdraft.range
  · exact forall_mem_getD hdraft.line
  · exact forall_mem_getD hdraft.column
  · obtain ⟨field, hfield, rfl⟩ := List.mem_map.1 (hnames name hname)
    exact (hmem field hfield).1

end Draft

theorem decode_eq_ok_iff {origin : Origin} {draft : Json.Draft} {diagnostic : Diagnostic} :
    decode origin draft = .ok diagnostic ↔
      ∃ contents met, draft = .record contents true ∧
        Draft.fields origin {} contents = .ok met ∧ met.finish = .ok diagnostic := by
  constructor
  · intro h
    unfold decode at h
    split at h
    · next contents complete =>
      split at h
      · cases h
      · next met hmet =>
        split_ifs at h with hcomplete
        exact ⟨contents, met, by rw [hcomplete], hmet, h⟩
    · cases h
  · rintro ⟨contents, met, rfl, hmet, hfinish⟩
    simp [decode, hmet, hfinish]

/-- A diagnostic that is read is as a reader leaves it. -/
theorem isKept_of_decode {origin : Origin} {draft : Json.Draft} (hdraft : draft.IsBounded)
    {diagnostic : Diagnostic} (h : decode origin draft = .ok diagnostic) : diagnostic.IsKept := by
  obtain ⟨contents, met, rfl, hmet, hfinish⟩ := decode_eq_ok_iff.1 h
  cases hdraft with
  | record _ hcontents =>
    have hempty : ({} : Draft).IsKept := by constructor <;> simp
    exact Draft.isKept_finish (Draft.isKept_fields hcontents hempty hmet) hfinish

theorem isStrict_decode (origin : Origin) : IsStrict (decode origin) := by
  intro draft diagnostic h
  obtain ⟨contents, met, rfl, hmet, -⟩ := decode_eq_ok_iff.1 h
  simpa [Draft.isWhole_record] using Draft.isWhole_of_fields hmet

/-! ## Reading what is written -/

namespace Draft

open Json.Draft (ofValue ofFields isWhole_ofValue)

variable {origin : Origin} {draft next : Draft}

theorem fields_append {contents rest : List (String × Json.Draft)}
    (h : draft.fields origin contents = .ok next) :
    draft.fields origin (contents ++ rest) = next.fields origin rest := by
  rw [fields_eq_foldlM] at h
  rw [fields_eq_foldlM, List.foldlM_append, h, fields_eq_foldlM]
  rfl

theorem optional_ofValue_word {n : Nat} (h : n < 2 ^ 32) :
    optional word (ofValue (.nat n)) = .ok (some n) :=
  optional_eq_ok_iff.2 (.inr ⟨nofun, n, word_eq_ok_iff.2 ⟨rfl, h⟩, rfl⟩)

theorem optional_ofValue_pair {range : Nat × Nat} (h : range.1 < 2 ^ 32 ∧ range.2 < 2 ^ 32) :
    optional (pair origin word) (ofValue (.list [.nat range.1, .nat range.2])) =
      .ok (some range) := by
  refine optional_eq_ok_iff.2 (.inr ⟨nofun, range, pair_eq_ok_iff.2 ?_, rfl⟩)
  exact ⟨_, _, rfl, word_eq_ok_iff.2 ⟨rfl, h.1⟩, word_eq_ok_iff.2 ⟨rfl, h.2⟩⟩

/-- A field that is written only when it is present: `meet` gives it to the draft. -/
theorem fields_present {α : Type} {name : String} {toValue : α → Value} {o : Option α}
    (meet : Option (Option α) → Draft) (hnone : meet none = draft)
    (h : ∀ a ∈ o, draft.field origin name (ofValue (toValue a)) = .ok (meet (some (some a)))) :
    draft.fields origin (ofFields (present name (o.map toValue))) = .ok (meet (o.map some)) := by
  cases o with
  | none => rw [← hnone]; rfl
  | some a => simp [present, ofFields, fields, h a rfl]

theorem fields_index {o : Option Nat} (h : ∀ n ∈ o, n < 2 ^ 32) (hnone : draft.index = none) :
    draft.fields origin (ofFields (present "index" (o.map .nat))) =
      .ok { draft with index := o.map some } :=
  fields_present (fun index => { draft with index := index }) (by rw [← hnone]) fun n hn => by
    simp [field, hnone, optional_ofValue_word (h n hn), Except.map]

theorem fields_range {o : Option (Nat × Nat)}
    (h : ∀ range ∈ o, range.1 < 2 ^ 32 ∧ range.2 < 2 ^ 32) (hnone : draft.range = none) :
    draft.fields origin (ofFields (present "range"
        (o.map fun (start, stop) => .list [.nat start, .nat stop]))) =
      .ok { draft with range := o.map some } :=
  fields_present (fun range => { draft with range := range }) (by rw [← hnone])
    fun range hrange => by
      simp [field, hnone, optional_ofValue_pair (h range hrange), Except.map]

theorem fields_line {o : Option Nat} (h : ∀ n ∈ o, n < 2 ^ 32) (hnone : draft.line = none) :
    draft.fields origin (ofFields (present "line" (o.map .nat))) =
      .ok { draft with line := o.map some } :=
  fields_present (fun line => { draft with line := line }) (by rw [← hnone]) fun n hn => by
    simp [field, hnone, optional_ofValue_word (h n hn), Except.map]

theorem fields_column {o : Option Nat} (h : ∀ n ∈ o, n < 2 ^ 32) (hnone : draft.column = none) :
    draft.fields origin (ofFields (present "column" (o.map .nat))) =
      .ok { draft with column := o.map some } :=
  fields_present (fun column => { draft with column := column }) (by rw [← hnone]) fun n hn => by
    simp [field, hnone, optional_ofValue_word (h n hn), Except.map]

theorem fields_severity (severity : Severity) (hnone : draft.severity = none) :
    draft.fields origin (ofFields [("severity", .nat severity.code)]) =
      .ok { draft with severity := some severity } := by
  have hread : decodeSeverity (ofValue (.nat severity.code)) = .ok severity := by
    cases severity <;> rfl
  simp [ofFields, fields, field, hnone, hread, Except.map]

theorem fields_unknown {extra : Fields} (h : ∀ name ∈ Fields.names extra, name ∉ knownNames) :
    draft.fields origin (ofFields extra) =
      .ok { draft with extra := (ofFields extra).reverse ++ draft.extra } := by
  induction extra generalizing draft with
  | nil => rfl
  | cons field extra ih =>
    obtain ⟨name, value⟩ := field
    obtain ⟨hname, hextra⟩ := List.forall_mem_cons.1 h
    have hfield : draft.field origin name (ofValue value) =
        .ok { draft with extra := (name, ofValue value) :: draft.extra } := by
      simp only [knownNames, List.mem_cons, List.not_mem_nil, not_or] at hname
      simp [field, hname, whole_eq_ok_iff.2 ⟨rfl, isWhole_ofValue value⟩, Except.map]
    rw [ofFields, fields, hfield]
    simp [ih hextra]

end Draft

theorem getD_map_some {α : Type} (o : Option α) : (o.map some).getD none = o := by
  cases o <;> rfl

/-- All known fields are read as they were written. -/
theorem decode_ofValue_toJson {origin : Origin} {diagnostic : Diagnostic}
    (h : diagnostic.IsKept) :
    decode origin (Json.Draft.ofValue diagnostic.toJson) =
      (Embedded.fields (Json.Draft.ofFields diagnostic.extra)).map fun extra =>
        { diagnostic with extra := extra } := by
  obtain ⟨rule, message, index, range, line, column, severity, extra⟩ := diagnostic
  have hstart : Draft.fields origin {} (Json.Draft.ofFields
      [("ruleId", .string rule), ("message", .string message)]) =
        .ok { rule := some rule, message := some message } := rfl
  rw [toJson, Json.Draft.ofValue, decode]
  simp only [Json.Draft.ofFields_append, List.append_assoc]
  rw [Draft.fields_append hstart, Draft.fields_append (Draft.fields_index h.index rfl),
    Draft.fields_append (Draft.fields_range h.range rfl),
    Draft.fields_append (Draft.fields_line h.line rfl),
    Draft.fields_append (Draft.fields_column h.column rfl),
    Draft.fields_append (Draft.fields_severity severity rfl), Draft.fields_unknown h.unknown]
  simp [Draft.finish, getD_map_some]

/-- What is written for a diagnostic is read as the same diagnostic, if nothing in its further
fields is taken for a text. -/
theorem decode_toJson_eq_ok_iff {origin : Origin} {given again : Diagnostic} (h : given.IsKept) :
    decode origin (Json.Draft.ofValue given.toJson) = .ok again ↔
      again = given ∧ given.IsPlain := by
  rw [decode_ofValue_toJson h, map_eq_ok_iff]
  simp only [Embedded.fields_ofFields_eq_ok_iff h.sorted h.values]
  constructor
  · rintro ⟨extra, ⟨rfl, hplain⟩, rfl⟩
    exact ⟨rfl, hplain⟩
  · rintro ⟨rfl, hplain⟩
    exact ⟨again.extra, ⟨rfl, hplain⟩, rfl⟩

/-! ## The parts of what is written -/

/-- The fields that are written before the further ones. -/
def knownFields (diagnostic : Diagnostic) : Fields :=
  [("ruleId", .string diagnostic.rule), ("message", .string diagnostic.message)] ++
  present "index" (diagnostic.index.map .nat) ++
  present "range" (diagnostic.range.map fun (start, stop) => .list [.nat start, .nat stop]) ++
  present "line" (diagnostic.line.map .nat) ++
  present "column" (diagnostic.column.map .nat) ++
  [("severity", .nat diagnostic.severity.code)]

theorem toJson_eq (diagnostic : Diagnostic) :
    diagnostic.toJson = .record (diagnostic.knownFields ++ diagnostic.extra) :=
  rfl

section Parts

variable {P : Value → Prop} {diagnostic : Diagnostic}

theorem every_of_mem_present {α : Type} {name : String} {toValue : α → Value} {o : Option α}
    (h : ∀ a ∈ o, (toValue a).Every P) :
    ∀ field ∈ present name (o.map toValue), field.2.Every P := by
  cases o with
  | none => simp [present]
  | some a => simpa [present] using h a rfl

theorem every_of_mem_knownFields (h : diagnostic.IsKept) (hstring : ∀ s, P (.string s))
    (hlist : ∀ items, P (.list items)) (hnat : ∀ n < 2 ^ 32, P (.nat n)) :
    ∀ field ∈ diagnostic.knownFields, field.2.Every P := by
  have hevery (n : Nat) (hn : n < 2 ^ 32) : (Value.nat n).Every P :=
    Value.every_number.2 (hnat n hn)
  have hrange : ∀ range ∈ diagnostic.range, (Value.list [.nat range.1, .nat range.2]).Every P := by
    intro range hrange
    obtain ⟨hstart, hstop⟩ := h.range range hrange
    exact Value.every_list.2 ⟨hlist _, by simp [hevery _ hstart, hevery _ hstop]⟩
  have hseverity : (Value.nat diagnostic.severity.code).Every P :=
    hevery _ (by cases diagnostic.severity <;> decide)
  simp only [knownFields, List.forall_mem_append]
  refine ⟨⟨⟨⟨⟨?_, ?_⟩, ?_⟩, ?_⟩, ?_⟩, ?_⟩
  · simp [hstring]
  · exact every_of_mem_present fun n hn => hevery n (h.index n hn)
  · exact every_of_mem_present hrange
  · exact every_of_mem_present fun n hn => hevery n (h.line n hn)
  · exact every_of_mem_present fun n hn => hevery n (h.column n hn)
  · simpa using hseverity

theorem names_present_sublist (name : String) (o : Option Value) :
    (Fields.names (present name o)).Sublist [name] := by
  cases o <;> simp [present, Fields.names]

/-- Known fields are written in one order, some not at all. -/
theorem names_knownFields_sublist (diagnostic : Diagnostic) :
    (Fields.names diagnostic.knownFields).Sublist knownNames := by
  simp only [knownFields, Fields.names, List.map_append]
  change List.Sublist _ (["ruleId", "message"] ++ ["index"] ++ ["range"] ++ ["line"] ++
    ["column"] ++ ["severity"])
  exact (((((List.Sublist.refl _).append (names_present_sublist _ _)).append
    (names_present_sublist _ _)).append (names_present_sublist _ _)).append
    (names_present_sublist _ _)).append (List.Sublist.refl _)

/-- No name is written twice. -/
theorem nodup_names_toJson (h : diagnostic.IsKept) :
    (Fields.names (diagnostic.knownFields ++ diagnostic.extra)).Nodup := by
  have hknown := names_knownFields_sublist diagnostic
  rw [Fields.names, List.map_append, List.nodup_append]
  refine ⟨hknown.nodup (by decide), h.sorted.nodup, ?_⟩
  rintro name hname _ hextra rfl
  exact h.unknown name hextra (hknown.subset hname)

end Parts

end LintDirectives.Diagnostic
