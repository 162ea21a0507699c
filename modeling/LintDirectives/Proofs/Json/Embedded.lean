import LintDirectives.Json.Embedded
import LintDirectives.Proofs.Json.Bounds
import LintDirectives.Proofs.Json.Decode
import LintDirectives.Proofs.Json.Fields

/-!
# Values that are read twice

Every part of a value that has been read is as a reader leaves it (`Value.IsKept`): an
integer fits 64 bits, and fields are sorted.  Such a value is not always read again as
it is.  A record that has the name set aside for texts among its fields may get it to
the front by the sorting, and then it is taken for a text and is not read, as it has
further fields.  `value_ofValue_eq_ok_iff` says that this is the only exception.
-/

namespace LintDirectives.Json

namespace Embedded

variable {origin : Origin} {read : String → Except Fault Value}

theorem values_eq_mapM (drafts : List Draft) :
    values origin read drafts = drafts.mapM (value origin read) := by
  induction drafts with
  | nil => rfl
  | cons draft drafts ih =>
    rw [values, List.mapM_cons, ih]
    cases value origin read draft <;> rfl

/-- Reads one field. -/
def fieldValue (origin : Origin) (read : String → Except Fault Value) (field : String × Draft) :
    Except Fault (String × Value) :=
  (value origin read field.2).map (field.1, ·)

theorem fieldValue_eq_ok_iff {field : String × Draft} {kept : String × Value} :
    fieldValue origin read field = .ok kept ↔
      kept.1 = field.1 ∧ value origin read field.2 = .ok kept.2 := by
  rw [fieldValue, map_eq_ok_iff]
  grind

theorem fieldValues_eq_mapM (drafts : List (String × Draft)) :
    fieldValues origin read drafts = drafts.mapM (fieldValue origin read) := by
  induction drafts with
  | nil => rfl
  | cons field drafts ih =>
    obtain ⟨name, draft⟩ := field
    rw [fieldValues, List.mapM_cons, ih, fieldValue]
    cases value origin read draft <;> rfl

theorem only_eq_ok_iff {extra : Nat} {complete : Bool} {found result : Value} :
    only origin extra complete found = .ok result ↔
      (extra = 0 ∧ complete = true) ∧ result = found := by
  unfold only
  split_ifs with hsingle
  · simp [hsingle, eq_comm]
  · cases origin <;> simp [hsingle]

end Embedded

/-! ## What a reader leaves -/

namespace Value

/-- The value is a record with the name set aside for texts in front. -/
def HoldsText : Value → Prop
  | record fields => (Fields.names fields).head? = some Embedded.fieldName
  | _ => False

/-- Nothing in the value is taken for a text. -/
def IsPlain (value : Value) : Prop :=
  value.Every fun part => ¬part.HoldsText

/-- The value is as a reader leaves it, not looking into its items and fields. -/
def IsKept : Value → Prop
  | number n => n.IsBounded
  | record fields => Fields.IsSorted fields ∧
      ((record fields).HoldsText → 2 ≤ fields.length)
  | _ => True

end Value

namespace Embedded

open Value

variable {origin : Origin} {read : String → Except Fault Value}

theorem content?_cons (field : String × Draft) (fields : List (String × Draft)) :
    content? (field :: fields) =
      if field.1 = fieldName then some (field.2, fields.length) else none :=
  rfl

theorem head?_names_of_content?_eq_none {fields : List (String × Draft)}
    (h : content? fields = none) : (fields.map (·.1)).head? ≠ some fieldName := by
  cases fields with
  | nil => simp
  | cons field fields =>
    rw [content?_cons] at h
    split_ifs at h with hname
    simpa using hname

theorem names_of_fieldValues {fields : List (String × Draft)} {found : Fields}
    (h : fieldValues origin read fields = .ok found) : found.names = fields.map (·.1) := by
  rw [fieldValues_eq_mapM, mapM_eq_ok_iff] at h
  induction h with
  | nil => rfl
  | cons hfirst _ ih =>
    rw [Fields.names, List.map_cons, List.map_cons, (fieldValue_eq_ok_iff.1 hfirst).1, ← ih,
      Fields.names]

/-- A name that comes to the front by the sorting is not alone. -/
theorem two_le_length_ofList {given : Fields} (hgiven : given.names.head? ≠ some fieldName)
    (h : (Fields.ofList given).names.head? = some fieldName) :
    2 ≤ (Fields.ofList given).length := by
  have hlength : (Fields.ofList given).names.length = (Fields.ofList given).length :=
    List.length_map _
  -- The name that was given first is another one, and it is still there.
  obtain ⟨others, hothers⟩ := List.head?_eq_some_iff.1 h
  have hfirst : fieldName ∈ given.names := by
    rw [← Fields.mem_names_ofList, hothers]
    exact List.mem_cons_self
  cases hnames : given.names with
  | nil => simp [hnames] at hfirst
  | cons name rest =>
    have hname : name ∈ (Fields.ofList given).names := by
      rw [Fields.mem_names_ofList, hnames]
      exact List.mem_cons_self
    have hne : name ≠ fieldName := by simpa [hnames] using hgiven
    rw [hothers, List.mem_cons] at hname
    have := List.length_pos_of_mem (hname.resolve_left hne)
    rw [← hlength, hothers, List.length_cons]
    omega

theorem isKept_ofList {fields : List (String × Draft)} {found : Fields}
    (hnone : content? fields = none) (h : fieldValues origin read fields = .ok found) :
    (record (Fields.ofList found)).IsKept := by
  refine ⟨Fields.isSorted_ofList found, two_le_length_ofList ?_⟩
  rw [names_of_fieldValues h]
  exact head?_names_of_content?_eq_none hnone

theorem text_eq_ok_iff {draft : Draft} {found : Value} :
    text read draft = .ok found ↔ ∃ source, draft = .string source ∧ read source = .ok found := by
  cases draft <;> simp [text]

/-- Every part of what is read is as a reader leaves it, if this holds of embedded texts. -/
theorem every_isKept_of_value (hread : ∀ source found, read source = .ok found → found.Every IsKept)
    {draft : Draft} (hdraft : draft.IsBounded) {found : Value}
    (h : value origin read draft = .ok found) : found.Every IsKept := by
  induction hdraft generalizing found with
  | null => cases h; simp [IsKept]
  | bool b => cases h; simp [IsKept]
  | number hn => cases h; simpa [IsKept] using hn
  | string s => cases h; simp [IsKept]
  | broken => cases h
  | @list items complete _ ih =>
    rw [value, values_eq_mapM] at h
    split at h
    · cases h
    · next kept hkept =>
      split at h
      · cases h
        refine every_list.2 ⟨trivial, fun item hitem => ?_⟩
        obtain ⟨draft, hdraft, hvalue⟩ := exists_mem_of_forall₂ (mapM_eq_ok_iff.1 hkept) hitem
        exact ih draft hdraft hvalue
      · cases h
  | @record fields complete _ ih =>
    rw [value] at h
    split at h
    · next content extra hcontent =>
      cases hsource : text read content with
      | error fault => rw [hsource] at h; cases h
      | ok embedded =>
        rw [hsource] at h
        obtain ⟨-, rfl⟩ := only_eq_ok_iff.1 h
        obtain ⟨source, -, hread'⟩ := text_eq_ok_iff.1 hsource
        exact hread source _ hread'
    · next hnone =>
      split at h
      · cases h
      · next kept hkept =>
        split at h
        · cases h
          refine every_record.2 ⟨isKept_ofList hnone hkept, fun field hfield => ?_⟩
          rw [fieldValues_eq_mapM] at hkept
          obtain ⟨draft, hdraft, hvalue⟩ := exists_mem_of_forall₂ (mapM_eq_ok_iff.1 hkept)
            (Fields.mem_of_mem_ofList hfield)
          exact ih draft hdraft (fieldValue_eq_ok_iff.1 hvalue).2
        · cases h

theorem every_isKept_of_ofText {depth : Nat} {source : String} {found : Value}
    (h : ofText depth source = .ok found) : found.Every IsKept := by
  induction depth generalizing source found with
  | zero => cases h
  | succ depth ih =>
    exact every_isKept_of_value (fun _ _ => ih) (Draft.isBounded_read source)
      (Decode.run_eq_ok_iff.1 h).2

/-- The fields that are read are sorted, have the names of the drafts, and hold values as a
reader leaves them. -/
theorem isKept_of_fields {drafts : List (String × Draft)}
    (hdrafts : ∀ field ∈ drafts, field.2.IsBounded) {found : Fields}
    (h : fields drafts = .ok found) :
    found.IsSorted ∧ (∀ field ∈ found, field.2.Every IsKept) ∧
      ∀ name ∈ found.names, name ∈ drafts.map (·.1) := by
  rw [fields, map_eq_ok_iff] at h
  obtain ⟨kept, hvalues, rfl⟩ := h
  refine ⟨Fields.isSorted_ofList kept, fun field hfield => ?_, fun name hname => ?_⟩
  · rw [fieldValues_eq_mapM] at hvalues
    obtain ⟨draft, hdraft, hvalue⟩ := exists_mem_of_forall₂ (mapM_eq_ok_iff.1 hvalues)
      (Fields.mem_of_mem_ofList hfield)
    exact every_isKept_of_value (fun _ _ => every_isKept_of_ofText) (hdrafts draft hdraft)
      (fieldValue_eq_ok_iff.1 hvalue).2
  · rwa [← names_of_fieldValues hvalues, ← Fields.mem_names_ofList]

/-! ## Reading again -/


theorem fieldValues_ofFields_eq_ok_iff {fields found : Fields}
    (h : ∀ field ∈ fields, ∀ again, value origin read (Draft.ofValue field.2) = .ok again ↔
      again = field.2 ∧ field.2.IsPlain) :
    fieldValues origin read (Draft.ofFields fields) = .ok found ↔
      found = fields ∧ ∀ field ∈ fields, field.2.IsPlain := by
  rw [fieldValues_eq_mapM, Draft.ofFields_eq_map]
  refine mapM_map_eq_ok_iff fun field hfield kept => ?_
  rw [fieldValue_eq_ok_iff, h field hfield, Prod.ext_iff]
  tauto

theorem content?_ofFields {fields : Fields} (h : ¬(record fields).HoldsText) :
    content? (Draft.ofFields fields) = none := by
  cases fields with
  | nil => rfl
  | cons field fields =>
    have hname : field.1 ≠ fieldName := by simpa [HoldsText, Fields.names] using h
    rw [Draft.ofFields, content?_cons, if_neg hname]

/-- A value with the name for texts in front is no text, as it has further fields. -/
theorem value_ofValue_of_holdsText {fields : Fields} (hkept : (record fields).IsKept)
    (htext : (record fields).HoldsText) (found : Value) :
    value origin read (Draft.ofValue (record fields)) ≠ .ok found := by
  have hlength := hkept.2 htext
  cases fields with
  | nil => simp at hlength
  | cons field fields =>
    obtain ⟨name, content⟩ := field
    obtain rfl : name = fieldName := by simpa [HoldsText, Fields.names] using htext
    rw [Draft.ofValue, Draft.ofFields, value, content?_cons, if_pos rfl]
    intro h
    cases hsource : text read (Draft.ofValue content) with
    | error fault => simp [hsource, Except.bind] at h
    | ok embedded =>
      have hextra : (Draft.ofFields fields).length = 0 := by
        simp only [hsource, Except.bind] at h
        exact (only_eq_ok_iff.1 h).1.1
      rw [Draft.ofFields_eq_map, List.length_map] at hextra
      simp [hextra] at hlength

/-- A value that has been read is read again, as it is, if nothing in it is taken for a
text. -/
theorem value_ofValue_eq_ok_iff {given again : Value} (h : given.Every IsKept) :
    value origin read (Draft.ofValue given) = .ok again ↔ again = given ∧ given.IsPlain := by
  induction given using Value.inductionOn generalizing again with
  | null => simp [Draft.ofValue, value, IsPlain, HoldsText, eq_comm]
  | bool b => simp [Draft.ofValue, value, IsPlain, HoldsText, eq_comm]
  | number n => simp [Draft.ofValue, value, IsPlain, HoldsText, eq_comm]
  | string s => simp [Draft.ofValue, value, IsPlain, HoldsText, eq_comm]
  | list items ih =>
    have hitems (kept : List Value) : values origin read (Draft.ofItems items) = .ok kept ↔
        kept = items ∧ ∀ item ∈ items, item.IsPlain := by
      rw [values_eq_mapM, Draft.ofItems_eq_map]
      exact mapM_map_eq_ok_iff fun item hitem _ => ih item hitem ((every_list.1 h).2 item hitem)
    have hplain : (list items).IsPlain ↔ ∀ item ∈ items, item.IsPlain := by
      rw [IsPlain, every_list]
      exact and_iff_right id
    rw [Draft.ofValue, value, hplain]
    constructor
    · intro hread
      split at hread
      · cases hread
      · next kept hkept =>
        obtain ⟨rfl, hplain⟩ := (hitems kept).1 hkept
        cases hread
        exact ⟨rfl, hplain⟩
    · rintro ⟨rfl, hplain⟩
      rw [(hitems items).2 ⟨rfl, hplain⟩]
      rfl
  | record fields ih =>
    obtain ⟨hrecord, hfields⟩ := every_record.1 h
    by_cases htext : (record fields).HoldsText
    · refine iff_of_false (value_ofValue_of_holdsText hrecord htext again) fun hplain => ?_
      exact (every_record.1 hplain.2).1 htext
    · have hplain : (record fields).IsPlain ↔ ∀ field ∈ fields, field.2.IsPlain := by
        rw [IsPlain, every_record]
        exact and_iff_right htext
      have hvalues (kept : Fields) : fieldValues origin read (Draft.ofFields fields) = .ok kept ↔
          kept = fields ∧ ∀ field ∈ fields, field.2.IsPlain :=
        fieldValues_ofFields_eq_ok_iff fun field hfield _ => ih field hfield (hfields field hfield)
      rw [Draft.ofValue, value, content?_ofFields htext, hplain]
      constructor
      · intro hread
        dsimp only at hread
        split at hread
        · cases hread
        · next kept hkept =>
          obtain ⟨rfl, hplain⟩ := (hvalues kept).1 hkept
          cases hread
          exact ⟨by rw [Fields.ofList_of_isSorted hrecord.1], hplain⟩
      · rintro ⟨rfl, hplain⟩
        rw [(hvalues fields).2 ⟨rfl, hplain⟩]
        simp [Fields.ofList_of_isSorted hrecord.1]

/-- Fields that have been read are read again, as they are, if nothing in them is taken for a
text. -/
theorem fields_ofFields_eq_ok_iff {given again : Fields} (hsorted : given.IsSorted)
    (h : ∀ field ∈ given, field.2.Every IsKept) :
    fields (Draft.ofFields given) = .ok again ↔
      again = given ∧ ∀ field ∈ given, field.2.IsPlain := by
  have hvalues (kept : Fields) :
      fieldValues .value (fun source => ofText source.length source) (Draft.ofFields given) =
        .ok kept ↔ kept = given ∧ ∀ field ∈ given, field.2.IsPlain :=
    fieldValues_ofFields_eq_ok_iff fun field hfield _ => value_ofValue_eq_ok_iff (h field hfield)
  rw [fields, map_eq_ok_iff]
  simp only [hvalues]
  constructor
  · rintro ⟨kept, ⟨rfl, hplain⟩, rfl⟩
    exact ⟨Fields.ofList_of_isSorted hsorted, hplain⟩
  · rintro ⟨rfl, hplain⟩
    exact ⟨again, ⟨rfl, hplain⟩, Fields.ofList_of_isSorted hsorted⟩

end Embedded

end LintDirectives.Json
