import LintDirectives.Config.Json
import LintDirectives.Proofs.Json.Terms
import Mathlib.Data.List.Nodup

/-!
# Decoding configurations

The JSON text of a record is read as a configuration exactly when its names are known and
come once each, and its contents are keywords and a policy (`IsConfig`).  The configuration
then has what the fields give, and defaults elsewhere (`Gives`), whatever the order of the
fields and the layout of the text.

* Fields.  All four go one way: a field sets its slot, which must be empty, to what its
  content says (`of_field`, `exists_field`).  `hasMet_of_fields` and `exists_fields` carry
  this over all fields.
* Texts.  `ofJson_eq_ok_iff` goes from a text to its fields, and
  `ofJson_takes_config_records` puts both together with what is written for a configuration.
-/

namespace LintDirectives.Config

open Json Json.Decode

/-! ## What fields say -/

/-- The names of the fields that hold keywords. -/
def keywordNames : List String :=
  ["enablingComment", "disablingComment", "expectingComment"]

/-- What a field sets. -/
inductive Setting where
  | keyword (word : String)
  | policy (policy : BareEnable)

/-- The content of the field `name` sets it so: a keyword by a string, and the
policy by its name, alone or as the only name of a record that holds null. -/
def Sets (name : String) (content : Term) : Setting → Prop
  | .keyword word => name ∈ keywordNames ∧ content = .string (some word)
  | .policy policy => name = "bareEnable" ∧
      (content = .string (some (policyName policy)) ∨
        content = .record [(some (policyName policy), .null)])

/-- The setting of a field. -/
def setting (config : Config) (name : String) : Option Setting :=
  if name = "enablingComment" then some (.keyword config.enabling)
  else if name = "disablingComment" then some (.keyword config.disabling)
  else if name = "expectingComment" then some (.keyword config.expecting)
  else if name = "bareEnable" then some (.policy config.bareEnable)
  else none

/-- The fields make up a configuration. -/
structure IsConfig (fields : List (Option String × Term)) : Prop where
  known : ∀ field ∈ fields, ∃ name ∈ fieldNames, field.1 = some name
  once : (fields.map (·.1)).Nodup
  contents : ∀ name content, (some name, content) ∈ fields → ∃ setting, Sets name content setting

/-- The fields give the configuration: what they say, and defaults elsewhere. -/
structure Gives (fields : List (Option String × Term)) (config : Config) : Prop where
  given : ∀ name content, (some name, content) ∈ fields →
    ∃ setting, Sets name content setting ∧ config.setting name = some setting
  missing : ∀ name ∈ fieldNames, (∀ content, (some name, content) ∉ fields) →
    config.setting name = default.setting name

variable {name : String} {config : Config} {fields others : List (Option String × Term)}

theorem policyName_injective : Function.Injective policyName := by
  intro policy other h
  cases policy <;> cases other <;> first | rfl | exact absurd h (by decide)

/-- Content says one thing. -/
theorem Sets.unique {content : Term} {setting other : Setting} (h : Sets name content setting)
    (hother : Sets name content other) : setting = other := by
  have hkeyword : "bareEnable" ∉ keywordNames := by decide
  cases setting with
  | keyword word =>
    cases other with
    | keyword again =>
      obtain ⟨-, rfl⟩ := h
      obtain ⟨-, heq⟩ := hother
      simpa using heq
    | policy policy =>
      obtain ⟨hname, -⟩ := h
      exact absurd (hother.1 ▸ hname) hkeyword
  | policy policy =>
    cases other with
    | keyword word =>
      obtain ⟨hname, -⟩ := hother
      exact absurd (h.1 ▸ hname) hkeyword
    | policy again =>
      have hsame : policyName policy = policyName again := by
        obtain ⟨-, rfl | rfl⟩ := h <;> simpa using hother.2
      rw [policyName_injective hsame]

theorem eq_of_setting {other : Config}
    (h : ∀ name ∈ fieldNames, config.setting name = other.setting name) : config = other := by
  obtain ⟨enabling, disabling, expecting, bareEnable⟩ := config
  obtain ⟨enabling', disabling', expecting', bareEnable'⟩ := other
  simpa [fieldNames, setting] using h

theorem Gives.unique {other : Config} (h : Gives fields config) (hother : Gives fields other) :
    config = other := by
  refine eq_of_setting fun name hname => ?_
  by_cases hfield : ∃ content, (some name, content) ∈ fields
  · obtain ⟨content, hcontent⟩ := hfield
    obtain ⟨setting, hsets, hsetting⟩ := h.given name content hcontent
    obtain ⟨again, hagain, hsetting'⟩ := hother.given name content hcontent
    rw [hsetting, hsetting', hsets.unique hagain]
  · rw [not_exists] at hfield
    rw [h.missing name hname hfield, hother.missing name hname hfield]

/-! ### In any order -/

theorem IsConfig.perm (h : IsConfig fields) (hperm : fields.Perm others) : IsConfig others where
  known field hfield := h.known field (hperm.mem_iff.2 hfield)
  once := (hperm.map _).nodup_iff.1 h.once
  contents name content hcontent := h.contents name content (hperm.mem_iff.2 hcontent)

theorem Gives.perm (h : Gives fields config) (hperm : fields.Perm others) :
    Gives others config where
  given name content hcontent := h.given name content (hperm.mem_iff.2 hcontent)
  missing name hname hnone :=
    h.missing name hname fun content hcontent => hnone content (hperm.mem_iff.1 hcontent)

/-! ## Reading fields -/

theorem lookup_policies_eq_some_iff {policy : BareEnable} :
    policies.lookup name = some policy ↔ name = policyName policy := by
  by_cases htrailing : name = "trailing-run"
  · subst htrailing
    cases policy <;> decide
  · by_cases hall : name = "all"
    · subst hall
      cases policy <;> decide
    · have hnone : policies.lookup name = none := by
        simp [policies, List.lookup_cons, beq_false_of_ne htrailing, beq_false_of_ne hall]
      cases policy <;> simp [hnone, policyName, htrailing, hall]

/-- A keyword is read from a string. -/
theorem string_ofValue_eq_ok_iff {value : Value} {word : String} :
    Decode.string (Json.Draft.ofValue value) = .ok word ↔
      Term.ofValue value = .string (some word) := by
  rw [Decode.string, stringAs_eq_ok_iff]
  cases value <;> simp [Json.Draft.ofValue, Term.ofValue]

theorem ofValue_eq_null_iff {value : Value} :
    Json.Draft.ofValue value = .null ↔ value = .null := by
  cases value <;> simp [Json.Draft.ofValue]

/-- A policy is read from its name. -/
theorem variant_ofValue_eq_ok_iff {value : Value} {policy : BareEnable} :
    variant .text policies (Json.Draft.ofValue value) = .ok policy ↔
      Term.ofValue value = .string (some (policyName policy)) ∨
        Term.ofValue value = .record [(some (policyName policy), .null)] := by
  simp only [variant_text_eq_ok_iff, lookup_policies_eq_some_iff, exists_eq_left]
  cases value with
  | record fields =>
    cases fields with
    | nil => simp [Json.Draft.ofValue, Term.ofValue, Json.Draft.ofFields, Term.ofFields]
    | cons field fields =>
      cases fields <;> simp [Json.Draft.ofValue, Term.ofValue, Json.Draft.ofFields,
        Term.ofFields, ofValue_eq_null_iff, Term.ofValue_eq_null_iff]
  | _ => simp [Json.Draft.ofValue, Term.ofValue]

namespace Draft

/-- What has been met of the field `name`. -/
def slot (draft : Draft) (name : String) : Option Setting :=
  if name = "enablingComment" then draft.enabling.map .keyword
  else if name = "disablingComment" then draft.disabling.map .keyword
  else if name = "expectingComment" then draft.expecting.map .keyword
  else if name = "bareEnable" then draft.bareEnable.map .policy
  else none

theorem slot_empty (name : String) : ({} : Draft).slot name = none := by
  simp [slot]

/-- A slot that was not met has its default. -/
theorem setting_finish (draft : Draft) (name : String) :
    draft.finish.setting name = (draft.slot name).or (default.setting name) := by
  unfold setting slot
  split_ifs
  · cases henabling : draft.enabling <;> simp [finish, henabling]
  · cases hdisabling : draft.disabling <;> simp [finish, hdisabling]
  · cases hexpecting : draft.expecting <;> simp [finish, hexpecting]
  · cases hbareEnable : draft.bareEnable <;> simp [finish, hbareEnable]
  · rfl

variable {draft next : Draft} {value : Value}

/-- A field sets its own slot, which was empty, and no other. -/
theorem of_field (h : draft.field name (Json.Draft.ofValue value) = .ok next) :
    draft.slot name = none ∧
      (∃ setting, Sets name (Term.ofValue value) setting ∧ next.slot name = some setting) ∧
      ∀ other, other ≠ name → next.slot other = draft.slot other := by
  unfold field at h
  split_ifs at h with henabling hmet hdisabling hmet hexpecting hmet hbareEnable hmet
  all_goals
    subst name
    obtain ⟨found, hfound, rfl⟩ := map_eq_ok_iff.1 h
    refine ⟨by simpa [slot] using hmet, ?_, fun other hother => by simp [slot, hother]⟩
  · exact ⟨.keyword found, ⟨by decide, string_ofValue_eq_ok_iff.1 hfound⟩, rfl⟩
  · exact ⟨.keyword found, ⟨by decide, string_ofValue_eq_ok_iff.1 hfound⟩, rfl⟩
  · exact ⟨.keyword found, ⟨by decide, string_ofValue_eq_ok_iff.1 hfound⟩, rfl⟩
  · exact ⟨.policy found, ⟨rfl, variant_ofValue_eq_ok_iff.1 hfound⟩, rfl⟩

theorem exists_field {setting : Setting} (hslot : draft.slot name = none)
    (h : Sets name (Term.ofValue value) setting) :
    ∃ next, draft.field name (Json.Draft.ofValue value) = .ok next := by
  cases setting with
  | keyword word =>
    obtain ⟨hname, hcontent⟩ := h
    have hread := string_ofValue_eq_ok_iff.2 hcontent
    simp only [keywordNames, List.mem_cons, List.not_mem_nil, or_false] at hname
    rcases hname with rfl | rfl | rfl
    all_goals
      simp only [slot, reduceIte, String.reduceEq, Option.map_eq_none_iff] at hslot
      simp [field, hslot, hread, Except.map]
  | policy policy =>
    obtain ⟨rfl, hcontent⟩ := h
    have hread := variant_ofValue_eq_ok_iff.2 hcontent
    simp only [slot, reduceIte, String.reduceEq, Option.map_eq_none_iff] at hslot
    simp [field, hslot, hread, Except.map]

/-! ### All fields -/

theorem fields_cons_eq_ok_iff {content : Json.Draft} {contents : List (String × Json.Draft)}
    {met : Draft} :
    draft.fields ((name, content) :: contents) = .ok met ↔
      ∃ next, draft.field name content = .ok next ∧ next.fields contents = .ok met := by
  rw [fields]
  cases draft.field name content <;> simp

/-- The fields were taken up: each came once and set its slot, and no other slot was set. -/
structure HasMet (values : List (String × Value)) (draft met : Draft) : Prop where
  once : (values.map (·.1)).Nodup
  given : ∀ name value, (name, value) ∈ values → draft.slot name = none ∧
    ∃ setting, Sets name (Term.ofValue value) setting ∧ met.slot name = some setting
  other : ∀ name, name ∉ values.map (·.1) → met.slot name = draft.slot name

theorem hasMet_of_fields {values : List (String × Value)} {met : Draft}
    (h : draft.fields (Json.Draft.ofFields values) = .ok met) : HasMet values draft met := by
  induction values generalizing draft with
  | nil =>
    cases h
    exact ⟨.nil, by simp, fun _ _ => rfl⟩
  | cons field values ih =>
    obtain ⟨name, value⟩ := field
    obtain ⟨next, hfield, hrest⟩ := fields_cons_eq_ok_iff.1 h
    obtain ⟨hslot, ⟨setting, hsets, hset⟩, hother⟩ := of_field hfield
    have hmet := ih hrest
    -- A later field of this name would have found its slot empty.
    have hnew : name ∉ values.map (·.1) := by
      rw [List.mem_map]
      rintro ⟨⟨_, again⟩, hagain, rfl⟩
      have hnone := (hmet.given _ _ hagain).1
      rw [hset] at hnone
      contradiction
    refine ⟨List.nodup_cons.2 ⟨hnew, hmet.once⟩, fun given content hgiven => ?_,
      fun given hgiven => ?_⟩
    · rcases List.mem_cons.1 hgiven with heq | hlater
      · obtain ⟨rfl, rfl⟩ := Prod.mk.inj heq
        exact ⟨hslot, setting, hsets, (hmet.other _ hnew).trans hset⟩
      · have hne : given ≠ name := fun heq => hnew (List.mem_map.2 ⟨_, hlater, heq⟩)
        obtain ⟨hnone, hsetting⟩ := hmet.given given content hlater
        exact ⟨(hother given hne).symm.trans hnone, hsetting⟩
    · rw [List.map_cons, List.mem_cons, not_or] at hgiven
      rw [hmet.other given hgiven.2, hother given hgiven.1]

theorem exists_fields {values : List (String × Value)} (hnodup : (values.map (·.1)).Nodup)
    (h : ∀ name value, (name, value) ∈ values →
      draft.slot name = none ∧ ∃ setting, Sets name (Term.ofValue value) setting) :
    ∃ met, draft.fields (Json.Draft.ofFields values) = .ok met := by
  induction values generalizing draft with
  | nil => exact ⟨draft, rfl⟩
  | cons field values ih =>
    obtain ⟨name, value⟩ := field
    rw [List.map_cons, List.nodup_cons] at hnodup
    obtain ⟨hslot, setting, hsets⟩ := h name value List.mem_cons_self
    obtain ⟨next, hnext⟩ := exists_field hslot hsets
    have hother := (of_field hnext).2.2
    obtain ⟨met, hmet⟩ := ih hnodup.2 fun given content hgiven => by
      have hne : given ≠ name := fun heq => hnodup.1 (List.mem_map.2 ⟨_, hgiven, heq⟩)
      obtain ⟨hnone, hsetting⟩ := h given content (List.mem_cons_of_mem _ hgiven)
      exact ⟨(hother given hne).trans hnone, hsetting⟩
    exact ⟨met, fields_cons_eq_ok_iff.2 ⟨next, hnext, hmet⟩⟩

theorem isWhole_of_field {content : Json.Draft} (h : draft.field name content = .ok next) :
    content.isWhole = true := by
  unfold field at h
  split_ifs at h
  all_goals
    obtain ⟨found, hfound, -⟩ := map_eq_ok_iff.1 h
    first
      | exact isStrict_stringAs _ _ _ hfound
      | exact isStrict_variant_text _ _ hfound

theorem isWhole_of_fields {contents : List (String × Json.Draft)} {met : Draft}
    (h : draft.fields contents = .ok met) : ∀ content ∈ contents, content.2.isWhole = true := by
  induction contents generalizing draft with
  | nil => simp
  | cons content contents ih =>
    obtain ⟨next, hfield, hrest⟩ := fields_cons_eq_ok_iff.1 h
    exact List.forall_mem_cons.2 ⟨isWhole_of_field hfield, ih hrest⟩

end Draft

/-! ## Reading texts -/

theorem decode_record_eq_ok_iff {contents : List (String × Json.Draft)} {complete : Bool} :
    decode (.record contents complete) = .ok config ↔
      complete = true ∧ ∃ met, Draft.fields {} contents = .ok met ∧ met.finish = config := by
  rw [decode]
  cases Draft.fields {} contents <;> cases complete <;> simp

theorem decode_list_eq_ok_iff {items : List Json.Draft} {complete : Bool} :
    decode (.list items complete) = .ok config ↔
      (complete = true ∧ items.length ≤ fieldNames.length) ∧
        ∃ met, Draft.fields {} (fieldNames.zip items) = .ok met ∧ met.finish = config := by
  rw [decode]
  cases Draft.fields {} (fieldNames.zip items) with
  | error fault => simp
  | ok met => split_ifs with hend <;> simp_all

theorem isStrict_decode : IsStrict decode := by
  intro draft config h
  cases draft with
  | record contents complete =>
    obtain ⟨rfl, met, hmet, -⟩ := decode_record_eq_ok_iff.1 h
    simpa [Json.Draft.isWhole_record] using Draft.isWhole_of_fields hmet
  | list items complete =>
    obtain ⟨⟨rfl, hlength⟩, met, hmet, -⟩ := decode_list_eq_ok_iff.1 h
    have hwhole := Draft.isWhole_of_fields hmet
    rw [Json.Draft.isWhole_list, Bool.true_and, List.all_eq_true]
    intro item hitem
    rw [← List.map_snd_zip hlength, List.mem_map] at hitem
    obtain ⟨content, hcontent, rfl⟩ := hitem
    exact hwhole content hcontent
  | _ => cases h

/-- The JSON text of a record is read by its fields, which must be those of a value. -/
theorem ofJson_eq_ok_iff {text : String} (h : IsJson text.toList (.record fields)) :
    ofJson text = .ok config ↔
      ∃ values, Term.ofFields values = fields ∧ (Value.record values).depth ≤ Reader.depthLimit ∧
        ∃ met, Draft.fields {} (Json.Draft.ofFields values) = .ok met ∧ met.finish = config := by
  rw [ofJson, run_eq_ok_iff_of_isJson isStrict_decode h]
  constructor
  · rintro ⟨value, hvalue, hdepth, hok⟩
    cases value with
    | record values =>
      rw [Json.Draft.ofValue, decode_record_eq_ok_iff] at hok
      exact ⟨values, Term.record.inj hvalue, hdepth, hok.2⟩
    | _ => cases hvalue
  · rintro ⟨values, rfl, hdepth, hmet⟩
    exact ⟨.record values, rfl, hdepth, decode_record_eq_ok_iff.2 ⟨rfl, hmet⟩⟩

theorem mem_ofFields {values : List (String × Value)} {content : Term} :
    (some name, content) ∈ Term.ofFields values ↔
      ∃ value, (name, value) ∈ values ∧ Term.ofValue value = content := by
  rw [Term.ofFields_eq_map, List.mem_map]
  simp

theorem nodup_names_ofFields {values : List (String × Value)} :
    ((Term.ofFields values).map (·.1)).Nodup ↔ (values.map (·.1)).Nodup := by
  have hnames : (Term.ofFields values).map (·.1) = (values.map (·.1)).map some := by
    simp [Term.ofFields_eq_map, Function.comp_def]
  rw [hnames, List.nodup_map_iff (Option.some_injective _)]

theorem Sets.mem_fieldNames {content : Term} {setting : Setting}
    (h : Sets name content setting) : name ∈ fieldNames := by
  have hkeywords : ∀ name ∈ keywordNames, name ∈ fieldNames := by decide
  cases setting with
  | keyword word => exact hkeywords name h.1
  | policy policy =>
    rw [h.1]
    decide

/-- What is read from a text is what its fields give. -/
theorem isConfig_and_gives_of_ofJson {text : String} (h : IsJson text.toList (.record fields))
    (hread : ofJson text = .ok config) : IsConfig fields ∧ Gives fields config := by
  obtain ⟨values, rfl, -, met, hmet, rfl⟩ := (ofJson_eq_ok_iff h).1 hread
  have hhas := Draft.hasMet_of_fields hmet
  have hgiven (name : String) (content : Term)
      (hcontent : (some name, content) ∈ Term.ofFields values) :
      ∃ setting, Sets name content setting ∧ met.finish.setting name = some setting := by
    obtain ⟨value, hvalue, rfl⟩ := mem_ofFields.1 hcontent
    obtain ⟨-, setting, hsets, hslot⟩ := hhas.given name value hvalue
    exact ⟨setting, hsets, by rw [Draft.setting_finish, hslot, Option.some_or]⟩
  refine ⟨⟨fun field hfield => ?_, nodup_names_ofFields.2 hhas.once,
    fun name content hcontent => ?_⟩, ⟨hgiven, fun name _ hnone => ?_⟩⟩
  · rw [Term.ofFields_eq_map, List.mem_map] at hfield
    obtain ⟨⟨name, value⟩, hvalue, rfl⟩ := hfield
    obtain ⟨setting, hsets, -⟩ := hgiven name _ (mem_ofFields.2 ⟨value, hvalue, rfl⟩)
    exact ⟨name, hsets.mem_fieldNames, rfl⟩
  · obtain ⟨setting, hsets, -⟩ := hgiven name content hcontent
    exact ⟨setting, hsets⟩
  · have hother : name ∉ values.map (·.1) := by
      rw [List.mem_map]
      rintro ⟨⟨_, value⟩, hvalue, rfl⟩
      exact hnone _ (mem_ofFields.2 ⟨value, hvalue, rfl⟩)
    rw [Draft.setting_finish, hhas.other name hother, Draft.slot_empty, Option.none_or]

theorem Sets.exists_ofValue {content : Term} {setting : Setting}
    (h : Sets name content setting) : ∃ value, Term.ofValue value = content := by
  cases setting with
  | keyword word =>
    obtain ⟨-, rfl⟩ := h
    exact ⟨.string word, rfl⟩
  | policy policy =>
    obtain ⟨-, rfl | rfl⟩ := h
    · exact ⟨.string (policyName policy), rfl⟩
    · exact ⟨.record [(policyName policy, .null)], rfl⟩

/-- No setting nests deep. -/
theorem Sets.depth_le {value : Value} {setting : Setting}
    (h : Sets name (Term.ofValue value) setting) : value.depth ≤ 1 := by
  cases value with
  | list items => cases setting <;> simp [Sets, Term.ofValue] at h
  | record fields =>
    cases setting with
    | keyword word => simp [Sets, Term.ofValue] at h
    | policy policy =>
      have hfields : Term.ofFields fields = [(some (policyName policy), .null)] := by
        simpa [Sets, Term.ofValue] using h.2
      have hinner : Value.depthOfFields fields ≤ 0 :=
        Value.depthOfFields_le_iff.2 fun field hfield => by
          have hfield := mem_ofFields.2 ⟨field.2, hfield, rfl⟩
          rw [hfields, List.mem_singleton, Prod.mk.injEq, Term.ofValue_eq_null_iff] at hfield
          simp [hfield.2, Value.depth]
      rw [Value.depth]
      omega
  | _ => exact Nat.zero_le _

theorem exists_ofJson_of_isConfig {text : String} (h : IsJson text.toList (.record fields))
    (hfields : IsConfig fields) : ∃ config, ofJson text = .ok config := by
  have hvalues : fields ∈
      Set.range (List.map fun field : String × Value => (some field.1, Term.ofValue field.2)) := by
    rw [Set.range_list_map]
    rintro ⟨_, content⟩ hfield
    obtain ⟨name, -, rfl⟩ := hfields.known _ hfield
    obtain ⟨setting, hsets⟩ := hfields.contents name content hfield
    obtain ⟨value, rfl⟩ := hsets.exists_ofValue
    exact ⟨(name, value), rfl⟩
  obtain ⟨values, hvalues⟩ := hvalues
  obtain rfl : Term.ofFields values = fields := by rw [← hvalues, Term.ofFields_eq_map]
  have hsets (name : String) (value : Value) (hvalue : (name, value) ∈ values) :
      ∃ setting, Sets name (Term.ofValue value) setting :=
    hfields.contents name _ (mem_ofFields.2 ⟨value, hvalue, rfl⟩)
  have hdepth : (Value.record values).depth ≤ Reader.depthLimit := by
    have hinner : Value.depthOfFields values ≤ 1 :=
      Value.depthOfFields_le_iff.2 fun field hfield => by
        obtain ⟨setting, hsets⟩ := hsets field.1 field.2 hfield
        exact hsets.depth_le
    rw [Value.depth, Reader.depthLimit]
    omega
  obtain ⟨met, hmet⟩ := Draft.exists_fields (nodup_names_ofFields.1 hfields.once)
    fun name value hvalue => ⟨Draft.slot_empty name, hsets name value hvalue⟩
  exact ⟨met.finish, (ofJson_eq_ok_iff h).2 ⟨values, rfl, hdepth, met, hmet, rfl⟩⟩

/-! ## Reading what is written -/

theorem decode_ofValue_toJson (config : Config) :
    decode (Json.Draft.ofValue config.toJson) = .ok config := by
  obtain ⟨enabling, disabling, expecting, bareEnable⟩ := config
  cases bareEnable <;> rfl

theorem ofJson_of_isSpelled {spell : Value → List Char} (h : Value.IsSpelled spell config.toJson) :
    ofJson (String.ofList (spell config.toJson)) = .ok config := by
  have hdepth : config.toJson.depth ≤ Reader.depthLimit := by
    simp [toJson, Value.depth, Value.depthOfFields, Reader.depthLimit]
  rw [ofJson, run_eq_ok_iff, Json.Draft.read_of_isSpelled h hdepth]
  exact ⟨rfl, decode_ofValue_toJson config⟩

theorem every_fitsWord_toJson (config : Config) : config.toJson.Every Value.FitsWord := by
  simp [toJson, Value.every_record, Value.FitsWord]

/-- A configuration is read from what is written for it, in both layouts.  A JSON text whose
value is a record is read as a configuration exactly when its names are known and come once
each, with strings for the keywords and a name, alone or as the only name of a record that
holds null, for the policy.  The configuration is then the one that the fields give, with
defaults for those that are missing, in whichever order and layout they come. -/
theorem ofJson_takes_config_records :
    (∀ config : Config, ofJson config.toJson.write = .ok config ∧
      ofJson config.toJson.writePretty = .ok config) ∧
    (∀ (text : String) (fields : List (Option String × Term)),
      IsJson text.toList (.record fields) →
        ((∃ config, ofJson text = .ok config) ↔ IsConfig fields) ∧
          ∀ config, ofJson text = .ok config → Gives fields config) ∧
    ∀ (text other : String) (fields others : List (Option String × Term)),
      IsJson text.toList (.record fields) → IsJson other.toList (.record others) →
        fields.Perm others → ∀ config, ofJson text = .ok config ↔ ofJson other = .ok config := by
  refine ⟨fun config => ?_, fun text fields h => ⟨⟨?_, exists_ofJson_of_isConfig h⟩, ?_⟩, ?_⟩
  · have hfits := every_fitsWord_toJson config
    exact ⟨ofJson_of_isSpelled (Value.isSpelled_compact hfits),
      ofJson_of_isSpelled (Value.isSpelled_prettyAt hfits 0)⟩
  · rintro ⟨config, hread⟩
    exact (isConfig_and_gives_of_ofJson h hread).1
  · exact fun config hread => (isConfig_and_gives_of_ofJson h hread).2
  · -- Both texts are read, as both have the fields of a configuration, which is the same one.
    have hsame {text other : String} {fields others : List (Option String × Term)}
        (h : IsJson text.toList (.record fields)) (hother : IsJson other.toList (.record others))
        (hperm : fields.Perm others) {config : Config} (hread : ofJson text = .ok config) :
        ofJson other = .ok config := by
      obtain ⟨hfields, hgives⟩ := isConfig_and_gives_of_ofJson h hread
      obtain ⟨again, hagain⟩ := exists_ofJson_of_isConfig hother (hfields.perm hperm)
      have hgives' := (isConfig_and_gives_of_ofJson hother hagain).2
      rwa [(hgives.perm hperm).unique hgives']
    intro text other fields others h hother hperm config
    exact ⟨hsame h hother hperm, hsame hother h hperm.symm⟩

/-- A policy that is named by a record, behind a name with an escape, and a keyword. -/
def policyFirst : String :=
  "\x7b \"\\u0062areEnable\" :\x7b\"all\": null\x7d,\n\"enablingComment\":\"on\"\x7d"

/-- The same fields in the other order, without spaces. -/
def keywordFirst : String :=
  "\x7b\"enablingComment\":\"on\",\"bareEnable\":\x7b\"all\":null\x7d\x7d"

/-- The content of the policy field in both. -/
def allPolicy : Term :=
  .record [(some "all", .null)]

theorem isJson_policyFirst : IsJson policyFirst.toList
    (.record [(some "bareEnable", allPolicy), (some "enablingComment", .string (some "on"))]) := by
  have hunit : Token.codeUnit? '0' '0' '6' '2' = some 0x62 := rfl
  have hbody : IsBody "\\u0062areEnable".toList (0x62 :: "areEnable".toList.flatMap codeUnits) :=
    .unit hunit (isBody_quoted "areEnable".toList)
  have hname : IsWord ('\x22' :: ("\\u0062areEnable".toList ++ ['\x22'])) (.string "bareEnable") :=
    .string hbody
  refine .word .openRecord (.space rfl (.word hname (.space rfl (.word .colon ?_))))
  refine .word .openRecord (.word (isWord_quoted "all") (.word .colon (.space rfl ?_)))
  refine .word .null (.word .closeRecord (.word .comma (.space rfl ?_)))
  exact .word (isWord_quoted "enablingComment") (.word .colon (.word (isWord_quoted "on")
    (.word .closeRecord (.nil (by simp)))))

theorem isJson_keywordFirst : IsJson keywordFirst.toList
    (.record [(some "enablingComment", .string (some "on")), (some "bareEnable", allPolicy)]) := by
  refine .word .openRecord (.word (isWord_quoted "enablingComment") (.word .colon ?_))
  refine .word (isWord_quoted "on") (.word .comma (.word (isWord_quoted "bareEnable") ?_))
  refine .word .colon (.word .openRecord (.word (isWord_quoted "all") (.word .colon ?_)))
  exact .word .null (.word .closeRecord (.word .closeRecord (.nil (by simp))))

theorem isConfig_policyFirst :
    IsConfig [(some "bareEnable", allPolicy), (some "enablingComment", .string (some "on"))] where
  known := by simp [fieldNames]
  once := by simp
  contents := by
    intro name content hcontent
    rw [List.mem_pair, Prod.mk.injEq, Prod.mk.injEq] at hcontent
    obtain ⟨hname, rfl⟩ | ⟨hname, rfl⟩ := hcontent
    · exact ⟨.policy .all, Option.some.inj hname, .inr rfl⟩
    · rw [Option.some.inj hname]
      exact ⟨.keyword "on", by decide, rfl⟩

/-- Two texts that name all by a record, and set one keyword. -/
theorem policyFirst_isTaken :
    ∃ config, ofJson policyFirst = .ok config ∧ ofJson keywordFirst = .ok config ∧
      config.enabling = "on" ∧ config.disabling = default.disabling ∧
      config.bareEnable = .all ∧ ofJson config.toJson.write = .ok config := by
  obtain ⟨hwritten, hread, hsame⟩ := ofJson_takes_config_records
  obtain ⟨hok, hgives⟩ := hread policyFirst _ isJson_policyFirst
  obtain ⟨config, hconfig⟩ := hok.2 isConfig_policyFirst
  have hother : ofJson keywordFirst = .ok config :=
    (hsame _ _ _ _ isJson_policyFirst isJson_keywordFirst (.swap _ _ _) config).1 hconfig
  obtain ⟨hgiven, hmissing⟩ := hgives config hconfig
  refine ⟨config, hconfig, hother, ?_, ?_, ?_, (hwritten config).1⟩
  · obtain ⟨found, hsets, hset⟩ := hgiven "enablingComment" _ (.tail _ (.head _))
    have hon : found = .keyword "on" := hsets.unique ⟨by decide, rfl⟩
    simpa [hon, setting] using hset
  · have hnone := hmissing "disablingComment" (by decide) (by simp)
    simpa [setting] using hnone
  · obtain ⟨found, hsets, hset⟩ := hgiven "bareEnable" _ (.head _)
    have hall : found = .policy .all := hsets.unique ⟨rfl, .inr rfl⟩
    simpa [hall, setting] using hset

end LintDirectives.Config
