import LintDirectives.Proofs.Json.Decode
import LintDirectives.Proofs.Json.Spelling
import Mathlib.Data.Set.List

/-!
# Reading JSON texts

A decoder that takes only whole drafts takes a JSON text exactly when the term of the text
is that of a value, the value does not nest too deep and the decoder takes the value
(`run_eq_ok_iff_of_isJson`).

* In the words of a term a separator stands behind every number (`isChain_words`), so that
  the text is cut into them (`tokens_of_isJson`).
* A term is that of a value, or one of its words stands for nothing (`exists_ofValue`).
* Once such a word is met, nothing whole is read any more (`IsLost`).
-/

namespace LintDirectives.Json

open Token

/-! ## Terms -/

theorem isChain_cons_of_not_number {token : Token} {ts : List Token} (h : ¬IsNumberWord token)
    (hts : ts.IsChain MayPrecede) : (token :: ts).IsChain MayPrecede :=
  List.isChain_cons.2 ⟨fun _ _ hnumber => absurd hnumber h, hts⟩

theorem isChain_cons_of_separator {token : Token} {ts : List Token}
    (h : ∀ next ∈ ts.head?, IsSeparator next) (hts : ts.IsChain MayPrecede) :
    (token :: ts).IsChain MayPrecede :=
  List.isChain_cons.2 ⟨fun next hnext _ => h next hnext, hts⟩

/-- Before a separator the words may stand next to each other. -/
def IsApart (words : List Token) : Prop :=
  ∀ ts : List Token, ts.IsChain MayPrecede → (∀ next ∈ ts.head?, IsSeparator next) →
    (words ++ ts).IsChain MayPrecede

theorem IsApart.append {words ts : List Token} {token : Token} (h : IsApart words)
    (htoken : IsSeparator token) (hts : ts.IsChain MayPrecede) :
    (words ++ token :: ts).IsChain MayPrecede := by
  have hnumber : ¬IsNumberWord token := by
    rintro ⟨n, rfl⟩
    exact not_isSeparator_numberWord n htoken
  exact h _ (isChain_cons_of_not_number hnumber hts) (by simpa using htoken)

namespace Term

variable {items : List Term} {fields : List (Option String × Term)}

@[elab_as_elim]
theorem inductionOn {motive : Term → Prop} (term : Term) (null : motive .null)
    (bool : ∀ b, motive (.bool b)) (number : ∀ n, motive (.number n))
    (string : ∀ s, motive (.string s))
    (list : ∀ items, (∀ item ∈ items, motive item) → motive (.list items))
    (record : ∀ fields, (∀ field ∈ fields, motive field.2) → motive (.record fields)) :
    motive term := by
  match term with
  | .null => exact null
  | .bool b => exact bool b
  | .number n => exact number n
  | .string s => exact string s
  | .list items =>
    exact list items fun item _ => inductionOn item null bool number string list record
  | .record fields =>
    exact record fields fun (_, item) _ => inductionOn item null bool number string list record
termination_by sizeOf term
decreasing_by
  · next hitem =>
    have := List.sizeOf_lt_of_mem hitem
    simp only [Term.list.sizeOf_spec]
    omega
  · next hfield =>
    have := List.sizeOf_lt_of_mem hfield
    simp only [Term.record.sizeOf_spec, Prod.mk.sizeOf_spec] at this ⊢
    omega

theorem isApart_wordsOfItems (h : ∀ item ∈ items, IsApart item.words) :
    IsApart (wordsOfItems items) := by
  intro ts hts hhead
  induction items with
  | nil => exact hts
  | cons item items ih =>
    rw [List.forall_mem_cons] at h
    cases items with
    | nil => exact h.1 ts hts hhead
    | cons next items =>
      rw [wordsOfItems, List.append_assoc]
      exact h.1.append trivial (ih h.2)

theorem isApart_wordsOfFields (h : ∀ field ∈ fields, IsApart field.2.words) :
    IsApart (wordsOfFields fields) := by
  intro ts hts hhead
  induction fields with
  | nil => exact hts
  | cons field fields ih =>
    obtain ⟨name, content⟩ := field
    rw [List.forall_mem_cons] at h
    have hlabel {ws : List Token} (hws : ws.IsChain MayPrecede) :
        (stringWord name :: .colon :: ws).IsChain MayPrecede :=
      isChain_cons_of_separator (by simp [IsSeparator])
        (isChain_cons_of_not_number (by simp [isNumberWord_iff]) hws)
    cases fields with
    | nil => exact hlabel (h.1 ts hts hhead)
    | cons next fields =>
      rw [wordsOfFields, List.cons_append, List.cons_append, List.append_assoc]
      exact hlabel (h.1.append trivial (ih h.2))

/-- In the words of a term a separator stands behind every number. -/
theorem isApart_words (term : Term) : IsApart term.words := by
  induction term using inductionOn with
  | null | bool | number | string => exact fun ts hts hhead => isChain_cons_of_separator hhead hts
  | list items ih =>
    intro ts hts hhead
    rw [words, List.cons_append, List.append_assoc]
    exact isChain_cons_of_not_number (by simp [isNumberWord_iff])
      ((isApart_wordsOfItems ih).append trivial hts)
  | record fields ih =>
    intro ts hts hhead
    rw [words, List.cons_append, List.append_assoc]
    exact isChain_cons_of_not_number (by simp [isNumberWord_iff])
      ((isApart_wordsOfFields ih).append trivial hts)

theorem isChain_words (term : Term) : term.words.IsChain MayPrecede := by
  simpa using isApart_words term [] .nil (by simp)

/-! ### Terms of values -/

theorem ofItems_eq_map (items : List Value) : ofItems items = items.map ofValue := by
  induction items with
  | nil => rfl
  | cons item items ih => rw [ofItems, ih, List.map_cons]

theorem ofFields_eq_map (fields : List (String × Value)) :
    ofFields fields = fields.map fun (name, value) => (some name, ofValue value) := by
  induction fields with
  | nil => rfl
  | cons field fields ih => rw [ofFields, ih, List.map_cons]

theorem ofValue_eq_null_iff {value : Value} : ofValue value = null ↔ value = .null := by
  cases value <;> simp [ofValue]

theorem wordsOfItems_ofItems {items : List Value}
    (h : ∀ item ∈ items, (ofValue item).words = item.words) :
    wordsOfItems (ofItems items) = Value.wordsOfItems items := by
  induction items with
  | nil => rfl
  | cons item items ih =>
    rw [List.forall_mem_cons] at h
    have hrest := ih h.2
    cases items with
    | nil => exact h.1
    | cons next items =>
      simp only [ofItems, wordsOfItems, Value.wordsOfItems, h.1] at hrest ⊢
      rw [hrest]

theorem wordsOfFields_ofFields {fields : List (String × Value)}
    (h : ∀ field ∈ fields, (ofValue field.2).words = field.2.words) :
    wordsOfFields (ofFields fields) = Value.wordsOfFields fields := by
  induction fields with
  | nil => rfl
  | cons field fields ih =>
    rw [List.forall_mem_cons] at h
    have hrest := ih h.2
    cases fields with
    | nil => simp only [ofFields, wordsOfFields, Value.wordsOfFields, h.1, stringWord]
    | cons next fields =>
      simp only [ofFields, wordsOfFields, Value.wordsOfFields, h.1, stringWord] at hrest ⊢
      rw [hrest]

theorem words_ofValue (value : Value) : (ofValue value).words = value.words := by
  induction value using Value.inductionOn with
  | null | bool | number | string => rfl
  | list items ih => rw [ofValue, words, Value.words, wordsOfItems_ofItems ih]
  | record fields ih => rw [ofValue, words, Value.words, wordsOfFields_ofFields ih]

theorem mem_wordsOfItems {item : Term} (h : item ∈ items) {token : Token}
    (htoken : token ∈ item.words) : token ∈ wordsOfItems items := by
  induction items with
  | nil => simp at h
  | cons first items ih =>
    cases items with
    | nil => simp_all [wordsOfItems]
    | cons next items =>
      rw [wordsOfItems, List.mem_append]
      rcases List.mem_cons.1 h with rfl | h
      · exact .inl htoken
      · exact .inr (List.mem_cons_of_mem _ (ih h))

theorem mem_wordsOfFields {field : Option String × Term} (h : field ∈ fields) {token : Token}
    (htoken : token = stringWord field.1 ∨ token ∈ field.2.words) :
    token ∈ wordsOfFields fields := by
  induction fields with
  | nil => simp at h
  | cons first fields ih =>
    cases fields with
    | nil =>
      rw [List.mem_singleton.1 h] at htoken
      simpa [wordsOfFields] using htoken.imp_right .inr
    | cons next fields =>
      rw [wordsOfFields]
      rcases List.mem_cons.1 h with rfl | h
      · simpa [or_assoc] using htoken.imp_right fun h => .inr (.inl h)
      · simp [ih h]

/-- A term is that of a value, or it says something that stands for nothing. -/
theorem exists_ofValue (term : Term) : (∃ value, ofValue value = term) ∨ .bad ∈ term.words := by
  induction term using inductionOn with
  | null => exact .inl ⟨.null, rfl⟩
  | bool b => exact .inl ⟨.bool b, rfl⟩
  | number n =>
    cases n with
    | none => exact .inr (List.mem_singleton_self _)
    | some n => exact .inl ⟨.number n, rfl⟩
  | string s =>
    cases s with
    | none => exact .inr (List.mem_singleton_self _)
    | some s => exact .inl ⟨.string s, rfl⟩
  | list items ih =>
    by_cases hbad : ∃ item ∈ items, Token.bad ∈ item.words
    · obtain ⟨item, hitem, hbad⟩ := hbad
      exact .inr (by simp [words, mem_wordsOfItems hitem hbad])
    · have hvalues : items ∈ Set.range (List.map ofValue) := by
        rw [Set.range_list_map]
        exact fun item hitem => (ih item hitem).resolve_right fun h => hbad ⟨item, hitem, h⟩
      obtain ⟨values, rfl⟩ := hvalues
      exact .inl ⟨.list values, by rw [ofValue, ofItems_eq_map]⟩
  | record fields ih =>
    by_cases hbad : ∃ field ∈ fields, Token.bad = stringWord field.1 ∨ Token.bad ∈ field.2.words
    · obtain ⟨field, hfield, hbad⟩ := hbad
      exact .inr (by simp [words, mem_wordsOfFields hfield hbad])
    · have hvalues : fields ∈
          Set.range (List.map fun field : String × Value => (some field.1, ofValue field.2)) := by
        rw [Set.range_list_map]
        rintro ⟨name, content⟩ hfield
        obtain ⟨value, rfl⟩ := (ih _ hfield).resolve_right fun h => hbad ⟨_, hfield, .inr h⟩
        cases name with
        | none => exact absurd ⟨_, hfield, .inl rfl⟩ hbad
        | some name => exact ⟨(name, value), rfl⟩
      obtain ⟨values, rfl⟩ := hvalues
      exact .inl ⟨.record values, by rw [ofValue, ofFields_eq_map]⟩

end Term

/-- A JSON text is cut into the words of its term, up to the first that stands for nothing. -/
theorem tokens_of_isJson {text : List Char} {term : Term} (h : IsJson text term) :
    tokens text = upToBad term.words :=
  tokens_of_isSpelling h term.isChain_words

/-! ## Drafts -/

namespace Reader

/-- Nothing whole will be read any more. -/
def IsLost (reader : Reader) : Prop :=
  reader.HasFailed ∨ ∃ draft, reader = finished draft true

theorem IsLost.foldl {reader : Reader} (h : reader.IsLost) (ts : List Token) :
    ts.foldl step reader = reader := by
  induction ts with
  | nil => rfl
  | cons token ts ih =>
    rw [List.foldl_cons]
    obtain ⟨draft, rfl, -⟩ | ⟨draft, rfl⟩ := h <;> exact ih

variable {outer : List OpenDraft}

/-- The reader goes on, or has given up without anything whole. -/
def IsSound (reader : Reader) : Prop :=
  ∀ draft, reader = failed draft → draft.isWhole = false

theorem isSound_abandon : (failed (abandon outer)).IsSound := by
  rintro _ ⟨⟩
  exact isWhole_abandon outer

theorem isSound_reading {awaited : Awaited} : (reading outer awaited).IsSound := by
  rintro _ ⟨⟩

theorem isSound_start : start.IsSound :=
  isSound_reading

theorem isSound_afterValue (draft : Draft) : (afterValue draft outer).IsSound := by
  cases outer <;> rintro _ ⟨⟩

theorem isSound_push (opened : OpenDraft) (awaited : Awaited) :
    (push outer opened awaited).IsSound := by
  unfold push
  split
  · exact isSound_reading
  · exact isSound_abandon

theorem isSound_value (token : Token) : (value outer token).IsSound := by
  cases token with
  | null | bool | number | string => exact isSound_afterValue _
  | openList | openRecord => exact isSound_push _ _
  | _ => exact isSound_abandon

theorem isSound_name (token : Token) : (name outer token).IsSound := by
  unfold name
  split
  · exact isSound_reading
  · exact isSound_abandon

theorem isSound_step {reader : Reader} (h : reader.IsSound) (token : Token) :
    (reader.step token).IsSound := by
  cases reader with
  | finished draft followed => rintro _ ⟨⟩
  | failed draft => exact h
  | reading outer awaited =>
    unfold step
    cases awaited with
    | value => exact isSound_value token
    | name => exact isSound_name token
    | firstItem =>
      dsimp only
      split
      · exact isSound_afterValue _
      · exact isSound_value token
    | firstName =>
      dsimp only
      split
      · exact isSound_afterValue _
      · exact isSound_name token
    | colon =>
      dsimp only
      split
      · exact isSound_reading
      · exact isSound_abandon
    | separator =>
      dsimp only
      split
      · exact isSound_reading
      · exact isSound_reading
      · exact isSound_afterValue _
      · exact isSound_afterValue _
      · exact isSound_abandon

/-- Nothing is taken up once a word stands for nothing. -/
theorem isLost_step_bad {reader : Reader} (h : reader.IsSound) : (reader.step .bad).IsLost := by
  cases reader with
  | finished draft followed => exact .inr ⟨draft, rfl⟩
  | failed draft => exact .inl ⟨draft, rfl, h draft rfl⟩
  | reading outer awaited =>
    have hfailed : (failed (abandon outer)).IsLost := .inl ⟨_, rfl, isWhole_abandon outer⟩
    cases awaited <;> exact hfailed

/-- The reader takes up all words, or comes to one that stands for nothing. -/
theorem foldl_upToBad {reader : Reader} (h : reader.IsSound) (ts : List Token) :
    (upToBad ts).foldl step reader = ts.foldl step reader := by
  induction ts generalizing reader with
  | nil => rfl
  | cons token ts ih =>
    rw [upToBad, List.foldl_cons]
    split_ifs with hbad
    · subst hbad
      exact ((isLost_step_bad h).foldl ts).symm
    · exact ih (isSound_step h token)

theorem isLost_of_bad_mem {reader : Reader} (h : reader.IsSound) {ts : List Token}
    (hbad : .bad ∈ ts) : (ts.foldl step reader).IsLost := by
  induction ts generalizing reader with
  | nil => simp at hbad
  | cons token ts ih =>
    rw [List.foldl_cons]
    rcases List.mem_cons.1 hbad with rfl | hbad
    · rw [(isLost_step_bad h).foldl ts]
      exact isLost_step_bad h
    · exact ih (isSound_step h token) hbad

end Reader

theorem read_of_isJson {text : String} {term : Term} (h : IsJson text.toList term) :
    Draft.read text = (term.words.foldl Reader.step Reader.start).result := by
  rw [Draft.read, tokens_of_isJson h, Reader.foldl_upToBad Reader.isSound_start]

namespace Decode

variable {α : Type} {decode : Decoder α} {text : String} {a : α}

theorem run_ne_ok_of_isLost (hdecode : IsStrict decode) {reader : Reader} (h : reader.IsLost)
    (hread : Draft.read text = reader.result) : run decode text ≠ .ok a := by
  rw [Ne, run_eq_ok_iff, hread]
  obtain ⟨draft, rfl, hdraft⟩ | ⟨draft, rfl⟩ := h
  · rintro ⟨-, hok⟩
    have hwhole : draft.isWhole = true := hdecode _ _ hok
    rw [hwhole] at hdraft
    contradiction
  · simp [Reader.result]

/-- A strict decoder takes the JSON texts of the values that it takes, unless they nest too
deep. -/
theorem run_eq_ok_iff_of_isJson (hdecode : IsStrict decode) {term : Term}
    (h : IsJson text.toList term) :
    run decode text = .ok a ↔
      ∃ value, Term.ofValue value = term ∧ value.depth ≤ Reader.depthLimit ∧
        decode (Draft.ofValue value) = .ok a := by
  have hread := read_of_isJson h
  have hwords (value : Value) (hvalue : Term.ofValue value = term) :
      Reader.Yields (value.depth ≤ Reader.depthLimit) (.finished (Draft.ofValue value) false)
        (term.words.foldl Reader.step Reader.start) := by
    rw [← hvalue, Term.words_ofValue]
    exact (Reader.foldl_words value (Nat.zero_le _)).congr (by simp [Reader.Fits])
  constructor
  · intro hok
    obtain ⟨value, hvalue⟩ | hbad := term.exists_ofValue
    · by_cases hdepth : value.depth ≤ Reader.depthLimit
      · rw [(hwords value hvalue).1 hdepth] at hread
        rw [run_eq_ok_iff, hread] at hok
        exact ⟨value, hvalue, hdepth, hok.2⟩
      · exact absurd hok
          (run_ne_ok_of_isLost hdecode (.inl ((hwords value hvalue).2 hdepth)) hread)
    · exact absurd hok
        (run_ne_ok_of_isLost hdecode (Reader.isLost_of_bad_mem Reader.isSound_start hbad) hread)
  · rintro ⟨value, hvalue, hdepth, hok⟩
    rw [(hwords value hvalue).1 hdepth] at hread
    rw [run_eq_ok_iff, hread]
    exact ⟨rfl, hok⟩

end Decode

end LintDirectives.Json
