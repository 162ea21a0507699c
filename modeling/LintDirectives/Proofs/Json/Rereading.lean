import LintDirectives.Proofs.Json.Bounds
import LintDirectives.Proofs.Json.Words

/-!
# Reading a written value

A value is read back from its text, in both layouts, if it does not nest too deep;
otherwise its text is given up (`read_of_isSpelled`, `isWhole_read_of_isSpelled`).

Both are one induction over the value (`foldl_words`).  Its statement names the lists
and records that are open around the value, and says that the reader takes it up
(`Yields`), or that nothing whole is left (`HasFailed`), by the depth that is reached.
-/

namespace LintDirectives.Json

namespace Draft

/-! ## Whole drafts -/

theorem isSome_items? (items : List Draft) : (items? items).isSome = items.all isWhole := by
  induction items with
  | nil => rfl
  | cons item items ih =>
    rw [List.all_cons, ← ih, isWhole, items?]
    cases item.value? <;> simp

theorem isSome_fields? (fields : List (String × Draft)) :
    (fields? fields).isSome = fields.all fun field => field.2.isWhole := by
  induction fields with
  | nil => rfl
  | cons field fields ih =>
    obtain ⟨name, draft⟩ := field
    rw [List.all_cons, ← ih, isWhole, fields?]
    cases draft.value? <;> simp

theorem isWhole_list {items : List Draft} {complete : Bool} :
    (list items complete).isWhole = (complete && items.all isWhole) := by
  rw [← isSome_items?, isWhole, value?]
  cases complete <;> simp

theorem isWhole_record {fields : List (String × Draft)} {complete : Bool} :
    (record fields complete).isWhole = (complete && fields.all fun field => field.2.isWhole) := by
  rw [← isSome_fields?, isWhole, value?]
  cases complete <;> simp

theorem ofItems_eq_map (items : List Value) : ofItems items = items.map ofValue := by
  induction items with
  | nil => rfl
  | cons item items ih => rw [ofItems, ih, List.map_cons]

theorem ofFields_eq_map (fields : List (String × Value)) :
    ofFields fields = fields.map fun (name, value) => (name, ofValue value) := by
  induction fields with
  | nil => rfl
  | cons field fields ih => rw [ofFields, ih, List.map_cons]

theorem ofFields_append (fields rest : List (String × Value)) :
    ofFields (fields ++ rest) = ofFields fields ++ ofFields rest := by
  simp only [ofFields_eq_map, List.map_append]

theorem isWhole_ofValue (value : Value) : (ofValue value).isWhole = true := by
  induction value using Value.inductionOn with
  | null => rfl
  | bool b => rfl
  | number n => rfl
  | string s => rfl
  | list items ih => simpa [ofValue, isWhole_list, ofItems_eq_map] using ih
  | record fields ih =>
    simp only [ofValue, isWhole_record, ofFields_eq_map, Bool.true_and, List.all_eq_true,
      List.mem_map]
    rintro _ ⟨field, hfield, rfl⟩
    exact ih field hfield

end Draft

namespace Reader

open Draft Value

/-! ## Giving up -/

theorem isWhole_toDraft_false (opened : OpenDraft) : (opened.toDraft false).isWhole = false := by
  cases opened with
  | list items => exact isWhole_list
  | record fields name => cases name <;> exact isWhole_record

theorem isWhole_abandon (outer : List OpenDraft) : (abandon outer).isWhole = false :=
  abandon_induction (P := fun draft => draft.isWhole = false) rfl
    (fun opened _ => isWhole_toDraft_false opened) fun _ _ _ _ => isWhole_toDraft_false _

/-- The text was given up before its value was whole. -/
def HasFailed (reader : Reader) : Prop :=
  ∃ draft, reader = failed draft ∧ draft.isWhole = false

theorem HasFailed.foldl {reader : Reader} (h : reader.HasFailed) (ts : List Token) :
    (ts.foldl step reader).HasFailed := by
  induction ts generalizing reader with
  | nil => exact h
  | cons token ts ih =>
    obtain ⟨draft, rfl, hdraft⟩ := h
    exact ih ⟨draft, rfl, hdraft⟩

/-! ## Reading the words of a value -/

/-- The reader has come to `target` if the value fits, and has failed otherwise. -/
def Yields (fits : Prop) (target reader : Reader) : Prop :=
  (fits → reader = target) ∧ (¬fits → reader.HasFailed)

theorem Yields.congr {fits fits' : Prop} {target reader : Reader} (h : Yields fits target reader)
    (hiff : fits ↔ fits') : Yields fits' target reader := by
  rwa [Yields, ← hiff]

/-- Reads on, with more that may not fit. -/
theorem Yields.foldl {fits fits' : Prop} {target target' reader : Reader} {ts : List Token}
    (h : Yields fits target reader) (hnext : Yields fits' target' (ts.foldl step target)) :
    Yields (fits ∧ fits') target' (ts.foldl step reader) := by
  by_cases hfits : fits
  · rw [h.1 hfits]
    exact hnext.congr (by simp [hfits])
  · exact ⟨fun hboth => absurd hboth.1 hfits, fun _ => (h.2 hfits).foldl ts⟩

theorem Yields.append {fits : Prop} {target reader : Reader} (h : Yields fits target reader)
    (ts : List Token) : Yields fits (ts.foldl step target) (ts.foldl step reader) :=
  ⟨fun hfits => by rw [h.1 hfits], fun hnot => (h.2 hnot).foldl ts⟩

theorem yields_self (reader : Reader) : Yields True reader reader :=
  ⟨fun _ => rfl, fun h => absurd trivial h⟩

/-- The value does not nest too deep inside `around` lists and records. -/
def Fits (around : Nat) (value : Value) : Prop :=
  around + value.depth ≤ depthLimit

/-- The words of the value are read inside `outer`. -/
def IsRead (outer : List OpenDraft) (value : Value) : Prop :=
  Yields (Fits outer.length value) (afterValue (ofValue value) outer)
    (value.words.foldl step (reading outer .value))

variable {outer : List OpenDraft}

theorem wordsOfItems_cons (item : Value) (items : List Value) :
    wordsOfItems (item :: items) =
      item.words ++ items.flatMap fun next => .comma :: next.words := by
  induction items generalizing item with
  | nil => simp [wordsOfItems]
  | cons next items ih => rw [wordsOfItems, ih, List.flatMap_cons, List.cons_append]

/-- The words of a field. -/
def wordsOfField (field : String × Value) : List Token :=
  .string field.1 :: .colon :: field.2.words

theorem wordsOfFields_cons (field : String × Value) (fields : List (String × Value)) :
    wordsOfFields (field :: fields) =
      wordsOfField field ++ fields.flatMap fun next => .comma :: wordsOfField next := by
  induction fields generalizing field with
  | nil => simp [wordsOfFields, wordsOfField]
  | cons next fields ih =>
    rw [wordsOfFields, ih, List.flatMap_cons]
    rfl

/-- No value starts with the end of a list. -/
theorem foldl_words_firstItem (value : Value) :
    value.words.foldl step (reading outer .firstItem) =
      value.words.foldl step (reading outer .value) := by
  cases value <;> rfl

/-- The items after the first one. -/
theorem foldl_nextItems {items : List Value} (acc : List Draft)
    (h : ∀ item ∈ items, ∀ acc, IsRead (.list acc :: outer) item) :
    Yields (∀ item ∈ items, Fits (outer.length + 1) item)
      (reading (.list ((items.map ofValue).reverse ++ acc) :: outer) .separator)
      ((items.flatMap fun next => .comma :: next.words).foldl step
        (reading (.list acc :: outer) .separator)) := by
  induction items generalizing acc with
  | nil => exact (yields_self _).congr (by simp)
  | cons item items ih =>
    rw [List.forall_mem_cons] at h
    rw [List.flatMap_cons, List.foldl_append, List.forall_mem_cons, List.map_cons,
      List.reverse_cons, List.append_assoc]
    exact (h.1 acc).foldl (ih (ofValue item :: acc) h.2)

/-- The fields after the first one. -/
theorem foldl_nextFields {fields : List (String × Value)} (acc : List (String × Draft))
    (h : ∀ field ∈ fields, ∀ acc, IsRead (.record acc (some field.1) :: outer) field.2) :
    Yields (∀ field ∈ fields, Fits (outer.length + 1) field.2)
      (reading (.record ((ofFields fields).reverse ++ acc) none :: outer) .separator)
      ((fields.flatMap fun next => .comma :: wordsOfField next).foldl step
        (reading (.record acc none :: outer) .separator)) := by
  induction fields generalizing acc with
  | nil => exact (yields_self _).congr (by simp)
  | cons field fields ih =>
    rw [List.forall_mem_cons] at h
    rw [List.flatMap_cons, List.foldl_append, List.forall_mem_cons, ofFields,
      List.reverse_cons, List.append_assoc]
    exact (h.1 acc).foldl (ih ((field.1, ofValue field.2) :: acc) h.2)

theorem foldl_items {items : List Value}
    (h : ∀ item ∈ items, ∀ acc, IsRead (.list acc :: outer) item) :
    Yields (∀ item ∈ items, Fits (outer.length + 1) item)
      (afterValue (ofValue (.list items)) outer)
      ((wordsOfItems items ++ [Token.closeList]).foldl step
        (reading (.list [] :: outer) .firstItem)) := by
  rw [ofValue, ofItems_eq_map]
  cases items with
  | nil => exact (yields_self (afterValue (.list [] true) outer)).congr (by simp)
  | cons item items =>
    rw [List.forall_mem_cons] at h ⊢
    have hread := ((h.1 []).foldl (foldl_nextItems [ofValue item] h.2)).append [Token.closeList]
    rw [wordsOfItems_cons, List.foldl_append, List.foldl_append, foldl_words_firstItem]
    simpa [step, OpenDraft.toDraft] using hread

theorem foldl_fields {fields : List (String × Value)}
    (h : ∀ field ∈ fields, ∀ acc, IsRead (.record acc (some field.1) :: outer) field.2) :
    Yields (∀ field ∈ fields, Fits (outer.length + 1) field.2)
      (afterValue (ofValue (.record fields)) outer)
      ((wordsOfFields fields ++ [Token.closeRecord]).foldl step
        (reading (.record [] none :: outer) .firstName)) := by
  rw [ofValue]
  cases fields with
  | nil => exact (yields_self (afterValue (.record [] true) outer)).congr (by simp)
  | cons field fields =>
    rw [List.forall_mem_cons] at h ⊢
    have hread := ((h.1 []).foldl (foldl_nextFields [(field.1, ofValue field.2)] h.2)).append
      [Token.closeRecord]
    rw [wordsOfFields_cons, List.foldl_append, List.foldl_append]
    simpa [wordsOfField, ofFields, step, name, OpenDraft.toDraft] using hread

/-- A list or record that fits leaves room for itself. -/
theorem yields_push {fits : Prop} {target : Reader} {opened : OpenDraft} {awaited : Awaited}
    {ts : List Token} (hroom : fits → outer.length < depthLimit)
    (h : outer.length < depthLimit →
      Yields fits target (ts.foldl step (reading (opened :: outer) awaited))) :
    Yields fits target (ts.foldl step (push outer opened awaited)) := by
  unfold push
  split_ifs with hopen
  · exact h hopen
  · have hfailed : (failed (abandon outer)).HasFailed := ⟨_, rfl, isWhole_abandon outer⟩
    exact ⟨fun hfits => absurd (hroom hfits) hopen, fun _ => hfailed.foldl ts⟩

theorem fits_succ {around : Nat} (hopen : around < depthLimit) {value : Value} :
    Fits (around + 1) value ↔ value.depth ≤ depthLimit - (around + 1) := by
  rw [Fits]
  omega

theorem fits_list {around : Nat} {items : List Value} :
    Fits around (.list items) ↔
      around < depthLimit ∧ ∀ item ∈ items, Fits (around + 1) item := by
  by_cases hopen : around < depthLimit
  · rw [Fits, depth]
    simp only [hopen, true_and, fits_succ hopen, ← depthOfItems_le_iff]
    omega
  · simp only [hopen, false_and, iff_false, Fits, depth]
    omega

theorem fits_record {around : Nat} {fields : List (String × Value)} :
    Fits around (.record fields) ↔
      around < depthLimit ∧ ∀ field ∈ fields, Fits (around + 1) field.2 := by
  by_cases hopen : around < depthLimit
  · rw [Fits, depth]
    simp only [hopen, true_and, fits_succ hopen, ← depthOfFields_le_iff]
    omega
  · simp only [hopen, false_and, iff_false, Fits, depth]
    omega

/-- The words of a value are read as the value, or given up if it nests too deep. -/
theorem foldl_words (value : Value) (houter : outer.length ≤ depthLimit) : IsRead outer value := by
  -- The open lists and records are generalized, as every list and record opens one more.
  induction value using Value.inductionOn generalizing outer with
  | null => exact (yields_self _).congr (by simpa [Fits, depth] using houter)
  | bool b => exact (yields_self _).congr (by simpa [Fits, depth] using houter)
  | number n => exact (yields_self _).congr (by simpa [Fits, depth] using houter)
  | string s => exact (yields_self _).congr (by simpa [Fits, depth] using houter)
  | list items ih =>
    refine yields_push (fun hfits => (fits_list.1 hfits).1) fun hopen => ?_
    exact (foldl_items fun item hitem _ => ih item hitem hopen).congr
      (by simp [fits_list, hopen])
  | record fields ih =>
    refine yields_push (fun hfits => (fits_record.1 hfits).1) fun hopen => ?_
    exact (foldl_fields fun field hfield _ => ih field hfield hopen).congr
      (by simp [fits_record, hopen])

end Reader

namespace Draft

open Value

variable {spell : Value → List Char} {value : Value}

theorem yields_of_isSpelled (h : IsSpelled spell value) :
    Reader.Yields (value.depth ≤ Reader.depthLimit) (.finished (ofValue value) false)
      ((Token.tokens (spell value)).foldl Reader.step Reader.start) := by
  have htokens : Token.tokens (spell value) = value.words := by
    have := h [] endsNumber_nil
    rwa [List.append_nil, Token.tokens, List.append_nil] at this
  rw [htokens]
  exact (Reader.foldl_words value (Nat.zero_le _)).congr (by simp [Reader.Fits])

/-- A written value is read back. -/
theorem read_of_isSpelled (h : IsSpelled spell value) (hdepth : value.depth ≤ Reader.depthLimit) :
    read (String.ofList (spell value)) = (ofValue value, false) := by
  rw [read, String.toList_ofList, (yields_of_isSpelled h).1 hdepth, Reader.result]

/-- The text of a value that nests too deep is given up. -/
theorem isWhole_read_of_isSpelled (h : IsSpelled spell value)
    (hdepth : ¬value.depth ≤ Reader.depthLimit) :
    (read (String.ofList (spell value))).1.isWhole = false := by
  obtain ⟨draft, hread, hdraft⟩ := (yields_of_isSpelled h).2 hdepth
  rw [read, String.toList_ofList, hread, Reader.result]
  exact hdraft

end Draft

end LintDirectives.Json
