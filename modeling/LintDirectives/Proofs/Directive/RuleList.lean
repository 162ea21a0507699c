import LintDirectives.Directive
import LintDirectives.Proofs.Text.Trim
import Mathlib.Data.List.Induction
import Mathlib.Data.List.Nodup

/-!
# Lists of rule ids

`ruleIds` brings a list into a normal form.  What the normal form is, and which lists
have it, is said without the function.

* `IsRuleId` is what a rule id is once it has been read.
* `idsOf` is the loop over the pieces of a list.  One piece adds its id at the end or
  leaves the ids as they are (`idsOf_concat`), and the properties of the normal form
  are inductions with this step.
* `Lists` is the grammar of the lists with given ids: padded ids in order, and between
  them blank pieces and ids that are there already.  `Lists.idsOf_eq` reads such
  a list, and `lists_idsOf` says that every list is one of its own ids.
* `ruleIds_normalizes` puts these together.
-/

namespace LintDirectives.Directive

open Text

/-- A rule id that was read from a list. -/
structure IsRuleId (id : List Char) : Prop where
  ne_nil : id ≠ []
  trimmed : trim id = id
  no_comma : ',' ∉ id

/-! ## One piece after the other -/

/-- The rule ids that the pieces of a list give. -/
def idsOf (pieces : List (List Char)) : List (List Char) :=
  firstOccurrences ((pieces.map trim).filter (· ≠ []))

theorem ruleIds_eq_idsOf (text : List Char) : ruleIds text = idsOf (text.splitOn ',') := by
  rw [ruleIds, pieces_eq_splitOn, idsOf]

theorem firstOccurrences_concat (items : List (List Char)) (item : List Char) :
    firstOccurrences (items ++ [item]) =
      if item ∈ firstOccurrences items then firstOccurrences items
      else firstOccurrences items ++ [item] := by
  rw [firstOccurrences, List.foldl_concat, ← firstOccurrences]

/-- A piece changes nothing when it is blank or when its id is there already; otherwise its id
comes last. -/
theorem idsOf_concat (pieces : List (List Char)) (piece : List Char) :
    idsOf (pieces ++ [piece]) =
      if trim piece = [] ∨ trim piece ∈ idsOf pieces then idsOf pieces
      else idsOf pieces ++ [trim piece] := by
  rw [idsOf, List.map_append, List.filter_append, List.map_singleton]
  by_cases hempty : trim piece = []
  · simp [hempty, idsOf]
  · have hkept : [trim piece].filter (· ≠ []) = [trim piece] := by simp [hempty]
    rw [hkept, firstOccurrences_concat, ← idsOf]
    simp only [hempty, false_or]

section Normal

variable {pieces : List (List Char)}

theorem nodup_idsOf (pieces : List (List Char)) : (idsOf pieces).Nodup := by
  induction pieces using List.reverseRecOn with
  | nil => exact List.nodup_nil
  | append_singleton pieces piece ih =>
    rw [idsOf_concat]
    split
    · exact ih
    · next hnew =>
      rw [← List.concat_eq_append]
      exact List.Nodup.concat (fun hmem => hnew (.inr hmem)) ih

/-- The ids are what is left of the pieces that are not blank. -/
theorem mem_idsOf_iff {id : List Char} :
    id ∈ idsOf pieces ↔ id ≠ [] ∧ id ∈ pieces.map trim := by
  induction pieces using List.reverseRecOn with
  | nil => simp [idsOf, firstOccurrences]
  | append_singleton pieces piece ih =>
    have hpieces : id ∈ (pieces ++ [piece]).map trim ↔
        id ∈ pieces.map trim ∨ id = trim piece := by
      simp only [List.map_append, List.map_singleton, List.mem_append, List.mem_singleton]
    rw [idsOf_concat, hpieces, and_or_left, ← ih]
    split
    · next hold =>
      refine ⟨.inl, ?_⟩
      rintro (hmem | ⟨hne, rfl⟩)
      · exact hmem
      · exact hold.resolve_left hne
    · next hnew =>
      rw [List.mem_append, List.mem_singleton]
      refine or_congr_right ⟨?_, And.right⟩
      rintro rfl
      exact ⟨fun hempty => hnew (.inl hempty), rfl⟩

/-- The ids stand in the order in which they come up first. -/
theorem pairwise_idsOf (pieces : List (List Char)) :
    (idsOf pieces).Pairwise fun id other =>
      (pieces.map trim).idxOf id < (pieces.map trim).idxOf other := by
  induction pieces using List.reverseRecOn with
  | nil => exact List.Pairwise.nil
  | append_singleton pieces piece ih =>
    have hold {id : List Char} (hmem : id ∈ idsOf pieces) :
        ((pieces ++ [piece]).map trim).idxOf id = (pieces.map trim).idxOf id := by
      rw [List.map_append, List.idxOf_append_of_mem (mem_idsOf_iff.1 hmem).2]
    have hearlier : (idsOf pieces).Pairwise fun id other =>
        ((pieces ++ [piece]).map trim).idxOf id < ((pieces ++ [piece]).map trim).idxOf other := by
      refine ih.imp_of_mem fun hid hother hlt => ?_
      rwa [hold hid, hold hother]
    rw [idsOf_concat]
    split
    · exact hearlier
    · next hnew =>
      rw [not_or] at hnew
      have habsent : trim piece ∉ pieces.map trim :=
        fun hmem => hnew.2 (mem_idsOf_iff.2 ⟨hnew.1, hmem⟩)
      have hlast : ((pieces ++ [piece]).map trim).idxOf (trim piece) = (pieces.map trim).length := by
        rw [List.map_append, List.idxOf_append_of_notMem habsent]
        simp
      refine List.pairwise_append.2 ⟨hearlier, List.pairwise_singleton _ _, ?_⟩
      rintro id hid other hother
      obtain rfl := List.mem_singleton.1 hother
      rw [hold hid, hlast]
      exact List.idxOf_lt_length_iff.2 (mem_idsOf_iff.1 hid).2

end Normal

/-! ## The lists with given ids -/

/-- `part` is `id` with nothing but blanks around it. -/
def IsPadded (id part : List Char) : Prop :=
  ∃ lead trail, allBlank lead = true ∧ allBlank trail = true ∧ part = lead ++ id ++ trail

/-- The parts between the commas of a list with the rule ids `ids`: the ids in order, and anywhere
between them blank parts and ids that are listed already. -/
inductive Lists : List (List Char) → List (List Char) → Prop where
  | nil : Lists [] []
  | first {ids parts id part} (front : Lists ids parts) (padded : IsPadded id part) :
      Lists (ids ++ [id]) (parts ++ [part])
  | again {ids parts id part} (front : Lists ids parts) (listed : id ∈ ids)
      (padded : IsPadded id part) : Lists ids (parts ++ [part])
  | blank {ids parts part} (front : Lists ids parts) (blank : allBlank part = true) :
      Lists ids (parts ++ [part])

/-- `text` is a list with the rule ids `ids`. -/
def Spells (ids : List (List Char)) (text : List Char) : Prop :=
  ∃ parts, Lists ids parts ∧ text = [','].intercalate parts

section Lists

variable {id part text : List Char} {ids parts : List (List Char)}

theorem isPadded_trim (part : List Char) : IsPadded (trim part) part :=
  exists_trim_parts part

theorem isPadded_self (id : List Char) : IsPadded id id :=
  ⟨[], [], rfl, rfl, by simp⟩

theorem IsPadded.trim_eq (h : IsPadded id part) (hid : IsRuleId id) : trim part = id := by
  obtain ⟨lead, trail, hlead, htrail, rfl⟩ := h
  rw [trim_append_of_allBlank hlead htrail, hid.trimmed]

theorem comma_not_mem_of_allBlank (h : allBlank text = true) : ',' ∉ text := by
  intro hmem
  exact absurd (List.all_eq_true.1 h ',' hmem) (by decide)

theorem IsPadded.no_comma (h : IsPadded id part) (hid : IsRuleId id) : ',' ∉ part := by
  obtain ⟨lead, trail, hlead, htrail, rfl⟩ := h
  simp only [List.mem_append, not_or]
  exact ⟨⟨comma_not_mem_of_allBlank hlead, hid.no_comma⟩, comma_not_mem_of_allBlank htrail⟩

/-- The commas of a list are those between its parts. -/
theorem Lists.no_comma (h : Lists ids parts) (hids : ∀ id ∈ ids, IsRuleId id) :
    ∀ part ∈ parts, ',' ∉ part := by
  induction h with
  | nil => simp
  | first front padded ih =>
    rw [List.forall_mem_append, List.forall_mem_singleton] at hids ⊢
    exact ⟨ih hids.1, padded.no_comma hids.2⟩
  | again front listed padded ih =>
    rw [List.forall_mem_append, List.forall_mem_singleton]
    exact ⟨ih hids, padded.no_comma (hids _ listed)⟩
  | blank front blank ih =>
    rw [List.forall_mem_append, List.forall_mem_singleton]
    exact ⟨ih hids, comma_not_mem_of_allBlank blank⟩

/-- The ids are read from the parts of a list. -/
theorem Lists.idsOf_eq (h : Lists ids parts) (hnodup : ids.Nodup)
    (hids : ∀ id ∈ ids, IsRuleId id) : idsOf parts = ids := by
  induction h with
  | nil => rfl
  | @first ids _ id _ front padded ih =>
    obtain ⟨hbefore, -, hnew⟩ := List.nodup_append.1 hnodup
    rw [List.forall_mem_append, List.forall_mem_singleton] at hids
    have hadded : ¬ (id = [] ∨ id ∈ ids) := by
      rintro (hempty | hlisted)
      · exact hids.2.ne_nil hempty
      · exact hnew id hlisted id (List.mem_singleton_self id) rfl
    rw [idsOf_concat, padded.trim_eq hids.2, ih hbefore hids.1, if_neg hadded]
  | again front listed padded ih =>
    rw [idsOf_concat, padded.trim_eq (hids _ listed), ih hnodup hids, if_pos (.inr listed)]
  | blank front blank ih =>
    rw [idsOf_concat, if_pos (.inl (trim_eq_nil_iff.2 blank)), ih hnodup hids]

/-- Any pieces are the parts of a list with the ids that they give. -/
theorem lists_idsOf (pieces : List (List Char)) : Lists (idsOf pieces) pieces := by
  induction pieces using List.reverseRecOn with
  | nil => exact .nil
  | append_singleton pieces piece ih =>
    rw [idsOf_concat]
    split
    · next hold =>
      rcases hold with hempty | hlisted
      · exact ih.blank (trim_eq_nil_iff.1 hempty)
      · exact ih.again hlisted (isPadded_trim piece)
    · exact ih.first (isPadded_trim piece)

/-- Padded ids are the parts of a list. -/
theorem lists_map {pad : List Char → List Char} (h : ∀ id, IsPadded id (pad id))
    (ids : List (List Char)) : Lists ids (ids.map pad) := by
  induction ids using List.reverseRecOn with
  | nil => exact .nil
  | append_singleton ids id ih =>
    rw [List.map_append, List.map_singleton]
    exact ih.first (h id)

end Lists

/-! ## The normal form -/

/-- What is read from a list are rule ids. -/
theorem isRuleId_of_mem_ruleIds {text id : List Char} (h : id ∈ ruleIds text) : IsRuleId id := by
  rw [ruleIds_eq_idsOf] at h
  obtain ⟨hne, hpieces⟩ := mem_idsOf_iff.1 h
  obtain ⟨piece, hpiece, rfl⟩ := List.mem_map.1 hpieces
  rw [← pieces_eq_splitOn] at hpiece
  exact ⟨hne, trim_trim piece,
    fun hcomma => not_mem_of_mem_pieces hpiece (mem_of_mem_trim hcomma)⟩

/-- A list is read as the ids that it spells. -/
theorem Spells.ruleIds_eq {ids : List (List Char)} {text : List Char} (h : Spells ids text)
    (hnodup : ids.Nodup) (hids : ∀ id ∈ ids, IsRuleId id) : ruleIds text = ids := by
  obtain ⟨parts, hlists, rfl⟩ := h
  rw [← hlists.idsOf_eq hnodup hids, ruleIds_eq_idsOf]
  by_cases hparts : parts = []
  · rw [hparts]
    decide
  · rw [List.splitOn_intercalate ',' (hlists.no_comma hids) hparts]

theorem spells_ruleIds (text : List Char) : Spells (ruleIds text) text :=
  ⟨text.splitOn ',', ruleIds_eq_idsOf text ▸ lists_idsOf _, (List.intercalate_splitOn ',').symm⟩

/-- Reading a list normalizes it.  The result has no repetitions, and its members are rule ids:
the trimmed pieces between the commas that are not empty, in the order in which they come up
first.  Distinct rule ids are the result for the lists that spell them, and for no other list, so
that reading the result again changes nothing. -/
theorem ruleIds_normalizes (text : List Char) :
    (ruleIds text).Nodup ∧
      (∀ id ∈ ruleIds text, IsRuleId id) ∧
      (∀ id, id ∈ ruleIds text ↔ id ≠ [] ∧ ∃ piece ∈ text.splitOn ',', trim piece = id) ∧
      ((ruleIds text).Pairwise fun id other =>
        ((text.splitOn ',').map trim).idxOf id < ((text.splitOn ',').map trim).idxOf other) ∧
      (∀ ids : List (List Char), ids.Nodup → (∀ id ∈ ids, IsRuleId id) →
        (Spells ids text ↔ ruleIds text = ids)) ∧
      ruleIds ([','].intercalate (ruleIds text)) = ruleIds text := by
  have hnodup : (ruleIds text).Nodup := ruleIds_eq_idsOf text ▸ nodup_idsOf _
  have hids : ∀ id ∈ ruleIds text, IsRuleId id := fun _ => isRuleId_of_mem_ruleIds
  refine ⟨hnodup, hids, ?_, ?_, ?_, ?_⟩
  · intro id
    rw [ruleIds_eq_idsOf, mem_idsOf_iff, List.mem_map]
  · rw [ruleIds_eq_idsOf]
    exact pairwise_idsOf _
  · intro ids hdistinct hrules
    constructor
    · intro hspells
      exact hspells.ruleIds_eq hdistinct hrules
    · rintro rfl
      exact spells_ruleIds text
  · have hjoined : Spells (ruleIds text) ([','].intercalate (ruleIds text)) :=
      ⟨(ruleIds text).map id, lists_map isPadded_self _, by rw [List.map_id]⟩
    exact hjoined.ruleIds_eq hnodup hids

/-- Blanks inside an id stay, and a repetition is recognized without the blanks around it. -/
example : ruleIds ", b  c ,a,\t,b c,  b  c,a ,".toList =
    ["b  c".toList, "a".toList, "b c".toList] := by
  decide

end LintDirectives.Directive
