import LintDirectives.Proofs.Text.Search

/-!
# What trimming leaves

A text is what trimming leaves of it between two blank texts (`exists_trim_parts`),
and blank texts around a text change nothing about that
(`trim_append_of_allBlank`).  The other statements follow from these two.
-/

namespace LintDirectives.Text

variable {lead trail text : List Char}

theorem trim_append_left (h : allBlank lead = true) (text : List Char) :
    trim (lead ++ text) = trim text := by
  induction lead with
  | nil => rfl
  | cons c cs ih =>
    simp only [allBlank, List.all_cons, Bool.and_eq_true] at h
    rw [List.cons_append, trim_cons h.1, ih h.2]

theorem trim_append_right (h : allBlank trail = true) (text : List Char) :
    trim (text ++ trail) = trim text := by
  induction trail generalizing text with
  | nil => rw [List.append_nil]
  | cons c cs ih =>
    simp only [allBlank, List.all_cons, Bool.and_eq_true] at h
    rw [List.append_cons, ih h.2, trim_append_singleton h.1]

/-- Blank texts on either side are trimmed away. -/
theorem trim_append_of_allBlank (hlead : allBlank lead = true) (htrail : allBlank trail = true)
    (text : List Char) : trim (lead ++ text ++ trail) = trim text := by
  rw [trim_append_right htrail, trim_append_left hlead]

/-- Trimming takes away blank texts and nothing else. -/
theorem exists_trim_parts (text : List Char) :
    ∃ lead trail, allBlank lead = true ∧ allBlank trail = true ∧
      text = lead ++ trim text ++ trail := by
  have hblank (part : List Char) : allBlank (part.takeWhile isBlank) = true :=
    List.all_takeWhile
  obtain ⟨trail, htrail⟩ : ∃ trail, trail = ((trimStart text).reverse.takeWhile isBlank).reverse :=
    ⟨_, rfl⟩
  have hend : trimStart text = trim text ++ trail := by
    rw [htrail, trim, trimEnd, ← List.reverse_append, List.takeWhile_append_dropWhile,
      List.reverse_reverse]
  refine ⟨text.takeWhile isBlank, trail, hblank text, ?_, ?_⟩
  · rw [htrail, allBlank, List.all_reverse]
    exact hblank _
  · rw [List.append_assoc, ← hend, trimStart, List.takeWhile_append_dropWhile]

theorem trim_trim (text : List Char) : trim (trim text) = trim text := by
  obtain ⟨lead, trail, hlead, htrail, htext⟩ := exists_trim_parts text
  rw [← trim_append_of_allBlank hlead htrail (trim text), ← htext]

/-- Nothing is left of a blank text, and of no other. -/
theorem trim_eq_nil_iff : trim text = [] ↔ allBlank text = true := by
  constructor
  · intro htrim
    obtain ⟨lead, trail, hlead, htrail, htext⟩ := exists_trim_parts text
    rw [htext, htrim, List.append_nil, allBlank, List.all_append, Bool.and_eq_true]
    exact ⟨hlead, htrail⟩
  · intro hblank
    rw [← List.append_nil text, trim_append_left hblank]
    rfl

/-- Trimming adds no character. -/
theorem mem_of_mem_trim {c : Char} (h : c ∈ trim text) : c ∈ text := by
  obtain ⟨lead, trail, -, -, htext⟩ := exists_trim_parts text
  rw [htext]
  exact List.mem_append_left _ (List.mem_append_right _ h)

end LintDirectives.Text
