import LintDirectives.Text.Lines

/-!
# What the lines of a text are

`IsLines` says it without a scan: a line is followed by its terminator, a line
feed or a carriage return and a line feed, and only the last line may go without
one.  Every text has lines in this sense, and they are those that `lines` gives
(`isLines_iff`).

`IsCut` says the same of lines that keep their line feeds, and `chunks` gives those
(`isCut_chunks`).
-/

namespace LintDirectives.Text

/-- A text, cut into its lines. -/
inductive IsLines : List Char → List (List Char) → Prop where
  | nil : IsLines [] []
  /-- A last line that no terminator follows. -/
  | last {line : List Char} (hne : line ≠ []) (hline : '\n' ∉ line) : IsLines line [line]
  /-- A carriage return before the line feed would belong to the terminator. -/
  | lineFeed {line rest : List Char} {lines : List (List Char)} (hline : '\n' ∉ line)
      (hreturn : ¬ ['\r'] <:+ line) (hrest : IsLines rest lines) :
      IsLines (line ++ '\n' :: rest) (line :: lines)
  | returnFeed {line rest : List Char} {lines : List (List Char)} (hline : '\n' ∉ line)
      (hrest : IsLines rest lines) : IsLines (line ++ '\r' :: '\n' :: rest) (line :: lines)

/-! ## One line -/

theorem chunks_of_not_mem {line : List Char} (hne : line ≠ []) (h : '\n' ∉ line) :
    chunks line = [line] := by
  induction line with
  | nil => contradiction
  | cons c cs ih =>
    rw [List.mem_cons, not_or] at h
    rw [chunks, if_neg (Ne.symm h.1)]
    cases cs with
    | nil => rfl
    | cons d ds => rw [ih (List.cons_ne_nil d ds) h.2]

theorem chunks_append_cons {line : List Char} (h : '\n' ∉ line) (rest : List Char) :
    chunks (line ++ '\n' :: rest) = (line ++ ['\n']) :: chunks rest := by
  induction line with
  | nil => rfl
  | cons c cs ih =>
    rw [List.mem_cons, not_or] at h
    rw [List.cons_append, chunks, if_neg (Ne.symm h.1), ih h.2]
    rfl

theorem withoutTerminator_of_not_mem {line : List Char} (h : '\n' ∉ line) :
    withoutTerminator line = line := by
  rw [← List.mem_reverse] at h
  unfold withoutTerminator
  split
  · next heq => exact absurd (heq ▸ List.mem_cons_self) h
  · next heq => exact absurd (heq ▸ List.mem_cons_self) h
  · rfl

theorem withoutTerminator_returnFeed (line : List Char) :
    withoutTerminator (line ++ ['\r', '\n']) = line := by
  simp [withoutTerminator]

theorem withoutTerminator_lineFeed {line : List Char} (h : ¬ ['\r'] <:+ line) :
    withoutTerminator (line ++ ['\n']) = line := by
  have hreverse : (line ++ ['\n']).reverse = '\n' :: line.reverse := by simp
  unfold withoutTerminator
  rw [hreverse]
  split
  · next rest heq =>
    refine absurd ⟨rest.reverse, ?_⟩ h
    rw [← List.reverse_reverse line, (List.cons.inj heq).2, List.reverse_cons]
  · next rest _ heq => rw [← (List.cons.inj heq).2, List.reverse_reverse]
  · next hne => exact absurd rfl (hne line.reverse)

/-! ## All lines -/

theorem IsLines.lines_eq {text : List Char} {found : List (List Char)} (h : IsLines text found) :
    lines text = found := by
  induction h with
  | nil => rfl
  | last hne hline =>
    rw [lines, chunks_of_not_mem hne hline, List.map_singleton, withoutTerminator_of_not_mem hline]
  | lineFeed hline hreturn _ ih =>
    rw [lines, chunks_append_cons hline, List.map_cons, withoutTerminator_lineFeed hreturn]
    exact congrArg _ ih
  | @returnFeed line rest _ hline _ ih =>
    have hlonger : '\n' ∉ line ++ ['\r'] := by simp [hline]
    have htext : line ++ '\r' :: '\n' :: rest = (line ++ ['\r']) ++ '\n' :: rest := by simp
    rw [htext, lines, chunks_append_cons hlonger, List.map_cons, List.append_assoc,
      List.singleton_append, withoutTerminator_returnFeed]
    exact congrArg _ ih

/-- Every text has lines: what stands before its first line feed is one of them. -/
theorem exists_isLines (text : List Char) : ∃ found, IsLines text found := by
  by_cases hfeed : '\n' ∈ text
  · obtain ⟨line, rest, rfl, hline⟩ := List.eq_append_cons_of_mem hfeed
    obtain ⟨found, hfound⟩ := exists_isLines rest
    by_cases hreturn : ['\r'] <:+ line
    · obtain ⟨start, rfl⟩ := hreturn
      have hstart : '\n' ∉ start := fun hmem => hline (List.mem_append_left _ hmem)
      exact ⟨start :: found, by simpa using IsLines.returnFeed hstart hfound⟩
    · exact ⟨line :: found, .lineFeed hline hreturn hfound⟩
  · cases text with
    | nil => exact ⟨[], .nil⟩
    | cons c cs => exact ⟨[c :: cs], .last (List.cons_ne_nil c cs) hfeed⟩
termination_by text.length
decreasing_by
  subst text
  simp only [List.length_append, List.length_cons]
  omega

theorem isLines_iff {text : List Char} {found : List (List Char)} :
    IsLines text found ↔ lines text = found := by
  constructor
  · exact IsLines.lines_eq
  · rintro rfl
    obtain ⟨found, hfound⟩ := exists_isLines text
    rwa [hfound.lines_eq]

/-! ## Lines with their line feeds -/

/-- A text, cut behind every line feed. -/
structure IsCut (text : List Char) (lines : List (List Char)) : Prop where
  joined : lines.flatten = text
  nonempty : ∀ line ∈ lines, line ≠ []
  /-- A line feed ends its line. -/
  whole : ∀ line ∈ lines, '\n' ∉ line.dropLast
  /-- Only the last line may go without a line feed. -/
  ended : ∀ line ∈ lines.dropLast, line.getLast? = some '\n'

theorem isCut_nil : IsCut [] [] := by constructor <;> simp

/-- A line that ends in a line feed may stand in front of any others. -/
theorem IsCut.cons_lineFeed {text : List Char} {lines : List (List Char)} (h : IsCut text lines)
    {line : List Char} (hline : '\n' ∉ line) :
    IsCut (line ++ '\n' :: text) ((line ++ ['\n']) :: lines) where
  joined := by simp [h.joined]
  nonempty := List.forall_mem_cons.2 ⟨by simp, h.nonempty⟩
  whole := List.forall_mem_cons.2 ⟨by simpa using hline, h.whole⟩
  ended := by
    cases lines with
    | nil => simp
    | cons next lines =>
      rw [List.dropLast_cons_of_ne_nil (List.cons_ne_nil next lines)]
      exact List.forall_mem_cons.2 ⟨by simp, h.ended⟩

theorem isCut_chunks (text : List Char) : IsCut text (chunks text) := by
  by_cases hfeed : '\n' ∈ text
  · obtain ⟨line, rest, rfl, hline⟩ := List.eq_append_cons_of_mem hfeed
    rw [chunks_append_cons hline]
    exact (isCut_chunks rest).cons_lineFeed hline
  · cases text with
    | nil => exact isCut_nil
    | cons c cs =>
      rw [chunks_of_not_mem (List.cons_ne_nil c cs) hfeed]
      have hwhole : '\n' ∉ (c :: cs).dropLast := fun hmem =>
        hfeed (List.dropLast_subset _ hmem)
      constructor <;> simp [hwhole]
termination_by text.length
decreasing_by
  subst text
  simp only [List.length_append, List.length_cons]
  omega

end LintDirectives.Text
