import LintDirectives.Proofs.LineIndex.Conversion

/-!
# Lines and columns

The index counts lines by its table.  This module says what it counts: the line feeds
before a place, and the code units between the last of them and the place.

There are two groups.

* Starts of lines.  `IsLineStart` says where a line starts, without the table, and
  `getElem?_starts` finds the start of a line in the table.
* The place of a boundary.  `lineNumber_ofChars` and `position_ofChars` read line
  and column off the text before a boundary.
-/

namespace LintDirectives.LineIndex

open Text

/-! ## Starts of lines -/

/-- A line starts behind `before`: at the beginning of the text, or behind a line feed. -/
def IsLineStart (before : List Char) : Prop :=
  ∀ c ∈ before.getLast?, c = '\n'

instance (before : List Char) : Decidable (IsLineStart before) :=
  decidable_of_iff (before.getLast?.all (· = '\n') = true)
    (by simp only [IsLineStart, Option.all_eq_true, decide_eq_true_eq, Option.mem_def])

theorem IsLineStart.eq_nil_or_concat {before : List Char} (h : IsLineStart before) :
    before = [] ∨ ∃ front, before = front ++ ['\n'] := by
  rcases List.eq_nil_or_concat before with rfl | ⟨front, c, rfl⟩
  · exact .inl rfl
  · obtain rfl : c = '\n' := h c (by simp)
    exact .inr ⟨front, by simp⟩

/-- Every line feed up to the last one has a line behind it. -/
theorem exists_isLineStart {text : List Char} {n : Nat} (h : n ≤ text.count '\n') :
    ∃ before rest, text = before ++ rest ∧ before.count '\n' = n ∧ IsLineStart before := by
  induction text generalizing n with
  | nil => exact ⟨[], [], rfl, (Nat.le_zero.1 h).symm, by simp [IsLineStart]⟩
  | cons c cs ih =>
    cases n with
    | zero => exact ⟨[], c :: cs, rfl, rfl, by simp [IsLineStart]⟩
    | succ n =>
      by_cases hc : c = '\n'
      · subst hc
        rw [List.count_cons_self] at h
        obtain ⟨before, rest, rfl, hcount, hstart⟩ := ih (Nat.le_of_succ_le_succ h)
        refine ⟨'\n' :: before, rest, rfl, by rw [List.count_cons_self, hcount], ?_⟩
        cases before with
        | nil => simp [IsLineStart]
        | cons d ds => simpa [IsLineStart, List.getLast?_cons_cons] using hstart
      · rw [List.count_cons_of_ne hc] at h
        obtain ⟨before, rest, rfl, hcount, hstart⟩ := ih h
        refine ⟨c :: before, rest, rfl, by rw [List.count_cons_of_ne hc, hcount], ?_⟩
        cases before with
        | nil => cases hcount
        | cons d ds => simpa [IsLineStart, List.getLast?_cons_cons] using hstart

section Table

variable (byte unit : Nat)

theorem length_lineStarts (text : List Char) :
    (lineStarts byte unit text).length = text.count '\n' := by
  induction text generalizing byte unit with
  | nil => rfl
  | cons c cs ih =>
    rw [lineStarts]
    split
    · next hc => rw [List.length_cons, ih, hc, List.count_cons_self]
    · next hc => rw [ih, List.count_cons_of_ne hc]

/-- Lines start behind the place where the text stands and not behind its end. -/
theorem byte_of_mem_lineStarts {text : List Char} {start : LineStart}
    (h : start ∈ lineStarts byte unit text) :
    byte < start.byte ∧ start.byte ≤ byte + byteLength text := by
  induction text generalizing byte unit with
  | nil => simp [lineStarts] at h
  | cons c cs ih =>
    have hpos := c.utf8Size_pos
    rw [lineStarts] at h
    rw [byteLength_cons]
    split at h
    · rcases List.mem_cons.1 h with rfl | h
      · dsimp only
        omega
      · have := ih _ _ h
        omega
    · have := ih _ _ h
      omega

/-- The line starts of two texts are those of the first one, with more text behind them, and
those of the second one, which stands where the first one ends. -/
theorem lineStarts_append (xs ys : List Char) :
    lineStarts byte unit (xs ++ ys) =
      (lineStarts byte unit xs).map (fun start => { start with rest := start.rest ++ ys }) ++
        lineStarts (byte + byteLength xs) (unit + unitLength xs) ys := by
  induction xs generalizing byte unit with
  | nil => simp [lineStarts]
  | cons c cs ih =>
    rw [List.cons_append, lineStarts, lineStarts, ih, byteLength_cons, unitLength_cons,
      Nat.add_assoc, Nat.add_assoc]
    split
    · rfl
    · rfl

end Table

/-- The table at a boundary: the lines that start before it or at it, and those behind it. -/
theorem later_ofChars (before rest : List Char) :
    (ofChars (before ++ rest)).later =
      (lineStarts 0 0 before).map (fun start => { start with rest := start.rest ++ rest }) ++
        lineStarts (byteLength before) (unitLength before) rest := by
  rw [ofChars, lineStarts_append, Nat.zero_add, Nat.zero_add]

/-- The start of a line stands in the table at the number of line feeds before it. -/
theorem getElem?_starts {before : List Char} (h : IsLineStart before) (rest : List Char) :
    (ofChars (before ++ rest)).starts[before.count '\n']? =
      some ⟨byteLength before, unitLength before, rest⟩ := by
  rcases h.eq_nil_or_concat with rfl | ⟨front, rfl⟩
  · rfl
  · have hcount : (front ++ ['\n']).count '\n' = front.count '\n' + 1 := by simp
    rw [starts, hcount, List.getElem?_cons_succ, List.append_assoc, later_ofChars,
      List.getElem?_append_right (by simp [length_lineStarts])]
    simp [length_lineStarts, lineStarts]

/-! ## The place of a boundary -/

/-- Up to a boundary a line starts behind every line feed before the boundary. -/
theorem lineNumber_ofChars (before rest : List Char) :
    (ofChars (before ++ rest)).lineNumber (byteLength before) = before.count '\n' + 1 := by
  have hreached : ∀ start ∈ (lineStarts 0 0 before).map
      (fun start => { start with rest := start.rest ++ rest }),
      decide (start.byte ≤ byteLength before) = true := by
    intro start hstart
    obtain ⟨inner, hinner, rfl⟩ := List.mem_map.1 hstart
    have hle := (byte_of_mem_lineStarts 0 0 hinner).2
    rw [Nat.zero_add] at hle
    exact decide_eq_true hle
  have hahead : (lineStarts (byteLength before) (unitLength before) rest).takeWhile
      (·.byte ≤ byteLength before) = [] := by
    refine List.takeWhile_eq_nil_iff.2 fun hpos => ?_
    have hlt := (byte_of_mem_lineStarts _ _ (List.get_mem _ ⟨0, hpos⟩)).1
    simpa using hlt
  rw [lineNumber, later_ofChars, List.takeWhile_append_of_pos hreached, hahead,
    List.append_nil, List.length_map, length_lineStarts]

/-- The column of a boundary counts the code units from the start of its line. -/
theorem position_ofChars {before line : List Char} (hstart : IsLineStart before)
    (hline : '\n' ∉ line) (rest : List Char) :
    (ofChars (before ++ (line ++ rest))).position (byteLength (before ++ line)) =
      ⟨before.count '\n' + 1, unitLength line + 1⟩ := by
  obtain ⟨index, hindex⟩ : ∃ index, index = ofChars (before ++ (line ++ rest)) := ⟨_, rfl⟩
  have hnumber : index.lineNumber (byteLength (before ++ line)) = before.count '\n' + 1 := by
    rw [hindex, ← List.append_assoc, lineNumber_ofChars, List.count_append,
      List.count_eq_zero.2 hline, Nat.add_zero]
  -- The line that is looked up by the byte is the one with that number.
  have hfound : index.lineAtByte (byteLength (before ++ line)) =
      ⟨byteLength before, unitLength before, line ++ rest⟩ := by
    have hbyte := getElem?_lineAtByte index (byteLength (before ++ line))
    have hstarts := getElem?_starts hstart (line ++ rest)
    rw [← hindex, ← Nat.succ.inj hnumber] at hstarts
    exact Option.some.inj (hbyte.symm.trans hstarts)
  rw [← hindex, position, hnumber, hfound, byteLength_append, Nat.add_sub_cancel_left,
    unitsWithin_byteLength (List.prefix_append line rest)]

end LintDirectives.LineIndex
