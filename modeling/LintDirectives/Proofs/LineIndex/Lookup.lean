import LintDirectives.Proofs.LineIndex.Limits

/-!
# Looking up a line and a column

A diagnostic may name its place by a line and a column.  The column is counted on
from the start of the line, and nothing stops the count where the line ends.

There are three groups.

* Code units inside a character.  `IsInsidePair` names them, and
  `unitLength_startWithin` says that a count which ends at one falls short by one.
* Lines of a text.  `IsLineAt` says which characters a line has, without the
  table, and `exists_isLineAt_iff` which lines there are.
* The way back.  `offset?_of_isLineAt` says what a line and a column are read as,
  `offset?_eq_none_iff` when there is no such place, and
  `offset?_stays_on_line_iff` when the place is on the line that was named.
-/

namespace LintDirectives

/-! ## Code units inside a character -/

namespace Text

/-- The code unit at `unit` belongs to a character that starts before it. -/
def IsInsidePair (text : List Char) (unit : Nat) : Prop :=
  ∃ front c back, text = front ++ c :: back ∧
    unitLength front < unit ∧ unit < unitLength front + units c

theorem units_le_two (c : Char) : units c ≤ 2 := by
  unfold units
  split <;> decide

theorem not_isInsidePair_zero (text : List Char) : ¬ IsInsidePair text 0 :=
  fun ⟨_, _, _, _, hlow, _⟩ => Nat.not_lt_zero _ hlow

theorem isInsidePair_cons_of_le {c : Char} {text : List Char} {unit : Nat} (h : units c ≤ unit) :
    IsInsidePair (c :: text) unit ↔ IsInsidePair text (unit - units c) := by
  constructor
  · rintro ⟨front, d, back, htext, hlow, hhigh⟩
    cases front with
    | nil =>
      obtain ⟨rfl, -⟩ := List.cons.inj htext
      rw [unitLength_nil] at hhigh
      omega
    | cons e front =>
      obtain ⟨rfl, rfl⟩ := List.cons.inj htext
      rw [unitLength_cons] at hlow hhigh
      exact ⟨front, d, back, rfl, by omega, by omega⟩
  · rintro ⟨front, d, back, rfl, hlow, hhigh⟩
    exact ⟨c :: front, d, back, rfl, by rw [unitLength_cons]; omega,
      by rw [unitLength_cons]; omega⟩

/-- Of the code units of the first character only the first one is where a character starts. -/
theorem isInsidePair_cons_of_lt {c : Char} {text : List Char} {unit : Nat} (h : unit < units c) :
    IsInsidePair (c :: text) unit ↔ 0 < unit := by
  constructor
  · rintro ⟨front, d, back, -, hlow, -⟩
    exact Nat.zero_lt_of_lt hlow
  · intro hpos
    exact ⟨[], c, text, rfl, by simpa using hpos, by simpa using h⟩

/-- A place in the first part of a text is inside a character when it is so in that part. -/
theorem isInsidePair_append_iff {xs : List Char} {unit : Nat} (h : unit ≤ unitLength xs)
    (ys : List Char) : IsInsidePair (xs ++ ys) unit ↔ IsInsidePair xs unit := by
  induction xs generalizing unit with
  | nil =>
    obtain rfl : unit = 0 := Nat.le_zero.1 h
    exact iff_of_false (not_isInsidePair_zero _) (not_isInsidePair_zero _)
  | cons c cs ih =>
    rw [unitLength_cons] at h
    rcases Nat.lt_or_ge unit (units c) with hc | hc
    · rw [List.cons_append, isInsidePair_cons_of_lt hc, isInsidePair_cons_of_lt hc]
    · rw [List.cons_append, isInsidePair_cons_of_le hc, isInsidePair_cons_of_le hc,
        ih (by omega)]

/-- The longest start of a text that fits into a budget uses it up, but for one code unit where
the budget ends inside a character. -/
theorem unitLength_startWithin {text : List Char} {budget : Nat} (h : budget ≤ unitLength text) :
    (IsInsidePair text budget → unitLength (startWithin units budget text) + 1 = budget) ∧
      (¬ IsInsidePair text budget → unitLength (startWithin units budget text) = budget) := by
  induction text generalizing budget with
  | nil =>
    obtain rfl : budget = 0 := Nat.le_zero.1 h
    exact ⟨fun hinside => absurd hinside (not_isInsidePair_zero []), fun _ => rfl⟩
  | cons c cs ih =>
    rw [unitLength_cons] at h
    rw [startWithin]
    split
    · next hfits =>
      have hrest : budget - units c ≤ unitLength cs := by omega
      obtain ⟨hpair, hwhole⟩ := ih hrest
      rw [isInsidePair_cons_of_le hfits, unitLength_cons]
      refine ⟨fun hinside => ?_, fun hinside => ?_⟩
      · have := hpair hinside
        omega
      · have := hwhole hinside
        omega
    · next hfits =>
      have hsmall := units_le_two c
      rw [isInsidePair_cons_of_lt (Nat.lt_of_not_le hfits), unitLength_nil]
      omega

end Text

namespace LineIndex

open Text

/-! ## Lines of a text -/

/-- The line with the number `line` is `own`, its terminator included. -/
structure IsLineAt (text : List Char) (line : Nat) (before own after : List Char) : Prop where
  parts : text = before ++ (own ++ after)
  number : before.count '\n' + 1 = line
  starts : IsLineStart before
  /-- A line feed ends the line. -/
  stops : '\n' ∉ own.dropLast
  /-- A line without a line feed is the last one. -/
  last : '\n' ∉ own → after = []

/-- Every line of a text has characters of its own, up to its terminator. -/
theorem exists_isLineAt {text : List Char} {n : Nat} (h : n ≤ text.count '\n') :
    ∃ before own after, IsLineAt text (n + 1) before own after := by
  obtain ⟨before, rest, rfl, rfl, hstart⟩ := exists_isLineStart h
  by_cases hfeed : '\n' ∈ rest
  · obtain ⟨line, after, rfl, hline⟩ := List.eq_append_cons_of_mem hfeed
    exact ⟨before, line ++ ['\n'], after, by simp, rfl, hstart, by simpa using hline, by simp⟩
  · refine ⟨before, rest, [], by simp, rfl, hstart, fun hmem => ?_, fun _ => rfl⟩
    exact hfeed (List.dropLast_subset rest hmem)

/-- The lines are numbered from one, and there is one more of them than line feeds. -/
theorem exists_isLineAt_iff {text : List Char} {line : Nat} :
    (∃ before own after, IsLineAt text line before own after) ↔
      0 < line ∧ line ≤ text.count '\n' + 1 := by
  constructor
  · rintro ⟨before, own, after, rfl, rfl, -, -, -⟩
    rw [List.count_append]
    omega
  · rintro ⟨hpos, hle⟩
    obtain ⟨n, rfl⟩ := Nat.exists_eq_succ_of_ne_zero hpos.ne'
    exact exists_isLineAt (Nat.le_of_succ_le_succ hle)

/-! ## The way back -/

/-- The column is not in the line, and another line follows. -/
def RunsPast (own : List Char) (column : Nat) : Prop :=
  '\n' ∈ own ∧ unitLength own < max column 1

instance (own : List Char) (column : Nat) : Decidable (RunsPast own column) :=
  inferInstanceAs (Decidable (_ ∧ _))

section Back

variable {text before own after : List Char} {line column byte : Nat}

/-- A line and a column are read as the UTF-16 offset that is as far behind the start of the
line. -/
theorem offset?_of_isLineAt (h : IsLineAt text line before own after) (column : Nat) :
    (ofChars text).offset? ⟨line, column⟩ =
      (ofChars text).byteOffset? (unitLength before + (column - 1)) := by
  obtain ⟨rfl, rfl, hstart, -, -⟩ := h
  have hfound := getElem?_starts hstart (own ++ after)
  simp only [offset?, hfound, Option.bind_some]

/-- A line that is found in the table is a line of the text. -/
theorem exists_isLineAt_of_offset? (h : (ofChars text).offset? ⟨line, column⟩ = some byte) :
    ∃ before own after, IsLineAt text line before own after := by
  cases line with
  | zero => cases h
  | succ n =>
    refine exists_isLineAt (Nat.le_of_lt_succ ?_)
    obtain ⟨start, hstart, -⟩ := Option.bind_eq_some_iff.1 h
    have hlt := (List.getElem?_eq_some_iff.1 hstart).1
    have hlength : (ofChars text).later.length = text.count '\n' := length_lineStarts 0 0 text
    rwa [starts, List.length_cons, hlength] at hlt

/-- There is no place on a line that the text does not have, and none behind its end. -/
theorem offset?_eq_none_iff :
    (ofChars text).offset? ⟨line, column⟩ = none ↔
      line = 0 ∨ text.count '\n' + 1 < line ∨
        ∃ before own after, IsLineAt text line before own after ∧
          unitLength text < unitLength before + (column - 1) := by
  by_cases hlines : ∃ before own after, IsLineAt text line before own after
  · have hnumber := exists_isLineAt_iff.1 hlines
    rw [or_iff_right (by omega), or_iff_right (by omega)]
    constructor
    · intro hnone
      obtain ⟨before, own, after, hline⟩ := hlines
      refine ⟨before, own, after, hline, Nat.lt_of_not_le fun hle => ?_⟩
      rw [offset?_of_isLineAt hline, byteOffset?_of_le text hle] at hnone
      exact Option.some_ne_none _ hnone
    · rintro ⟨before, own, after, hline, hpast⟩
      rw [offset?_of_isLineAt hline, byteOffset?_of_lt text hpast]
  · have hnone : (ofChars text).offset? ⟨line, column⟩ = none :=
      Option.eq_none_iff_forall_ne_some.2 fun _ h => hlines (exists_isLineAt_of_offset? h)
    have hnumber := mt exists_isLineAt_iff.2 hlines
    exact iff_of_true hnone (by omega)

/-- There is a line feed in front of a column when the column runs past its line. -/
theorem mem_startWithin_iff (h : IsLineAt text line before own after) (column : Nat) :
    '\n' ∈ startWithin Text.units (column - 1) (own ++ after) ↔ RunsPast own column := by
  obtain ⟨-, -, -, hstops, hlast⟩ := h
  have hstart := isPrefix_startWithin Text.units (column - 1) (own ++ after)
  have hlength : unitLength own < max column 1 ↔ unitLength own ≤ column - 1 := by omega
  rw [RunsPast, hlength, unitLength_eq_sum,
    ← prefix_startWithin_iff Text.units (column - 1) (List.prefix_append own after)]
  constructor
  · intro hmem
    rcases List.prefix_or_prefix_of_prefix hstart (List.prefix_append own after) with hin | hout
    · refine ⟨hin.subset hmem, ?_⟩
      obtain ⟨tail, htail⟩ := hin
      cases tail with
      | nil => exact ⟨[], (List.append_nil _).trans (htail.symm.trans (List.append_nil _))⟩
      | cons c cs =>
        rw [← htail, List.dropLast_append_of_ne_nil (List.cons_ne_nil c cs)] at hstops
        exact absurd (List.mem_append_left _ hmem) hstops
    · refine ⟨by_contra fun hnone => ?_, hout⟩
      rw [hlast hnone, List.append_nil] at hmem hstart
      exact hnone (hstart.subset hmem)
  · rintro ⟨hmem, hwhole⟩
    exact hwhole.subset hmem

/-- The place that a line and a column are read as lies behind the line start and as much text
as fits before the column. -/
theorem eq_byteLength_of_offset? (h : IsLineAt text line before own after)
    (hoffset : (ofChars text).offset? ⟨line, column⟩ = some byte) :
    column - 1 ≤ unitLength (own ++ after) ∧
      byte = byteLength (before ++ startWithin Text.units (column - 1) (own ++ after)) := by
  rw [offset?_of_isLineAt h, byteOffset?_ofChars, h.parts, unitLength_append,
    bytesWithin_append (Nat.le_add_right _ _), Nat.add_sub_cancel_left, bytesWithin_eq,
    ← byteLength_append] at hoffset
  split at hoffset
  · cases hoffset
  · next hfits => exact ⟨by omega, (Option.some.inj hoffset).symm⟩

/-- The text in front of that place is a start of the whole text. -/
theorem IsLineAt.isPrefix (h : IsLineAt text line before own after) (column : Nat) :
    before ++ startWithin Text.units (column - 1) (own ++ after) <+: text := by
  rw [h.parts, List.prefix_append_right_inj]
  exact isPrefix_startWithin Text.units (column - 1) (own ++ after)

theorem le_lastByte_of_offset? (hbytes : byteLength text ≤ Format.lastByte)
    (hoffset : (ofChars text).offset? ⟨line, column⟩ = some byte) : byte ≤ Format.lastByte := by
  obtain ⟨before, own, after, hline⟩ := exists_isLineAt_of_offset? hoffset
  obtain ⟨-, rfl⟩ := eq_byteLength_of_offset? hline hoffset
  exact (le_lastByte_of_isPrefix hbytes (hline.isPrefix column)).1

/-- As many lines are passed on the way to that place as line feeds. -/
theorem line_of_offset? (h : IsLineAt text line before own after)
    (hoffset : (ofChars text).offset? ⟨line, column⟩ = some byte) :
    ((ofChars text).position byte).line =
      line + (startWithin Text.units (column - 1) (own ++ after)).count '\n' := by
  obtain ⟨-, rfl⟩ := eq_byteLength_of_offset? h hoffset
  obtain ⟨rest, htext⟩ := h.isPrefix column
  have hnumber := lineNumber_ofChars
    (before ++ startWithin Text.units (column - 1) (own ++ after)) rest
  rw [htext, List.count_append, Nat.add_right_comm, h.number] at hnumber
  exact hnumber

/-- Without a line feed on the way the place is on the line, as far behind its start. -/
theorem position_of_offset? (h : IsLineAt text line before own after)
    (hoffset : (ofChars text).offset? ⟨line, column⟩ = some byte)
    (hnone : '\n' ∉ startWithin Text.units (column - 1) (own ++ after)) :
    (ofChars text).position byte =
      ⟨line, unitLength (startWithin Text.units (column - 1) (own ++ after)) + 1⟩ := by
  obtain ⟨-, rfl⟩ := eq_byteLength_of_offset? h hoffset
  obtain ⟨rest, hrest⟩ := isPrefix_startWithin Text.units (column - 1) (own ++ after)
  have hplace := position_ofChars h.starts hnone rest
  rwa [hrest, ← h.parts, h.number] at hplace

/-- A column that stays on its line points at a character of the line. -/
theorem isInsidePair_own_iff (h : IsLineAt text line before own after)
    (hstays : ¬ RunsPast own column) :
    IsInsidePair (own ++ after) (column - 1) ↔ IsInsidePair own (column - 1) := by
  by_cases hfeed : '\n' ∈ own
  · have hshort : ¬ unitLength own < max column 1 := fun hlt => hstays ⟨hfeed, hlt⟩
    exact isInsidePair_append_iff (by omega) after
  · rw [h.last hfeed, List.append_nil]

end Back

/-- In a document of fewer than `2 ^ 32 - 1` bytes a line and a column are read as no place exactly
if there is no such line, or if the column lies behind the end of the document.  Otherwise they name
the UTF-16 offset that lies as far behind the start of the line, and 32 bits hold the place and what
it is written as.  The place is on that line exactly if the column does not run past the end of the
line to where other lines are, and then its column is the one that was named, or the one before
where that points into the middle of a character. -/
theorem offset?_stays_on_line_iff (text : String) (hsize : text.utf8ByteSize < Format.lastByte)
    (line column : Nat) :
    let chars := text.toList
    let index := ofText text
    (index.offset? ⟨line, column⟩ = none ↔
        line = 0 ∨ chars.count '\n' + 1 < line ∨
          ∃ before own after, IsLineAt chars line before own after ∧
            unitLength chars < unitLength before + (max column 1 - 1)) ∧
      ∀ byte, index.offset? ⟨line, column⟩ = some byte →
        (byte ≤ Format.lastByte ∧ (index.position byte).line ≤ Format.lastByte ∧
          (index.position byte).column ≤ Format.lastByte) ∧
        (∃ before own after, IsLineAt chars line before own after) ∧
        ∀ before own after, IsLineAt chars line before own after →
          index.byteOffset? (unitLength before + (max column 1 - 1)) = some byte ∧
          line ≤ (index.position byte).line ∧
          ((index.position byte).line = line ↔ ¬ RunsPast own column) ∧
          (¬ RunsPast own column → IsInsidePair own (max column 1 - 1) →
            index.position byte = ⟨line, max column 1 - 1⟩) ∧
          (¬ RunsPast own column → ¬ IsInsidePair own (max column 1 - 1) →
            index.position byte = ⟨line, max column 1⟩) := by
  intro chars index
  have hbytes : byteLength chars < Format.lastByte := by rwa [← utf8ByteSize_eq]
  have hcolumn : max column 1 - 1 = column - 1 := by omega
  rw [hcolumn]
  refine ⟨offset?_eq_none_iff, fun byte h =>
    ⟨⟨le_lastByte_of_offset? hbytes.le h, position_le_lastByte hbytes byte⟩,
      exists_isLineAt_of_offset? h, fun before own after hline => ?_⟩⟩
  have hpast := mem_startWithin_iff hline column
  have hnumber : (index.position byte).line = _ := line_of_offset? hline h
  obtain ⟨hfits, -⟩ := eq_byteLength_of_offset? hline h
  obtain ⟨hpair, hwhole⟩ := unitLength_startWithin hfits
  refine ⟨(offset?_of_isLineAt hline column).symm.trans h, ?_, ?_, fun hstays hinside => ?_,
    fun hstays hinside => ?_⟩
  · omega
  · rw [← hpast, hnumber, ← List.count_eq_zero]
    omega
  · rw [← isInsidePair_own_iff hline hstays] at hinside
    have hplace : index.position byte = _ := position_of_offset? hline h (mt hpast.1 hstays)
    rw [hplace, hpair hinside]
  · rw [← isInsidePair_own_iff hline hstays] at hinside
    have hplace : index.position byte = _ := position_of_offset? hline h (mt hpast.1 hstays)
    rw [hplace, hwhole hinside]
    congr 1
    omega

/-- In the second of three lines the third column is the second half of a character, and the sixth
one is already on the third line.  There is no fourth line, and no third column on the last one. -/
theorem offset?_inside_pair :
    "x\na😀b\nc".utf8ByteSize < Format.lastByte ∧
      (ofText "x\na😀b\nc").offset? ⟨2, 3⟩ = some 3 ∧
      (ofText "x\na😀b\nc").position 3 = ⟨2, 2⟩ ∧
      (ofText "x\na😀b\nc").offset? ⟨2, 6⟩ = some 9 ∧
      ((ofText "x\na😀b\nc").position 9).line ≠ 2 ∧
      (ofText "x\na😀b\nc").offset? ⟨4, 1⟩ = none ∧
      (ofText "x\na😀b\nc").offset? ⟨3, 3⟩ = none := by
  have hsize : "x\na😀b\nc".utf8ByteSize < Format.lastByte := by decide +kernel
  have hline : IsLineAt "x\na😀b\nc".toList 2 ['x', '\n'] ['a', '😀', 'b', '\n'] ['c'] :=
    ⟨by decide, by decide, by decide, by decide, by decide⟩
  have hlast : IsLineAt "x\na😀b\nc".toList 3 ['x', '\n', 'a', '😀', 'b', '\n'] ['c'] [] :=
    ⟨by decide, by decide, by decide, by decide, by decide⟩
  have hinside : (ofText "x\na😀b\nc").offset? ⟨2, 3⟩ = some 3 := by decide +kernel
  have houtside : (ofText "x\na😀b\nc").offset? ⟨2, 6⟩ = some 9 := by decide +kernel
  obtain ⟨-, -, hfirst⟩ := (offset?_stays_on_line_iff _ hsize 2 3).2 3 hinside
  obtain ⟨-, -, -, hpair, -⟩ := hfirst _ _ _ hline
  obtain ⟨-, -, hsecond⟩ := (offset?_stays_on_line_iff _ hsize 2 6).2 9 houtside
  obtain ⟨-, -, hstays, -, -⟩ := hsecond _ _ _ hline
  refine ⟨hsize, hinside, hpair (by decide) ⟨['a'], '😀', ['b', '\n'], rfl, by decide, by decide⟩,
    houtside, mt hstays.1 (by decide), ?_, ?_⟩
  · exact (offset?_stays_on_line_iff _ hsize 4 1).1.2 (.inr (.inl (by decide)))
  · exact (offset?_stays_on_line_iff _ hsize 3 3).1.2 (.inr (.inr ⟨_, _, _, hlast, by decide⟩))

/-- A column that runs past its line is read as a place on a later one. -/
theorem offset?_leaves_line :
    (ofText "abc\ndef").offset? ⟨1, 6⟩ = some 5 ∧ (ofText "abc\ndef").position 5 = ⟨2, 2⟩ ∧
      ¬ ∀ (text : String) (line column byte : Nat), text.utf8ByteSize < Format.lastByte →
        (ofText text).offset? ⟨line, column⟩ = some byte →
          (ofText text).position byte = ⟨line, max column 1⟩ ∨
            (ofText text).position byte = ⟨line, max column 1 - 1⟩ := by
  have hsize : "abc\ndef".utf8ByteSize < Format.lastByte := by decide +kernel
  have hoffset : (ofText "abc\ndef").offset? ⟨1, 6⟩ = some 5 := by decide +kernel
  refine ⟨hoffset, by decide +kernel, fun hall => ?_⟩
  exact absurd (hall _ _ _ _ hsize hoffset) (by decide +kernel)

end LineIndex

end LintDirectives
