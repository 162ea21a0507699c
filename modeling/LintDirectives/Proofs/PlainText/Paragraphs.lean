import LintDirectives.Format
import LintDirectives.Proofs.Text.Boundary
import LintDirectives.Proofs.Text.Lines
import Mathlib.Data.List.DropRight
import Mathlib.Data.List.TakeWhile

/-!
# The paragraphs of a plain text

A plain text has one paragraph for every run of lines that are not blank and that
no further line of this kind stands next to (`parse_gives_maximal_runs`).

There are four groups.

* Runs.  `Run.IsMaximal` says what such a run is, and `isMaximal_append_iff` finds
  the runs of a text from the first one on.
* The text of a run.  It ends before the line feeds and carriage returns of its
  last line, and holds every character of the run that is not blank
  (`append_singleton_prefix_textOf`).
* Blocks.  The reader goes through the lines with their places.  It skips blank
  lines, and puts the lines of a run into one block (`blocks_append_of_blank`,
  `blocks_append_of_filled`).
* The tree.  `exists_runs` follows the reader from run to run.
-/

namespace LintDirectives.PlainText

open Text

/-! ## Runs -/

/-- Lines that stand together, with the lines in front of them and those behind them. -/
structure Run where
  before : List (List Char)
  lines : List (List Char)
  after : List (List Char)

namespace Run

/-- The run is a run of lines that are not blank, and no further such line stands next to it. -/
structure IsMaximal (all : List (List Char)) (run : Run) : Prop where
  parts : all = run.before ++ (run.lines ++ run.after)
  nonempty : run.lines ≠ []
  filled : ∀ line ∈ run.lines, allBlank line = false
  starts : ∀ line ∈ run.before.getLast?, allBlank line = true
  stops : ∀ line ∈ run.after.head?, allBlank line = true

/-- The run, with further lines in front of everything. -/
def behind (front : List (List Char)) (run : Run) : Run :=
  ⟨front ++ run.before, run.lines, run.after⟩

end Run

section Maximal

variable {gap front lines rest all : List (List Char)}

/-- Where a text goes on with a blank line or not at all, the lines before are determined. -/
theorem append_inj_of_filled {lines' rest' : List (List Char)}
    (hfilled : ∀ line ∈ lines, allBlank line = false)
    (hfilled' : ∀ line ∈ lines', allBlank line = false)
    (hrest : ∀ line ∈ rest.head?, allBlank line = true)
    (hrest' : ∀ line ∈ rest'.head?, allBlank line = true)
    (h : lines ++ rest = lines' ++ rest') : lines = lines' ∧ rest = rest' := by
  induction lines generalizing lines' with
  | nil =>
    cases lines' with
    | nil => exact ⟨rfl, h⟩
    | cons line lines' =>
      rw [List.nil_append] at h
      rw [h] at hrest
      have hblank := hrest line (by simp)
      rw [hfilled' line List.mem_cons_self] at hblank
      contradiction
  | cons line lines ih =>
    obtain ⟨hline, hlines⟩ := List.forall_mem_cons.1 hfilled
    cases lines' with
    | nil =>
      rw [List.nil_append] at h
      rw [← h] at hrest'
      have hblank := hrest' line (by simp)
      rw [hline] at hblank
      contradiction
    | cons line' lines' =>
      obtain ⟨rfl, htail⟩ := List.cons.inj h
      obtain ⟨rfl, rfl⟩ := ih hlines (List.forall_mem_cons.1 hfilled').2 htail
      exact ⟨rfl, rfl⟩

theorem not_blank_of_append_eq_cons {line : List Char} {more : List (List Char)} (hne : lines ≠ [])
    (hfilled : ∀ line ∈ lines, allBlank line = false) (h : lines ++ rest = line :: more) :
    allBlank line = false := by
  cases lines with
  | nil => contradiction
  | cons first lines =>
    obtain ⟨rfl, -⟩ := List.cons.inj h
    exact hfilled first List.mem_cons_self

/-- A run behind blank lines and behind whole lines is a run of the rest. -/
theorem Run.IsMaximal.eq_or_behind (hgap : ∀ line ∈ gap, allBlank line = true)
    (hfilled : ∀ line ∈ lines, allBlank line = false)
    (hrest : ∀ line ∈ rest.head?, allBlank line = true) {run : Run}
    (h : run.IsMaximal (gap ++ (lines ++ rest))) :
    run = ⟨gap, lines, rest⟩ ∨
      ∃ inner : Run, inner.IsMaximal rest ∧ run = inner.behind (gap ++ lines) := by
  obtain ⟨before, middle, after⟩ := run
  obtain ⟨hparts, hnonempty, hmiddle, hstarts, hstops⟩ := h
  dsimp only at hparts hnonempty hmiddle hstarts hstops
  rw [← List.append_assoc] at hparts
  rcases List.append_eq_append_iff.1 hparts with ⟨inner, rfl, hinner⟩ | ⟨left, hleft, hmore⟩
  · refine .inr ⟨⟨inner, middle, after⟩, ⟨hinner, hnonempty, hmiddle, ?_, hstops⟩, rfl⟩
    exact fun line hline => hstarts line (List.mem_getLast?_append_of_mem_getLast? hline)
  · left
    rcases List.append_eq_append_iff.1 hleft with ⟨begun, rfl, hlines⟩ | ⟨skipped, rfl, hskipped⟩
    · -- The run starts within the lines, and so with the first of them.
      rcases List.eq_nil_or_concat begun with rfl | ⟨_, last, rfl⟩
      · rw [List.nil_append] at hlines
        rw [← hlines] at hmore
        obtain ⟨rfl, rfl⟩ := append_inj_of_filled hmiddle hfilled hstops hrest hmore
        rw [List.append_nil]
      · have hblank := hstarts last (by simp)
        rw [hfilled last (by simp [hlines])] at hblank
        contradiction
    · -- The run starts within the gap, and so at its end.
      cases skipped with
      | nil =>
        rw [hskipped, List.nil_append] at hmore
        obtain ⟨rfl, rfl⟩ := append_inj_of_filled hmiddle hfilled hstops hrest hmore
        rw [List.append_nil]
      | cons line skipped =>
        rw [hskipped, List.cons_append, List.cons_append] at hmore
        have hline := not_blank_of_append_eq_cons hnonempty hmiddle hmore
        rw [hgap line (by simp)] at hline
        contradiction

/-- A run of the rest stays maximal, as the rest starts with a blank line. -/
theorem Run.IsMaximal.behind (front : List (List Char))
    (hrest : ∀ line ∈ rest.head?, allBlank line = true) {run : Run} (h : run.IsMaximal rest) :
    (run.behind front).IsMaximal (front ++ rest) := by
  obtain ⟨before, middle, after⟩ := run
  obtain ⟨hparts, hnonempty, hmiddle, hstarts, hstops⟩ := h
  dsimp only at hparts hstarts
  refine ⟨by simp [Run.behind, hparts], hnonempty, hmiddle, fun line hline => ?_, hstops⟩
  rcases List.eq_nil_or_concat before with rfl | ⟨_, last, rfl⟩
  · obtain ⟨first, more, hfirst⟩ := List.exists_cons_of_ne_nil hnonempty
    dsimp only at hfirst hmiddle
    have hblank := hrest first (by simp [hparts, hfirst])
    rw [hmiddle first (by simp [hfirst])] at hblank
    contradiction
  · refine hstarts line ?_
    simpa [Run.behind, ← List.append_assoc] using hline

/-- The first maximal run stands behind blank lines.  The others are those of the rest. -/
theorem isMaximal_append_iff (hgap : ∀ line ∈ gap, allBlank line = true) (hne : lines ≠ [])
    (hfilled : ∀ line ∈ lines, allBlank line = false)
    (hrest : ∀ line ∈ rest.head?, allBlank line = true) {run : Run} :
    run.IsMaximal (gap ++ (lines ++ rest)) ↔
      run = ⟨gap, lines, rest⟩ ∨
        ∃ inner : Run, inner.IsMaximal rest ∧ run = inner.behind (gap ++ lines) := by
  constructor
  · exact Run.IsMaximal.eq_or_behind hgap hfilled hrest
  · rintro (rfl | ⟨inner, hinner, rfl⟩)
    · exact ⟨rfl, hne, hfilled, fun line hline => hgap line (List.mem_of_getLast? hline), hrest⟩
    · rw [← List.append_assoc]
      exact hinner.behind (gap ++ lines) hrest

/-- A text without a line that is not blank has no run. -/
theorem not_isMaximal_of_blank (hgap : ∀ line ∈ gap, allBlank line = true) (run : Run) :
    ¬ run.IsMaximal gap := by
  rintro ⟨hparts, hnonempty, hfilled, -, -⟩
  obtain ⟨first, more, hfirst⟩ := List.exists_cons_of_ne_nil hnonempty
  have hblank := hgap first (by simp [hparts, hfirst])
  rw [hfilled first (by simp [hfirst])] at hblank
  contradiction

/-- The lines around a line that is not blank, as far as they are not blank, are a run. -/
theorem exists_isMaximal {line : List Char} (hline : allBlank line = false)
    (before after : List (List Char)) :
    ∃ front back run, before = run.before ++ front ∧ run.lines = front ++ line :: back ∧
      Run.IsMaximal (before ++ line :: after) run := by
  have hbefore : before.rdropWhile (!allBlank ·) ++ before.rtakeWhile (!allBlank ·) = before :=
    List.rdropWhile_append_rtakeWhile
  have hafter : after.takeWhile (!allBlank ·) ++ after.dropWhile (!allBlank ·) = after :=
    List.takeWhile_append_dropWhile
  refine ⟨before.rtakeWhile (!allBlank ·), after.takeWhile (!allBlank ·),
    ⟨before.rdropWhile (!allBlank ·),
      before.rtakeWhile (!allBlank ·) ++ line :: after.takeWhile (!allBlank ·),
      after.dropWhile (!allBlank ·)⟩, hbefore.symm, rfl, ?_, by simp, ?_, ?_, ?_⟩
  · conv_lhs => rw [← hbefore, ← hafter]
    simp only [List.append_assoc, List.cons_append]
  · intro other hother
    rcases List.mem_append.1 hother with hother | hother
    · simpa using List.mem_rtakeWhile_imp hother
    · rcases List.mem_cons.1 hother with rfl | hother
      · exact hline
      · simpa using List.mem_takeWhile_imp hother
  · intro last hlast
    obtain ⟨hne, rfl⟩ := List.mem_getLast?_eq_getLast hlast
    simpa using List.rdropWhile_last_not (!allBlank ·) before hne
  · intro first hfirst
    have hnot := List.head?_dropWhile_not (!allBlank ·) after
    rw [Option.mem_def.1 hfirst] at hnot
    simpa using hnot

end Maximal

/-! ## The text of a run -/

/-- A line feed or a carriage return. -/
def isReturn (c : Char) : Bool :=
  c = '\n' || c = '\r'

/-- The text of lines up to the line feeds and carriage returns at the end of the last one. -/
def textOf (lines : List (List Char)) : List Char :=
  lines.dropLast.flatten ++ (lines.getLastD []).rdropWhile isReturn

namespace Run

/-- The text from the first character of the first line to the end of the last line. -/
def text (run : Run) : List Char :=
  textOf run.lines

/-- The bytes of that text. -/
def span (run : Run) : Span :=
  ⟨byteLength run.before.flatten, byteLength run.before.flatten + byteLength run.text⟩

/-- The paragraph of a run. -/
def toNode (run : Run) : Node where
  kind := .paragraph
  span := run.span
  children := [{ kind := .str, span := run.span, value := some (String.ofList run.text) }]

end Run

section Text

variable {c : Char}

theorem isBlank_of_isReturn (h : isReturn c = true) : isBlank c = true := by
  simp only [isReturn, Bool.or_eq_true, decide_eq_true_eq] at h
  rcases h with rfl | rfl <;> rfl

/-- A character that is kept keeps what stands in front of it. -/
theorem prefix_rdropWhile {p : Char → Bool} (h : p c = false) (front back : List Char) :
    front ++ [c] <+: (front ++ c :: back).rdropWhile p := by
  induction back using List.reverseRecOn with
  | nil =>
    have hkept : (front ++ [c]).rdropWhile p = front ++ [c] :=
      List.rdropWhile_concat_neg _ _ _ (by simp [h])
    exact ⟨[], (List.append_nil _).trans hkept.symm⟩
  | append_singleton back d ih =>
    rw [← List.cons_append, ← List.append_assoc, List.rdropWhile_concat]
    split
    · exact ih
    · exact ⟨back ++ [d], by simp⟩

theorem textOf_concat (init : List (List Char)) (last : List Char) :
    textOf (init ++ [last]) = init.flatten ++ last.rdropWhile isReturn := by
  simp [textOf]

theorem prefix_textOf (lines : List (List Char)) : textOf lines <+: lines.flatten := by
  rcases List.eq_nil_or_concat lines with rfl | ⟨init, last, rfl⟩
  · exact List.prefix_rfl
  · have hkept : last.rdropWhile isReturn <+: last := List.rdropWhile_prefix isReturn last
    rw [List.concat_eq_append, textOf_concat, List.flatten_append, List.flatten_singleton]
    exact (List.prefix_append_right_inj _).2 hkept

/-- No character that is not blank is cut off, nor what stands in front of it. -/
theorem append_singleton_prefix_textOf (h : isBlank c = false) {lines : List (List Char)}
    {front back : List Char} (hlines : lines.flatten = front ++ c :: back) :
    front ++ [c] <+: textOf lines := by
  have hreturn : isReturn c = false := by
    by_contra hreturn
    rw [isBlank_of_isReturn (by simpa using hreturn)] at h
    contradiction
  rcases List.eq_nil_or_concat lines with rfl | ⟨init, last, rfl⟩
  · simp at hlines
  · rw [List.concat_eq_append, textOf_concat]
    rw [List.concat_eq_append, List.flatten_append, List.flatten_singleton] at hlines
    rcases List.append_eq_append_iff.1 hlines with ⟨begun, rfl, rfl⟩ | ⟨left, hinit, hleft⟩
    · rw [List.append_assoc]
      exact (List.prefix_append_right_inj _).2 (prefix_rdropWhile hreturn begun back)
    · cases left with
      | nil =>
        rw [List.nil_append] at hleft
        rw [hinit, List.append_nil, ← hleft]
        exact (List.prefix_append_right_inj _).2 (prefix_rdropWhile hreturn [] back)
      | cons d left =>
        obtain ⟨rfl, -⟩ := List.cons.inj hleft
        exact ⟨left ++ last.rdropWhile isReturn, by simp [hinit]⟩

/-- A line that is not blank has a character that is not. -/
theorem exists_not_blank {line : List Char} (h : allBlank line = false) :
    ∃ front c back, line = front ++ c :: back ∧ isBlank c = false := by
  obtain ⟨c, hc, hblank⟩ := List.all_eq_false.1 h
  obtain ⟨front, back, rfl⟩ := List.append_of_mem hc
  exact ⟨front, c, back, rfl, by simpa using hblank⟩

end Text

/-! ## Blocks -/

/-- A line is blank with its terminator as it is without. -/
theorem isBlank_eq (line : Line) : line.isBlank = allBlank line.text := by
  have hparts : line.text.rdropWhile isReturn ++ line.text.rtakeWhile isReturn = line.text :=
    List.rdropWhile_append_rtakeWhile
  have hreturns : allBlank (line.text.rtakeWhile isReturn) = true :=
    List.all_eq_true.2 fun c hc => isBlank_of_isReturn (List.mem_rtakeWhile_imp hc)
  have hcontent : line.content = line.text.rdropWhile isReturn := rfl
  rw [Line.isBlank, hcontent]
  conv_rhs => rw [← hparts, allBlank, List.all_append, ← allBlank, ← allBlank, hreturns,
    Bool.and_true]

theorem place_append (start : Nat) (xs ys : List (List Char)) :
    place start (xs ++ ys) = place start xs ++ place (start + byteLength xs.flatten) ys := by
  induction xs generalizing start with
  | nil => simp [place]
  | cons x xs ih => simp [place, ih, Nat.add_assoc]

theorem flatMap_text_place (start : Nat) (lines : List (List Char)) :
    (place start lines).flatMap Line.text = lines.flatten := by
  induction lines generalizing start with
  | nil => rfl
  | cons line lines ih => simp [place, ih]

theorem text_mem_of_mem_place {start : Nat} {lines : List (List Char)} {line : Line}
    (h : line ∈ place start lines) : line.text ∈ lines := by
  induction lines generalizing start with
  | nil => simp [place] at h
  | cons first lines ih =>
    rcases List.mem_cons.1 h with rfl | h
    · exact List.mem_cons_self
    · exact List.mem_cons_of_mem first (ih h)

theorem text_mem_of_mem_head?_place {start : Nat} {lines : List (List Char)} {line : Line}
    (h : line ∈ (place start lines).head?) : line.text ∈ lines.head? := by
  cases lines with
  | nil => cases h
  | cons first lines =>
    obtain rfl : ⟨start, first⟩ = line := Option.some.inj h
    rfl

/-- All lines of a text, in their places, have what their texts have. -/
theorem isBlank_of_mem_place {start : Nat} {lines : List (List Char)} {b : Bool}
    (h : ∀ line ∈ lines, allBlank line = b) : ∀ line ∈ place start lines, line.isBlank = b := by
  intro line hline
  rw [isBlank_eq]
  exact h line.text (text_mem_of_mem_place hline)

section Blocks

variable {gap lines rest : List Line}

theorem blocks_cons_of_blank {line : Line} (h : line.isBlank = true) (rest : List Line) :
    blocks (line :: rest) = blocks rest := by
  rw [blocks.eq_def]
  exact if_pos h

/-- A line that is followed by a blank line, or by none, is a block of its own. -/
theorem blocks_cons_of_alone {line : Line} (h : line.isBlank = false)
    (hrest : ∀ next ∈ rest.head?, next.isBlank = true) :
    blocks (line :: rest) = ⟨line, []⟩ :: blocks rest := by
  rw [blocks.eq_def]
  simp only [h, Bool.false_eq_true, if_false]
  split
  · next next tail block later hblocks =>
    rw [if_pos (hrest next rfl), hblocks]
  · rfl

theorem blocks_cons_of_block {line next : Line} {block : Block} {later : List Block}
    (h : line.isBlank = false) (hnext : next.isBlank = false)
    (hblocks : blocks (next :: rest) = block :: later) :
    blocks (line :: next :: rest) = ⟨line, block.lines⟩ :: later := by
  rw [blocks.eq_def]
  simp only [h, hblocks, hnext, Bool.false_eq_true, if_false]

/-- Blank lines are skipped. -/
theorem blocks_append_of_blank (h : ∀ line ∈ gap, line.isBlank = true) (rest : List Line) :
    blocks (gap ++ rest) = blocks rest := by
  induction gap with
  | nil => rfl
  | cons line gap ih =>
    obtain ⟨hline, hgap⟩ := List.forall_mem_cons.1 h
    rw [List.cons_append, blocks_cons_of_blank hline, ih hgap]

/-- Lines that are not blank are put together, up to the next blank line. -/
theorem blocks_append_of_filled {first : Line} {more : List Line}
    (h : ∀ line ∈ first :: more, line.isBlank = false)
    (hrest : ∀ line ∈ rest.head?, line.isBlank = true) :
    blocks (first :: more ++ rest) = ⟨first, more⟩ :: blocks rest := by
  induction more generalizing first with
  | nil => exact blocks_cons_of_alone (h first List.mem_cons_self) hrest
  | cons second more ih =>
    obtain ⟨hfirst, hmore⟩ := List.forall_mem_cons.1 h
    exact blocks_cons_of_block hfirst (hmore second List.mem_cons_self) (ih hmore)

/-- The paragraph of a block covers its lines up to the end of the last one. -/
theorem toNode_of_lines {block : Block} {start : Nat} {texts : List (List Char)}
    (h : block.lines = place start texts) :
    block.toNode =
      { kind := .paragraph
        span := ⟨start, start + byteLength (textOf texts)⟩
        children := [{ kind := .str
                       span := ⟨start, start + byteLength (textOf texts)⟩
                       value := some (String.ofList (textOf texts)) }] } := by
  obtain ⟨init, last, rfl⟩ : ∃ init last, texts = init ++ [last] := by
    rcases List.eq_nil_or_concat texts with rfl | ⟨init, last, rfl⟩
    · cases h
    · exact ⟨init, last, List.concat_eq_append⟩
  have hfirst : block.first.start = start := by
    have hhead := congrArg (fun lines => (lines.head?).map Line.start) h
    cases init <;> simpa [Block.lines, place] using hhead
  have hlines : block.lines =
      place start init ++ [⟨start + byteLength init.flatten, last⟩] := by
    rw [h, place_append]
    rfl
  have hlast : block.last = ⟨start + byteLength init.flatten, last⟩ := by
    have hgetLast : block.lines.getLastD block.first = block.last := List.getLastD_cons
    rw [← hgetLast, hlines, List.getLastD_concat]
  have hcontent : block.last.content = last.rdropWhile isReturn := by rw [hlast]; rfl
  have hspan : block.span = ⟨start, start + byteLength (textOf (init ++ [last]))⟩ := by
    rw [Block.span, hfirst, Line.stop, hcontent, hlast, textOf_concat, byteLength_append,
      Nat.add_assoc]
  have htext : block.text = textOf (init ++ [last]) := by
    rw [Block.text, hcontent, hlines, List.dropLast_concat, flatMap_text_place, textOf_concat]
  rw [Block.toNode, hspan, htext]

end Blocks

/-! ## The tree -/

/-- Lines are blank, or they start with a gap and a run. -/
theorem blank_or_exists_parts (all : List (List Char)) :
    (∀ line ∈ all, allBlank line = true) ∨
      ∃ gap lines rest, all = gap ++ (lines ++ rest) ∧ (∀ line ∈ gap, allBlank line = true) ∧
        lines ≠ [] ∧ (∀ line ∈ lines, allBlank line = false) ∧
        ∀ line ∈ rest.head?, allBlank line = true := by
  induction all with
  | nil => exact .inl (by simp)
  | cons first all ih =>
    cases hfirst : allBlank first with
    | true =>
      rcases ih with hblank | ⟨gap, lines, rest, rfl, hgap, hlines⟩
      · exact .inl (List.forall_mem_cons.2 ⟨hfirst, hblank⟩)
      · exact .inr ⟨first :: gap, lines, rest, rfl, List.forall_mem_cons.2 ⟨hfirst, hgap⟩, hlines⟩
    | false =>
      right
      obtain ⟨front, back, run, hfront, hrun, hmaximal⟩ := exists_isMaximal hfirst [] all
      obtain ⟨hbefore, rfl⟩ := List.append_eq_nil_iff.1 hfront.symm
      have hparts := hmaximal.parts
      rw [hbefore, List.nil_append] at hparts
      exact ⟨[], run.lines, run.after, hparts, by simp, hmaximal.nonempty, hmaximal.filled,
        hmaximal.stops⟩

/-- The block of the first run, and those of the rest. -/
theorem map_lines_blocks {gap lines rest : List (List Char)} (start : Nat)
    (hgap : ∀ line ∈ gap, allBlank line = true) (hne : lines ≠ [])
    (hlines : ∀ line ∈ lines, allBlank line = false)
    (hrest : ∀ line ∈ rest.head?, allBlank line = true) :
    (blocks (place start (gap ++ (lines ++ rest)))).map Block.lines =
      place (start + byteLength gap.flatten) lines ::
        (blocks (place (start + byteLength (gap ++ lines).flatten) rest)).map Block.lines := by
  obtain ⟨first, more, rfl⟩ := List.exists_cons_of_ne_nil hne
  have hfilled : ∀ line ∈ place (start + byteLength gap.flatten) (first :: more),
      line.isBlank = false := isBlank_of_mem_place hlines
  have hnext : ∀ line ∈ (place (start + byteLength (gap ++ first :: more).flatten) rest).head?,
      line.isBlank = true := fun line hline => by
    rw [isBlank_eq]
    exact hrest line.text (text_mem_of_mem_head?_place hline)
  rw [place_append, place_append, blocks_append_of_blank (isBlank_of_mem_place hgap),
    Nat.add_assoc, ← byteLength_append, ← List.flatten_append]
  rw [place] at hfilled ⊢
  rw [blocks_append_of_filled hfilled hnext]
  rfl

/-- The reader goes through the maximal runs, one after the other, and makes each of them a
block. -/
theorem exists_runs (all : List (List Char)) :
    ∃ runs : List Run, (∀ run, run ∈ runs ↔ run.IsMaximal all) ∧
      runs.Pairwise (fun run next => run.before.length + run.lines.length ≤ next.before.length) ∧
      ∀ start, (blocks (place start all)).map Block.lines =
        runs.map fun run => place (start + byteLength run.before.flatten) run.lines := by
  rcases blank_or_exists_parts all with hblank | ⟨gap, lines, rest, rfl, hgap, hne, hlines, hrest⟩
  · refine ⟨[], fun run => ?_, .nil, fun start => ?_⟩
    · simp [not_isMaximal_of_blank hblank run]
    · have hall : ∀ line ∈ place start all, line.isBlank = true := isBlank_of_mem_place hblank
      have hnone := blocks_append_of_blank hall []
      rw [List.append_nil] at hnone
      rw [hnone]
      rfl
  · obtain ⟨runs, hmem, hordered, hblocks⟩ := exists_runs rest
    refine ⟨⟨gap, lines, rest⟩ :: runs.map (Run.behind (gap ++ lines)), fun run => ?_, ?_,
      fun start => ?_⟩
    · rw [isMaximal_append_iff hgap hne hlines hrest, List.mem_cons, List.mem_map]
      simp only [hmem, eq_comm]
    · refine List.pairwise_cons.2 ⟨?_, List.pairwise_map.2 (hordered.imp ?_)⟩
      · intro next hnext
        obtain ⟨inner, -, rfl⟩ := List.mem_map.1 hnext
        simp only [Run.behind, List.length_append]
        omega
      · intro run next hle
        simp only [Run.behind, List.length_append]
        omega
    · rw [map_lines_blocks start hgap hne hlines hrest, hblocks, List.map_cons, List.map_map]
      simp [Function.comp_def, Run.behind, Nat.add_assoc]
termination_by all.length
decreasing_by
  subst all
  have := List.length_pos_iff.2 hne
  simp only [List.length_append]
  omega

/-! ## The spans of runs -/

section Spans

variable {source : List Char} {lines : List (List Char)} {run next : Run}

theorem Run.IsMaximal.flatten_eq (h : run.IsMaximal lines) :
    lines.flatten = run.before.flatten ++ (run.lines.flatten ++ run.after.flatten) := by
  rw [h.parts, List.flatten_append, List.flatten_append]

/-- The text of a run stands in the text behind the lines in front of the run. -/
theorem Run.IsMaximal.exists_rest (h : run.IsMaximal lines) :
    ∃ rest, lines.flatten = run.before.flatten ++ (run.text ++ rest) := by
  obtain ⟨rest, hrest⟩ := prefix_textOf run.lines
  exact ⟨rest ++ run.after.flatten, by rw [h.flatten_eq, ← hrest, Run.text, List.append_assoc]⟩

/-- A run has text, as its first line is not blank. -/
theorem Run.IsMaximal.start_lt_stop (h : run.IsMaximal lines) : run.span.start < run.span.stop := by
  obtain ⟨first, more, hfirst⟩ := List.exists_cons_of_ne_nil h.nonempty
  obtain ⟨front, c, back, hline, hc⟩ := exists_not_blank (h.filled first (by simp [hfirst]))
  have hlines : run.lines.flatten = front ++ c :: (back ++ more.flatten) := by
    simp [hfirst, hline]
  have htext : front ++ [c] <+: run.text := append_singleton_prefix_textOf hc hlines
  obtain ⟨rest, hrest⟩ := htext
  have hpos := c.utf8Size_pos
  rw [Run.span, ← hrest]
  simp only [byteLength_append, byteLength_cons, byteLength_nil]
  omega

/-- A run that comes later starts behind the text of an earlier one. -/
theorem Run.IsMaximal.stop_le_start (h : run.IsMaximal lines) (hnext : next.IsMaximal lines)
    (hle : run.before.length + run.lines.length ≤ next.before.length) :
    run.span.stop ≤ next.span.start := by
  have hfront : run.before ++ run.lines <+: lines :=
    ⟨run.after, by rw [h.parts, List.append_assoc]⟩
  have hbefore : next.before <+: lines := ⟨next.lines ++ next.after, hnext.parts.symm⟩
  obtain ⟨between, hbetween⟩ : run.before ++ run.lines <+: next.before :=
    List.prefix_of_prefix_length_le hfront hbefore (by simpa using hle)
  obtain ⟨rest, hrest⟩ := prefix_textOf run.lines
  have hsize := congrArg byteLength hrest
  rw [Run.span, Run.span, ← hbetween, Run.text]
  simp only [List.flatten_append, byteLength_append] at hsize ⊢
  omega

/-- A character of a text is a character of one of its lines. -/
theorem exists_line_of_flatten_eq {front back : List Char} {c : Char}
    (h : lines.flatten = front ++ c :: back) :
    ∃ before first last after, lines = before ++ (first ++ c :: last) :: after ∧
      front = before.flatten ++ first := by
  rcases List.flatten_eq_append_iff.1 h with
    ⟨before, rest, rfl, rfl, hrest⟩ | ⟨before, first, d, last, after, rfl, rfl, hrest⟩
  · obtain ⟨empty, last, after, rfl, hempty, -⟩ := List.flatten_eq_cons_iff.1 hrest.symm
    refine ⟨before ++ empty, [], last, after, by simp, ?_⟩
    rw [List.flatten_append, List.flatten_eq_nil_iff.2 hempty, List.append_nil, List.append_nil]
  · obtain ⟨rfl, -⟩ := List.cons.inj hrest
    exact ⟨before, first, last, after, rfl, rfl⟩

/-- What lies outside of all runs is blank. -/
theorem isBlank_of_forall_not_contains {front back : List Char} {c : Char} {byte : Nat}
    (hsource : lines.flatten = front ++ c :: back) (hlow : byteLength front ≤ byte)
    (hhigh : byte < byteLength front + c.utf8Size)
    (hout : ∀ run : Run, run.IsMaximal lines → run.span.contains byte = false) :
    isBlank c = true := by
  by_contra hblank
  rw [Bool.not_eq_true] at hblank
  -- The line of the character is not blank either, and so it is in a run.
  obtain ⟨before, first, last, after, rfl, rfl⟩ := exists_line_of_flatten_eq hsource
  have hline : allBlank (first ++ c :: last) = false :=
    List.all_eq_false.2 ⟨c, by simp, by simp [hblank]⟩
  obtain ⟨head, tail, run, rfl, hlines, hrun⟩ := exists_isMaximal hline before after
  have hflat : run.lines.flatten = (head.flatten ++ first) ++ c :: (last ++ tail.flatten) := by
    simp [hlines]
  have htext : (head.flatten ++ first) ++ [c] <+: run.text :=
    append_singleton_prefix_textOf hblank hflat
  obtain ⟨rest, hrest⟩ := htext
  have hinside : run.span.contains byte = true := by
    rw [Span.contains_eq_true, Run.span, ← hrest]
    simp only [List.flatten_append, byteLength_append, byteLength_cons, byteLength_nil]
      at hlow hhigh ⊢
    omega
  rw [hout run hrun] at hinside
  contradiction

end Spans

/-- Blocks and runs with the same lines are the same paragraphs. -/
theorem map_toNode_of_map_lines {found : List Block} {runs : List Run}
    (h : found.map Block.lines =
      runs.map fun run => place (0 + byteLength run.before.flatten) run.lines) :
    found.map Block.toNode = runs.map Run.toNode := by
  induction found generalizing runs with
  | nil =>
    rw [List.map_nil, eq_comm, List.map_eq_nil_iff] at h
    rw [h]
    rfl
  | cons block found ih =>
    cases runs with
    | nil => cases h
    | cons run runs =>
      obtain ⟨hlines, hfound⟩ := List.cons.inj h
      rw [List.map_cons, List.map_cons, ih hfound, toNode_of_lines hlines, Nat.zero_add]
      rfl

/-- The tree of a plain text covers the text, and its children are one paragraph for every maximal
run of lines that are not blank, in order.  A paragraph starts with its first line and ends
before the line feeds and carriage returns of its last one, and so does the one piece of text in
it, which is what stands there.  No paragraph is empty, none overlaps another, each lies between
characters, and what lies outside of them is blank.  Only a text that is too large is not read. -/
theorem parse_gives_maximal_runs (text : String) :
    let source := text.toList
    let tree := parse text
    (Format.plain.parse text =
      if Format.lastByte < text.utf8ByteSize then .error (.tooLarge text.utf8ByteSize)
      else .ok tree) ∧
    tree.kind = .document ∧ tree.span = ⟨0, byteLength source⟩ ∧ tree.value = none ∧
    ∃ lines, ∃ runs : List Run, IsCut source lines ∧ (∀ run, run ∈ runs ↔ run.IsMaximal lines) ∧
      runs.Pairwise (fun run next => run.before.length + run.lines.length ≤ next.before.length) ∧
      tree.children = runs.map Run.toNode ∧
      (∀ run ∈ runs, run.span.start < run.span.stop ∧
        IsBoundary source run.span.start ∧ IsBoundary source run.span.stop ∧
        slice? source run.span.start run.span.stop = some run.text) ∧
      tree.children.Pairwise (fun node next => node.span.stop ≤ next.span.start) ∧
      ∀ front c back byte, source = front ++ c :: back → byteLength front ≤ byte →
        byte < byteLength front + c.utf8Size →
        (∀ node ∈ tree.children, node.span.contains byte = false) → isBlank c = true := by
  intro source tree
  obtain ⟨runs, hmem, hordered, hblocks⟩ := exists_runs (chunks source)
  have hcut := isCut_chunks source
  have hchildren : tree.children = runs.map Run.toNode := map_toNode_of_map_lines (hblocks 0)
  refine ⟨rfl, rfl, rfl, rfl, chunks source, runs, hcut, hmem, hordered, hchildren,
    fun run hrun => ?_, ?_, fun front c back byte hsource hlow hhigh hout => ?_⟩
  · have hmaximal := (hmem run).1 hrun
    obtain ⟨rest, hrest⟩ := hmaximal.exists_rest
    rw [hcut.joined] at hrest
    refine ⟨hmaximal.start_lt_stop, ⟨run.before.flatten, ⟨run.text ++ rest, hrest.symm⟩, rfl⟩,
      ⟨run.before.flatten ++ run.text, ⟨rest, by rw [hrest, List.append_assoc]⟩,
        byteLength_append _ _⟩, ?_⟩
    rw [hrest]
    exact slice?_append run.before.flatten run.text rest
  · rw [hchildren]
    refine List.pairwise_map.2 (hordered.imp_of_mem fun hrun hnext hle => ?_)
    exact ((hmem _).1 hrun).stop_le_start ((hmem _).1 hnext) hle
  · rw [← hcut.joined] at hsource
    refine isBlank_of_forall_not_contains hsource hlow hhigh fun run hrun => ?_
    refine hout run.toNode ?_
    rw [hchildren]
    exact List.mem_map_of_mem ((hmem run).2 hrun)

example : (parse "a\nb\n\r\nc\n").children.map Node.span = [⟨0, 3⟩, ⟨6, 7⟩] := by decide +kernel

end LintDirectives.PlainText
