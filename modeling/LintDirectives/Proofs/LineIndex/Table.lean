import LintDirectives.LineIndex
import LintDirectives.Proofs.Text.Boundary
import Mathlib.Data.List.TakeWhile

/-!
# The table of lines

An index looks up a line and measures from its start.  This module says that the
lookup makes no difference: the conversions measure the text from its beginning.

There are three groups.

* The lookup.  The line that is looked up is a line of the table, and it starts
  at or before the offset.
* Lines.  `StandsIn` says that the offsets of a line start measure the text
  before it.  Every line of the table satisfies it.
* The conversions.  `byteOffset?_ofChars` and `unitOffset_ofChars` state them
  without the table, and `offset?_position` says that a line and a column are
  another name for a UTF-16 offset.
-/

namespace LintDirectives.LineIndex

open Text

/-! ## The lookup -/

section Lookup

variable {α : Type} {p : α → Bool} {first : α} (later : List α)

/-- The last member of a list before the first one that fails `p` satisfies `p`. -/
theorem getLastD_takeWhile_cons (hfirst : p first = true) :
    (later.takeWhile p).getLastD first ∈ first :: later ∧
      p ((later.takeWhile p).getLastD first) = true := by
  rw [List.getLastD_eq_getLast?]
  cases hlast : (later.takeWhile p).getLast? with
  | none => exact ⟨List.mem_cons_self, hfirst⟩
  | some last =>
    have hmem := List.mem_of_getLast? hlast
    have hlater : last ∈ later := (List.takeWhile_sublist p).mem hmem
    exact ⟨List.mem_cons_of_mem first hlater, List.mem_takeWhile_imp hmem⟩

/-- It is found by the number of members before it. -/
theorem getElem?_length_takeWhile (p : α → Bool) (first : α) :
    (first :: later)[(later.takeWhile p).length]? = some ((later.takeWhile p).getLastD first) := by
  induction later generalizing first with
  | nil => rfl
  | cons next later ih =>
    cases hp : p next with
    | false => simp [hp]
    | true =>
      rw [List.takeWhile_cons, if_pos hp, List.length_cons, List.getElem?_cons_succ, ih next,
        List.getLastD_cons]

end Lookup

/-! ## Lines -/

/-- The line that starts at `start` is what `text` holds after the bytes and code units
before it. -/
def StandsIn (text : List Char) (start : LineStart) : Prop :=
  ∃ before, before ++ start.rest = text ∧ start.byte = byteLength before ∧
    start.unit = unitLength before

/-- The offsets of line starts continue those of the text before. -/
theorem standsIn_of_mem_lineStarts {before text : List Char} {start : LineStart}
    (h : start ∈ lineStarts (byteLength before) (unitLength before) text) :
    StandsIn (before ++ text) start := by
  induction text generalizing before with
  | nil => simp [lineStarts] at h
  | cons c cs ih =>
    have hbyte : byteLength before + c.utf8Size = byteLength (before ++ [c]) := by simp
    have hunit : unitLength before + Text.units c = unitLength (before ++ [c]) := by simp
    have htext : before ++ c :: cs = before ++ [c] ++ cs := by simp
    rw [lineStarts, hbyte, hunit] at h
    rw [htext]
    split at h
    · rcases List.mem_cons.1 h with rfl | h
      · exact ⟨before ++ [c], rfl, rfl, rfl⟩
      · exact ih h
    · exact ih h

theorem standsIn_of_mem_starts {text : List Char} {start : LineStart}
    (h : start ∈ (ofChars text).starts) : StandsIn text start := by
  rcases List.mem_cons.1 h with rfl | h
  · exact ⟨[], rfl, rfl, rfl⟩
  · have hbefore : start ∈ lineStarts (byteLength []) (unitLength []) text := h
    exact standsIn_of_mem_lineStarts hbefore

namespace StandsIn

variable {text : List Char} {start : LineStart}

/-- Measuring from the start of a line is measuring from the beginning of the text. -/
theorem byte_add_bytesWithin (h : StandsIn text start) {unit : Nat} (hle : start.unit ≤ unit) :
    start.byte + bytesWithin (unit - start.unit) start.rest = bytesWithin unit text := by
  obtain ⟨before, rfl, hbyte, hunit⟩ := h
  rw [hunit] at hle ⊢
  rw [hbyte, bytesWithin_append hle]

theorem unit_add_unitsWithin (h : StandsIn text start) {byte : Nat} (hle : start.byte ≤ byte) :
    start.unit + unitsWithin (byte - start.byte) start.rest = unitsWithin byte text := by
  obtain ⟨before, rfl, hbyte, hunit⟩ := h
  rw [hbyte] at hle ⊢
  rw [hunit, unitsWithin_append hle]

end StandsIn

/-! ## The conversions -/

/-- The line at a UTF-16 offset stands in the text, at or before the offset. -/
theorem lineAtUnit_ofChars (text : List Char) (unit : Nat) :
    StandsIn text ((ofChars text).lineAtUnit unit) ∧
      ((ofChars text).lineAtUnit unit).unit ≤ unit := by
  have hfirst : decide ((ofChars text).first.unit ≤ unit) = true :=
    decide_eq_true (Nat.zero_le unit)
  obtain ⟨hmem, hle⟩ := getLastD_takeWhile_cons (p := (·.unit ≤ unit)) (ofChars text).later hfirst
  exact ⟨standsIn_of_mem_starts hmem, of_decide_eq_true hle⟩

/-- The line at a byte offset stands in the text, at or before the offset. -/
theorem lineAtByte_ofChars (text : List Char) (byte : Nat) :
    StandsIn text ((ofChars text).lineAtByte byte) ∧
      ((ofChars text).lineAtByte byte).byte ≤ byte := by
  have hfirst : decide ((ofChars text).first.byte ≤ byte) = true :=
    decide_eq_true (Nat.zero_le byte)
  obtain ⟨hmem, hle⟩ := getLastD_takeWhile_cons (p := (·.byte ≤ byte)) (ofChars text).later hfirst
  exact ⟨standsIn_of_mem_starts hmem, of_decide_eq_true hle⟩

/-- The line at a UTF-16 offset stands in the table behind the lines that started before. -/
theorem getElem?_lineAtUnit (index : LineIndex) (unit : Nat) :
    index.starts[(index.later.takeWhile (·.unit ≤ unit)).length]? =
      some (index.lineAtUnit unit) :=
  getElem?_length_takeWhile index.later (·.unit ≤ unit) index.first

theorem getElem?_lineAtByte (index : LineIndex) (byte : Nat) :
    index.starts[(index.later.takeWhile (·.byte ≤ byte)).length]? =
      some (index.lineAtByte byte) :=
  getElem?_length_takeWhile index.later (·.byte ≤ byte) index.first

/-- A UTF-16 offset is converted by measuring the text from its beginning. -/
theorem byteOffset?_ofChars (text : List Char) (unit : Nat) :
    (ofChars text).byteOffset? unit =
      if unitLength text < unit then none else some (bytesWithin unit text) := by
  obtain ⟨hstands, hle⟩ := lineAtUnit_ofChars text unit
  rw [← hstands.byte_add_bytesWithin hle]
  rfl

/-- A byte offset is converted by measuring the text from its beginning. -/
theorem unitOffset_ofChars (text : List Char) (byte : Nat) :
    (ofChars text).unitOffset byte = unitsWithin byte text := by
  obtain ⟨hstands, hle⟩ := lineAtByte_ofChars text byte
  exact hstands.unit_add_unitsWithin hle

/-- The line and column of a byte offset name its UTF-16 offset. -/
theorem offset?_position (index : LineIndex) (byte : Nat) :
    index.offset? (index.position byte) = index.byteOffset? (index.unitOffset byte) := by
  have hline := getElem?_lineAtByte index byte
  rw [offset?, position, lineNumber]
  simp only [hline, Option.bind_some, Nat.add_sub_cancel, unitOffset]

end LintDirectives.LineIndex
