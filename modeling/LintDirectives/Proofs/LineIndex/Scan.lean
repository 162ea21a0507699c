import LintDirectives.Proofs.LineIndex.Position
import Mathlib.Data.List.DropRight

/-!
# Counting from the beginning

The index spares a conversion the way from the beginning of the text.  The plain
conversions go that way: they count characters from the first one on, and know
no lines.  This module says that they come to the same places
(`conversions_count_from_start`).

* `scan` is the plain way to a UTF-16 offset.  From the start of a line it goes on
  as from the beginning (`scan_eq`).
* `lastLine` is what stands behind the last line feed.  A byte offset inside a
  character has the line and column of the boundary below it
  (`position_floorBoundary`), and those of a boundary are read off the text before
  it (`position_of_isPrefix`).
-/

namespace LintDirectives.LineIndex

open Text

/-! ## UTF-16 offsets -/

/-- Counts on from `byte` and `unit` and stops before the first character whose code units
would pass `limit`.  The byte offset of that place. -/
def scan (limit byte unit : Nat) : List Char → Nat
  | [] => byte
  | c :: cs =>
    if limit < unit + Text.units c then byte
    else scan limit (byte + c.utf8Size) (unit + Text.units c) cs

/-- A running count and a budget that shrinks are two ways to stop at one place. -/
theorem scan_eq {limit unit : Nat} (h : unit ≤ limit) (byte : Nat) (text : List Char) :
    scan limit byte unit text = byte + bytesWithin (limit - unit) text := by
  induction text generalizing byte unit with
  | nil => rfl
  | cons c cs ih =>
    rw [scan, bytesWithin]
    by_cases hpasses : limit < unit + Text.units c
    · rw [if_pos hpasses, if_neg (by omega), Nat.add_zero]
    · rw [if_neg hpasses, if_pos (by omega), ih (by omega), Nat.sub_add_eq, Nat.add_assoc]

/-! ## Lines and columns -/

theorem takeWhile_congr {α : Type} {p q : α → Bool} {as : List α} (h : ∀ a ∈ as, p a = q a) :
    as.takeWhile p = as.takeWhile q := by
  induction as with
  | nil => rfl
  | cons a as ih =>
    obtain ⟨hfirst, hrest⟩ := List.forall_mem_cons.1 h
    rw [List.takeWhile_cons, List.takeWhile_cons, hfirst, ih hrest]

/-- What stands behind the last line feed of a text. -/
def lastLine (text : List Char) : List Char :=
  text.rtakeWhile (· ≠ '\n')

theorem lineFeed_not_mem_lastLine (text : List Char) : '\n' ∉ lastLine text := fun hmem => by
  simpa using List.mem_rtakeWhile_imp hmem

/-- The last line of a text starts where a line starts. -/
theorem exists_isLineStart_lastLine (text : List Char) :
    ∃ before, text = before ++ lastLine text ∧ IsLineStart before := by
  refine ⟨text.rdropWhile (· ≠ '\n'), List.rdropWhile_append_rtakeWhile.symm, fun c hc => ?_⟩
  obtain ⟨hne, rfl⟩ := List.mem_getLast?_eq_getLast hc
  simpa using List.rdropWhile_last_not (· ≠ '\n') text hne

section Position

variable {text front : List Char}

/-- The line and column of a boundary count the line feeds before it and the code units behind
the last one of them. -/
theorem position_of_isPrefix (h : front <+: text) :
    (ofChars text).position (byteLength front) =
      ⟨1 + front.count '\n', 1 + unitLength (lastLine front)⟩ := by
  obtain ⟨rest, rfl⟩ := h
  obtain ⟨before, hfront, hstart⟩ := exists_isLineStart_lastLine front
  have hnone := lineFeed_not_mem_lastLine front
  have hcount : front.count '\n' = before.count '\n' := by
    conv_lhs => rw [hfront, List.count_append, List.count_eq_zero.2 hnone, Nat.add_zero]
  have hplace := position_ofChars hstart hnone rest
  rw [← List.append_assoc, ← hfront, ← hcount] at hplace
  rw [hplace, Nat.add_comm 1, Nat.add_comm 1]

/-- No line starts between a byte offset and the boundary at or below it. -/
theorem byte_le_floorBoundary_iff {start : LineStart} (h : StandsIn text start) (byte : Nat) :
    start.byte ≤ floorBoundary text byte ↔ start.byte ≤ byte := by
  obtain ⟨before, hparts, hbyte, -⟩ := h
  exact le_floorBoundary_iff ⟨before, ⟨start.rest, hparts⟩, hbyte.symm⟩ byte

theorem unitsWithin_floorBoundary (text : List Char) (byte : Nat) :
    unitsWithin (floorBoundary text byte) text = unitsWithin byte text := by
  have hstart := isPrefix_startWithin Char.utf8Size byte text
  rw [floorBoundary, unitsWithin_byteLength hstart, unitsWithin_eq]

/-- Inside a character the same lines have started as at its start. -/
theorem takeWhile_byte_le_floorBoundary (text : List Char) (byte : Nat) :
    (ofChars text).later.takeWhile (·.byte ≤ floorBoundary text byte) =
      (ofChars text).later.takeWhile (·.byte ≤ byte) := by
  refine takeWhile_congr fun start hstart => ?_
  have hstands := standsIn_of_mem_starts (List.mem_cons_of_mem _ hstart)
  exact decide_eq_decide.2 (byte_le_floorBoundary_iff hstands byte)

/-- Inside a character line and column are those of its start. -/
theorem position_floorBoundary (text : List Char) (byte : Nat) :
    (ofChars text).position (floorBoundary text byte) = (ofChars text).position byte := by
  have hreached := takeWhile_byte_le_floorBoundary text byte
  have hline : (ofChars text).lineAtByte (floorBoundary text byte) =
      (ofChars text).lineAtByte byte := by
    rw [lineAtByte, hreached, ← lineAtByte]
  -- The code units from the line start on are the same, as those from the beginning are.
  obtain ⟨hstands, hle⟩ := lineAtByte_ofChars text byte
  have hfloor := hstands.unit_add_unitsWithin ((byte_le_floorBoundary_iff hstands byte).2 hle)
  rw [unitsWithin_floorBoundary, ← hstands.unit_add_unitsWithin hle] at hfloor
  rw [position, position, lineNumber, hreached, hline, Nat.add_left_cancel hfloor, ← lineNumber]

/-- The line and column of any byte offset are read off the characters that fit before it. -/
theorem position_startWithin (text : List Char) (byte : Nat) :
    (ofChars text).position byte =
      ⟨1 + (startWithin Char.utf8Size byte text).count '\n',
        1 + unitLength (lastLine (startWithin Char.utf8Size byte text))⟩ :=
  (position_floorBoundary text byte).symm.trans
    (position_of_isPrefix (isPrefix_startWithin Char.utf8Size byte text))

end Position

/-- Looking up a line changes no conversion.  The byte offset of a UTF-16 offset is where a scan
from the first character stops.  The UTF-16 offset, line and column of a byte offset are counted
over the text in front of the greatest boundary at or below it. -/
theorem conversions_count_from_start (text : String) :
    let chars := text.toList
    let index := LineIndex.ofText text
    (∀ unit, index.byteOffset? unit =
      if unitLength chars < unit then none else some (scan unit 0 0 chars)) ∧
    ∀ byte, ∃ floor front,
      IsGreatest {boundary | IsBoundary chars boundary ∧ boundary ≤ min byte (byteLength chars)}
        floor ∧
      takeBytes? floor chars = some front ∧
      index.unitOffset byte = unitLength front ∧
      index.position byte = ⟨1 + front.count '\n', 1 + unitLength (lastLine front)⟩ := by
  intro chars index
  constructor
  · intro unit
    have hscan : scan unit 0 0 chars = bytesWithin unit chars := by
      rw [scan_eq (Nat.zero_le unit), Nat.zero_add, Nat.sub_zero]
    rw [hscan]
    exact byteOffset?_ofChars chars unit
  · intro byte
    have hfront := isPrefix_startWithin Char.utf8Size byte chars
    have htake : takeBytes? (floorBoundary chars byte) chars =
        some (startWithin Char.utf8Size byte chars) := by
      obtain ⟨rest, hrest⟩ := hfront
      have hcut := takeBytes?_append (startWithin Char.utf8Size byte chars) rest
      rwa [hrest] at hcut
    have hunits : index.unitOffset byte = unitLength (startWithin Char.utf8Size byte chars) :=
      (unitOffset_ofChars chars byte).trans (unitsWithin_eq byte chars)
    exact ⟨floorBoundary chars byte, startWithin Char.utf8Size byte chars,
      isGreatest_floorBoundary chars byte, htake, hunits, position_startWithin chars byte⟩

end LintDirectives.LineIndex
