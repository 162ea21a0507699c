import LintDirectives.Proofs.LineIndex.Table

/-!
# Converting between bytes and code units

A document is filtered in bytes and its diagnostics are reported in UTF-16 code
units.  This module says that nothing is decided differently because of that.

* `byteOffset?_agrees_with_units`: comparing a converted UTF-16 offset with the
  bounds of a range, in bytes, is comparing it with the converted bounds, in code
  units.
* `conversions_round_down`: a byte offset that is written as a UTF-16 offset, or
  as a line and a column, is read back as the character boundary at or below it.
-/

namespace LintDirectives.LineIndex

open Text

section Conversion

variable (text : List Char)

/-- A boundary is written as the code units of the text before it. -/
theorem unitOffset_of_isPrefix {before : List Char} (h : before <+: text) :
    (ofChars text).unitOffset (byteLength before) = unitLength before := by
  rw [unitOffset_ofChars, unitsWithin_byteLength h]

/-- A UTF-16 offset in the text is read as a boundary. -/
theorem byteOffset?_of_le {unit : Nat} (h : unit ≤ unitLength text) :
    (ofChars text).byteOffset? unit = some (bytesWithin unit text) := by
  rw [byteOffset?_ofChars, if_neg (Nat.not_lt.2 h)]

theorem byteOffset?_of_lt {unit : Nat} (h : unitLength text < unit) :
    (ofChars text).byteOffset? unit = none := by
  rw [byteOffset?_ofChars, if_pos h]

/-- A boundary is at or before the place that a UTF-16 offset is read as when its own UTF-16
offset is at or before that one. -/
theorem le_bytesWithin_iff {start : Nat} (h : IsBoundary text start) (unit : Nat) :
    start ≤ bytesWithin unit text ↔ (ofChars text).unitOffset start ≤ unit := by
  obtain ⟨before, hbefore, rfl⟩ := h
  rw [unitOffset_of_isPrefix text hbefore, byteLength_le_bytesWithin_iff hbefore]

/-- What a byte offset is written as is read back as the boundary at or below it. -/
theorem byteOffset?_unitOffset (byte : Nat) :
    (ofChars text).byteOffset? ((ofChars text).unitOffset byte) =
      some (floorBoundary text byte) := by
  rw [unitOffset_ofChars, byteOffset?_of_le text (unitsWithin_le_unitLength byte text),
    bytesWithin_unitsWithin]

end Conversion

/-- A UTF-16 offset in a text is read as a character boundary.  That boundary lies in a range
of bytes between two boundaries exactly when the UTF-16 offset lies between theirs, also when
it points into the middle of a character.  Past the end of the text there is no place. -/
theorem byteOffset?_agrees_with_units (text : String) :
    let chars := text.toList
    let index := LineIndex.ofText text
    (∀ unit ≤ unitLength chars, ∃ byte, index.byteOffset? unit = some byte ∧
      IsBoundary chars byte ∧
      (∀ start, IsBoundary chars start → (start ≤ byte ↔ index.unitOffset start ≤ unit)) ∧
      ∀ start stop, IsBoundary chars start → IsBoundary chars stop →
        (start ≤ byte ∧ byte < stop ↔
          index.unitOffset start ≤ unit ∧ unit < index.unitOffset stop)) ∧
    ∀ unit, unitLength chars < unit → index.byteOffset? unit = none := by
  intro chars index
  refine ⟨fun unit hunit => ?_, fun unit => byteOffset?_of_lt chars⟩
  have hcompare : ∀ start, IsBoundary chars start →
      (start ≤ bytesWithin unit chars ↔ index.unitOffset start ≤ unit) :=
    fun start hstart => le_bytesWithin_iff chars hstart unit
  refine ⟨bytesWithin unit chars, byteOffset?_of_le chars hunit,
    isBoundary_bytesWithin unit chars, hcompare, fun start stop hstart hstop => ?_⟩
  have hbefore := hcompare stop hstop
  rw [hcompare start hstart]
  omega

/-- The UTF-16 offset of a byte offset, and its line and column, are read back as the
greatest character boundary at or below it.  A byte offset past the end of the text counts
as the end. -/
theorem conversions_round_down (text : String) (byte : Nat) :
    let chars := text.toList
    let index := LineIndex.ofText text
    ∃ floor, IsGreatest
        {boundary | IsBoundary chars boundary ∧ boundary ≤ min byte (byteLength chars)} floor ∧
      index.byteOffset? (index.unitOffset byte) = some floor ∧
      index.offset? (index.position byte) = some floor := by
  intro chars index
  have hread : index.byteOffset? (index.unitOffset byte) = some (floorBoundary chars byte) :=
    byteOffset?_unitOffset chars byte
  exact ⟨floorBoundary chars byte, isGreatest_floorBoundary chars byte, hread,
    (offset?_position index byte).trans hread⟩

end LintDirectives.LineIndex
