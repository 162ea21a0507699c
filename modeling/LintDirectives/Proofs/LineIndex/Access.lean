import LintDirectives.Proofs.LineIndex.Guarded
import LintDirectives.Proofs.Text.Lines

/-!
# Accesses in bounds

For a text of fewer than `2 ^ 32 - 1` bytes no guarded conversion ends in a fault, whatever it is
asked for, and each gives what the conversion of the index gives (`accesses_stay_in_bounds`).

There are five groups.

* Line starts.  `mem_starts_iff` says which places are line starts, and `pairwise_starts` that
  they stand in order.
* Building.  `upTo` are the tables at some place of the text.  A line leads from one place to the
  next (`enter_upTo`), so all lines together lead to the end (`build_eq`).
* What the tables hold.  `Describes` says it, and the tables at the end of the text satisfy it.
* Looking up.  The line that halving finds is the line of the index, in either table, and going
  back from a byte offset finds the boundary at or below it.
* The conversions, one after the other.
-/

namespace LintDirectives.LineIndex

open Text

/-! ## Line starts -/

section Starts

variable {text : List Char}

theorem mem_starts_iff {start : LineStart} :
    start ∈ (ofChars text).starts ↔
      ∃ before, before ++ start.rest = text ∧ IsLineStart before ∧
        start.byte = byteLength before ∧ start.unit = unitLength before := by
  constructor
  · intro h
    obtain ⟨n, hn⟩ := List.mem_iff_getElem?.1 h
    have hlength : (ofChars text).later.length = text.count '\n' := length_lineStarts 0 0 text
    have hlt := (List.getElem?_eq_some_iff.1 hn).1
    rw [starts, List.length_cons, hlength] at hlt
    obtain ⟨before, rest, rfl, rfl, hstart⟩ := exists_isLineStart (Nat.le_of_lt_succ hlt)
    rw [getElem?_starts hstart rest] at hn
    obtain rfl := Option.some.inj hn
    exact ⟨before, rfl, hstart, rfl, rfl⟩
  · rintro ⟨before, rfl, hstart, hbyte, hunit⟩
    have hfound := getElem?_starts hstart start.rest
    rw [← hbyte, ← hunit] at hfound
    exact List.mem_of_getElem? hfound

theorem StandsIn.byte_add_byteLength {start : LineStart} (h : StandsIn text start) :
    start.byte + byteLength start.rest = byteLength text := by
  obtain ⟨before, rfl, hbyte, -⟩ := h
  rw [hbyte, byteLength_append]

theorem StandsIn.unit_add_unitLength {start : LineStart} (h : StandsIn text start) :
    start.unit + unitLength start.rest = unitLength text := by
  obtain ⟨before, rfl, -, hunit⟩ := h
  rw [hunit, unitLength_append]

/-- Both offsets grow from line to line. -/
theorem pairwise_cons_lineStarts (byte unit : Nat) (rest text : List Char) :
    (⟨byte, unit, rest⟩ :: lineStarts byte unit text).Pairwise fun a b =>
      a.byte < b.byte ∧ a.unit < b.unit := by
  induction text generalizing byte unit rest with
  | nil => exact List.pairwise_singleton _ _
  | cons c cs ih =>
    have hlater := ih (byte + c.utf8Size) (unit + Text.units c) cs
    obtain ⟨hnext, hothers⟩ := List.pairwise_cons.1 hlater
    have hbyte : byte < byte + c.utf8Size := Nat.lt_add_of_pos_right c.utf8Size_pos
    have hunit : unit < unit + Text.units c := Nat.lt_add_of_pos_right (units_pos c)
    have hbehind : ∀ later ∈ lineStarts (byte + c.utf8Size) (unit + Text.units c) cs,
        byte < later.byte ∧ unit < later.unit := fun later hmem =>
      ⟨Nat.lt_trans hbyte (hnext later hmem).1, Nat.lt_trans hunit (hnext later hmem).2⟩
    rw [lineStarts]
    split
    · exact List.pairwise_cons.2 ⟨List.forall_mem_cons.2 ⟨⟨hbyte, hunit⟩, hbehind⟩, hlater⟩
    · exact List.pairwise_cons.2 ⟨hbehind, hothers⟩

theorem pairwise_starts (text : List Char) :
    (ofChars text).starts.Pairwise fun a b => a.byte < b.byte ∧ a.unit < b.unit :=
  pairwise_cons_lineStarts 0 0 text text

/-- In a line another line starts only behind its line feed. -/
theorem lineStarts_of_whole (byte unit : Nat) {line : List Char} (h : '\n' ∉ line.dropLast) :
    lineStarts byte unit line =
      if line.getLast? = some '\n' then
        [⟨byte + byteLength line, unit + unitLength line, []⟩] else [] := by
  rcases List.eq_nil_or_concat' line with rfl | ⟨front, c, rfl⟩
  · rfl
  · rw [List.dropLast_concat] at h
    have hfront : lineStarts byte unit front = [] := by
      refine List.eq_nil_of_length_eq_zero ?_
      rw [length_lineStarts, List.count_eq_zero.2 h]
    rw [lineStarts_append, hfront, List.getLast?_concat, byteLength_append, unitLength_append]
    simp [lineStarts, Nat.add_assoc]

end Starts

namespace Tables

/-! ## Building -/

/-- The tables of a text when `read` is what was read of it. -/
def upTo (text read : List Char) : Tables where
  text := text
  bytes := 0 :: (lineStarts 0 0 read).map (·.byte)
  units := 0 :: (lineStarts 0 0 read).map (·.unit)
  byte := byteLength read
  unit := unitLength read

@[simp] theorem text_upTo (text read : List Char) : (upTo text read).text = text := rfl

@[simp] theorem byte_upTo (text read : List Char) : (upTo text read).byte = byteLength read := rfl

@[simp] theorem unit_upTo (text read : List Char) : (upTo text read).unit = unitLength read := rfl

theorem bytes_upTo (text : List Char) :
    (upTo text text).bytes = (ofChars text).starts.map (·.byte) := rfl

theorem units_upTo (text : List Char) :
    (upTo text text).units = (ofChars text).starts.map (·.unit) := rfl

/-- A line that 32 bits can count leads from the place before it to the place behind it. -/
theorem enter_upTo (text : List Char) {read line : List Char} (hwhole : '\n' ∉ line.dropLast)
    (hfits : byteLength (read ++ line) ≤ Format.lastByte) :
    (upTo text read).enter line = .ok (upTo text (read ++ line)) := by
  have hunits := unitLength_le_lastByte hfits
  have hstarts := lineStarts_append 0 0 read line
  rw [Nat.zero_add, Nat.zero_add, lineStarts_of_whole _ _ hwhole] at hstarts
  rw [byteLength_append] at hfits
  rw [unitLength_append] at hunits
  rw [enter, word_of_le (by omega), ok_bind, byte_upTo, word_of_le hfits, ok_bind,
    countUnits_of_le (by omega), ok_bind, unit_upTo, word_of_le hunits, ok_bind]
  unfold upTo
  rw [hstarts]
  split
  · simp [pure, Except.pure]
  · simp [pure, Except.pure]

theorem foldlM_enter (text : List Char) {read : List Char} {lines : List (List Char)}
    (hwhole : ∀ line ∈ lines, '\n' ∉ line.dropLast)
    (hfits : byteLength (read ++ lines.flatten) ≤ Format.lastByte) :
    lines.foldlM enter (upTo text read) = .ok (upTo text (read ++ lines.flatten)) := by
  induction lines generalizing read with
  | nil => rw [List.flatten_nil, List.append_nil]; rfl
  | cons line lines ih =>
    obtain ⟨hfirst, hlater⟩ := List.forall_mem_cons.1 hwhole
    rw [List.flatten_cons, ← List.append_assoc] at hfits ⊢
    have hline : byteLength (read ++ line) ≤ Format.lastByte := by
      rw [byteLength_append] at hfits
      omega
    rw [List.foldlM_cons, enter_upTo text hfirst hline, ok_bind]
    exact ih hlater hfits

theorem build_eq {text : List Char} (h : byteLength text ≤ Format.lastByte) :
    build text = .ok (upTo text text) := by
  have hcut := isCut_chunks text
  have hfits : byteLength ([] ++ (chunks text).flatten) ≤ Format.lastByte := by
    rwa [List.nil_append, hcut.joined]
  have hall := foldlM_enter text hcut.whole hfits
  rwa [List.nil_append, hcut.joined] at hall

/-! ## What the tables hold -/

/-- The tables hold the line starts of `text`, in order, each measured from the beginning of the
text in both units. -/
structure Describes (tables : Tables) (text : List Char) : Prop where
  length_eq : tables.bytes.length = tables.units.length
  first_byte : tables.bytes[0]? = some 0
  first_unit : tables.units[0]? = some 0
  bytes_grow : tables.bytes.Pairwise (· < ·)
  units_grow : tables.units.Pairwise (· < ·)
  /-- A line starts at the beginning and behind every line feed, and nowhere else. -/
  mem_bytes_iff : ∀ byte, byte ∈ tables.bytes ↔
    byte = 0 ∨ ∃ before, before ++ ['\n'] <+: text ∧ byteLength (before ++ ['\n']) = byte
  isBoundary : ∀ byte ∈ tables.bytes, IsBoundary text byte
  measures : ∀ i byte unit : Nat, tables.bytes[i]? = some byte → tables.units[i]? = some unit →
    ∃ before, takeBytes? byte text = some before ∧ unitLength before = unit

theorem pairwise_bytes (text : List Char) :
    ((ofChars text).starts.map (·.byte)).Pairwise (· < ·) :=
  List.pairwise_map.2 ((pairwise_starts text).imp fun h => h.1)

theorem pairwise_units (text : List Char) :
    ((ofChars text).starts.map (·.unit)).Pairwise (· < ·) :=
  List.pairwise_map.2 ((pairwise_starts text).imp fun h => h.2)

theorem mem_bytes_upTo_iff {text : List Char} {byte : Nat} :
    byte ∈ (upTo text text).bytes ↔
      ∃ before, before <+: text ∧ IsLineStart before ∧ byteLength before = byte := by
  rw [bytes_upTo, List.mem_map]
  constructor
  · rintro ⟨start, hmem, rfl⟩
    obtain ⟨before, htext, hstart, hbyte, -⟩ := mem_starts_iff.1 hmem
    exact ⟨before, ⟨start.rest, htext⟩, hstart, hbyte.symm⟩
  · rintro ⟨before, ⟨rest, htext⟩, hstart, rfl⟩
    exact ⟨⟨byteLength before, unitLength before, rest⟩,
      mem_starts_iff.2 ⟨before, htext, hstart, rfl, rfl⟩, rfl⟩

theorem describes_upTo (text : List Char) : (upTo text text).Describes text where
  length_eq := by rw [bytes_upTo, units_upTo, List.length_map, List.length_map]
  first_byte := rfl
  first_unit := rfl
  bytes_grow := pairwise_bytes text
  units_grow := pairwise_units text
  mem_bytes_iff byte := by
    rw [mem_bytes_upTo_iff]
    constructor
    · rintro ⟨before, hbefore, hstart, rfl⟩
      rcases hstart.eq_nil_or_concat with rfl | ⟨front, rfl⟩
      · exact .inl rfl
      · exact .inr ⟨front, hbefore, rfl⟩
    · rintro (rfl | ⟨front, hfront, rfl⟩)
      · exact ⟨[], List.nil_prefix, by simp [IsLineStart], rfl⟩
      · exact ⟨front ++ ['\n'], hfront, by simp [IsLineStart], rfl⟩
  isBoundary byte hmem := by
    obtain ⟨before, hbefore, -, hbyte⟩ := mem_bytes_upTo_iff.1 hmem
    exact ⟨before, hbefore, hbyte⟩
  measures i byte unit hbyte hunit := by
    rw [bytes_upTo, List.getElem?_map, Option.map_eq_some_iff] at hbyte
    rw [units_upTo, List.getElem?_map] at hunit
    obtain ⟨start, hstart, rfl⟩ := hbyte
    rw [hstart, Option.map_some] at hunit
    obtain ⟨before, htext, hbyte, hunits⟩ := standsIn_of_mem_starts (List.mem_of_getElem? hstart)
    exact ⟨before, takeBytes?_eq_some_iff.2 ⟨⟨start.rest, htext⟩, hbyte.symm⟩,
      hunits.symm.trans (Option.some.inj hunit)⟩

/-! ## Looking up -/

section Lookup

variable {text : List Char}

/-- Halving finds the line that the index finds, by either offset. -/
theorem lastUpTo_map (index : LineIndex) (offset : LineStart → Nat) {place : Nat}
    (hgrow : (index.starts.map offset).Pairwise (· < ·)) (hfirst : offset index.first ≤ place) :
    lastUpTo (index.starts.map offset) place =
      .ok (index.later.takeWhile (offset · ≤ place)).length := by
  have hpartitioned : (index.starts.map offset).Pairwise fun a b =>
      decide (b ≤ place) = true → decide (a ≤ place) = true := by
    refine hgrow.imp fun hlt hb => ?_
    rw [decide_eq_true_eq] at hb ⊢
    omega
  have hcount : partitionPoint (· ≤ place) (index.starts.map offset) =
      (index.later.takeWhile (offset · ≤ place)).length + 1 := by
    rw [partitionPoint_eq hpartitioned, List.takeWhile_map, List.length_map, starts,
      List.takeWhile_cons, if_pos (by simpa using hfirst), List.length_cons]
    rfl
  rw [lastUpTo, hcount, difference, if_pos (Nat.le_add_left _ _), Nat.add_sub_cancel]

theorem lastUpTo_bytes (text : List Char) (byte : Nat) :
    lastUpTo (upTo text text).bytes byte =
      .ok ((ofChars text).later.takeWhile (·.byte ≤ byte)).length :=
  lastUpTo_map (ofChars text) (·.byte) (pairwise_bytes text) (Nat.zero_le byte)

theorem lastUpTo_units (text : List Char) (unit : Nat) :
    lastUpTo (upTo text text).units unit =
      .ok ((ofChars text).later.takeWhile (·.unit ≤ unit)).length :=
  lastUpTo_map (ofChars text) (·.unit) (pairwise_units text) (Nat.zero_le unit)

/-- A line of the index has its entry in both tables. -/
theorem entry_upTo {i : Nat} {start : LineStart} (h : (ofChars text).starts[i]? = some start) :
    entry (upTo text text).bytes i = .ok start.byte ∧
      entry (upTo text text).units i = .ok start.unit := by
  constructor
  · refine entry_of_getElem? ?_
    rw [bytes_upTo, List.getElem?_map, h, Option.map_some]
  · refine entry_of_getElem? ?_
    rw [units_upTo, List.getElem?_map, h, Option.map_some]

/-- Going back stops at the first boundary, and the beginning of a text is one. -/
theorem retreat_eq (text : List Char) (byte : Nat) :
    retreat text byte = .ok (floorBoundary text byte) := by
  induction byte with
  | zero =>
    have hstart : IsBoundary text 0 := ⟨[], List.nil_prefix, rfl⟩
    rw [retreat, if_pos hstart, Nat.le_zero.1 (floorBoundary_le text 0)]
  | succ byte ih =>
    have hfloor := isBoundary_floorBoundary text (byte + 1)
    have hle := floorBoundary_le text (byte + 1)
    rw [retreat]
    split
    · next hhere =>
      have hge := (le_floorBoundary_iff hhere (byte + 1)).2 (Nat.le_refl _)
      rw [Nat.le_antisymm hle hge]
    · next hnot =>
      have hne : floorBoundary text (byte + 1) ≠ byte + 1 := fun heq => hnot (heq ▸ hfloor)
      have hup : floorBoundary text byte ≤ floorBoundary text (byte + 1) :=
        (le_floorBoundary_iff (isBoundary_floorBoundary text byte) (byte + 1)).2
          (Nat.le_succ_of_le (floorBoundary_le text byte))
      have hdown : floorBoundary text (byte + 1) ≤ floorBoundary text byte :=
        (le_floorBoundary_iff hfloor byte).2 (by omega)
      rw [ih, Nat.le_antisymm hup hdown]

variable (h : byteLength text ≤ Format.lastByte)

include h

theorem locate_eq (byte : Nat) :
    (upTo text text).locate byte =
      .ok (((ofChars text).later.takeWhile (·.byte ≤ byte)).length, floorBoundary text byte) := by
  have hfits : floorBoundary text byte ≤ Format.lastByte :=
    (isBoundary_floorBoundary text byte).le_byteLength.trans h
  have hback : retreat (upTo text text).text
      (min byte (byteLength (upTo text text).text)) = .ok (floorBoundary text byte) :=
    (retreat_eq text _).trans (congrArg Except.ok (floorBoundary_min text byte))
  rw [locate, hback, ok_bind, word_of_le hfits, ok_bind, lastUpTo_bytes,
    takeWhile_byte_le_floorBoundary, ok_bind]
  rfl

/-- From the start of its line up to a byte offset there is a part of the text, of as many code
units as the index counts. -/
theorem exists_partBetween (byte : Nat) :
    ∃ part, partBetween text ((ofChars text).lineAtByte byte).byte (floorBoundary text byte) =
        .ok part ∧
      countUnits part = .ok (unitsWithin (byte - ((ofChars text).lineAtByte byte).byte)
        ((ofChars text).lineAtByte byte).rest) := by
  obtain ⟨line, hline⟩ : ∃ line, line = (ofChars text).lineAtByte byte := ⟨_, rfl⟩
  obtain ⟨⟨before, htext, hbyte, -⟩, hle⟩ := lineAtByte_ofChars text byte
  rw [← hline] at htext hbyte hle ⊢
  obtain ⟨part, hpart⟩ :
    ∃ part, part = startWithin Char.utf8Size (byte - line.byte) line.rest := ⟨_, rfl⟩
  have hfloor : floorBoundary text byte = byteLength before + byteLength part := by
    rw [hbyte, byteLength_eq_sum] at hle
    rw [floorBoundary, ← htext, startWithin_append Char.utf8Size hle, byteLength_append,
      ← byteLength_eq_sum, ← hbyte, hpart]
  obtain ⟨after, hrest⟩ := hpart ▸ isPrefix_startWithin Char.utf8Size (byte - line.byte) line.rest
  have hparts : before ++ (part ++ after) = text := by rw [hrest, htext]
  have hunits := unitLength_le_lastByte h
  rw [← hparts, unitLength_append, unitLength_append] at hunits
  refine ⟨part, partBetween_eq_ok_iff.2 ⟨before, after, hparts, hbyte.symm, hfloor.symm⟩, ?_⟩
  rw [countUnits_of_le (by omega), unitsWithin_eq, ← hpart]

end Lookup

/-! ## The conversions -/

section Conversions

variable {text : List Char}

theorem partFrom_of_standsIn {start : LineStart} (h : StandsIn text start) :
    partFrom text start.byte = .ok start.rest := by
  obtain ⟨before, htext, hbyte, -⟩ := h
  exact partFrom_eq_ok_iff.2 ⟨before, htext, hbyte.symm⟩

/-- The plain scan never has to count further than to the end of the text. -/
theorem scan_of_le (limit : Nat) {byte unit : Nat} {rest : List Char}
    (hbyte : byte + byteLength rest ≤ Format.lastByte)
    (hunit : unit + unitLength rest ≤ Format.lastByte) :
    scan limit byte unit rest = .ok (LineIndex.scan limit byte unit rest) := by
  induction rest generalizing byte unit with
  | nil => rfl
  | cons c cs ih =>
    rw [byteLength_cons] at hbyte
    rw [unitLength_cons] at hunit
    rw [scan, LineIndex.scan, word_of_le (by omega), ok_bind]
    split
    · rfl
    · rw [word_of_le (by omega), ok_bind, ih (by omega) (by omega)]

section Short

variable (h : byteLength text ≤ Format.lastByte)

include h

theorem byteOffset?_eq (unit : Nat) :
    (upTo text text).byteOffset? unit = .ok ((ofChars text).byteOffset? unit) := by
  obtain ⟨hbyte, hunit⟩ := entry_upTo (getElem?_lineAtUnit (ofChars text) unit)
  obtain ⟨hstands, hle⟩ := lineAtUnit_ofChars text unit
  have hends := hstands.byte_add_byteLength.trans_le h
  have hcounts := hstands.unit_add_unitLength.trans_le (unitLength_le_lastByte h)
  have htotal : (ofChars text).units = unitLength text := rfl
  rw [byteOffset?, LineIndex.byteOffset?, unit_upTo, htotal]
  split
  · rfl
  · rw [lastUpTo_units, ok_bind, hbyte, ok_bind, hunit, ok_bind, text_upTo,
      partFrom_of_standsIn hstands, ok_bind, scan_of_le unit hends hcounts, ok_bind, scan_eq hle]
    rfl

theorem unitOffset_eq (byte : Nat) :
    (upTo text text).unitOffset byte = .ok ((ofChars text).unitOffset byte) := by
  obtain ⟨hbyte, hunit⟩ := entry_upTo (getElem?_lineAtByte (ofChars text) byte)
  obtain ⟨part, hpart, hcount⟩ := exists_partBetween h byte
  have hfits : (ofChars text).unitOffset byte ≤ Format.lastByte := by
    rw [unitOffset_ofChars]
    exact (unitsWithin_le_unitLength byte text).trans (unitLength_le_lastByte h)
  rw [unitOffset, locate_eq h, ok_bind]
  dsimp only
  rw [hbyte, ok_bind, hunit, ok_bind, text_upTo, hpart, ok_bind, hcount, ok_bind]
  exact word_of_le hfits

/-- A line that the table lacks, or a UTF-16 offset that 32 bits cannot hold, is no place of the
index either. -/
theorem offset?_eq (position : Position) :
    (upTo text text).offset? position = .ok ((ofChars text).offset? position) := by
  obtain ⟨line, column⟩ := position
  cases line with
  | zero => rfl
  | succ line =>
    rw [offset?, LineIndex.offset?]
    dsimp only
    rw [units_upTo, List.getElem?_map]
    cases hstart : (ofChars text).starts[line]? with
    | none => rfl
    | some start =>
      rw [Option.map_some, Option.bind_some]
      dsimp only
      split
      · next hpast =>
        rw [byteOffset?_of_lt text ((unitLength_le_lastByte h).trans_lt hpast)]
      · exact byteOffset?_eq h (start.unit + (column - 1))

theorem position_eq {byte : Nat} (hline : ((ofChars text).position byte).line ≤ Format.lastByte)
    (hcolumn : ((ofChars text).position byte).column ≤ Format.lastByte) :
    (upTo text text).position byte = .ok ((ofChars text).position byte) := by
  obtain ⟨hbyte, -⟩ := entry_upTo (getElem?_lineAtByte (ofChars text) byte)
  obtain ⟨part, hpart, hcount⟩ := exists_partBetween h byte
  rw [LineIndex.position, lineNumber] at hline hcolumn
  dsimp only at hline hcolumn
  rw [position, locate_eq h, ok_bind]
  dsimp only
  rw [hbyte, ok_bind, text_upTo, hpart, ok_bind, hcount, ok_bind, word_of_le hcolumn, ok_bind,
    word_of_le hline, ok_bind]
  rfl

end Short

end Conversions

end Tables

/-- The tables of a text of fewer than `2 ^ 32 - 1` bytes can be built and hold its line starts.
Over them no conversion fails, whatever it is asked for: no number is too large for 32 bits, no
difference is below zero, no table is read past its end, and the text is cut at its boundaries
only.  The results are those of the index.  Going back from a byte offset ends within the text, at
the greatest boundary at or below the offset. -/
theorem accesses_stay_in_bounds (text : String) (h : text.utf8ByteSize < Format.lastByte) :
    let chars := text.toList
    let index := LineIndex.ofText text
    ∃ tables, Tables.build chars = .ok tables ∧ tables.Describes chars ∧
      tables.bytes = index.starts.map (·.byte) ∧ tables.units = index.starts.map (·.unit) ∧
      (∀ unit, tables.byteOffset? unit = .ok (index.byteOffset? unit)) ∧
      (∀ byte, tables.unitOffset byte = .ok (index.unitOffset byte)) ∧
      (∀ position, tables.offset? position = .ok (index.offset? position)) ∧
      (∀ byte, tables.position byte = .ok (index.position byte)) ∧
      ∀ byte, ∃ floor, Tables.retreat chars (min byte (byteLength chars)) = .ok floor ∧
        IsGreatest {boundary | IsBoundary chars boundary ∧ boundary ≤ min byte (byteLength chars)}
          floor := by
  intro chars index
  have hshort : byteLength chars < Format.lastByte := by rwa [← utf8ByteSize_eq]
  refine ⟨Tables.upTo chars chars, Tables.build_eq hshort.le, Tables.describes_upTo chars, rfl, rfl,
    Tables.byteOffset?_eq hshort.le, Tables.unitOffset_eq hshort.le, Tables.offset?_eq hshort.le,
    fun byte => ?_, fun byte => ?_⟩
  · obtain ⟨hline, hcolumn⟩ := position_le_lastByte hshort byte
    exact Tables.position_eq hshort.le hline hcolumn
  · have hback := Tables.retreat_eq chars (min byte (byteLength chars))
    rw [floorBoundary_min] at hback
    exact ⟨floorBoundary chars byte, hback, isGreatest_floorBoundary chars byte⟩

/-- The conversions of a short document end without a fault, also inside a character and behind
the end. -/
theorem shortDocument_stays_in_bounds :
    "a\n😀".utf8ByteSize < Format.lastByte ∧
      ∃ tables, Tables.build "a\n😀".toList = .ok tables ∧
        tables.byteOffset? 3 = .ok (some 2) ∧ tables.byteOffset? 5 = .ok none ∧
        tables.unitOffset 5 = .ok 2 ∧ tables.offset? ⟨2, 2⟩ = .ok (some 2) ∧
        tables.offset? ⟨2, Format.lastByte⟩ = .ok none ∧
        tables.position Format.lastByte = .ok ⟨2, 3⟩ := by
  have hshort : "a\n😀".utf8ByteSize < Format.lastByte := by decide +kernel
  obtain ⟨tables, hbuild, -, -, -, hbytes, hunits, hoffsets, hplaces, -⟩ :=
    accesses_stay_in_bounds "a\n😀" hshort
  refine ⟨hshort, tables, hbuild, ?_, ?_, ?_, ?_, ?_, ?_⟩
  · rw [hbytes]
    decide +kernel
  · rw [hbytes]
    decide +kernel
  · rw [hunits]
    decide +kernel
  · rw [hoffsets]
    decide +kernel
  · rw [hoffsets]
    decide +kernel
  · rw [hplaces]
    decide +kernel

end LintDirectives.LineIndex
