import LintDirectives.Proofs.LineIndex.Limits

/-!
# Guarded conversions

The conversions once more, down to the single steps that can go wrong: the line starts are two
tables of numbers, a line is looked up by halving a table, and the text is cut by byte offsets.
A step that cannot be taken ends the conversion in a `Fault`.

There are three groups.

* Guards.  Numbers of 32 bits, differences, entries of a table and parts of a text, each with the
  condition under which it is no fault.
* Halving.  `partitionPoint` counts the first entries of a table without looking at all of them.
  It is right for a table that is partitioned (`partitionPoint_eq`).
* Tables and conversions, over guarded steps only.
-/

namespace LintDirectives.LineIndex

open Text

/-! ## Guards -/

/-- Why a step cannot be taken. -/
inductive Fault where
  /-- 32 bits cannot hold the number. -/
  | tooLarge
  /-- The difference is below zero. -/
  | belowZero
  /-- The table has no such entry. -/
  | noEntry
  /-- The part of the text ends before it starts, reaches past the text, or cuts a character. -/
  | noPart
deriving DecidableEq, Repr

/-- The number, held in 32 bits. -/
def word (n : Nat) : Except Fault Nat :=
  if n ≤ Format.lastByte then .ok n else .error .tooLarge

/-- The difference of two numbers. -/
def difference (m n : Nat) : Except Fault Nat :=
  if n ≤ m then .ok (m - n) else .error .belowZero

/-- The entry at `i`. -/
def entry (table : List Nat) (i : Nat) : Except Fault Nat :=
  match table[i]? with
  | some value => .ok value
  | none => .error .noEntry

/-- The text from byte `start` on. -/
def partFrom (text : List Char) (start : Nat) : Except Fault (List Char) :=
  match dropBytes? start text with
  | some part => .ok part
  | none => .error .noPart

/-- The text from byte `start` up to byte `stop`. -/
def partBetween (text : List Char) (start stop : Nat) : Except Fault (List Char) :=
  match slice? text start stop with
  | some part => .ok part
  | none => .error .noPart

/-- The code units of a text, added up from the first character on. -/
def countUnits (text : List Char) : Except Fault Nat :=
  text.foldlM (fun count c => word (count + Text.units c)) 0

theorem ok_bind {α β : Type} (a : α) (next : α → Except Fault β) :
    (Except.ok a >>= next) = next a := rfl

theorem word_of_le {n : Nat} (h : n ≤ Format.lastByte) : word n = .ok n := if_pos h

theorem entry_of_getElem? {table : List Nat} {i value : Nat} (h : table[i]? = some value) :
    entry table i = .ok value := by
  rw [entry, h]

theorem partFrom_eq_ok_iff {text rest : List Char} {start : Nat} :
    partFrom text start = .ok rest ↔
      ∃ before, before ++ rest = text ∧ byteLength before = start := by
  rw [← dropBytes?_eq_some_iff, partFrom]
  cases dropBytes? start text <;> simp

theorem partBetween_eq_ok_iff {text part : List Char} {start stop : Nat} :
    partBetween text start stop = .ok part ↔
      ∃ before after, before ++ (part ++ after) = text ∧ byteLength before = start ∧
        byteLength before + byteLength part = stop := by
  rw [← slice?_eq_some_iff, partBetween]
  cases slice? text start stop <;> simp

/-- No part ends inside a character, past the text or before it starts. -/
example : partBetween ['a', 'é'] 0 2 = .error .noPart ∧ partBetween ['a', 'é'] 1 4 = .error .noPart ∧
    partBetween ['a', 'é'] 1 0 = .error .noPart ∧ partBetween ['a', 'é'] 1 3 = .ok ['é'] := by
  decide

/-- The sum is held in 32 bits all the way when it is so in the end. -/
theorem foldlM_word {text : List Char} {count : Nat}
    (h : count + unitLength text ≤ Format.lastByte) :
    text.foldlM (fun count c => word (count + Text.units c)) count =
      .ok (count + unitLength text) := by
  induction text generalizing count with
  | nil => rfl
  | cons c cs ih =>
    rw [unitLength_cons] at h
    rw [List.foldlM_cons, word_of_le (by omega), ok_bind, ih (by omega), unitLength_cons,
      Nat.add_assoc]

theorem countUnits_of_le {text : List Char} (h : unitLength text ≤ Format.lastByte) :
    countUnits text = .ok (unitLength text) := by
  rw [countUnits, foldlM_word (by omega), Nat.zero_add]

/-! ## Halving -/

/-- The number of entries at the beginning of `table` that satisfy `p`.  Half of the table is
left out by each look at an entry. -/
def partitionPoint (p : Nat → Bool) (table : List Nat) : Nat :=
  match hbehind : table.drop (table.length / 2) with
  | [] => 0
  | middle :: above =>
    if p middle then table.length / 2 + 1 + partitionPoint p above
    else partitionPoint p (table.take (table.length / 2))
termination_by table.length
decreasing_by
  · have hlength := congrArg List.length hbehind
    rw [List.length_drop, List.length_cons] at hlength
    omega
  · have hlength := congrArg List.length hbehind
    rw [List.length_drop, List.length_cons] at hlength
    rw [List.length_take]
    omega

/-- Halving finds the first entry that fails `p`, if none behind it satisfies `p`. -/
theorem partitionPoint_eq {p : Nat → Bool} {table : List Nat}
    (h : table.Pairwise fun a b => p b = true → p a = true) :
    partitionPoint p table = (table.takeWhile p).length := by
  fun_induction partitionPoint p table with
  | case1 table hbehind =>
    have hlength := congrArg List.length hbehind
    rw [List.length_drop, List.length_nil] at hlength
    obtain rfl : table = [] := List.eq_nil_of_length_eq_zero (by omega)
    rfl
  | case2 table middle above hbehind hmiddle ih =>
    have hparts : table.take (table.length / 2) ++ middle :: above = table := by
      rw [← hbehind, List.take_append_drop]
    have hfront : (table.take (table.length / 2)).length = table.length / 2 := by
      rw [List.length_take]
      omega
    rw [← hparts, List.pairwise_append, List.pairwise_cons] at h
    obtain ⟨-, ⟨-, habove⟩, hbelow⟩ := h
    -- What stands before an entry that satisfies `p` satisfies it too.
    have hall : ∀ a ∈ table.take (table.length / 2), p a = true := fun a ha =>
      hbelow a ha middle List.mem_cons_self hmiddle
    conv_rhs => rw [← hparts, List.takeWhile_append_of_pos hall, List.takeWhile_cons, if_pos hmiddle]
    rw [List.length_append, List.length_cons, hfront, ih habove]
    omega
  | case3 table middle above hbehind hmiddle ih =>
    have hparts : table.take (table.length / 2) ++ middle :: above = table := by
      rw [← hbehind, List.take_append_drop]
    rw [← hparts, List.pairwise_append] at h
    rw [ih h.1]
    conv_rhs => rw [← hparts, List.takeWhile_append, List.takeWhile_cons, if_neg hmiddle]
    split
    · next hwhole => rw [hwhole, List.append_nil]
    · rfl

/-- The number of the last entry that is not above `place`. -/
def lastUpTo (table : List Nat) (place : Nat) : Except Fault Nat :=
  difference (partitionPoint (· ≤ place) table) 1

/-! ## Tables and conversions -/

/-- The line starts of a text, while it is read line by line. -/
structure Tables where
  text : List Char
  /-- The byte offset of each line start. -/
  bytes : List Nat
  /-- The UTF-16 offset of each line start. -/
  units : List Nat
  /-- The byte offset of the place that is reached. -/
  byte : Nat
  /-- The UTF-16 offset of the place that is reached, in the end the length of the text. -/
  unit : Nat

namespace Tables

/-- Goes on by one line.  Another line starts behind it if it has a line feed. -/
def enter (tables : Tables) (line : List Char) : Except Fault Tables := do
  let length ← word (byteLength line)
  let byte ← word (tables.byte + length)
  let count ← countUnits line
  let unit ← word (tables.unit + count)
  if line.getLast? = some '\n' then
    return { tables with bytes := tables.bytes ++ [byte], units := tables.units ++ [unit], byte, unit }
  else return { tables with byte, unit }

/-- The tables of a text. -/
def build (text : List Char) : Except Fault Tables :=
  (chunks text).foldlM enter ⟨text, [0], [0], 0, 0⟩

/-- Goes back from byte `byte`, one byte at a time, to a boundary of the text. -/
def retreat (text : List Char) : Nat → Except Fault Nat
  | 0 => if IsBoundary text 0 then .ok 0 else .error .belowZero
  | byte + 1 => if IsBoundary text (byte + 1) then .ok (byte + 1) else retreat text byte

/-- The number, from zero, of the line of a byte offset, and the boundary at or below it. -/
def locate (tables : Tables) (byte : Nat) : Except Fault (Nat × Nat) := do
  let boundary ← retreat tables.text (min byte (byteLength tables.text))
  let place ← word boundary
  let line ← lastUpTo tables.bytes place
  return (line, place)

/-- Counts on from `byte` and `unit` and stops before the first character whose code units
would pass `limit`. -/
def scan (limit byte unit : Nat) : List Char → Except Fault Nat
  | [] => .ok byte
  | c :: cs => do
    let next ← word (unit + Text.units c)
    if limit < next then return byte
    else scan limit (← word (byte + c.utf8Size)) next cs

/-- The byte offset of a UTF-16 offset. -/
def byteOffset? (tables : Tables) (unit : Nat) : Except Fault (Option Nat) := do
  if tables.unit < unit then return none
  else
    let line ← lastUpTo tables.units unit
    let startByte ← entry tables.bytes line
    let startUnit ← entry tables.units line
    let rest ← partFrom tables.text startByte
    let byte ← scan unit startByte startUnit rest
    return some byte

/-- The UTF-16 offset of a byte offset. -/
def unitOffset (tables : Tables) (byte : Nat) : Except Fault Nat := do
  let (line, place) ← tables.locate byte
  let startByte ← entry tables.bytes line
  let startUnit ← entry tables.units line
  let part ← partBetween tables.text startByte place
  word (startUnit + (← countUnits part))

/-- The byte offset of a line and column.  A line that the table lacks and a UTF-16 offset that
is too large are not faults: there is no place. -/
def offset? (tables : Tables) (position : Position) : Except Fault (Option Nat) :=
  match position.line with
  | 0 => .ok none
  | line + 1 =>
    match tables.units[line]? with
    | none => .ok none
    | some start =>
      if Format.lastByte < start + (position.column - 1) then .ok none
      else tables.byteOffset? (start + (position.column - 1))

/-- The line and column of a byte offset. -/
def position (tables : Tables) (byte : Nat) : Except Fault Position := do
  let (line, place) ← tables.locate byte
  let startByte ← entry tables.bytes line
  let part ← partBetween tables.text startByte place
  let column ← word ((← countUnits part) + 1)
  let number ← word (line + 1)
  return ⟨number, column⟩

end Tables

end LintDirectives.LineIndex
