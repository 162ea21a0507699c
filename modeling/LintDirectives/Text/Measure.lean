/-!
# Measuring text

A document is addressed in two units: the tree uses bytes of UTF-8, diagnostics
use code units of UTF-16.  This module measures characters and texts in both and
cuts a text at byte offsets.

A cut exists only where the offset lies on a character boundary: `dropBytes?`
and `takeBytes?` say `none` inside a character and past the end.
-/

namespace LintDirectives.Text

/-- The UTF-16 code units of a character: two beyond the basic plane. -/
def units (c : Char) : Nat :=
  if c.toNat < 0x10000 then 1 else 2

/-- The bytes of a text in UTF-8. -/
def byteLength : List Char → Nat
  | [] => 0
  | c :: cs => c.utf8Size + byteLength cs

/-- The code units of a text in UTF-16. -/
def unitLength : List Char → Nat
  | [] => 0
  | c :: cs => units c + unitLength cs

theorem units_pos (c : Char) : 0 < units c := by
  unfold units; split <;> decide

theorem units_le_utf8Size (c : Char) : units c ≤ c.utf8Size := by
  unfold units Char.utf8Size
  have hv : c.toNat = c.val.toNat := rfl
  simp only [UInt32.le_iff_toNat_le, hv]
  have h1 : (0x7f : UInt32).toNat = 0x7f := rfl
  have h2 : (0x7ff : UInt32).toNat = 0x7ff := rfl
  have h3 : (0xffff : UInt32).toNat = 0xffff := rfl
  grind

@[simp] theorem byteLength_nil : byteLength [] = 0 := rfl

@[simp] theorem byteLength_cons (c : Char) (cs : List Char) :
    byteLength (c :: cs) = c.utf8Size + byteLength cs := rfl

@[simp] theorem byteLength_append (xs ys : List Char) :
    byteLength (xs ++ ys) = byteLength xs + byteLength ys := by
  induction xs with
  | nil => simp
  | cons c cs ih => simp [ih, Nat.add_assoc]

@[simp] theorem unitLength_nil : unitLength [] = 0 := rfl

@[simp] theorem unitLength_cons (c : Char) (cs : List Char) :
    unitLength (c :: cs) = units c + unitLength cs := rfl

@[simp] theorem unitLength_append (xs ys : List Char) :
    unitLength (xs ++ ys) = unitLength xs + unitLength ys := by
  induction xs with
  | nil => simp
  | cons c cs ih => simp [ih, Nat.add_assoc]

/-! ## Cutting at a byte offset -/

/-- The text from byte `n` on. -/
def dropBytes? : Nat → List Char → Option (List Char)
  | 0, text => some text
  | _ + 1, [] => none
  | n + 1, c :: cs => if c.utf8Size ≤ n + 1 then dropBytes? (n + 1 - c.utf8Size) cs else none

/-- The text up to byte `n`. -/
def takeBytes? : Nat → List Char → Option (List Char)
  | 0, _ => some []
  | _ + 1, [] => none
  | n + 1, c :: cs =>
    if c.utf8Size ≤ n + 1 then (takeBytes? (n + 1 - c.utf8Size) cs).map (c :: ·) else none

/-- The text from byte `start` up to byte `stop`. -/
def slice? (text : List Char) (start stop : Nat) : Option (List Char) :=
  if start ≤ stop then (dropBytes? start text).bind (takeBytes? (stop - start)) else none

/-- A cut at the end of a first part gives the second part back. -/
theorem dropBytes?_append (xs ys : List Char) : dropBytes? (byteLength xs) (xs ++ ys) = some ys := by
  induction xs with
  | nil => simp [dropBytes?]
  | cons c cs ih =>
    have hpos := c.utf8Size_pos
    obtain ⟨n, hn⟩ : ∃ n, c.utf8Size + byteLength cs = n + 1 := ⟨c.utf8Size + byteLength cs - 1, by omega⟩
    simp only [byteLength_cons, List.cons_append, hn, dropBytes?]
    rw [if_pos (by omega), show n + 1 - c.utf8Size = byteLength cs by omega, ih]

/-! ## How much fits -/

/-- The bytes of the longest start of `text` that fits into `budget` code units. -/
def bytesWithin (budget : Nat) : List Char → Nat
  | [] => 0
  | c :: cs =>
    if units c ≤ budget then c.utf8Size + bytesWithin (budget - units c) cs else 0

/-- The code units of the longest start of `text` that fits into `budget` bytes. -/
def unitsWithin (budget : Nat) : List Char → Nat
  | [] => 0
  | c :: cs =>
    if c.utf8Size ≤ budget then units c + unitsWithin (budget - c.utf8Size) cs else 0

end LintDirectives.Text
