import LintDirectives.Markdown.Glyph

/-!
# Marks at the start of a line

What a line is depends on how it starts, once its indentation and the marks of
the blocks around it are taken away.  This module recognises rules, headings,
underlines, fences and the marks of list items.
-/

namespace LintDirectives.Markdown

namespace Mark

/-! ## Rules and headings -/

/-- The line holds equal marks of a rule and white space only. -/
def startsRule (text : List Char) : Bool :=
  match text with
  | [] => false
  | c :: _ =>
    (c == '*' || c == '-' || c == '_') && text.all fun d => d == c || isSpace d

/-- The line is a horizontal rule: three or more equal marks. -/
def isRule (text : List Char) : Bool :=
  startsRule text && text.head?.any fun c => 3 ≤ text.count c

/-- Drops the number signs that close a heading, and the spaces around them, from the end of
a line that is given backwards. -/
def dropClosing (backwards : List Glyph) : List Glyph :=
  let ended := Glyph.dropSpace backwards
  let signs := ended.takeWhile (·.char == '#')
  let before := ended.drop signs.length
  if _h : 0 < signs.length ∧ before.head?.all Glyph.isSpace then dropClosing before else ended
termination_by backwards.length
decreasing_by
  have hended : (Glyph.dropSpace backwards).length ≤ backwards.length :=
    (List.dropWhile_suffix _).sublist.length_le
  have hsigns : ((Glyph.dropSpace backwards).takeWhile (·.char == '#')).length ≤
      (Glyph.dropSpace backwards).length := (List.takeWhile_prefix _).sublist.length_le
  have hpos := _h.1
  simp only [List.length_drop]
  simp only [signs, ended] at hpos
  omega

/-- The text of a heading that the line makes with number signs. -/
def heading? (line : List Glyph) : Option (List Glyph) :=
  let signs := line.takeWhile (·.char == '#')
  let rest := line.drop signs.length
  if 1 ≤ signs.length ∧ signs.length ≤ 6 ∧ rest.head?.all Glyph.isSpace then
    some (dropClosing (rest.dropWhile fun g => g.isSpace || g.char == '#').reverse).reverse
  else none

/-- The line makes a heading of the paragraph above it. -/
def isUnderline (text : List Char) : Bool :=
  match text with
  | [] => false
  | c :: _ => (c == '=' || c == '-') && (text.dropWhile (· == c)).all isSpace

/-! ## Fences -/

/-- The mark around a block of code. -/
structure Fence where
  marker : Char
  /-- The number of markers. -/
  size : Nat
  /-- The columns that the lines between the fences may be indented by. -/
  indent : Nat
deriving DecidableEq

/-- The line holds markers of a fence only. -/
def startsFence (text : List Char) : Bool :=
  match text with
  | [] => false
  | c :: _ => (c == '\x60' || c == '~') && text.all (· == c)

/-- The fence that a line opens. -/
def fence? (indent : Nat) (text : List Char) : Option Fence :=
  match text with
  | [] => none
  | c :: _ =>
    let size := (text.takeWhile (· == c)).length
    let info := text.drop size
    if c = '\x60' then
      if 3 ≤ size ∧ ¬ '\x60' ∈ info then some ⟨c, size, indent⟩ else none
    else if c = '~' then
      if 3 ≤ size then some ⟨c, size, indent⟩ else none
    else none

/-- The line, its indentation left out, closes the fence. -/
def Fence.isClosedBy (fence : Fence) (text : List Char) : Bool :=
  let size := (text.takeWhile (· == fence.marker)).length
  fence.size ≤ size && (text.drop size).all isSpace

/-! ## List items -/

/-- The mark of a list item. -/
structure Bullet where
  /-- The sign, or the sign after the number. -/
  marker : Char
  /-- The number of characters. -/
  size : Nat
deriving DecidableEq

/-- The mark without a number that a line starts with. -/
def sign? (text : List Char) : Option Bullet :=
  match text with
  | [] => none
  | c :: _ =>
    if c = '+' then some ⟨c, 1⟩
    else if (c = '*' ∨ c = '-') ∧ ¬ isRule text then some ⟨c, 1⟩
    else none

/-- The mark with a number that a line starts with. -/
def number? (text : List Char) : Option Bullet :=
  let digits := text.takeWhile Char.isDigit
  match text.drop digits.length with
  | [] => none
  | c :: _ =>
    if 1 ≤ digits.length ∧ digits.length ≤ 9 ∧ (c = '.' ∨ c = ')') then
      some ⟨c, digits.length + 1⟩
    else none

/-- The mark of a list item that a line starts with.  An item that interrupts a paragraph
has something in it, and its number is one. -/
def bullet? (interrupts : Bool) (text : List Char) : Option Bullet :=
  match (sign? text).orElse fun _ => number? text with
  | none => none
  | some bullet =>
    let rest := text.drop bullet.size
    if !rest.head?.all isSpace then none
    else if !interrupts then some bullet
    else if rest.all isSpace then none
    else if bullet.size == 1 || text.head? == some '1' && bullet.size == 2 then some bullet
    else none

end Mark

end LintDirectives.Markdown
