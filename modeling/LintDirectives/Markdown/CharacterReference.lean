import LintDirectives.Markdown.Entity

/-!
# Character references

An ampersand, a name or the number of a code point, and a semicolon.
-/

namespace LintDirectives.Markdown.CharacterReference

/-- The longest name. -/
def nameLimit : Nat :=
  31

/-- The most decimal digits of a number. -/
def decimalLimit : Nat :=
  7

/-- The most hexadecimal digits of a number. -/
def hexLimit : Nat :=
  6

/-- The code point may not be named by its number: a control character, a surrogate, or no code
point at all. -/
def isRefused (code : Nat) : Bool :=
  code ≤ 0x8 || code == 0xB || (0xE ≤ code && code ≤ 0x1F) || (0x7F ≤ code && code ≤ 0x9F) ||
    (0xD800 ≤ code && code ≤ 0xDFFF) || 0x10FFFF < code

/-- The character with a number. -/
def numbered (code : Nat) : Char :=
  if isRefused code then '\uFFFD' else Char.ofNat code

/-- The character is a hexadecimal digit. -/
def isHexDigit (c : Char) : Bool :=
  c.isDigit || ('a' ≤ c && c ≤ 'f') || ('A' ≤ c && c ≤ 'F')

/-- The value of a hexadecimal digit. -/
def digitValue (c : Char) : Nat :=
  if c.isDigit then c.toNat - '0'.toNat else c.toLower.toNat - 'a'.toNat + 10

/-- The number that digits write in a base. -/
def number (base : Nat) (digits : List Char) : Nat :=
  digits.foldl (fun total c => base * total + digitValue c) 0

/-- The characters up to a semicolon, at least one and at most `limit`, and what follows. -/
def body? (isPart : Char → Bool) (limit : Nat) (text : List Char) :
    Option (List Char × List Char) :=
  let body := text.takeWhile isPart
  match text.drop body.length with
  | ';' :: rest => if 1 ≤ body.length ∧ body.length ≤ limit then some (body, rest) else none
  | _ => none

/-- The characters that a reference stands for, and what follows it.  Its ampersand was
read. -/
def read? (text : List Char) : Option (List Char × List Char) :=
  match text with
  | '#' :: c :: rest =>
    if c = 'x' ∨ c = 'X' then
      (body? isHexDigit hexLimit rest).map fun (digits, rest) => ([numbered (number 16 digits)], rest)
    else
      (body? Char.isDigit decimalLimit (c :: rest)).map fun (digits, rest) =>
        ([numbered (number 10 digits)], rest)
  | _ =>
    (body? Char.isAlphanum nameLimit text).bind fun (name, rest) =>
      (Entity.named? name).map fun characters => (characters, rest)

end LintDirectives.Markdown.CharacterReference
