import LintDirectives.Json.Value

/-!
# Writing JSON

Two layouts of a value.  `compact` has no space outside strings.  `pretty` puts
every item and field on its own line, indented by two spaces for each list or
record around it; an empty list or record stays on one line.

A string escapes the quote, the backslash and the control characters, and nothing
else.
-/

namespace LintDirectives.Json

namespace Value

/-- The hexadecimal digit of a number below sixteen. -/
def hexDigit (n : Nat) : Char :=
  if n < 10 then Char.ofNat ('0'.toNat + n) else Char.ofNat ('a'.toNat + (n - 10))

/-- A character inside a string. -/
def quotedChar (c : Char) : List Char :=
  if c = '\x22' then ['\\', '\x22']
  else if c = '\\' then ['\\', '\\']
  else if c = '\x08' then ['\\', 'b']
  else if c = '\x0c' then ['\\', 'f']
  else if c = '\n' then ['\\', 'n']
  else if c = '\r' then ['\\', 'r']
  else if c = '\t' then ['\\', 't']
  else if c.toNat < 0x20 then ['\\', 'u', '0', '0', hexDigit (c.toNat / 16), hexDigit (c.toNat % 16)]
  else [c]

/-- A string with its quotes. -/
def quoted (s : String) : List Char :=
  '\x22' :: (s.toList.flatMap quotedChar ++ ['\x22'])

mutual

/-- A value without spaces. -/
def compact : Value → List Char
  | null => "null".toList
  | bool true => "true".toList
  | bool false => "false".toList
  | number n => n.write
  | string s => quoted s
  | list items => '[' :: (compactItems items ++ [']'])
  | record fields => '\x7b' :: (compactFields fields ++ ['\x7d'])

/-- Items with commas between them. -/
def compactItems : List Value → List Char
  | [] => []
  | [item] => compact item
  | item :: items => compact item ++ ',' :: compactItems items

/-- Fields with commas between them. -/
def compactFields : List (String × Value) → List Char
  | [] => []
  | [(name, value)] => quoted name ++ ':' :: compact value
  | (name, value) :: fields => quoted name ++ ':' :: (compact value ++ ',' :: compactFields fields)

end

/-- A line break and the indentation of the given depth. -/
def newline (depth : Nat) : List Char :=
  '\n' :: List.replicate (2 * depth) ' '

mutual

/-- A value with every item and field on a line of its own, inside `depth` lists and
records. -/
def prettyAt (depth : Nat) : Value → List Char
  | null => "null".toList
  | bool true => "true".toList
  | bool false => "false".toList
  | number n => n.write
  | string s => quoted s
  | list [] => ['[', ']']
  | list items => '[' :: (prettyItems (depth + 1) items ++ (newline depth ++ [']']))
  | record [] => ['\x7b', '\x7d']
  | record fields => '\x7b' :: (prettyFields (depth + 1) fields ++ (newline depth ++ ['\x7d']))

/-- Items on lines of their own. -/
def prettyItems (depth : Nat) : List Value → List Char
  | [] => []
  | [item] => newline depth ++ prettyAt depth item
  | item :: items => newline depth ++ (prettyAt depth item ++ ',' :: prettyItems depth items)

/-- Fields on lines of their own. -/
def prettyFields (depth : Nat) : List (String × Value) → List Char
  | [] => []
  | [(name, value)] => newline depth ++ (quoted name ++ ':' :: ' ' :: prettyAt depth value)
  | (name, value) :: fields =>
    newline depth ++
      (quoted name ++ ':' :: ' ' :: (prettyAt depth value ++ ',' :: prettyFields depth fields))

end

/-- The compact text of a value. -/
def write (value : Value) : String :=
  String.ofList value.compact

/-- The text of a value laid out over lines. -/
def writePretty (value : Value) : String :=
  String.ofList (value.prettyAt 0)

end Value

end LintDirectives.Json
