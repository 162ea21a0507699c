import LintDirectives.Text.Printable

/-!
# Quoting in messages

A text as a message quotes it: between quotes, with escapes for the quote, the
backslash and every character that is not shown as itself.
-/

namespace LintDirectives.Text

/-- A number in hexadecimal digits. -/
def hexadecimal (n : Nat) : List Char :=
  Nat.toDigits 16 n

/-- A character inside quotes. -/
def quotedChar (c : Char) : List Char :=
  if c = '\x22' then ['\\', '\x22']
  else if c = '\\' then ['\\', '\\']
  else if c = '\n' then ['\\', 'n']
  else if c = '\r' then ['\\', 'r']
  else if c = '\t' then ['\\', 't']
  else if c.toNat = 0 then ['\\', '0']
  else if isShown c then [c]
  else '\\' :: 'u' :: '\x7b' :: (hexadecimal c.toNat ++ ['\x7d'])

/-- A text between quotes. -/
def quoted (text : List Char) : List Char :=
  '\x22' :: (text.flatMap quotedChar ++ ['\x22'])

end LintDirectives.Text
