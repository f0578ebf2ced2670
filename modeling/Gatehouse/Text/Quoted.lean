import Gatehouse.Text.Unseen

/-!
# Quoted text

Messages show texts in double quotes, with backslashes in front of what would mislead the reader.
A character that cannot be shown alone is written as its number.
-/

namespace Gatehouse.Text

/-- A character by its number in base 16. -/
def numbered (c : Char) : List Char := "\\u\x7b".toList ++ Nat.toDigits 16 c.toNat ++ ['\x7d']

/-- A character inside quotes. -/
def quotedChar (c : Char) : List Char :=
  if c = '\x00' then ['\\', '0']
  else if c = '\t' then ['\\', 't']
  else if c = '\r' then ['\\', 'r']
  else if c = '\n' then ['\\', 'n']
  else if c = '"' then ['\\', '"']
  else if c = '\\' then ['\\', '\\']
  else if isUnseen c then numbered c
  else [c]

/-- A text in quotes. -/
def quoted (s : List Char) : List Char := '"' :: s.flatMap quotedChar ++ ['"']

end Gatehouse.Text
