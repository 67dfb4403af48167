import TaskFlow.Text.Unprintable

/-! # Quoted texts

A text between quotation marks, for use in messages: quotation marks, backslashes and the usual
control characters are written with a backslash, other characters that cannot be shown by their
number, and all else as it is. -/

namespace TaskFlow.Text

/-- The number of a character in lower-case hexadecimal digits. -/
def hexNumber (n : Nat) : List Char :=
  Nat.toDigits 16 n

/-- A character as it stands between quotation marks. -/
def quotedChar (c : Char) : List Char :=
  if c = '"' then ['\\', '"']
  else if c = '\\' then ['\\', '\\']
  else if c = '\n' then ['\\', 'n']
  else if c = '\r' then ['\\', 'r']
  else if c = '\t' then ['\\', 't']
  else if c = '\x00' then ['\\', '0']
  else if isUnprintable c then ['\\', 'u', '{'] ++ hexNumber c.toNat ++ ['}']
  else [c]

/-- The text between quotation marks. -/
def quoted (s : String) : String :=
  String.ofList ('"' :: s.toList.flatMap quotedChar ++ ['"'])

end TaskFlow.Text
