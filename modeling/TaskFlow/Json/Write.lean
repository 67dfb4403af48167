import TaskFlow.Json.Basic

/-! # Writing JSON

A value is written compactly, without any spaces (`Json.compact`), or over several lines with two
spaces for each level (`Json.pretty`).  In strings only quotation marks, backslashes and the
characters below U+0020 are escaped. -/

namespace TaskFlow.Json

/-! ### Scalars -/

/-- The digit of a value below sixteen, in lower case. -/
def hexDigit (n : Nat) : Char :=
  Nat.digitChar n

/-- A character as it is written inside a string. -/
def escapeChar (c : Char) : List Char :=
  if c = '"' then ['\\', '"']
  else if c = '\\' then ['\\', '\\']
  else if c = '\x08' then ['\\', 'b']
  else if c = '\x0C' then ['\\', 'f']
  else if c = '\n' then ['\\', 'n']
  else if c = '\r' then ['\\', 'r']
  else if c = '\t' then ['\\', 't']
  else if c.toNat < 0x20 then
    ['\\', 'u', '0', '0', hexDigit (c.toNat / 16), hexDigit (c.toNat % 16)]
  else [c]

/-- A string between quotation marks. -/
def writeString (s : String) : List Char :=
  '"' :: s.toList.flatMap escapeChar ++ ['"']

namespace Numeral

/-- An exponent with its letter. -/
def writeExponent : Option Int → List Char
  | none => []
  | some e => 'e' :: (if e < 0 then ['-'] else []) ++ Nat.toDigits 10 e.natAbs

/-- The digits after the point, with the point. -/
def writeFraction : List (Fin 10) → List Char
  | [] => []
  | ds => '.' :: ds.map digitChar

/-- The numeral as a text. -/
def write (n : Numeral) : List Char :=
  (if n.negative then ['-'] else []) ++ Nat.toDigits 10 n.whole ++ writeFraction n.fraction
    ++ writeExponent n.exponent

end Numeral

/-- The word of a truth value. -/
def writeWord (b : Bool) : List Char :=
  if b then ['t', 'r', 'u', 'e'] else ['f', 'a', 'l', 's', 'e']

/-! ### On one line -/

mutual

/-- A value without any spaces. -/
def compactChars : Json → List Char
  | .null => ['n', 'u', 'l', 'l']
  | .bool b => writeWord b
  | .num n => n.write
  | .str s => writeString s
  | .arr [] => ['[', ']']
  | .arr (v :: vs) => '[' :: compactChars v ++ compactItems vs ++ [']']
  | .obj [] => ['{', '}']
  | .obj ((k, v) :: ms) =>
    '{' :: writeString k ++ ':' :: compactChars v ++ compactMembers ms ++ ['}']

/-- Items after the first, each with a comma before it. -/
def compactItems : List Json → List Char
  | [] => []
  | v :: vs => ',' :: compactChars v ++ compactItems vs

/-- Members after the first, each with a comma before it. -/
def compactMembers : List (String × Json) → List Char
  | [] => []
  | (k, v) :: ms => ',' :: writeString k ++ ':' :: compactChars v ++ compactMembers ms

end

/-- A value on one line. -/
def compact (v : Json) : String :=
  String.ofList (compactChars v)

/-! ### Over several lines -/

/-- A new line at some level. -/
def newline (level : Nat) : List Char :=
  '\n' :: List.replicate (2 * level) ' '

mutual

/-- A value that begins at some level. -/
def prettyChars (level : Nat) : Json → List Char
  | .null => ['n', 'u', 'l', 'l']
  | .bool b => writeWord b
  | .num n => n.write
  | .str s => writeString s
  | .arr [] => ['[', ']']
  | .arr (v :: vs) =>
    '[' :: newline (level + 1) ++ prettyChars (level + 1) v ++ prettyItems (level + 1) vs
      ++ newline level ++ [']']
  | .obj [] => ['{', '}']
  | .obj ((k, v) :: ms) =>
    '{' :: newline (level + 1) ++ writeString k ++ ':' :: ' ' :: prettyChars (level + 1) v
      ++ prettyMembers (level + 1) ms ++ newline level ++ ['}']

/-- Items after the first, each on a line of its own. -/
def prettyItems (level : Nat) : List Json → List Char
  | [] => []
  | v :: vs => ',' :: newline level ++ prettyChars level v ++ prettyItems level vs

/-- Members after the first, each on a line of its own. -/
def prettyMembers (level : Nat) : List (String × Json) → List Char
  | [] => []
  | (k, v) :: ms =>
    ',' :: newline level ++ writeString k ++ ':' :: ' ' :: prettyChars level v
      ++ prettyMembers level ms

end

/-- A value over several lines. -/
def pretty (v : Json) : String :=
  String.ofList (prettyChars 0 v)

end TaskFlow.Json
