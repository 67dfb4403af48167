/-! # Casing of names

A name of several words is written with a capital for each word, in small letters with `_` between
the words, or in capitals throughout.  The first way tells the others. -/

namespace TaskFlow.Text

/-- A letter behind others: a capital begins a word. -/
def snakeChar (c : Char) : List Char :=
  if c.isUpper then ['_', c.toLower] else [c.toLower]

/-- A name with a capital for each word, in small letters with `_` between the words. -/
def snakeCase (s : String) : String :=
  match s.toList with
  | [] => ""
  | c :: cs => String.ofList (c.toLower :: cs.flatMap snakeChar)

/-- A name in capitals. -/
def upperCase (s : String) : String :=
  String.ofList (s.toList.map Char.toUpper)

end TaskFlow.Text
