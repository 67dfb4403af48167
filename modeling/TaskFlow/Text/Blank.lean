/-! # Blank characters

The characters with the Unicode property `White_Space`, and removing them from the ends of a
text.  A text is blank when it holds nothing else. -/

namespace TaskFlow.Text

/-- The ranges of code points with the property `White_Space`, in ascending order. -/
def blankRanges : List (Nat × Nat) :=
  [(0x9, 0xD), (0x20, 0x20), (0x85, 0x85), (0xA0, 0xA0), (0x1680, 0x1680), (0x2000, 0x200A),
    (0x2028, 0x2029), (0x202F, 0x202F), (0x205F, 0x205F), (0x3000, 0x3000)]

/-- The character has the property `White_Space`. -/
def isBlank (c : Char) : Bool :=
  blankRanges.any fun r => decide (r.1 ≤ c.toNat) && decide (c.toNat ≤ r.2)

/-- Removes from the end the characters that satisfy `p`. -/
def trimEnd (p : Char → Bool) : List Char → List Char
  | [] => []
  | c :: cs =>
    match trimEnd p cs with
    | [] => if p c then [] else [c]
    | rest => c :: rest

/-- Removes the blank characters at both ends. -/
def trimBlank (cs : List Char) : List Char :=
  trimEnd isBlank (cs.dropWhile isBlank)

/-- Every character of the text is blank; so the empty text is. -/
def isBlankText (s : String) : Bool :=
  s.toList.all isBlank

end TaskFlow.Text
