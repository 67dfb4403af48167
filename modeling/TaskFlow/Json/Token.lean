import TaskFlow.Json.Numeral
import TaskFlow.Json.Piece

/-! # Tokens

A JSON text is split into tokens without looking at how they fit together.  Where the text stops
being a sequence of tokens, a last token says what stands there.  `Token.scan` splits a text; each
token takes at least one character (`first_suffix`). -/

namespace TaskFlow.Json

/-- What stands where a text stops being JSON. -/
inductive Break
  /-- The end of the text, or a character with which nothing begins. -/
  | plain (p : Problem)
  /-- A word that is not complete. -/
  | word (p : Problem)
  /-- A number that is not complete. -/
  | number (p : Problem)
  /-- A string that does not end properly after some pieces. -/
  | text (pieces : List Piece) (p : Problem)
deriving DecidableEq, Repr

namespace Break

/-- The problem for a reader that asks for the value: a lone half of a surrogate pair comes before
the end of its string. -/
def onReading : Break → Problem
  | plain p | word p | number p => p
  | text pieces p =>
    match Piece.resolve p pieces with
    | .ok _ => p
    | .error q => q

/-- The problem for a reader that passes over the value: a number that is not complete is malformed
wherever it stands. -/
def onSkipping : Break → Problem
  | plain p | word p | text _ p => p
  | number _ => .malformed

end Break

/-- The smallest parts of a JSON text. -/
inductive Token
  | openArr
  | closeArr
  | openObj
  | closeObj
  | comma
  | colon
  | null
  | bool (b : Bool)
  | num (n : Numeral)
  | str (pieces : List Piece)
  /-- The text is no sequence of tokens from here on. -/
  | broken (b : Break)
deriving DecidableEq, Repr

namespace Token

/-- A character that may stand between tokens. -/
def isSpace (c : Char) : Bool :=
  c == ' ' || c == '\t' || c == '\n' || c == '\r'

/-- Reads the rest of a word. -/
def scanWord : List Char → List Char → Except Problem (List Char)
  | [], cs => .ok cs
  | _ :: _, [] => .error .truncated
  | w :: ws, c :: cs => if w = c then scanWord ws cs else .error .malformed

/-- The token of a word whose first letter has been read. -/
def word (t : Token) (letters : List Char) (cs : List Char) : Token × List Char :=
  match scanWord letters cs with
  | .ok rest => (t, rest)
  | .error p => (broken (.word p), [])

/-- The token of a string whose opening quotation mark has been read. -/
def text (cs : List Char) : Token × List Char :=
  match Piece.scan cs with
  | (pieces, .ok rest) => (str pieces, rest)
  | (pieces, .error p) => (broken (.text pieces p), [])

/-- The token of a number. -/
def number (cs : List Char) : Token × List Char :=
  match Numeral.scan cs with
  | .ok (n, rest) => (num n, rest)
  | .error p => (broken (.number p), [])

/-- The token that begins with `c`, which is no space, and the rest of the text. -/
def first (c : Char) (cs : List Char) : Token × List Char :=
  match c with
  | '[' => (openArr, cs)
  | ']' => (closeArr, cs)
  | '{' => (openObj, cs)
  | '}' => (closeObj, cs)
  | ',' => (comma, cs)
  | ':' => (colon, cs)
  | '"' => text cs
  | 'n' => word null ['u', 'l', 'l'] cs
  | 't' => word (bool true) ['r', 'u', 'e'] cs
  | 'f' => word (bool false) ['a', 'l', 's', 'e'] cs
  | '-' => number ('-' :: cs)
  | c => if c.isDigit then number (c :: cs) else (broken (.plain .malformed), [])

/-! ### A token takes at least one character -/

theorem scanWord_suffix {ws cs rest : List Char} (h : scanWord ws cs = .ok rest) :
    rest <:+ cs := by
  fun_induction scanWord ws cs with
  | case1 =>
    cases h
    exact List.suffix_refl _
  | case2 => cases h
  | case3 _ _ _ ih => exact (ih h).trans (List.suffix_cons ..)
  | case4 => cases h

theorem word_suffix (t : Token) (ws cs : List Char) : (word t ws cs).2 <:+ cs := by
  unfold word
  split
  · rename_i h
    exact scanWord_suffix h
  · exact List.nil_suffix

theorem text_suffix (cs : List Char) : (text cs).2 <:+ cs := by
  unfold text
  split
  · rename_i h
    exact Piece.scan_suffix (congrArg Prod.snd h)
  · exact List.nil_suffix

theorem number_suffix (c : Char) (cs : List Char) : (number (c :: cs)).2 <:+ cs := by
  unfold number
  split
  · rename_i h
    exact Numeral.scan_suffix h
  · exact List.nil_suffix

theorem first_suffix (c : Char) (cs : List Char) : (first c cs).2 <:+ cs := by
  unfold first
  split
  all_goals try exact List.suffix_refl _
  · exact text_suffix cs
  · exact word_suffix ..
  · exact word_suffix ..
  · exact word_suffix ..
  · exact number_suffix ..
  · split
    · exact number_suffix ..
    · exact List.nil_suffix

/-- The tokens of a text. -/
def scan : List Char → List Token
  | [] => []
  | c :: cs => if isSpace c then scan cs else (first c cs).1 :: scan (first c cs).2
termination_by cs => cs.length
decreasing_by
  · simp
  · exact Nat.lt_succ_of_le (first_suffix c cs).length_le

end Token

end TaskFlow.Json
