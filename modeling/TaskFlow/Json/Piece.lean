import TaskFlow.Json.Problem
import TaskFlow.Result

/-! # Pieces of a string

A JSON string is written as a sequence of pieces: characters, written as they are or escaped, and
halves of surrogate pairs, which only exist in escaped form.  `Piece.scan` splits a text into
pieces; `Piece.resolve` joins the halves and fails where one stands alone.  Whether that matters
depends on the reader: a string whose value is not asked for may hold lone halves. -/

namespace TaskFlow.Json

/-- A part of a string as it is written. -/
inductive Piece
  | char (c : Char)
  /-- Half of a surrogate pair, by its number. -/
  | surrogate (n : Nat)
deriving DecidableEq, Repr

namespace Piece

/-! ### Surrogate pairs -/

/-- The first half of a pair. -/
def isHigh (n : Nat) : Bool :=
  decide (0xD800 ≤ n) && decide (n < 0xDC00)

/-- The second half of a pair. -/
def isLow (n : Nat) : Bool :=
  decide (0xDC00 ≤ n) && decide (n < 0xE000)

/-- The character that a pair stands for. -/
def joined (high low : Nat) : Char :=
  Char.ofNat (0x10000 + (high - 0xD800) * 0x400 + (low - 0xDC00))

/-- The piece with the number of a `\u` escape. -/
def ofUnit (n : Nat) : Piece :=
  if isHigh n || isLow n then surrogate n else char (Char.ofNat n)

/-- The characters of a string.  A first half must be followed by a second half at once; one that
ends the pieces is reported as `atEnd`. -/
def resolve (atEnd : Problem) : List Piece → Except Problem (List Char)
  | [] => .ok []
  | char c :: ps => (resolve atEnd ps).map (c :: ·)
  | [surrogate n] => .error (if isHigh n then atEnd else .malformed)
  | surrogate _ :: char _ :: _ => .error .malformed
  | surrogate n :: surrogate m :: ps =>
    if isHigh n && isLow m then (resolve atEnd ps).map (joined n m :: ·) else .error .malformed

/-! ### Reading pieces -/

/-- The value of a hexadecimal digit. -/
def hexValue? (c : Char) : Option Nat :=
  if c.isDigit then some (c.toNat - '0'.toNat)
  else if 'a' ≤ c ∧ c ≤ 'f' then some (c.toNat - 'a'.toNat + 10)
  else if 'A' ≤ c ∧ c ≤ 'F' then some (c.toNat - 'A'.toNat + 10)
  else none

/-- The number written by four hexadecimal digits. -/
def unitValue? (a b c d : Char) : Option Nat := do
  return (((← hexValue? a) * 16 + (← hexValue? b)) * 16 + (← hexValue? c)) * 16 + (← hexValue? d)

/-- The character that a letter stands for after a backslash. -/
def escaped? : Char → Option Char
  | '"' => some '"'
  | '\\' => some '\\'
  | '/' => some '/'
  | 'b' => some '\x08'
  | 'f' => some '\x0C'
  | 'n' => some '\n'
  | 'r' => some '\r'
  | 't' => some '\t'
  | _ => none

/-- The number of bytes that a text takes in UTF-8. -/
def byteCount (cs : List Char) : Nat :=
  cs.foldl (fun n c => n + c.utf8Size) 0

/-- The problem where the four digits of a `\u` escape should stand: four bytes are looked at
together. -/
def unitProblem (rest : List Char) : Problem :=
  if byteCount rest < 4 then .truncated else .malformed

/-- Adds a piece in front of what has been read. -/
def prepend (p : Piece) (r : List Piece × Except Problem (List Char)) :
    List Piece × Except Problem (List Char) :=
  (p :: r.1, r.2)

/-- Splits a text, from behind an opening quotation mark, into the pieces of the string and what
follows the closing mark.  When the string does not end properly, the pieces are those before the
problem. -/
def scan : List Char → List Piece × Except Problem (List Char)
  | [] => ([], .error .truncated)
  | '"' :: cs => ([], .ok cs)
  | '\\' :: 'u' :: a :: b :: c :: d :: cs =>
    match unitValue? a b c d with
    | some n => prepend (ofUnit n) (scan cs)
    | none => ([], .error (unitProblem (a :: b :: c :: d :: cs)))
  | '\\' :: 'u' :: cs => ([], .error (unitProblem cs))
  | '\\' :: c :: cs =>
    match escaped? c with
    | some e => prepend (char e) (scan cs)
    | none => ([], .error .malformed)
  | ['\\'] => ([], .error .truncated)
  | c :: cs => if c.toNat < 0x20 then ([], .error .malformed) else prepend (char c) (scan cs)

theorem scan_suffix {cs rest : List Char} (h : (scan cs).2 = .ok rest) : rest <:+ cs := by
  fun_induction scan cs with
  | case1 => cases h
  | case2 cs =>
    cases h
    exact List.suffix_cons ..
  | case3 a b c d cs n hn ih =>
    exact (ih h).trans ⟨['\\', 'u', a, b, c, d], rfl⟩
  | case4 => cases h
  | case5 => cases h
  | case6 c cs _ _ e he ih => exact (ih h).trans ⟨['\\', c], rfl⟩
  | case7 => cases h
  | case8 => cases h
  | case9 => cases h
  | case10 c cs _ _ _ _ _ _ ih => exact (ih h).trans (List.suffix_cons ..)

end Piece

end TaskFlow.Json
