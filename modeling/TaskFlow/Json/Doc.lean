import TaskFlow.Json.Token

/-! # Documents

The tree of a JSON text as far as the text is JSON.  A reader has to report the first thing that is
wrong in a text, be it the form of the text or the shape of the value; so the tree of a text that
breaks off keeps all that stands before the break.  Strings are kept in pieces and numbers as they
are written, because a value that is passed over may hold what a value that is asked for may not.

`Doc.parse` builds the tree of a sequence of tokens in one pass, with the arrays and objects that
are still open on a stack. -/

namespace TaskFlow.Json

/-- How an array or object ends. -/
inductive Ending
  | closed
  /-- Something other than the closing bracket or a comma and a further entry; `comma` says that a
  comma has been read. -/
  | stopped (comma : Bool) (b : Break)
deriving DecidableEq, Repr

namespace Ending

/-- Fails with the problem at the end of an array or object that is read. -/
def read : Ending → Except Problem Unit
  | closed => .ok ()
  | stopped _ b => .error b.onReading

/-- Fails with the problem at the end of an array or object that is passed over. -/
def skip : Ending → Except Problem Unit
  | closed => .ok ()
  | stopped _ b => .error b.onSkipping

end Ending

/-- The tree of a text, as far as the text is JSON. -/
inductive Doc
  | null
  | bool (b : Bool)
  | num (n : Numeral)
  | str (pieces : List Piece)
  | arr (items : List Doc) (ending : Ending)
  | obj (members : List (List Piece × Doc)) (ending : Ending)
  /-- Not a value. -/
  | broken (b : Break)
deriving Repr

namespace Doc

/-- An array or object that is still open, with what it holds before the value that is due, last
first. -/
inductive Frame
  | arr (items : List Doc)
  | obj (members : List (List Piece × Doc)) (key : List Piece)

/-- The tree when a text breaks off within `d`, inside the open arrays and objects. -/
def cut (d : Doc) : List Frame → Doc
  | [] => d
  | .arr items :: frames => cut (.arr (d :: items).reverse stop) frames
  | .obj members key :: frames => cut (.obj ((key, d) :: members).reverse stop) frames
where
  stop : Ending := .stopped false (.plain .truncated)

/-- The problem when something else than these tokens is due. -/
def problemAt : List Token → Problem
  | [] => .truncated
  | _ :: _ => .malformed

mutual

/-- A value is due. -/
def value (frames : List Frame) : List Token → Doc × List Token
  | .null :: ts => follow .null frames ts
  | .bool b :: ts => follow (.bool b) frames ts
  | .num n :: ts => follow (.num n) frames ts
  | .str pieces :: ts => follow (.str pieces) frames ts
  | .openArr :: .closeArr :: ts => follow (.arr [] .closed) frames ts
  | .openArr :: ts => value (.arr [] :: frames) ts
  | .openObj :: .closeObj :: ts => follow (.obj [] .closed) frames ts
  | .openObj :: ts => key [] false frames ts
  | .broken b :: _ => (cut (.broken b) frames, [])
  | ts => (cut (.broken (.plain (problemAt ts))) frames, [])

/-- The key of a member is due, in an object with the members before it. -/
def key (members : List (List Piece × Doc)) (comma : Bool) (frames : List Frame) :
    List Token → Doc × List Token
  | .str pieces :: .colon :: ts => value (.obj members pieces :: frames) ts
  | .str pieces :: ts =>
    (cut (.broken (.plain (problemAt ts))) (.obj members pieces :: frames), [])
  | .broken (.text pieces p) :: _ =>
    (cut (.obj members.reverse (.stopped comma (.text pieces p))) frames, [])
  | ts => (cut (.obj members.reverse (.stopped comma (.plain (problemAt ts)))) frames, [])

/-- The value `d` has been read. -/
def follow (d : Doc) : List Frame → List Token → Doc × List Token
  | [], ts => (d, ts)
  | .arr items :: frames, .comma :: ts => value (.arr (d :: items) :: frames) ts
  | .arr items :: frames, .closeArr :: ts =>
    follow (.arr (d :: items).reverse .closed) frames ts
  | .arr items :: frames, ts =>
    (cut (.arr (d :: items).reverse (.stopped false (.plain (problemAt ts)))) frames, [])
  | .obj members k :: frames, .comma :: ts => key ((k, d) :: members) true frames ts
  | .obj members k :: frames, .closeObj :: ts =>
    follow (.obj ((k, d) :: members).reverse .closed) frames ts
  | .obj members k :: frames, ts =>
    (cut (.obj ((k, d) :: members).reverse (.stopped false (.plain (problemAt ts)))) frames, [])

end

/-- The tree that some tokens begin with, and the tokens after it. -/
def parse (ts : List Token) : Doc × List Token :=
  value [] ts

/-! ### Passing over a value -/

mutual

/-- Fails with the first problem of a value that is passed over. -/
def skip : Doc → Except Problem Unit
  | .arr items ending => do
    skipItems items
    ending.skip
  | .obj members ending => do
    skipMembers members
    ending.skip
  | .broken b => .error b.onSkipping
  | _ => .ok ()

def skipItems : List Doc → Except Problem Unit
  | [] => .ok ()
  | d :: ds => do
    skip d
    skipItems ds

def skipMembers : List (List Piece × Doc) → Except Problem Unit
  | [] => .ok ()
  | (_, d) :: ms => do
    skip d
    skipMembers ms

end

end Doc

end TaskFlow.Json
