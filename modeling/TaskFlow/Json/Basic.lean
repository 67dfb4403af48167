import TaskFlow.Json.Doc
import TaskFlow.Json.Number

/-! # JSON values

A value keeps its numbers as they are written and its members in the order in which they are
written.  `Doc.toJson` is the value of a complete document, `Json.parse` that of a text. -/

namespace TaskFlow

/-- A JSON value. -/
inductive Json
  | null
  | bool (b : Bool)
  | num (n : Json.Numeral)
  | str (s : String)
  | arr (items : List Json)
  | obj (members : List (String × Json))
deriving Repr

namespace Json

/-- The value of a natural number. -/
def nat (n : Nat) : Json :=
  num (.ofNat n)

/-- The text of a string that is asked for.  A half of a surrogate pair that ends it stands
alone. -/
def textOf (pieces : List Piece) : Except Problem String :=
  (Piece.resolve .malformed pieces).map String.ofList

/-- A number that is asked for; it must not be too large. -/
def numberOf (n : Numeral) : Except Problem Numeral :=
  if n.number?.isSome then .ok n else .error .malformed

/-! ### The value of a text -/

mutual

/-- The value of a document, or the first problem in it. -/
def Doc.toJson : Doc → Except Problem Json
  | .null => .ok .null
  | .bool b => .ok (.bool b)
  | .num n => (numberOf n).map .num
  | .str pieces => (textOf pieces).map .str
  | .arr items ending => do
    let vs ← Doc.itemsToJson items
    ending.read
    return .arr vs
  | .obj members ending => do
    let ms ← Doc.membersToJson members
    ending.read
    return .obj ms
  | .broken b => .error b.onReading

/-- The values of the items of an array. -/
def Doc.itemsToJson : List Doc → Except Problem (List Json)
  | [] => .ok []
  | d :: ds => do
    let v ← Doc.toJson d
    let vs ← Doc.itemsToJson ds
    return v :: vs

/-- The keys and values of the members of an object. -/
def Doc.membersToJson : List (List Piece × Doc) → Except Problem (List (String × Json))
  | [] => .ok []
  | (k, d) :: ms => do
    let key ← textOf k
    let v ← Doc.toJson d
    let vs ← Doc.membersToJson ms
    return (key, v) :: vs

end

/-- The value of a text that holds one value and otherwise only spaces. -/
def parse (text : String) : Except Problem Json := do
  let (doc, rest) := Doc.parse (Token.scan text.toList)
  let v ← doc.toJson
  if rest.isEmpty then return v else throw .malformed

end Json

end TaskFlow
