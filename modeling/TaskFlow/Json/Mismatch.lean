import TaskFlow.Json.Basic
import TaskFlow.TaskType.Resolve
import TaskFlow.Text.Quoted

/-! # Values of the wrong shape

Why a JSON value is not what a reader asks for, and the message for each reason. -/

namespace TaskFlow.Json

/-- What stands where something else was asked for. -/
inductive Found
  | null
  | bool (b : Bool)
  | num (n : Numeral)
  | str (s : String)
  | sequence
  | map
deriving DecidableEq, Repr

/-- The description of what was found, with its value if it has one. -/
def Found.text : Found → String
  | null => "null"
  | bool b => "boolean `" ++ (if b then "true" else "false") ++ "`"
  | num n =>
    match n.number? with
    | some (.integer i) => "integer `" ++ (Number.integer i).text ++ "`"
    | some x => "floating point `" ++ x.text ++ "`"
    | none => "number"
  | str s => "string " ++ Text.quoted s
  | sequence => "sequence"
  | map => "map"

/-- Why a value has the wrong shape. -/
inductive Mismatch
  /-- A required field is not given. -/
  | missingField (name : String)
  /-- A field is given a second time. -/
  | duplicateField (name : String)
  | wrongType (found : Found) (expected : String)
  /-- An array stands for a record of so many fields and ends too early. -/
  | tooShort (length : Nat) (record : String) (fields : Nat)
  /-- An array stands for a record and has more items than the record has fields. -/
  | tooLong (length : Nat)
  | unknownVariant (name : String) (variants : List String)
  /-- An object that should have one key has another number of them. -/
  | notSingle
  /-- A name that is refused. -/
  | refused (e : NameError)
deriving DecidableEq, Repr

namespace Mismatch

/-- A name between backticks. -/
def ticked (name : String) : String :=
  "`" ++ name ++ "`"

def message : Mismatch → String
  | missingField name => "missing field " ++ ticked name
  | duplicateField name => "duplicate field " ++ ticked name
  | wrongType found expected => "invalid type: " ++ found.text ++ ", expected " ++ expected
  | tooShort length record fields =>
    "invalid length " ++ toString length ++ ", expected struct " ++ record ++ " with "
      ++ toString fields ++ " elements"
  | tooLong length =>
    "invalid length " ++ toString length ++ ", expected fewer elements in array"
  | unknownVariant name variants =>
    "unknown variant " ++ ticked name ++ ", expected "
      ++ String.intercalate " or " (variants.map ticked)
  | notSingle => "invalid value: map, expected map with a single key"
  | refused e => e.fault.display

end Mismatch

/-- Why a text does not hold what a reader asks for. -/
inductive ReadError
  | text (p : Problem)
  | shape (m : Mismatch)
deriving DecidableEq, Repr

/-- What a value is, as it is described to a reader that asked for something else. -/
def found : Json → Found
  | .null => .null
  | .bool b => .bool b
  | .num n => .num n
  | .str s => .str s
  | .arr _ => .sequence
  | .obj _ => .map

/-- What a document is.  A number or string is read whole, of an array or object only the opening
bracket. -/
def Doc.found : Doc → Except Problem Found
  | .null => .ok .null
  | .bool b => .ok (.bool b)
  | .num n => (numberOf n).map .num
  | .str pieces => (textOf pieces).map .str
  | .arr .. => .ok .sequence
  | .obj .. => .ok .map
  | .broken b => .error b.onReading

end TaskFlow.Json
