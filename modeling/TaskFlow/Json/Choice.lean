import TaskFlow.Json.Record

/-! # Choices without a value

A choice among names is written as a string, or as an object whose only key is the name and whose
value is null. -/

namespace TaskFlow.Json

/-- Nothing but null. -/
def Decoder.unit : Decoder Unit where
  ofDoc
    | .null => .ok ()
    | doc => rejectDoc "unit" doc
  ofJson
    | .null => .ok ()
    | v => rejectJson "unit" v

namespace Choice

/-- The names to choose from, with what they stand for. -/
abbrev Names (α : Type) : Type :=
  List (String × α)

variable {α : Type}

/-- What a name stands for. -/
def find (names : Names α) (name : String) : Except Mismatch α :=
  match names.lookup name with
  | some a => .ok a
  | none => .error (.unknownVariant name (names.map Prod.fst))

/-- What may follow the only member of an object: its end. -/
def endOf (more : List (List Piece × Doc)) : Ending → Except Problem Unit
  | .closed => if more.isEmpty then .ok () else .error .malformed
  | .stopped comma b => if more.isEmpty && !comma then .error b.onReading else .error .malformed

/-- Reads the document of a text.  What begins neither a string nor an object is malformed. -/
def ofDoc (names : Names α) : Doc → Except ReadError α
  | .str pieces => do
    let name ← inText (textOf pieces)
    inShape (find names name)
  | .obj ((k, d) :: more) ending => do
    let name ← inText (textOf k)
    let a ← inShape (find names name)
    Decoder.unit.ofDoc d
    inText (endOf more ending)
    return a
  | .obj [] (.stopped _ b) => .error (.text b.onReading)
  | .broken (.plain p) => .error (.text p)
  | .broken (.text pieces p) => .error (.text (Break.text pieces p).onReading)
  | _ => .error (.text .malformed)

/-- Reads a parsed value. -/
def ofJson (names : Names α) : Json → Except Mismatch α
  | .str name => find names name
  | .obj members =>
    match byKey members with
    | [(name, v)] => do
      let a ← find names name
      Decoder.unit.ofJson v
      return a
    | _ => .error .notSingle
  | v => Decoder.rejectJson "string or map" v

end Choice

/-- The decoder of a choice among names. -/
def Decoder.choice {α : Type} (names : Choice.Names α) : Decoder α where
  ofDoc := Choice.ofDoc names
  ofJson := Choice.ofJson names

/-- An execution modality. -/
def Decoder.modality : Decoder Modality :=
  .choice [(Modality.stream.key, .stream), (Modality.batch.key, .batch)]

end TaskFlow.Json
