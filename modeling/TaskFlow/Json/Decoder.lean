import TaskFlow.Json.Mismatch

/-! # Decoders

A decoder says how values of some type are written in JSON, both for the document of a text and for
a value that has been parsed before.  The two readings may meet their first problem in different
places, because a text is read from left to right and the members of a parsed value in the order of
their keys; what they accept is the same.

This module has the decoders of strings, truth values, lists and names; records are in
`Json.Record`. -/

namespace TaskFlow.Json

/-- How values of a type are written. -/
structure Decoder (α : Type) where
  /-- Reads the document of a text. -/
  ofDoc : Doc → Except ReadError α
  /-- Reads a parsed value. -/
  ofJson : Json → Except Mismatch α

/-- The error of a reader of texts for a problem of the text. -/
def inText {α : Type} (r : Except Problem α) : Except ReadError α :=
  r.mapError .text

/-- The error of a reader of texts for a value of the wrong shape. -/
def inShape {α : Type} (r : Except Mismatch α) : Except ReadError α :=
  r.mapError .shape

namespace Decoder

variable {α β : Type}

/-- Refuses a document that is not of the expected type. -/
def rejectDoc (expected : String) (d : Doc) : Except ReadError α := do
  let found ← inText d.found
  throw (.shape (.wrongType found expected))

/-- Refuses a value that is not of the expected type. -/
def rejectJson (expected : String) (v : Json) : Except Mismatch α :=
  .error (.wrongType v.found expected)

/-- Changes what has been read. -/
def map (f : α → β) (d : Decoder α) : Decoder β where
  ofDoc doc := (d.ofDoc doc).map f
  ofJson v := (d.ofJson v).map f

/-- Accepts what has been read only if a check does. -/
def refine (check : α → Except Mismatch β) (d : Decoder α) : Decoder β where
  ofDoc doc := do
    let a ← d.ofDoc doc
    inShape (check a)
  ofJson v := do
    let a ← d.ofJson v
    check a

/-- A string. -/
def string : Decoder String where
  ofDoc
    | .str pieces => inText (textOf pieces)
    | doc => rejectDoc "a string" doc
  ofJson
    | .str s => .ok s
    | v => rejectJson "a string" v

/-- A truth value. -/
def bool : Decoder Bool where
  ofDoc
    | .bool b => .ok b
    | doc => rejectDoc "a boolean" doc
  ofJson
    | .bool b => .ok b
    | v => rejectJson "a boolean" v

/-- A value or null. -/
def nullable (d : Decoder α) : Decoder (Option α) where
  ofDoc
    | .null => .ok none
    | doc => (d.ofDoc doc).map some
  ofJson
    | .null => .ok none
    | v => (d.ofJson v).map some

/-- An array of values. -/
def list (d : Decoder α) : Decoder (List α) where
  ofDoc
    | .arr items ending => do
      let as ← items.mapM d.ofDoc
      inText ending.read
      return as
    | doc => rejectDoc "a sequence" doc
  ofJson
    | .arr items => items.mapM d.ofJson
    | v => rejectJson "a sequence" v

/-- The name of a task type. -/
def taskType : Decoder TaskType :=
  string.refine fun raw => (TaskType.ofString raw).mapError .refused

/-- Reads a text that holds one value and otherwise only spaces. -/
def ofText (d : Decoder α) (text : String) : Except ReadError α := do
  let (doc, rest) := Doc.parse (Token.scan text.toList)
  let a ← d.ofDoc doc
  if rest.isEmpty then return a else throw (.text .malformed)

end Decoder

end TaskFlow.Json
