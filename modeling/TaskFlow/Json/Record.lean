import TaskFlow.Json.Decoder

/-! # Records

A record is written as an object with a member for each field, or as an array of its fields in
declaration order.  Fields that are not required may be left out, in an array only at its end; they
keep the value of the blank record.  Members that are no fields are passed over.

Reading collects what is given for each field and then fills the blank record in declaration order
(`Record.fill`), so that the order of the members does not matter to the result. -/

namespace TaskFlow.Json

/-- A field of the record `σ`. -/
structure Field (σ : Type) where
  name : String
  required : Bool
  /-- Reads the value of the field, as the change that it makes to a record. -/
  set : Decoder (σ → σ)

/-- The changes that have been read, with the names of their fields. -/
abbrev Given (σ : Type) : Type :=
  List (String × (σ → σ))

/-- How a record is written. -/
structure Record (σ : Type) where
  /-- The name under which a mismatch speaks of the record. -/
  title : String
  /-- The record without any field given. -/
  blank : σ
  /-- The fields in declaration order. -/
  fields : List (Field σ)

/-! ### The members of a parsed object -/

/-- Puts a member among others in the order of keys, in place of one with the same key. -/
def insertMember (k : String) (v : Json) : List (String × Json) → List (String × Json)
  | [] => [(k, v)]
  | (l, w) :: ms =>
    if k < l then (k, v) :: (l, w) :: ms
    else if k = l then (k, v) :: ms
    else (l, w) :: insertMember k v ms

/-- The members of an object in the order of keys; of several with one key the last. -/
def byKey (members : List (String × Json)) : List (String × Json) :=
  members.foldl (fun ms m => insertMember m.1 m.2 ms) []

namespace Record

variable {σ : Type}

/-! ### From what is given to a record -/

/-- Something is given for the field of that name. -/
def isGiven (given : Given σ) (name : String) : Bool :=
  given.any fun g => g.1 == name

/-- The position of the first field that is required and not given. -/
def missing? (r : Record σ) (given : Given σ) : Option Nat :=
  r.fields.findIdx? fun f => f.required && !isGiven given f.name

/-- The blank record with all that is given filled in. -/
def fill (r : Record σ) (given : Given σ) : σ :=
  r.fields.foldl (fun s f => match given.lookup f.name with
    | some change => change s
    | none => s) r.blank

/-- The record given by members of an object. -/
def ofMembers (r : Record σ) (given : Given σ) : Except Mismatch σ :=
  match (r.missing? given).bind fun i => r.fields[i]? with
  | some f => .error (.missingField f.name)
  | none => .ok (r.fill given)

/-- The record given by items of an array. -/
def ofItems (r : Record σ) (given : Given σ) : Except Mismatch σ :=
  match r.missing? given with
  | some i => .error (.tooShort i r.title r.fields.length)
  | none => .ok (r.fill given)

/-! ### Reading -/

/-- The field of that name. -/
def field? (r : Record σ) (name : String) : Option (Field σ) :=
  r.fields.find? fun f => f.name == name

/-- Reads the members of the object of a text in the order of the text. -/
def docMembers (r : Record σ) (given : Given σ) :
    List (List Piece × Doc) → Except ReadError (Given σ)
  | [] => .ok given
  | (k, d) :: ms => do
    let key ← inText (textOf k)
    match r.field? key with
    | none =>
      inText d.skip
      docMembers r given ms
    | some f =>
      if isGiven given key then throw (.shape (.duplicateField key))
      let change ← f.set.ofDoc d
      docMembers r ((key, change) :: given) ms

/-- Reads the items of the array of a text, as many as there are fields. -/
def docItems (r : Record σ) (items : List Doc) : Except ReadError (Given σ) :=
  (r.fields.zip items).mapM fun (f, d) => return (f.name, ← f.set.ofDoc d)

/-- Reads the members of a parsed object. -/
def jsonMembers (r : Record σ) (given : Given σ) :
    List (String × Json) → Except Mismatch (Given σ)
  | [] => .ok given
  | (key, v) :: ms =>
    match r.field? key with
    | none => jsonMembers r given ms
    | some f => do
      let change ← f.set.ofJson v
      jsonMembers r ((key, change) :: given) ms

/-- Reads the items of a parsed array, as many as there are fields. -/
def jsonItems (r : Record σ) (items : List Json) : Except Mismatch (Given σ) :=
  (r.fields.zip items).mapM fun (f, v) => return (f.name, ← f.set.ofJson v)

/-- The decoder of a record. -/
def decoder (r : Record σ) : Decoder σ where
  ofDoc
    | .obj members ending => do
      let given ← r.docMembers [] members
      inText ending.read
      inShape (r.ofMembers given)
    | .arr items ending => do
      let given ← r.docItems items
      if r.fields.length < items.length then throw (.text .malformed)
      inText ending.read
      inShape (r.ofItems given)
    | doc => Decoder.rejectDoc ("struct " ++ r.title) doc
  ofJson
    | .obj members => do
      let given ← r.jsonMembers [] (byKey members)
      r.ofMembers given
    | .arr items => do
      let given ← r.jsonItems items
      let s ← r.ofItems given
      if r.fields.length < items.length then throw (.tooLong items.length)
      return s
    | v => Decoder.rejectJson ("struct " ++ r.title) v

end Record

end TaskFlow.Json
