import TaskFlow.Definition
import TaskFlow.Json.Record

/-! # The stored form of definitions

Definitions, tasks and relations as JSON records.  A written definition has all its fields; a read
one may leave out those that have a default.  Null is accepted for the source of a relation only. -/

namespace TaskFlow

open Json (Decoder Record)

namespace Task

/-- How a task is written. -/
def record : Record Task where
  title := "TaskDefinition"
  blank := { name := "", typeName := "" }
  fields := [
    { name := "name", required := true
      set := Decoder.string.map fun s t => { t with name := s } },
    { name := "task_type", required := true
      set := Decoder.string.map fun s t => { t with typeName := s } },
    { name := "skip", required := false
      set := Decoder.bool.map fun b t => { t with skip := b } }]

def decoder : Decoder Task :=
  record.decoder

def toJson (t : Task) : Json :=
  .obj [("name", .str t.name), ("task_type", .str t.typeName), ("skip", .bool t.skip)]

end Task

namespace Relation

/-- How a relation is written. -/
def record : Record Relation where
  title := "Relation"
  blank := { target := "" }
  fields := [
    { name := "from", required := false
      set := Decoder.string.nullable.map fun s r => { r with source := s } },
    { name := "to", required := true
      set := Decoder.string.map fun s r => { r with target := s } }]

def decoder : Decoder Relation :=
  record.decoder

def toJson (r : Relation) : Json :=
  .obj [("from", r.source.elim .null .str), ("to", .str r.target)]

end Relation

namespace Definition

/-- How a definition is written. -/
def record : Record Definition where
  title := "WorkflowDefinition"
  blank := { name := "" }
  fields := [
    { name := "name", required := true
      set := Decoder.string.map fun s d => { d with name := s } },
    { name := "tasks", required := false
      set := Task.decoder.list.map fun ts d => { d with tasks := ts } },
    { name := "relations", required := false
      set := Relation.decoder.list.map fun rs d => { d with relations := rs } }]

def decoder : Decoder Definition :=
  record.decoder

def toJson (d : Definition) : Json :=
  .obj [("name", .str d.name), ("tasks", .arr (d.tasks.map Task.toJson)),
    ("relations", .arr (d.relations.map Relation.toJson))]

end Definition

end TaskFlow
