import TaskFlow.Fault
import TaskFlow.Graph.NameTable
import TaskFlow.Graph.Positions
import TaskFlow.TaskType.Descriptor

/-! # Workflow graphs

The tasks of a workflow in declaration order and a table of their names (`Roster`), with two tables
of neighbours: for each task the positions of those that depend on it and of those it depends on.
Tasks are asked for by name, and the table of names says where they are; an answer lists them in
declaration order. -/

namespace TaskFlow

/-- A task of a graph. -/
structure Node where
  name : String
  taskType : TaskType
  skip : Bool
deriving DecidableEq, Repr

/-- Tasks, and where they are found by name. -/
structure Roster where
  /-- The tasks in declaration order. -/
  nodes : List Node
  /-- The position of each name. -/
  names : NameTable
deriving DecidableEq, Repr

namespace Roster

/-- No tasks. -/
def empty : Roster :=
  ⟨[], .empty⟩

/-- The roster with one more task, which takes the next position. -/
def snoc (s : Roster) (n : Node) : Roster where
  nodes := s.nodes ++ [n]
  names := s.names.insert n.name s.nodes.length

/-- The position of the task of that name. -/
def position? (s : Roster) (name : String) : Option Nat :=
  s.names.find? name

end Roster

/-- The tasks of a workflow and who depends on whom. -/
structure Graph extends Roster where
  /-- The name of the workflow. -/
  name : String
  /-- For each task, the positions of the tasks that depend on it. -/
  successors : List Positions
  /-- For each task, the positions of the tasks it depends on. -/
  predecessors : List Positions
deriving DecidableEq, Repr

/-- A question about a task that the workflow does not have. -/
structure UnknownTask where
  name : String
  workflow : String
deriving DecidableEq, Repr

namespace UnknownTask

def message (e : UnknownTask) : String :=
  "cannot find task '" ++ e.name ++ "' in workflow '" ++ e.workflow ++ "'"

def fault (e : UnknownTask) : Fault :=
  { kind := .invalidInput, message := e.message }

end UnknownTask

namespace Graph

/-! ### Tasks by name and by position -/

/-- The task of that name. -/
def node? (g : Graph) (name : String) : Option Node :=
  (g.position? name).bind fun p => g.nodes[p]?

/-- The position of the task of that name, or the reason why there is none. -/
def position (g : Graph) (name : String) : Except UnknownTask Nat :=
  match g.position? name with
  | some p => .ok p
  | none => .error { name := name, workflow := g.name }

/-- The tasks at some positions. -/
def nodesAt (g : Graph) (ps : List Nat) : List Node :=
  ps.filterMap fun p => g.nodes[p]?

/-! ### Neighbours -/

/-- The tasks whose entry in a table of neighbours is empty. -/
def nodesWithout (g : Graph) (table : List Positions) : List Node :=
  (g.nodes.zip table).filterMap fun e => if e.2.isEmpty then some e.1 else none

/-- The neighbours of a task in a table. -/
def neighbours (g : Graph) (table : List Positions) (name : String) :
    Except UnknownTask (List Node) := do
  let p ← g.position name
  return g.nodesAt (table[p]?.getD .empty).toList

/-- The tasks that depend on no other. -/
def roots (g : Graph) : List Node :=
  g.nodesWithout g.predecessors

/-- The tasks that no other depends on. -/
def leaves (g : Graph) : List Node :=
  g.nodesWithout g.successors

/-- The tasks that depend directly on the named one; without a name, the roots. -/
def directPost (g : Graph) : Option String → Except UnknownTask (List Node)
  | some name => g.neighbours g.successors name
  | none => .ok g.roots

/-- The tasks that the named one depends on directly; without a name, the leaves. -/
def directPre (g : Graph) : Option String → Except UnknownTask (List Node)
  | some name => g.neighbours g.predecessors name
  | none => .ok g.leaves

/-- The tasks that run as a stream. -/
def streamingNodes (g : Graph) : List Node :=
  g.nodes.filter fun n => n.taskType.isStreaming

/-- The tasks marked to be skipped. -/
def skippedNodes (g : Graph) : List Node :=
  g.nodes.filter fun n => n.skip

end Graph

end TaskFlow
