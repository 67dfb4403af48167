import TaskFlow.Definition
import TaskFlow.Graph.Basic
import TaskFlow.Graph.Sorting
import TaskFlow.Registry
import TaskFlow.Text.Blank

/-! # From a definition to a graph

A definition has a graph when its tasks have names that are neither blank nor repeated and types
that exist, its relations speak of declared tasks and of two different ones, and no task depends on
itself through others.  `Graph.build` makes the graph or names the first defect: the tasks are
looked at in order, then the relations in order, then cycles. -/

namespace TaskFlow

namespace Graph

/-- Why a definition has no graph, with the position of the task or relation at fault. -/
inductive Defect
  | blankName (task : Nat)
  | unknownType (task : Nat) (name : String) (raw : String)
  | repeatedName (task : Nat) (name : String)
  | unknownTarget (relation : Nat) (name : String)
  | unknownSource (relation : Nat) (name : String)
  | selfDependency (relation : Nat) (name : String)
  | cycle (task : Nat) (name : String)
deriving DecidableEq, Repr

namespace Defect

def kind : Defect → FaultKind
  | unknownType .. => .unknownTaskType
  | _ => .invalidWorkflow

/-- What is wrong with a workflow of that name. -/
def message (workflow : String) : Defect → String
  | unknownType _ name raw => "task '" ++ name ++ "': " ++ (NameError.unknownTaskType raw).message
  | blankName _ => within "task name cannot be empty"
  | repeatedName _ name => within ("duplicate task name '" ++ name ++ "'")
  | unknownTarget _ name | unknownSource _ name =>
    within ("relation references unknown task '" ++ name ++ "'")
  | selfDependency _ name => within ("task '" ++ name ++ "' cannot depend on itself")
  | cycle _ name => within ("dependency cycle through task '" ++ name ++ "'")
where
  within (what : String) : String := "workflow '" ++ workflow ++ "': " ++ what

def fault (workflow : String) (e : Defect) : Fault :=
  { kind := e.kind, message := e.message workflow }

end Defect

/-! ### Tasks -/

/-- Adds a declared task to the roster of the tasks before it. -/
def addTask (s : Roster) (task : Task) : Except Defect Roster :=
  if Text.isBlankText task.name then .error (.blankName s.nodes.length)
  else
    match Registry.standard.resolve task.typeName with
    | .error _ => .error (.unknownType s.nodes.length task.name task.typeName)
    | .ok t =>
      if (s.position? task.name).isSome then .error (.repeatedName s.nodes.length task.name)
      else .ok (s.snoc { name := task.name, taskType := t, skip := task.skip })

/-- The graph of some tasks on which nothing depends yet. -/
def unrelated (name : String) (s : Roster) : Graph where
  toRoster := s
  name := name
  successors := s.nodes.map fun _ => .empty
  predecessors := s.nodes.map fun _ => .empty

/-- The graph of the tasks of a definition, without its relations. -/
def ofTasks (d : Definition) : Except Defect Graph :=
  (unrelated d.name) <$> d.tasks.foldlM addTask .empty

/-! ### Relations -/

/-- Makes the task at `target` depend on the one at `source`. -/
def link (g : Graph) (source target : Nat) : Graph :=
  { g with
    successors := g.successors.modify source (·.insert target)
    predecessors := g.predecessors.modify target (·.insert source) }

/-- Adds a relation, the one at position `j` of its definition.  Without a source it only has to
speak of a declared task. -/
def relate (g : Graph) (j : Nat) (r : Relation) : Except Defect Graph :=
  match g.position? r.target, r.source with
  | none, _ => .error (.unknownTarget j r.target)
  | some _, none => .ok g
  | some target, some name =>
    match g.position? name with
    | none => .error (.unknownSource j name)
    | some source =>
      if source = target then .error (.selfDependency j name) else .ok (g.link source target)

/-- The graph with more relations, the first of which has position `j` in its definition. -/
def relateAll (g : Graph) (j : Nat) : List Relation → Except Defect Graph
  | [] => .ok g
  | r :: rs => do
    let g ← g.relate j r
    g.relateAll (j + 1) rs

/-! ### Order -/

/-- The state in which the sorting of the graph ends. -/
def sorted (g : Graph) : Sorting :=
  .run g.successors g.nodes.length (.start g.predecessors)

/-- The positions of the tasks in an order in which each comes after those it depends on. -/
def order (g : Graph) : Except Defect (List Nat) :=
  let s := g.sorted
  if s.order.length < g.nodes.length then
    .error (.cycle s.stuck ((g.nodes[s.stuck]?.map Node.name).getD ""))
  else .ok s.order

/-- The tasks, each after those it depends on, and otherwise as early as its position allows. -/
def topologicalOrder (g : Graph) : List Node :=
  match g.order with
  | .ok ps => g.nodesAt ps
  | .error _ => []

/-! ### The graph of a definition -/

/-- The graph of a definition, or its first defect. -/
def build (d : Definition) : Except Defect Graph := do
  let unlinked ← ofTasks d
  let g ← unlinked.relateAll 0 d.relations
  let _ ← g.order
  return g

end Graph

end TaskFlow
