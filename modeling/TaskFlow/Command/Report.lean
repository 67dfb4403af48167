import TaskFlow.Command.Rendering
import TaskFlow.Graph.Build

/-! # Reports on workflows

What is told about a workflow whose definition has a graph: how many tasks it has, where it starts,
an order of its tasks, which of them are streams and which are skipped.  Tasks are told by name. -/

namespace TaskFlow

/-- What is told about a workflow. -/
structure Report where
  workflow : String
  tasks : Nat
  roots : List String
  order : List String
  streaming : List String
  skipped : List String
deriving DecidableEq, Repr

/-- The report on a graph. -/
def Graph.report (g : Graph) : Report where
  workflow := g.name
  tasks := g.nodes.length
  roots := g.roots.map Node.name
  order := g.topologicalOrder.map Node.name
  streaming := g.streamingNodes.map Node.name
  skipped := g.skippedNodes.map Node.name

namespace Report

/-- The names of some tasks. -/
def namesJson (names : List String) : Json :=
  .arr (names.map .str)

def toJson (r : Report) : Json :=
  .obj [("workflow", .str r.workflow), ("tasks", .nat r.tasks), ("roots", namesJson r.roots),
    ("order", namesJson r.order), ("streaming", namesJson r.streaming),
    ("skipped", namesJson r.skipped)]

/-- The line about skipped tasks; none when no task is skipped. -/
def skippedLine (r : Report) : List String :=
  if r.skipped.isEmpty then [] else ["skipped:   " ++ ", ".intercalate r.skipped]

def rendering (r : Report) : Rendering where
  lines := [
    "OK: " ++ r.workflow ++ " (" ++ toString r.tasks ++ " tasks)",
    "roots:     " ++ ", ".intercalate r.roots,
    "order:     " ++ " -> ".intercalate r.order,
    "streaming: " ++ ", ".intercalate r.streaming] ++ r.skippedLine
  json := r.toJson

end Report

end TaskFlow
