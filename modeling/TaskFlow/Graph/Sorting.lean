import TaskFlow.Graph.Positions

/-! # Sorting a graph by dependency

The state of a run that lists the tasks of a graph one by one, always the least position whose
predecessors are all listed.  `Sorting.step` lists one task; `Sorting.run` takes a number of steps,
and as many steps as there are tasks are enough, because each step lists another task.  A task on or
behind a cycle is never listed: it keeps a positive number of pending predecessors. -/

namespace TaskFlow

/-- How far the sorting of a graph has come. -/
structure Sorting where
  /-- For each task, the number of its predecessors that are not listed yet. -/
  pending : List Nat
  /-- The tasks that may be listed next. -/
  ready : Positions
  /-- The tasks listed so far. -/
  order : List Nat
deriving DecidableEq, Repr

namespace Sorting

/-- Nothing is listed, and the tasks without predecessors are ready. -/
def start (predecessors : List Positions) : Sorting :=
  let pending := predecessors.map Positions.size
  { pending := pending
    ready := .ofPredicate pending.length fun p => pending[p]? == some 0
    order := [] }

/-- One predecessor of `next` less is pending; when none is left, `next` is ready. -/
def release (s : Sorting) (next : Nat) : Sorting :=
  let pending := s.pending.modify next (· - 1)
  { s with
    pending := pending
    ready := if pending[next]? = some 0 then s.ready.insert next else s.ready }

/-- Lists the task at `p`, which is no longer ready, and releases its successors. -/
def emit (successors : List Positions) (s : Sorting) (p : Nat) (ready : Positions) : Sorting :=
  (successors[p]?.getD .empty).toList.foldl release
    { s with ready := ready, order := s.order ++ [p] }

/-- Lists the least task that is ready, if any is. -/
def step (successors : List Positions) (s : Sorting) : Option Sorting :=
  s.ready.pop?.map fun (p, ready) => s.emit successors p ready

/-- Takes at most `n` steps. -/
def run (successors : List Positions) : Nat → Sorting → Sorting
  | 0, s => s
  | n + 1, s =>
    match s.step successors with
    | none => s
    | some s => run successors n s

/-- The first task with a pending predecessor; the number of tasks if there is none. -/
def stuck (s : Sorting) : Nat :=
  s.pending.findIdx (0 < ·)

end Sorting

end TaskFlow
