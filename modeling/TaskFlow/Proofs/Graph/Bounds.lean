import TaskFlow.Proofs.Graph.Construction

/-! # What the sorting looks up

A sorting looks up counters and table entries by position, lowers counters and makes tasks ready.
`Sorting.run?` takes the steps of `Sorting.run` as long as each of them is in order: a position that
is looked up is one of the table, a counter that is lowered is positive, and a task that is made
ready has not been ready before.  At the first step that is not, it gives up.

On tables that mirror each other it never does (`run?_eq_some`).  With what holds of the state
before every step (`Settled`), this is said of the graphs that definitions make, with cycles or
without (`sorting_settled`). -/

namespace TaskFlow

open Positions (entry)

namespace Sorting

variable {n : Nat} {successors predecessors : List Positions} {s : Sorting} {p q : Nat}

/-! ### Steps that give up -/

/-- Lowers the counter of `next`, which has to be there and positive.  When it comes to zero, `next`
becomes ready, and has to be neither ready nor listed before. -/
def release? (s : Sorting) (next : Nat) : Option Sorting :=
  match s.pending[next]? with
  | none | some 0 => none
  | some 1 => if next ∈ s.ready ∨ next ∈ s.order then none else some (s.release next)
  | some (_ + 2) => some (s.release next)

/-- Lists the task at `p`, which has to have an entry in the table, and releases its successors. -/
def emit? (successors : List Positions) (s : Sorting) (p : Nat) (ready : Positions) :
    Option Sorting := do
  let next ← successors[p]?
  next.toList.foldlM release? { s with ready := ready, order := s.order ++ [p] }

/-- Takes at most `n` steps, and gives up where one is not in order. -/
def run? (successors : List Positions) : Nat → Sorting → Option Sorting
  | 0, s => some s
  | n + 1, s =>
    match s.ready.pop? with
    | none => some s
    | some (p, ready) => do
      let s ← s.emit? successors p ready
      run? successors n s

/-- The state before a step: the counters, the ready tasks and the list agree. -/
structure Settled (n : Nat) (predecessors : List Positions) (s : Sorting) : Prop where
  length_pending : s.pending.length = n
  /-- A counter is the number of predecessors that are not listed. -/
  pending : ∀ q < n, s.pending[q]? = some ((entry predecessors q).toList.countP (· ∉ s.order))
  ready : ∀ q, q ∈ s.ready ↔ q < n ∧ s.pending[q]? = some 0 ∧ q ∉ s.order
  lt : ∀ q ∈ s.order, q < n
  nodup : s.order.Nodup
  /-- With a task, all its predecessors are listed. -/
  closed : ∀ q ∈ s.order, ∀ p ∈ entry predecessors q, p ∈ s.order

theorem Invariant.settled (h : Invariant n predecessors s) : Settled n predecessors s where
  length_pending := h.length_pending
  pending q hq := by
    rw [h.pending q hq]
    simp [openCount]
  ready q := by
    rw [h.ready, and_comm (a := q ∉ s.order)]
  lt _ := h.greedy.lt_of_mem
  nodup := h.greedy.nodup
  closed _ hq _ he := h.greedy.closed hq he

/-! ### No step gives up -/

theorem Releasing.release?_eq_some {due : List Nat} (h : Releasing n predecessors (q :: due) s)
    (hq : q < n) (horder : q ∉ s.order) : s.release? q = some (s.release q) := by
  have hpending := h.pending_pos hq
  have hready : q ∉ s.ready := by
    rw [h.ready, hpending]
    simp
  rw [release?, hpending]
  cases openCount predecessors s.order q with
  | zero => simp [hready, horder]
  | succ k => rfl

theorem Releasing.foldlM_release? {due : List Nat} (h : Releasing n predecessors due s)
    (hdue : due.Nodup) (hlt : ∀ q ∈ due, q < n) (horder : ∀ q ∈ due, q ∉ s.order) :
    due.foldlM Sorting.release? s = some (due.foldl Sorting.release s) := by
  induction due generalizing s with
  | nil => rfl
  | cons q due ih =>
      obtain ⟨hq, hdue⟩ := List.nodup_cons.1 hdue
      obtain ⟨hqn, hlt⟩ := List.forall_mem_cons.1 hlt
      obtain ⟨hqo, horder⟩ := List.forall_mem_cons.1 horder
      rw [List.foldlM_cons, h.release?_eq_some hqn hqo, List.foldl_cons]
      exact ih (h.release hqn hq hqo) hdue hlt horder

theorem Invariant.emit?_eq_some (hm : Mirrored n successors predecessors)
    (h : Invariant n predecessors s) {rest : Positions} (hpop : s.ready.pop? = some (p, rest)) :
    s.emit? successors p rest = some (s.emit successors p rest) := by
  have hp : p < successors.length := by
    rw [hm.length_successors]
    exact (h.least hpop).lt
  have hentry : successors[p]? = some (entry successors p) := by simp [entry, hp]
  obtain ⟨hlt, horder⟩ := h.due hm hpop
  rw [emit?, hentry]
  exact (h.releasing hm hpop).foldlM_release? (Positions.nodup _) hlt horder

theorem run?_eq_some (hm : Mirrored n successors predecessors) (h : Invariant n predecessors s)
    (k : Nat) : run? successors k s = some (run successors k s) := by
  induction k generalizing s with
  | zero => rfl
  | succ k ih =>
      rw [run?, run, step]
      cases hpop : s.ready.pop? with
      | none => rfl
      | some popped =>
          obtain ⟨p, rest⟩ := popped
          dsimp only [Option.map_some]
          rw [h.emit?_eq_some hm hpop]
          exact ih (emit_invariant hm h hpop).1

end Sorting

namespace Graph

variable {g u : Graph} {d : Definition}

/-- The sorting of the graph after at most `k` steps. -/
def sortedIn (g : Graph) (k : Nat) : Sorting :=
  .run g.successors k (.start g.predecessors)

theorem run?_sortedIn (hm : Mirrored g.nodes.length g.successors g.predecessors) (k : Nat) :
    Sorting.run? g.successors k (.start g.predecessors) = some (g.sortedIn k) :=
  Sorting.run?_eq_some hm (Sorting.start_invariant hm.length_predecessors) k

/-- **A sorting stays in order.**  Whatever graph the tasks and relations of a definition make,
before every step of its sorting the counters, the ready tasks and the list agree, and no step looks
up a position outside its table, lowers a counter that is zero or makes a task ready a second time.
After as many steps as there are tasks nothing is ready, and if a task is missing from the list
then, the one that is stuck is a task of the graph. -/
theorem sorting_settled (hu : ofTasks d = .ok u) (hg : u.relateAll 0 d.relations = .ok g)
    (k : Nat) :
    (g.sortedIn k).Settled g.nodes.length g.predecessors ∧
      Sorting.run? g.successors k (.start g.predecessors) = some (g.sortedIn k) ∧
      (g.nodes.length ≤ k → (g.sortedIn k).step g.successors = none) ∧
      g.sorted = g.sortedIn g.nodes.length ∧
      (g.sorted.order.length < g.nodes.length → g.sorted.stuck < g.nodes.length) := by
  have hm := (of_relateAll hu hg).represents.mirrored
  have hstart := Sorting.start_invariant hm.length_predecessors
  obtain ⟨hend, hready⟩ := sorted_invariant hm
  refine ⟨(Sorting.run_invariant hm hstart k).settled, run?_sortedIn hm k, fun hk => ?_, rfl,
    hend.stuck_lt hready⟩
  exact Sorting.step_eq_none.2 (Sorting.ready_run hm hstart (Nat.le_add_left_of_le hk))

/-- Two tasks that depend on each other, one of them also on a third. -/
def blocked : Definition where
  name := "etl"
  tasks := [⟨"load", "SQL", false⟩, ⟨"check", "SHELL", false⟩, ⟨"extract", "DATAX", false⟩]
  relations := [⟨some "extract", "load"⟩, ⟨some "load", "check"⟩, ⟨some "check", "load"⟩]

/-- What the tasks and relations of `blocked` make. -/
def blockedGraph : Graph where
  name := "etl"
  nodes := [⟨"load", .sql, false⟩, ⟨"check", .shell, false⟩, ⟨"extract", .dataX, false⟩]
  names := .insert (.insert (.insert .empty "load" 0) "check" 1) "extract" 2
  successors := [.insert .empty 1, .insert .empty 0, .insert .empty 0]
  predecessors := [.insert (.insert .empty 1) 2, .insert .empty 0, .empty]

/-- One step lists the third task; the other two wait for each other. -/
theorem sorting_blocked :
    ofTasks blocked = .ok (unrelated "etl" blockedGraph.toRoster) ∧
      (unrelated "etl" blockedGraph.toRoster).relateAll 0 blocked.relations = .ok blockedGraph ∧
      Sorting.run? blockedGraph.successors 1 (.start blockedGraph.predecessors) =
        some { pending := [1, 1, 0], ready := .empty, order := [2] } ∧
      (blockedGraph.sortedIn 1).Settled 3 blockedGraph.predecessors ∧
      (blockedGraph.sortedIn 3).step blockedGraph.successors = none := by
  have hu : ofTasks blocked = .ok (unrelated "etl" blockedGraph.toRoster) := by rfl
  have hg : (unrelated "etl" blockedGraph.toRoster).relateAll 0 blocked.relations =
      .ok blockedGraph := by rfl
  obtain ⟨hsettled, hrun, -⟩ := sorting_settled hu hg 1
  obtain ⟨-, -, hend, -⟩ := sorting_settled hu hg 3
  exact ⟨hu, hg, hrun, hsettled, hend (Nat.le_refl 3)⟩

end Graph

end TaskFlow
