import TaskFlow.Proofs.Graph.Bounds
import TaskFlow.Proofs.Graph.Neighbours
import TaskFlow.Registry

/-! # How a graph is stored

A graph keeps its tasks in a list, their names in a table and its edges in two more.
`Graph.Stores` says how these fit the definition and each other; it holds from the first relation
that is entered to the last.  Questions then find every position they look up: asked in a way that
gives up outside the list and the tables, they have the same answers (`Graph.AnswersWithin`).

`stores_and_answers` puts both together. -/

namespace TaskFlow

open Positions (entry)

namespace Graph

variable {g u : Graph} {d : Definition} {name : String} {p : Nat} {done : List Relation}

/-! ### What holds after each relation -/

/-- The parts of a graph fit the declared tasks and each other. -/
structure Stores (g : Graph) (tasks : List Task) : Prop where
  /-- There is one node for each task, in declaration order. -/
  nodes : List.Forall₂ Node.Of g.nodes tasks
  /-- The names in the table are those of the tasks, each with the position of its task. -/
  names : ∀ name p, g.names.find? name = some p ↔ ∃ t, tasks[p]? = some t ∧ t.name = name
  /-- Each position is that of exactly one name. -/
  existsUnique_name : ∀ p < g.nodes.length, ∃! name, g.names.find? name = some p
  length_successors : g.successors.length = g.nodes.length
  length_predecessors : g.predecessors.length = g.nodes.length
  lt_of_mem_successors : ∀ ps ∈ g.successors, ∀ q ∈ ps, q < g.nodes.length
  lt_of_mem_predecessors : ∀ ps ∈ g.predecessors, ∀ q ∈ ps, q < g.nodes.length
  mem_iff : ∀ i j, j ∈ entry g.successors i ↔ i ∈ entry g.predecessors j
  irrefl : ∀ i, i ∉ entry g.successors i

theorem entry_of_mem {table : List Positions} {ps : Positions} (h : ps ∈ table) :
    ∃ p, entry table p = ps := by
  obtain ⟨p, hp, rfl⟩ := List.mem_iff_getElem.1 h
  exact ⟨p, by simp [entry, hp]⟩

theorem Of.nodes_iff_tasks (hg : g.Of d) :
    (∃ n, g.nodes[p]? = some n ∧ n.name = name) ↔ ∃ t, d.tasks[p]? = some t ∧ t.name = name := by
  constructor
  · rintro ⟨n, hn, rfl⟩
    obtain ⟨t, ht, hof⟩ := hg.exists_task hn
    exact ⟨t, ht, hof.name.symm⟩
  · rintro ⟨t, ht, rfl⟩
    obtain ⟨hp, rfl⟩ := List.getElem?_eq_some_iff.1 ht
    have hp' : p < g.nodes.length := by rw [hg.length_nodes]; exact hp
    exact ⟨g.nodes[p], List.getElem?_eq_getElem hp', (hg.nodes.get hp' hp).name⟩

theorem Of.stores (hg : g.Of d) : g.Stores d.tasks where
  nodes := hg.nodes
  names name p := (hg.represents.indexed name p).trans hg.nodes_iff_tasks
  existsUnique_name p hp :=
    ⟨g.nameAt p, hg.position?_nameAt hp, fun _ hname => (hg.nameAt_eq hname).symm⟩
  length_successors := hg.represents.mirrored.length_successors
  length_predecessors := hg.represents.mirrored.length_predecessors
  lt_of_mem_successors ps hps q hq := by
    obtain ⟨p, rfl⟩ := entry_of_mem hps
    exact (hg.represents.mirrored.lt_of_mem_successors hq).2
  lt_of_mem_predecessors ps hps q hq := by
    obtain ⟨p, rfl⟩ := entry_of_mem hps
    exact (hg.represents.mirrored.lt_of_mem_predecessors hq).1
  mem_iff := hg.represents.mirrored.mem_iff
  irrefl i hi := hg.represents.irrefl i ((hg.represents.mirrored.mem_iff i i).1 hi)

/-! ### Questions that give up -/

/-- The tasks at some positions, all of which have to be there. -/
def nodesAt? (g : Graph) (ps : List Nat) : Option (List Node) :=
  ps.mapM fun p => g.nodes[p]?

/-- The task of that name, which has to be at the position that the name has. -/
def nodeNamed? (g : Graph) (name : String) : Option (Option Node) :=
  match g.position? name with
  | some p => g.nodes[p]?.map some
  | none => some none

/-- The neighbours of a task, which has to have an entry in the table; its positions have to be
there. -/
def neighbours? (g : Graph) (table : List Positions) (name : String) :
    Option (Except UnknownTask (List Node)) :=
  match g.position name with
  | .ok p => do
    let ps ← table[p]?
    let ns ← g.nodesAt? ps.toList
    return .ok ns
  | .error e => some (.error e)

def directPost? (g : Graph) : Option String → Option (Except UnknownTask (List Node))
  | some name => g.neighbours? g.successors name
  | none => some (.ok g.roots)

def directPre? (g : Graph) : Option String → Option (Except UnknownTask (List Node))
  | some name => g.neighbours? g.predecessors name
  | none => some (.ok g.leaves)

/-- The tasks in order, sorted without a step that gives up. -/
def topologicalOrder? (g : Graph) : Option (List Node) := do
  let s ← Sorting.run? g.successors g.nodes.length (.start g.predecessors)
  if s.order.length < g.nodes.length then return [] else g.nodesAt? s.order

/-- No question to the graph looks up a position that is not there. -/
structure AnswersWithin (g : Graph) : Prop where
  nodeNamed? : ∀ name, g.nodeNamed? name = some (g.node? name)
  directPost? : ∀ name, g.directPost? name = some (g.directPost name)
  directPre? : ∀ name, g.directPre? name = some (g.directPre name)
  topologicalOrder? : g.topologicalOrder? = some g.topologicalOrder
  streamingNodes : ∀ n ∈ g.nodes,
    Registry.standard.isStreaming? n.taskType = some n.taskType.isStreaming
  /-- The tables are as long as the list of tasks: each task is paired with its own entry. -/
  unzip_successors : (g.nodes.zip g.successors).unzip = (g.nodes, g.successors)
  unzip_predecessors : (g.nodes.zip g.predecessors).unzip = (g.nodes, g.predecessors)

theorem nodesAt?_eq_some {ps : List Nat} (hlt : ∀ p ∈ ps, p < g.nodes.length) :
    g.nodesAt? ps = some (g.nodesAt ps) := by
  induction ps with
  | nil => rfl
  | cons p ps ih =>
      obtain ⟨hp, hps⟩ := List.forall_mem_cons.1 hlt
      have ih := ih hps
      rw [nodesAt?] at ih
      rw [nodesAt?, List.mapM_cons, ih, List.getElem?_eq_getElem hp, nodesAt_cons hp]
      rfl

theorem nodeNamed?_eq_some (hg : g.Indexed) : g.nodeNamed? name = some (g.node? name) := by
  rw [nodeNamed?, node?]
  cases hp : g.position? name with
  | none => rfl
  | some p =>
      have hlt := hg.lt_of_position? hp
      simp [hlt]

theorem neighbours?_eq_some (hg : g.Indexed) {table : List Positions}
    (hlen : table.length = g.nodes.length) (hlt : ∀ ps ∈ table, ∀ q ∈ ps, q < g.nodes.length) :
    g.neighbours? table name = some (g.neighbours table name) := by
  cases hp : g.position? name with
  | none => rw [neighbours?, position_eq_error hp, neighbours_eq_error hp]
  | some p =>
      have htable : p < table.length := by
        rw [hlen]
        exact hg.lt_of_position? hp
      have hentry : entry table p = table[p] := by simp [entry, htable]
      rw [neighbours_eq_ok hp, neighbours?, position, hp]
      dsimp only
      rw [List.getElem?_eq_getElem htable, Option.bind_eq_bind, Option.bind_some,
        nodesAt?_eq_some (hlt _ (List.getElem_mem htable)), hentry]
      rfl

theorem topologicalOrder?_eq_some (hm : Mirrored g.nodes.length g.successors g.predecessors) :
    g.topologicalOrder? = some g.topologicalOrder := by
  have hlt : ∀ p ∈ g.sorted.order, p < g.nodes.length :=
    fun p hp => (sorted_invariant hm).1.greedy.lt_of_mem hp
  have hrun : Sorting.run? g.successors g.nodes.length (.start g.predecessors) = some g.sorted :=
    run?_sortedIn hm g.nodes.length
  rw [topologicalOrder?, hrun, topologicalOrder, order, Option.bind_eq_bind, Option.bind_some]
  split
  · rfl
  · exact nodesAt?_eq_some hlt

theorem Of.answersWithin (hg : g.Of d) : g.AnswersWithin where
  nodeNamed? _ := nodeNamed?_eq_some hg.represents.indexed
  directPost? name := by
    cases name with
    | none => rfl
    | some name =>
        have hstores := hg.stores
        exact neighbours?_eq_some hg.represents.indexed hstores.length_successors
          hstores.lt_of_mem_successors
  directPre? name := by
    cases name with
    | none => rfl
    | some name =>
        have hstores := hg.stores
        exact neighbours?_eq_some hg.represents.indexed hstores.length_predecessors
          hstores.lt_of_mem_predecessors
  topologicalOrder? := topologicalOrder?_eq_some hg.represents.mirrored
  streamingNodes n _ := Registry.isStreaming?_standard n.taskType
  unzip_successors := List.unzip_zip hg.stores.length_successors.symm
  unzip_predecessors := List.unzip_zip hg.stores.length_predecessors.symm

/-- **A graph is stored soundly.**  From the first relation that is entered to the last, the nodes,
the table of names and the tables of neighbours of a graph fit the definition and each other; and no
question to a graph that is built, whatever name it asks for, looks up a position that is not
there. -/
theorem stores_and_answers (d : Definition) :
    (∀ u done rest g, d.relations = done ++ rest → ofTasks d = .ok u →
        u.relateAll 0 done = .ok g → g.Stores d.tasks) ∧
      ∀ g, build d = .ok g → g.Stores d.tasks ∧ g.AnswersWithin := by
  constructor
  · intro u done rest g _ hu hg
    exact (of_relateAll_first hu hg).stores
  · intro g h
    exact ⟨(of_build h).stores, (of_build h).answersWithin⟩

theorem stores_and_answers_lateSource :
    (∃ u g, ofTasks lateSource = .ok u ∧ u.relateAll 0 (lateSource.relations.take 1) = .ok g ∧
        g.Stores lateSource.tasks) ∧
      build lateSource = .ok lateSourceGraph ∧ lateSourceGraph.Stores lateSource.tasks ∧
      lateSourceGraph.topologicalOrder? =
        some [⟨"report", .shell, true⟩, ⟨"extract", .dataX, false⟩, ⟨"load", .sql, false⟩] ∧
      lateSourceGraph.directPost? (some "extract") = some (.ok [⟨"load", .sql, false⟩]) := by
  have hsplit := (List.take_append_drop 1 lateSource.relations).symm
  have hbuild : build lateSource = .ok lateSourceGraph := by rfl
  obtain ⟨hfirst, haccepted⟩ := stores_and_answers lateSource
  obtain ⟨hstores, hanswers⟩ := haccepted _ hbuild
  exact ⟨⟨_, _, rfl, rfl, hfirst _ _ _ _ hsplit rfl rfl⟩, hbuild, hstores,
    hanswers.topologicalOrder?, hanswers.directPost? (some "extract")⟩

end Graph

end TaskFlow
