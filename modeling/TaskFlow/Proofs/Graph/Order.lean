import TaskFlow.Proofs.Graph.Construction

/-! # The order of the tasks

A `Definition.Schedule` lists the positions of all tasks so that every dependency points forwards.
The order of a graph that is built is such a schedule, and of all of them it is the least in the
lexicographic order (`topologicalOrder_least`): among the tasks that may come next it takes the one
declared first. -/

namespace TaskFlow

/-- The positions of the tasks, each once, and the source of a dependency before its target. -/
structure Definition.Schedule (d : Definition) (ps : List Nat) : Prop where
  perm : ps.Perm (List.range d.tasks.length)
  before : ∀ p q s t, d.tasks[p]? = some s → d.tasks[q]? = some t → d.Depends s.name t.name →
    [p, q].Sublist ps

namespace Graph

variable {g : Graph} {d : Definition} {p : Nat}

/-! ### Nodes and tasks at a position -/

theorem Of.length_nodes (hg : g.Of d) : g.nodes.length = d.tasks.length :=
  hg.nodes.length_eq

theorem Of.exists_task (hg : g.Of d) {n : Node} (h : g.nodes[p]? = some n) :
    ∃ t, d.tasks[p]? = some t ∧ n.Of t := by
  obtain ⟨hp, rfl⟩ := List.getElem?_eq_some_iff.1 h
  have hp' : p < d.tasks.length := by rw [← hg.length_nodes]; exact hp
  exact ⟨d.tasks[p], List.getElem?_eq_getElem hp', hg.nodes.get hp hp'⟩

theorem Of.nameAt_of_task (hg : g.Of d) {t : Task} (h : d.tasks[p]? = some t) :
    p < g.nodes.length ∧ g.nameAt p = t.name := by
  obtain ⟨hp', rfl⟩ := List.getElem?_eq_some_iff.1 h
  have hp : p < g.nodes.length := by rw [hg.length_nodes]; exact hp'
  have hof : (g.nodes[p]).Of d.tasks[p] := hg.nodes.get hp hp'
  refine ⟨hp, ?_⟩
  simp [nameAt, hp, hof.name]

theorem Of.exists_task_of_lt (hg : g.Of d) (hp : p < g.nodes.length) :
    ∃ t, d.tasks[p]? = some t ∧ g.nameAt p = t.name := by
  have hp' : p < d.tasks.length := by rw [← hg.length_nodes]; exact hp
  have ht : d.tasks[p]? = some d.tasks[p] := List.getElem?_eq_getElem hp'
  exact ⟨_, ht, (hg.nameAt_of_task ht).2⟩

theorem nodesAt_cons (hp : p < g.nodes.length) (ps : List Nat) :
    g.nodesAt (p :: ps) = g.nodes[p] :: g.nodesAt ps := by
  simp [nodesAt, hp]

/-- The nodes at some positions have the names there. -/
theorem map_name_nodesAt {ps : List Nat} (hlt : ∀ p ∈ ps, p < g.nodes.length) :
    (g.nodesAt ps).map Node.name = ps.map g.nameAt := by
  rw [nodesAt, List.map_filterMap, ← List.filterMap_eq_map']
  refine List.filterMap_congr fun p hp => ?_
  simp [nameAt, hlt p hp]

/-- The nodes at some positions are made of the tasks there. -/
theorem Of.forall₂_nodesAt (hg : g.Of d) {ps : List Nat} (hlt : ∀ p ∈ ps, p < g.nodes.length) :
    List.Forall₂ (fun (n : Node) p => ∃ t, d.tasks[p]? = some t ∧ n.Of t) (g.nodesAt ps) ps := by
  induction ps with
  | nil => exact .nil
  | cons p ps ih =>
      obtain ⟨hp, hps⟩ := List.forall_mem_cons.1 hlt
      have hn : g.nodes[p]? = some g.nodes[p] := List.getElem?_eq_getElem hp
      rw [nodesAt_cons hp]
      exact .cons (hg.exists_task hn) (ih hps)

/-! ### Schedules -/

/-- The schedules of a definition are those of its graph. -/
theorem Of.schedule_iff (hg : g.Of d) {ps : List Nat} :
    d.Schedule ps ↔ Listing.Schedule (Sorting.Edge g.predecessors) g.nodes.length ps := by
  constructor
  · rintro ⟨hperm, hbefore⟩
    refine ⟨by rw [hg.length_nodes]; exact hperm, fun p q he => ?_⟩
    obtain ⟨hp, hq⟩ := hg.represents.mirrored.lt_of_mem_predecessors he
    obtain ⟨s, hs, hps⟩ := hg.exists_task_of_lt hp
    obtain ⟨t, ht, hqt⟩ := hg.exists_task_of_lt hq
    have hdep := hg.depends_of_edge he
    rw [hps, hqt] at hdep
    exact hbefore p q s t hs ht hdep
  · rintro ⟨hperm, hbefore⟩
    refine ⟨by rw [← hg.length_nodes]; exact hperm, fun p q s t hs ht hdep => ?_⟩
    obtain ⟨hp, hps⟩ := hg.nameAt_of_task hs
    obtain ⟨hq, hqt⟩ := hg.nameAt_of_task ht
    rw [← hps, ← hqt] at hdep
    exact hbefore p q ((hg.edge_iff hp hq).2 hdep)

theorem Of.schedule_of_order (hg : g.Of d) {ps : List Nat} (h : g.order = .ok ps) :
    d.Schedule ps := by
  obtain ⟨hgreedy, hlen⟩ := greedy_of_order hg.represents.mirrored h
  have hlt : ∀ p q, Sorting.Edge g.predecessors p q → q < g.nodes.length :=
    fun p q he => (hg.represents.mirrored.lt_of_mem_predecessors he).2
  exact hg.schedule_iff.2 (hgreedy.schedule hlt hlen)

theorem topologicalOrder_eq {ps : List Nat} (h : g.order = .ok ps) :
    g.topologicalOrder = g.nodesAt ps := by
  rw [topologicalOrder, h]

/-- The nodes of a schedule have the names of all tasks, the source of a dependency before its
target. -/
theorem Of.names_nodesAt (hg : g.Of d) {ps : List Nat} (hs : d.Schedule ps) :
    ((g.nodesAt ps).map Node.name).Perm (d.tasks.map Task.name) ∧
      ∀ a b, d.Depends a b → [a, b].Sublist ((g.nodesAt ps).map Node.name) := by
  have hlt : ∀ p ∈ ps, p < g.nodes.length := by
    intro p hp
    rw [hg.length_nodes]
    exact List.mem_range.1 (hs.perm.mem_iff.1 hp)
  rw [map_name_nodesAt hlt]
  constructor
  · have hrange : (List.range g.nodes.length).map g.nameAt = g.nodes.map Node.name := by
      refine List.ext_getElem (by simp) fun p hp _ => ?_
      rw [List.length_map, List.length_range] at hp
      simp [nameAt, hp]
    rw [← map_name_eq hg.nodes, ← hrange, hg.length_nodes]
    exact hs.perm.map g.nameAt
  · intro a b hab
    obtain ⟨p, q, hp, hq⟩ := hg.position?_of_depends hab
    obtain ⟨s, ht, hps⟩ := hg.exists_task_of_lt (hg.represents.indexed.lt_of_position? hp)
    obtain ⟨t, ht', hqt⟩ := hg.exists_task_of_lt (hg.represents.indexed.lt_of_position? hq)
    rw [hg.nameAt_eq hp] at hps
    rw [hg.nameAt_eq hq] at hqt
    have hsub := hs.before p q s t ht ht' (by rw [← hps, ← hqt]; exact hab)
    have hmap := hsub.map g.nameAt
    rwa [List.map_cons, List.map_singleton, hg.nameAt_eq hp, hg.nameAt_eq hq] at hmap

/-- A graph that is built has an order.  Its positions are the lexicographically least schedule of
the definition, and the nodes listed in this order are those of the tasks at these positions. -/
theorem topologicalOrder_least (h : build d = .ok g) :
    ∃ ps, g.order = .ok ps ∧
      List.Forall₂ (fun (n : Node) p => ∃ t, d.tasks[p]? = some t ∧ n.Of t) g.topologicalOrder ps ∧
      (g.topologicalOrder.map Node.name).Perm (d.tasks.map Task.name) ∧
      (∀ a b, d.Depends a b → [a, b].Sublist (g.topologicalOrder.map Node.name)) ∧
      d.Schedule ps ∧ ∀ qs, d.Schedule qs → Listing.LexLe ps qs := by
  have hg := of_build h
  obtain ⟨ps, hps⟩ := order_of_build h
  obtain ⟨hgreedy, hlen⟩ := greedy_of_order hg.represents.mirrored hps
  have hschedule := hg.schedule_of_order hps
  have hlt : ∀ p ∈ ps, p < g.nodes.length := fun p hp => hgreedy.lt_of_mem hp
  rw [topologicalOrder_eq hps]
  obtain ⟨hperm, hbefore⟩ := hg.names_nodesAt hschedule
  refine ⟨ps, hps, hg.forall₂_nodesAt hlt, hperm, hbefore, hschedule, ?_⟩
  intro qs hqs
  exact hgreedy.lexLe_schedule (hg.schedule_iff.1 hqs)

/-- A task that is declared before the one it depends on, and a relation that is written twice. -/
def lateSource : Definition where
  name := "etl"
  tasks := [⟨"load", "SQL", false⟩, ⟨"report", "SHELL", true⟩, ⟨"extract", "DATAX", false⟩]
  relations := [⟨some "extract", "load"⟩, ⟨none, "report"⟩, ⟨some "extract", "load"⟩]

/-- The graph of `lateSource`. -/
def lateSourceGraph : Graph where
  name := "etl"
  nodes := [⟨"load", .sql, false⟩, ⟨"report", .shell, true⟩, ⟨"extract", .dataX, false⟩]
  names := .insert (.insert (.insert .empty "load" 0) "report" 1) "extract" 2
  successors := [.empty, .empty, ⟨[0], by decide⟩]
  predecessors := [⟨[2], by decide⟩, .empty, .empty]

theorem topologicalOrder_lateSource :
    build lateSource = .ok lateSourceGraph ∧ lateSourceGraph.order = .ok [1, 2, 0] ∧
      ∀ qs, lateSource.Schedule qs → Listing.LexLe [1, 2, 0] qs := by
  have hbuild : build lateSource = .ok lateSourceGraph := by rfl
  have horder : lateSourceGraph.order = .ok [1, 2, 0] := by rfl
  obtain ⟨ps, hps, -, -, -, -, hleast⟩ := topologicalOrder_least hbuild
  rw [horder] at hps
  cases hps
  exact ⟨hbuild, horder, hleast⟩

end Graph

end TaskFlow
