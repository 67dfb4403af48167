import TaskFlow.Proofs.Graph.Acceptance
import TaskFlow.Proofs.Graph.Order

/-! # Questions about neighbours

The answers of a graph to questions about the tasks next to a task, said in terms of the relations
of its definition.  Whatever the tables look like inside, an answer is the list of all nodes with
those left out that the question does not ask for; so it is in declaration order and without
repetition (`answers_of_build`).  Read as declaration positions (`positionsOf`), an answer is an
entry of a table, the positions of the empty entries, or the order.

A relation without a source has no part in the answers; its target is a root only if no dependency
leads to it (`mem_directPost_none_iff`). -/

namespace TaskFlow

open Positions (entry)

namespace Graph

variable {g : Graph} {d : Definition} {name : String} {m n : Node} {p : Nat}

/-! ### Selections of nodes -/

theorem filterMap_getElem?_range {α : Type} (xs : List α) :
    (List.range xs.length).filterMap (fun p => xs[p]?) = xs := by
  have hmap : (List.range xs.length).map (fun p => xs[p]?) = xs.map some := by
    refine List.ext_getElem (by simp) fun p hp _ => ?_
    rw [List.length_map, List.length_range] at hp
    simp [hp]
  have hid := congrArg (List.filterMap id) hmap
  rw [List.filterMap_map, List.filterMap_map] at hid
  simpa [Function.comp_def] using hid

/-- The nodes at a set of positions, when the set is said by a property of the nodes. -/
theorem nodesAt_eq_filter {s : Positions} {keep : Node → Bool}
    (hlt : ∀ p ∈ s, p < g.nodes.length)
    (hkeep : ∀ p n, g.nodes[p]? = some n → (p ∈ s ↔ keep n = true)) :
    g.nodesAt s.toList = g.nodes.filter keep := by
  have hs : s = .ofPredicate g.nodes.length fun p => (g.nodes[p]?.map keep).getD false := by
    refine Positions.eq_of_mem_iff fun p => ?_
    rw [Positions.mem_ofPredicate]
    constructor
    · intro hp
      have hn := List.getElem?_eq_getElem (hlt p hp)
      refine ⟨hlt p hp, ?_⟩
      rw [hn]
      exact (hkeep p _ hn).1 hp
    · rintro ⟨hp, hk⟩
      have hn := List.getElem?_eq_getElem hp
      rw [hn] at hk
      exact (hkeep p _ hn).2 hk
  rw [hs, nodesAt, Positions.ofPredicate, List.filterMap_filter,
    ← congrArg (List.filter keep) (filterMap_getElem?_range g.nodes), List.filter_filterMap]
  refine List.filterMap_congr fun p _ => ?_
  cases g.nodes[p]? with
  | none => simp
  | some n => cases hk : keep n <;> simp [hk, Option.filter]

/-- The nodes with empty entries, when emptiness is said by a property of the nodes. -/
theorem filterMap_zip_eq_filter {nodes : List Node} {table : List Positions} {keep : Node → Bool}
    (hlen : table.length = nodes.length)
    (hkeep : ∀ p n, nodes[p]? = some n → (entry table p).isEmpty = keep n) :
    ((nodes.zip table).filterMap fun e => if e.2.isEmpty then some e.1 else none) =
      nodes.filter keep := by
  induction nodes generalizing table with
  | nil => rfl
  | cons n nodes ih =>
      cases table with
      | nil => cases hlen
      | cons s table =>
          have hhead : s.isEmpty = keep n := hkeep 0 n rfl
          have htail := ih (Nat.succ.inj hlen) fun p m hm => hkeep (p + 1) m hm
          rw [List.zip_cons_cons, List.filterMap_cons, htail, List.filter_cons, hhead]
          cases keep n <;> rfl

theorem isEmpty_eq_true_iff {s : Positions} : s.isEmpty = true ↔ ∀ p, p ∉ s := by
  rw [Positions.isEmpty, List.isEmpty_iff, List.eq_nil_iff_forall_not_mem]
  exact Iff.rfl

/-! ### A task by its name -/

theorem Of.node?_eq (hg : g.Of d) {t : Task} (ht : t ∈ d.tasks) :
    ∃ n, g.node? t.name = some n ∧ n.Of t := by
  obtain ⟨p, hp, rfl⟩ := List.mem_iff_getElem.1 ht
  obtain ⟨hlt, hname⟩ := hg.nameAt_of_task (List.getElem?_eq_getElem hp)
  have hpos := hg.position?_nameAt hlt
  rw [hname] at hpos
  refine ⟨g.nodes[p], ?_, hg.nodes.get hlt hp⟩
  rw [node?, hpos, Option.bind_some]
  exact List.getElem?_eq_getElem hlt

theorem Of.position?_eq_none_iff (hg : g.Of d) : g.position? name = none ↔ ¬ d.Declares name := by
  rw [← hg.exists_position?_iff]
  cases g.position? name with
  | none => simp
  | some p => simp

theorem position_eq_error (h : g.position? name = none) :
    g.position name = .error { name := name, workflow := g.name } := by
  rw [position, h]

theorem neighbours_eq_ok (h : g.position? name = some p) (table : List Positions) :
    g.neighbours table name = .ok (g.nodesAt (entry table p).toList) := by
  rw [neighbours, position, h]
  rfl

theorem neighbours_eq_error (h : g.position? name = none) (table : List Positions) :
    g.neighbours table name = .error { name := name, workflow := g.name } := by
  rw [neighbours, position_eq_error h]
  rfl

/-! ### Neighbours -/

theorem Of.edge_iff_of_nodes (hg : g.Of d) {q : Nat} {m n : Node} (hm : g.nodes[p]? = some m)
    (hn : g.nodes[q]? = some n) :
    Sorting.Edge g.predecessors p q ↔ d.Depends m.name n.name := by
  obtain ⟨hp, rfl⟩ := List.getElem?_eq_some_iff.1 hm
  obtain ⟨hq, rfl⟩ := List.getElem?_eq_some_iff.1 hn
  rw [hg.edge_iff hp hq]
  simp [nameAt, hp, hq]

/-- Both tables, seen from a task: the tasks that depend on it and those it depends on. -/
theorem Of.directPost_directPre (hg : g.Of d) (h : d.Declares name) :
    g.directPost (some name) = .ok (g.nodes.filter fun m => d.Depends name m.name) ∧
      g.directPre (some name) = .ok (g.nodes.filter fun m => d.Depends m.name name) := by
  obtain ⟨p, hp⟩ := (hg.exists_position?_iff).2 h
  obtain ⟨n, hn, rfl⟩ := (hg.represents.indexed _ _).1 hp
  have hm := hg.represents.mirrored
  rw [directPost, directPre, neighbours_eq_ok hp, neighbours_eq_ok hp]
  refine ⟨congrArg Except.ok (nodesAt_eq_filter ?_ ?_), congrArg Except.ok (nodesAt_eq_filter ?_ ?_)⟩
  · exact fun q hq => (hm.lt_of_mem_successors hq).2
  · intro q m hq
    rw [decide_eq_true_iff, ← hg.edge_iff_of_nodes hn hq]
    exact hm.mem_iff p q
  · exact fun q hq => (hm.lt_of_mem_predecessors hq).1
  · intro q m hq
    rw [decide_eq_true_iff, ← hg.edge_iff_of_nodes hq hn]
    exact Iff.rfl

theorem Of.declares_of_mem (hg : g.Of d) (hn : n ∈ g.nodes) : d.Declares n.name := by
  have hname : n.name ∈ g.nodes.map Node.name := List.mem_map_of_mem hn
  rw [map_name_eq hg.nodes] at hname
  exact List.mem_map.1 hname

/-- The ends of a dependency are names of nodes. -/
theorem Of.exists_nodes_of_depends (hg : g.Of d) {a b : String} (h : d.Depends a b) :
    ∃ m ∈ g.nodes, ∃ n ∈ g.nodes, m.name = a ∧ n.name = b := by
  obtain ⟨p, q, hp, hq⟩ := hg.position?_of_depends h
  obtain ⟨m, hm, ha⟩ := (hg.represents.indexed _ _).1 hp
  obtain ⟨n, hn, hb⟩ := (hg.represents.indexed _ _).1 hq
  exact ⟨m, List.mem_of_getElem? hm, n, List.mem_of_getElem? hn, ha, hb⟩

/-- The roots are the targets of no dependency. -/
theorem Of.roots_eq (hg : g.Of d) :
    g.roots = g.nodes.filter fun m => ∀ r ∈ d.relations, r.target = m.name → r.source = none := by
  refine filterMap_zip_eq_filter hg.represents.mirrored.length_predecessors fun q m hq => ?_
  rw [Bool.eq_iff_iff, isEmpty_eq_true_iff, decide_eq_true_iff]
  constructor
  · intro hempty r hr htarget
    cases hs : r.source with
    | none => rfl
    | some s =>
        obtain ⟨p, hp⟩ := (hg.relatable r hr).source s hs
        refine absurd (hg.represents.edge_iff p q |>.2 ⟨r, hr, ?_, ?_⟩) (hempty p)
        · rw [hs, Option.bind_some, hp]
        · rw [htarget]
          exact (hg.represents.indexed _ _).2 ⟨m, hq, rfl⟩
  · intro hno p he
    obtain ⟨r, hr, hsource, htarget⟩ := (hg.represents.edge_iff p q).1 he
    obtain ⟨n, hn, hname⟩ := (hg.represents.indexed _ _).1 htarget
    rw [hq] at hn
    cases hn
    rw [hno r hr hname.symm] at hsource
    cases hsource

/-- The leaves are the sources of no dependency. -/
theorem Of.leaves_eq (hg : g.Of d) :
    g.leaves = g.nodes.filter fun m => ∀ r ∈ d.relations, r.source ≠ some m.name := by
  have hm := hg.represents.mirrored
  refine filterMap_zip_eq_filter hm.length_successors fun p m hp => ?_
  rw [Bool.eq_iff_iff, isEmpty_eq_true_iff, decide_eq_true_iff]
  constructor
  · intro hempty r hr hs
    obtain ⟨q, hq⟩ := (hg.relatable r hr).target
    refine hempty q ((hm.mem_iff p q).2 ((hg.represents.edge_iff p q).2 ⟨r, hr, ?_, hq⟩))
    rw [hs, Option.bind_some]
    exact (hg.represents.indexed _ _).2 ⟨m, hp, rfl⟩
  · intro hno q he
    obtain ⟨r, hr, hsource, -⟩ := (hg.represents.edge_iff p q).1 ((hm.mem_iff p q).1 he)
    obtain ⟨s, hs, hpos⟩ := Option.bind_eq_some_iff.1 hsource
    obtain ⟨n, hn, rfl⟩ := (hg.represents.indexed _ _).1 hpos
    rw [hp] at hn
    cases hn
    exact hno r hr hs

theorem Of.mem_roots_iff (hg : g.Of d) (hn : n ∈ g.nodes) :
    n ∈ g.roots ↔ ∀ a, ¬ d.Depends a n.name := by
  rw [hg.roots_eq, List.mem_filter, decide_eq_true_iff, and_iff_right hn]
  constructor
  · intro h a ha
    cases h _ ha rfl
  · rintro h ⟨source, target⟩ hr rfl
    cases source with
    | none => rfl
    | some a => exact absurd hr (h a)

theorem Of.mem_leaves_iff (hg : g.Of d) (hn : n ∈ g.nodes) :
    n ∈ g.leaves ↔ ∀ b, ¬ d.Depends n.name b := by
  rw [hg.leaves_eq, List.mem_filter, decide_eq_true_iff, and_iff_right hn]
  constructor
  · intro h b hb
    exact h _ hb rfl
  · rintro h ⟨source, target⟩ hr rfl
    exact h target hr

/-! ### Answers as positions -/

/-- The positions of some tasks of a graph. -/
def positionsOf (g : Graph) (ns : List Node) : List Nat :=
  ns.map fun n => g.nodes.idxOf n

theorem idxOf_eq (hnd : (g.nodes.map Node.name).Nodup) {p : Nat} {n : Node}
    (h : g.nodes[p]? = some n) : g.nodes.idxOf n = p := by
  obtain ⟨hp, rfl⟩ := List.getElem?_eq_some_iff.1 h
  exact hnd.of_map.idxOf_getElem p hp

theorem positionsOf_nodesAt (hnd : (g.nodes.map Node.name).Nodup) {ps : List Nat}
    (hlt : ∀ p ∈ ps, p < g.nodes.length) : g.positionsOf (g.nodesAt ps) = ps := by
  induction ps with
  | nil => rfl
  | cons p ps ih =>
      obtain ⟨hp, hps⟩ := List.forall_mem_cons.1 hlt
      have hidx := idxOf_eq hnd (List.getElem?_eq_getElem hp)
      rw [nodesAt_cons hp, positionsOf, List.map_cons, hidx]
      exact congrArg (p :: ·) (ih hps)

/-- The positions whose entries are empty. -/
theorem nodesWithout_eq_nodesAt (hnd : (g.nodes.map Node.name).Nodup) {table : List Positions}
    (hlen : table.length = g.nodes.length) :
    g.nodesWithout table =
      g.nodesAt (Positions.ofPredicate g.nodes.length fun p => (entry table p).isEmpty).toList := by
  have hkeep : ∀ p n, g.nodes[p]? = some n →
      (entry table p).isEmpty = (entry table (g.nodes.idxOf n)).isEmpty := by
    intro p n hn
    rw [idxOf_eq hnd hn]
  rw [nodesWithout, filterMap_zip_eq_filter hlen hkeep]
  refine (nodesAt_eq_filter ?_ ?_).symm
  · intro p hp
    exact (Positions.mem_ofPredicate.1 hp).1
  · intro p n hn
    obtain ⟨hp, -⟩ := List.getElem?_eq_some_iff.1 hn
    rw [Positions.mem_ofPredicate, and_iff_right hp, hkeep p n hn]

theorem positionsOf_nodesWithout (hnd : (g.nodes.map Node.name).Nodup) {table : List Positions}
    (hlen : table.length = g.nodes.length) :
    g.positionsOf (g.nodesWithout table) =
      (Positions.ofPredicate g.nodes.length fun p => (entry table p).isEmpty).toList := by
  rw [nodesWithout_eq_nodesAt hnd hlen]
  exact positionsOf_nodesAt hnd fun p hp => (Positions.mem_ofPredicate.1 hp).1

theorem positionsOf_neighbours (hnd : (g.nodes.map Node.name).Nodup) {table : List Positions}
    {name : String} {p : Nat} (hp : g.position? name = some p)
    (hlt : ∀ q ∈ entry table p, q < g.nodes.length) :
    (g.neighbours table name).map g.positionsOf = .ok (entry table p).toList := by
  rw [neighbours_eq_ok hp]
  exact congrArg Except.ok (positionsOf_nodesAt hnd hlt)

theorem Of.positionsOf_topologicalOrder (hg : g.Of d) {ps : List Nat} (h : g.order = .ok ps) :
    g.positionsOf g.topologicalOrder = ps := by
  obtain ⟨hgreedy, -⟩ := greedy_of_order hg.represents.mirrored h
  rw [topologicalOrder_eq h]
  exact positionsOf_nodesAt hg.represents.nodup fun p hp => hgreedy.lt_of_mem hp

/-- What a graph that is built answers about a name, and about no name.  A declared name stands for
its task; the tasks that depend on it, and those it depends on, are all the nodes that a relation
names so, in declaration order.  A name that is not declared is refused.  Without a name the answers
are the nodes that no dependency leads to, and those from which none starts. -/
theorem answers_of_build (h : build d = .ok g) (name : String) :
    List.Forall₂ Node.Of g.nodes d.tasks ∧ (g.nodes.map Node.name).Nodup ∧
      (∀ t ∈ d.tasks, t.name = name →
        (∃ n, g.node? name = some n ∧ n.Of t) ∧
        g.directPost (some name) = .ok (g.nodes.filter fun m => d.Depends name m.name) ∧
        g.directPre (some name) = .ok (g.nodes.filter fun m => d.Depends m.name name)) ∧
      ((∀ t ∈ d.tasks, t.name ≠ name) →
        g.node? name = none ∧
        ∃ e : UnknownTask, e.fault.kind = .invalidInput ∧
          g.directPost (some name) = .error e ∧ g.directPre (some name) = .error e) ∧
      g.directPost none =
        .ok (g.nodes.filter fun m => ∀ r ∈ d.relations, r.target = m.name → r.source = none) ∧
      g.directPre none =
        .ok (g.nodes.filter fun m => ∀ r ∈ d.relations, r.source ≠ some m.name) := by
  have hg := of_build h
  refine ⟨hg.nodes, hg.represents.nodup, ?_, ?_, congrArg Except.ok hg.roots_eq,
    congrArg Except.ok hg.leaves_eq⟩
  · rintro t ht rfl
    exact ⟨hg.node?_eq ht, hg.directPost_directPre ⟨t, ht, rfl⟩⟩
  · intro hno
    have hnone : g.position? name = none :=
      hg.position?_eq_none_iff.2 fun ⟨t, ht, hname⟩ => hno t ht hname
    refine ⟨by rw [node?, hnone, Option.bind_none], _, rfl, neighbours_eq_error hnone _,
      neighbours_eq_error hnone _⟩

theorem answers_lateSource :
    build lateSource = .ok lateSourceGraph ∧
      lateSourceGraph.directPost (some "extract") = .ok [⟨"load", .sql, false⟩] ∧
      lateSourceGraph.directPre (some "extract") = .ok [] ∧
      lateSourceGraph.directPost none =
        .ok [⟨"report", .shell, true⟩, ⟨"extract", .dataX, false⟩] := by
  have hbuild : build lateSource = .ok lateSourceGraph := by rfl
  obtain ⟨-, -, hnamed, -, hroots, -⟩ := answers_of_build hbuild "extract"
  obtain ⟨-, hpost, hpre⟩ := hnamed ⟨"extract", "DATAX", false⟩ (by decide) rfl
  refine ⟨hbuild, hpost.trans ?_, hpre.trans ?_, hroots.trans ?_⟩ <;> rfl

/-! ### Relations without a source -/

theorem Of.exists_node_of_target (hg : g.Of d) {r : Relation} (hr : r ∈ d.relations) :
    ∃ n ∈ g.nodes, n.name = r.target := by
  obtain ⟨q, hq⟩ := (hg.relatable r hr).target
  obtain ⟨n, hn, hname⟩ := (hg.represents.indexed _ _).1 hq
  exact ⟨n, List.mem_of_getElem? hn, hname⟩

/-- A relation without a source mentions a task of the graph.  This task is among the roots exactly
if it depends on no other: a dependency overrules the mention. -/
theorem mem_directPost_none_iff (h : build d = .ok g) {t : String}
    (hr : { source := none, target := t } ∈ d.relations) :
    ∃ n ∈ g.nodes, n.name = t ∧ ∃ roots, g.directPost none = .ok roots ∧
      (n ∈ roots ↔ ∀ a, ¬ d.Depends a t) := by
  have hg := of_build h
  obtain ⟨n, hn, hname⟩ := hg.exists_node_of_target hr
  refine ⟨n, hn, hname, g.roots, rfl, ?_⟩
  rw [hg.mem_roots_iff hn, hname]

theorem mem_directPost_none_lateSource :
    build lateSource = .ok lateSourceGraph ∧
      { source := none, target := "report" } ∈ lateSource.relations ∧
      ∃ n ∈ lateSourceGraph.nodes, n.name = "report" ∧
        ∃ roots, lateSourceGraph.directPost none = .ok roots ∧ n ∈ roots := by
  have hbuild : build lateSource = .ok lateSourceGraph := by rfl
  have hr : { source := none, target := "report" } ∈ lateSource.relations := by decide
  obtain ⟨n, hn, hname, roots, hroots, hiff⟩ := mem_directPost_none_iff hbuild hr
  refine ⟨hbuild, hr, n, hn, hname, roots, hroots, hiff.2 fun a ha => ?_⟩
  simp [Definition.Depends, lateSource] at ha

/-- A task that is mentioned without a source and depends on another. -/
def mentioned : Definition where
  name := "etl"
  tasks := [⟨"extract", "DATAX", false⟩, ⟨"load", "SQL", false⟩]
  relations := [⟨none, "load"⟩, ⟨some "extract", "load"⟩]

/-- The mention does not make it a root. -/
theorem directPost_none_mentioned :
    ∃ g, build mentioned = .ok g ∧ { source := none, target := "load" } ∈ mentioned.relations ∧
      g.directPost none = .ok [⟨"extract", .dataX, false⟩] ∧
      ∀ roots, g.directPost none = .ok roots → ∀ n ∈ roots, n.name ≠ "load" := by
  refine ⟨_, rfl, by decide, rfl, fun roots hroots => ?_⟩
  cases hroots
  decide

end Graph

end TaskFlow
