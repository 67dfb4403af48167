import TaskFlow.Proofs.Graph.Neighbours

/-! # Walking from task to task

Who asks again and again for the tasks that a task depends on, each time about one of the tasks
answered before, walks backwards along the dependencies; the other question walks forwards.
`EndsWithin` says that every such walk comes to an end, whatever is chosen, and where.

The place of a task in the order of the graph is a rank for both directions: it falls with each step
backwards and grows with each step forwards (`Of.rank_lt`).  So all walks are shorter than there are
tasks and end at roots and at leaves, and the order itself begins with the first root and ends with a
leaf (`walks_end`). -/

namespace TaskFlow

open Positions (entry)

/-- Every walk that starts at the task and goes on, as long as it can, to some task that is answered
when the last one is asked about, takes at most `k` steps and ends at one of the goals. -/
inductive EndsWithin (ask : Option String → Except UnknownTask (List Node)) (goals : List Node) :
    Nat → Node → Prop
  | stop {k : Nat} {n : Node} (hask : ask (some n.name) = .ok []) (hgoal : n ∈ goals) :
      EndsWithin ask goals k n
  | step {k : Nat} {n : Node} {ns : List Node} (hask : ask (some n.name) = .ok ns) (hne : ns ≠ [])
      (hall : ∀ m ∈ ns, EndsWithin ask goals k m) : EndsWithin ask goals (k + 1) n

/-- Walks end when each step lowers a rank, and stop at goals only. -/
theorem endsWithin_of_rank {ask : Option String → Except UnknownTask (List Node)}
    {goals nodes : List Node} (rank : Node → Nat)
    (h : ∀ n ∈ nodes, ∃ ns, ask (some n.name) = .ok ns ∧ (ns = [] → n ∈ goals) ∧
      ∀ m ∈ ns, m ∈ nodes ∧ rank m < rank n)
    {n : Node} (hn : n ∈ nodes) {k : Nat} (hk : rank n ≤ k) : EndsWithin ask goals k n := by
  induction k generalizing n with
  | zero =>
      obtain ⟨ns, hask, hgoal, hrank⟩ := h n hn
      cases ns with
      | nil => exact .stop hask (hgoal rfl)
      | cons m ns =>
          have hlt := (hrank m List.mem_cons_self).2
          omega
  | succ k ih =>
      obtain ⟨ns, hask, hgoal, hrank⟩ := h n hn
      cases ns with
      | nil => exact .stop hask (hgoal rfl)
      | cons m ns =>
          refine .step hask (List.cons_ne_nil m ns) fun l hl => ?_
          obtain ⟨hmem, hlt⟩ := hrank l hl
          exact ih hmem (by omega)

/-- In a list without repetition each member has its own place. -/
theorem pairwise_idxOf {α : Type} [DecidableEq α] {xs : List α} (h : xs.Nodup) :
    xs.Pairwise fun x y => xs.idxOf x < xs.idxOf y := by
  rw [List.pairwise_iff_getElem]
  intro i j hi hj hij
  rw [h.idxOf_getElem i hi, h.idxOf_getElem j hj]
  exact hij

/-- The least position stands first. -/
theorem Positions.head?_toList {s : Positions} {p : Nat} (hp : p ∈ s) (hle : ∀ q ∈ s, p ≤ q) :
    s.toList.head? = some p := by
  have hasc := s.ascending
  cases h : s.toList with
  | nil =>
      rw [← mem_toList, h] at hp
      cases hp
  | cons q qs =>
      have hq : p ≤ q := hle q (by rw [← mem_toList, h]; exact List.mem_cons_self)
      rw [← mem_toList, h] at hp
      rw [h, List.pairwise_cons] at hasc
      rcases List.mem_cons.1 hp with rfl | hmem
      · rfl
      · exact absurd (hasc.1 p hmem) (Nat.not_lt.2 hq)

namespace Graph

variable {g : Graph} {d : Definition} {m n : Node} {ps : List Nat}

/-! ### The order as a rank -/

theorem Of.perm_topologicalOrder (hg : g.Of d) (h : g.order = .ok ps) :
    g.topologicalOrder.Perm g.nodes := by
  obtain ⟨hgreedy, hlen⟩ := greedy_of_order hg.represents.mirrored h
  have hperm := (hgreedy.perm_of_length_eq hlen).filterMap fun p => g.nodes[p]?
  rwa [filterMap_getElem?_range, ← nodesAt, ← topologicalOrder_eq h] at hperm

theorem Of.nodup_topologicalOrder (hg : g.Of d) (h : g.order = .ok ps) :
    g.topologicalOrder.Nodup :=
  (hg.perm_topologicalOrder h).nodup_iff.2 hg.represents.nodup.of_map

/-- The place of a task in the order of the graph. -/
def rank (g : Graph) (n : Node) : Nat :=
  g.topologicalOrder.idxOf n

theorem Of.rank_lt_length (hg : g.Of d) (h : g.order = .ok ps) (hn : n ∈ g.nodes) :
    g.rank n < g.nodes.length := by
  have hperm := hg.perm_topologicalOrder h
  rw [← hperm.length_eq]
  exact List.idxOf_lt_length_iff.2 (hperm.mem_iff.2 hn)

/-- A task stands behind those it depends on. -/
theorem Of.rank_lt (hg : g.Of d) (h : g.order = .ok ps) (hm : m ∈ g.nodes) (hn : n ∈ g.nodes)
    (hdep : d.Depends m.name n.name) : g.rank m < g.rank n := by
  obtain ⟨hgreedy, hlen⟩ := greedy_of_order hg.represents.mirrored h
  obtain ⟨p, hp, rfl⟩ := List.mem_iff_getElem.1 hm
  obtain ⟨q, hq, rfl⟩ := List.mem_iff_getElem.1 hn
  have hp' : g.nodes[p]? = some g.nodes[p] := List.getElem?_eq_getElem hp
  have hq' : g.nodes[q]? = some g.nodes[q] := List.getElem?_eq_getElem hq
  have hmem : q ∈ ps := (hgreedy.perm_of_length_eq hlen).mem_iff.2 (List.mem_range.2 hq)
  have hsub := hgreedy.sublist hmem ((hg.edge_iff_of_nodes hp' hq').2 hdep)
  have hnodes := hsub.filterMap fun p => g.nodes[p]?
  rw [List.filterMap_cons_some hp', List.filterMap_cons_some hq', List.filterMap_nil, ← nodesAt,
    ← topologicalOrder_eq h] at hnodes
  have hpair := (pairwise_idxOf (hg.nodup_topologicalOrder h)).sublist hnodes
  exact (List.pairwise_cons.1 hpair).1 _ List.mem_cons_self

/-! ### One step -/

/-- A step backwards leads to tasks of lower rank, and there is none at a root only. -/
theorem Of.step_back (hg : g.Of d) (h : g.order = .ok ps) (hn : n ∈ g.nodes) :
    ∃ ns, g.directPre (some n.name) = .ok ns ∧ (ns = [] → n ∈ g.roots) ∧
      ∀ m ∈ ns, m ∈ g.nodes ∧ g.rank m < g.rank n := by
  refine ⟨_, (hg.directPost_directPre (hg.declares_of_mem hn)).2, ?_, ?_⟩
  · intro hnil
    refine (hg.mem_roots_iff hn).2 fun a ha => ?_
    obtain ⟨m, hm, _, _, rfl, -⟩ := hg.exists_nodes_of_depends ha
    exact List.filter_eq_nil_iff.1 hnil m hm (decide_eq_true ha)
  · intro m hm
    obtain ⟨hmem, hdep⟩ := List.mem_filter.1 hm
    exact ⟨hmem, hg.rank_lt h hmem hn (of_decide_eq_true hdep)⟩

/-- A step forwards leads to tasks of higher rank, and there is none at a leaf only. -/
theorem Of.step_on (hg : g.Of d) (h : g.order = .ok ps) (hn : n ∈ g.nodes) :
    ∃ ns, g.directPost (some n.name) = .ok ns ∧ (ns = [] → n ∈ g.leaves) ∧
      ∀ m ∈ ns, m ∈ g.nodes ∧ g.rank n < g.rank m := by
  refine ⟨_, (hg.directPost_directPre (hg.declares_of_mem hn)).1, ?_, ?_⟩
  · intro hnil
    refine (hg.mem_leaves_iff hn).2 fun b hb => ?_
    obtain ⟨_, _, m, hm, -, rfl⟩ := hg.exists_nodes_of_depends hb
    exact List.filter_eq_nil_iff.1 hnil m hm (decide_eq_true hb)
  · intro m hm
    obtain ⟨hmem, hdep⟩ := List.mem_filter.1 hm
    exact ⟨hmem, hg.rank_lt h hn hmem (of_decide_eq_true hdep)⟩

/-! ### Whole walks -/

theorem Of.endsWithin_back (hg : g.Of d) (h : g.order = .ok ps) (hn : n ∈ g.nodes) :
    ∃ k < g.nodes.length, EndsWithin g.directPre g.roots k n :=
  ⟨g.rank n, hg.rank_lt_length h hn,
    endsWithin_of_rank g.rank (fun _ hm => hg.step_back h hm) hn (Nat.le_refl _)⟩

theorem Of.endsWithin_on (hg : g.Of d) (h : g.order = .ok ps) (hn : n ∈ g.nodes) :
    ∃ k < g.nodes.length, EndsWithin g.directPost g.leaves k n := by
  have hlt := hg.rank_lt_length h hn
  refine ⟨g.nodes.length - 1 - g.rank n, by omega, ?_⟩
  refine endsWithin_of_rank (fun m => g.nodes.length - 1 - g.rank m) ?_ hn (Nat.le_refl _)
  intro m hm
  obtain ⟨ns, hask, hgoal, hrank⟩ := hg.step_on h hm
  refine ⟨ns, hask, hgoal, fun l hl => ?_⟩
  obtain ⟨hmem, hlt'⟩ := hrank l hl
  have hlen := hg.rank_lt_length h hmem
  exact ⟨hmem, by omega⟩

/-! ### The ends of the order -/

/-- The order begins with the root that is declared first. -/
theorem Of.head?_topologicalOrder (hg : g.Of d) (h : g.order = .ok ps) :
    g.topologicalOrder.head? = g.roots.head? := by
  have hm := hg.represents.mirrored
  obtain ⟨hgreedy, hlen⟩ := greedy_of_order hm h
  rw [topologicalOrder_eq h, roots,
    nodesWithout_eq_nodesAt hg.represents.nodup hm.length_predecessors]
  cases ps with
  | nil =>
      have hnil : g.nodes = [] := List.length_eq_zero_iff.1 hlen.symm
      simp [nodesAt, hnil]
  | cons p rest =>
      have hleast := hgreedy [] p rest rfl
      have hfree : ∀ q, (entry g.predecessors q).isEmpty = true ↔
          ∀ r, Sorting.Edge g.predecessors r q → r ∈ ([] : List Nat) := by
        intro q
        rw [isEmpty_eq_true_iff]
        exact forall_congr' fun r => (by simp [Sorting.Edge])
      have hhead : (Positions.ofPredicate g.nodes.length fun q =>
          (entry g.predecessors q).isEmpty).toList.head? = some p := by
        refine Positions.head?_toList ?_ fun q hq => ?_
        · exact Positions.mem_ofPredicate.2 ⟨hleast.lt, (hfree p).2 hleast.closed⟩
        · obtain ⟨hlt, hempty⟩ := Positions.mem_ofPredicate.1 hq
          exact hleast.le q ⟨hlt, List.not_mem_nil, (hfree q).1 hempty⟩
      obtain ⟨rest', hrest'⟩ := List.head?_eq_some_iff.1 hhead
      rw [hrest', nodesAt_cons hleast.lt, nodesAt_cons hleast.lt, List.head?_cons, List.head?_cons]

/-- The order ends with a leaf. -/
theorem Of.mem_leaves_of_getLast? (hg : g.Of d) (h : g.order = .ok ps)
    (hlast : g.topologicalOrder.getLast? = some n) : n ∈ g.leaves := by
  have hperm := hg.perm_topologicalOrder h
  have hnd := hg.nodup_topologicalOrder h
  have hn : n ∈ g.nodes := hperm.mem_iff.1 (List.mem_of_getLast? hlast)
  refine (hg.mem_leaves_iff hn).2 fun b hb => ?_
  obtain ⟨_, _, m, hm, -, rfl⟩ := hg.exists_nodes_of_depends hb
  have hlt := hg.rank_lt h hn hm hb
  have hlt' := hg.rank_lt_length h hm
  obtain ⟨front, hfront⟩ := List.getLast?_eq_some_iff.1 hlast
  rw [hfront] at hnd
  have hnot : n ∉ front := fun hmem =>
    (List.nodup_append.1 hnd).2.2 n hmem n List.mem_cons_self rfl
  have hrank : g.rank n = front.length := by
    rw [rank, hfront, List.idxOf_append_of_notMem hnot, List.idxOf_cons_self, Nat.add_zero]
  rw [← hperm.length_eq, hfront, List.length_append, List.length_singleton] at hlt'
  omega

/-- **Every walk ends.**  In a graph that is built, whoever goes from a declared task to one it
depends on, and from there on in the same way, comes to a root after fewer steps than there are
tasks, whatever is chosen on the way; in the other direction one comes to a leaf.  If there are tasks
at all, then the order begins with the first root and ends with a leaf. -/
theorem walks_end (h : build d = .ok g) :
    ∃ roots leaves, g.directPost none = .ok roots ∧ g.directPre none = .ok leaves ∧
      (∀ t ∈ d.tasks, ∃ n, g.node? t.name = some n ∧
        (∃ k < g.nodes.length, EndsWithin g.directPre roots k n) ∧
        ∃ k < g.nodes.length, EndsWithin g.directPost leaves k n) ∧
      (d.tasks ≠ [] → ∃ first last,
        g.topologicalOrder.head? = some first ∧ roots.head? = some first ∧
        g.topologicalOrder.getLast? = some last ∧ last ∈ leaves) := by
  have hg := of_build h
  obtain ⟨ps, hps⟩ := order_of_build h
  refine ⟨g.roots, g.leaves, rfl, rfl, ?_, ?_⟩
  · intro t ht
    obtain ⟨n, hnode, -⟩ := hg.node?_eq ht
    obtain ⟨p, -, hp⟩ := Option.bind_eq_some_iff.1 hnode
    have hn : n ∈ g.nodes := List.mem_of_getElem? hp
    exact ⟨n, hnode, hg.endsWithin_back hps hn, hg.endsWithin_on hps hn⟩
  · intro htasks
    have hne : g.topologicalOrder ≠ [] := by
      intro hnil
      have hlen := (hg.perm_topologicalOrder hps).length_eq
      rw [hnil, List.length_nil, hg.length_nodes] at hlen
      exact htasks (List.length_eq_zero_iff.1 hlen.symm)
    refine ⟨g.topologicalOrder.head hne, g.topologicalOrder.getLast hne, ?_, ?_, ?_, ?_⟩
    · exact List.head?_eq_some_head hne
    · rw [← hg.head?_topologicalOrder hps]
      exact List.head?_eq_some_head hne
    · exact List.getLast?_eq_some_getLast hne
    · exact hg.mem_leaves_of_getLast? hps (List.getLast?_eq_some_getLast hne)

/-- From the load all walks back end at the report or the extraction, and the order ends with a
leaf. -/
theorem walks_lateSource :
    build lateSource = .ok lateSourceGraph ∧
      (∃ k < 3, EndsWithin lateSourceGraph.directPre
        [⟨"report", .shell, true⟩, ⟨"extract", .dataX, false⟩] k ⟨"load", .sql, false⟩) ∧
      ∃ last, lateSourceGraph.topologicalOrder.getLast? = some last ∧
        lateSourceGraph.directPre none = .ok [⟨"load", .sql, false⟩, ⟨"report", .shell, true⟩] ∧
        last ∈ [(⟨"load", .sql, false⟩ : Node), ⟨"report", .shell, true⟩] := by
  have hbuild : build lateSource = .ok lateSourceGraph := by rfl
  obtain ⟨roots, leaves, hroots, hleaves, hwalks, hends⟩ := walks_end hbuild
  cases hroots
  obtain ⟨n, hn, hback, -⟩ := hwalks ⟨"load", "SQL", false⟩ (by decide)
  cases hn
  cases hleaves
  obtain ⟨-, last, -, -, hlast, hleaf⟩ := hends (by decide)
  exact ⟨hbuild, hback, last, hlast, rfl, hleaf⟩

end Graph

end TaskFlow
