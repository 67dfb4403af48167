import TaskFlow.Proofs.Graph.Neighbours

/-! # Parts of a graph

A set of positions that has, with a position, all its predecessors makes a graph of its own: its
positions count those of the set (`Positions.rank`), and its edges are those within the set
(`Listing.Part`).  What is left of a greedy list is a greedy list of the part (`Greedy.part`), for
what is outside the set never decides which position of the set comes next.

So the definition restricted to some tasks and the relations that lead to them has a graph, and the
order of its tasks is the order that they had before (`topologicalOrder_restrict`). -/

namespace TaskFlow

namespace Positions

variable {s : Positions} {p q i : Nat}

/-- The number of positions of the set before one of them. -/
def rank (s : Positions) (p : Nat) : Nat :=
  s.toList.idxOf p

theorem rank_lt (hp : p ∈ s) : s.rank p < s.size :=
  List.idxOf_lt_length_iff.2 hp

theorem get_rank (hp : p ∈ s) : s.toList.get ⟨s.rank p, rank_lt hp⟩ = p :=
  List.getElem_idxOf (rank_lt hp)

theorem getElem?_rank (hp : p ∈ s) : s.toList[s.rank p]? = some p :=
  List.getElem?_eq_some_iff.2 ⟨rank_lt hp, get_rank hp⟩

theorem exists_rank (hi : i < s.size) : ∃ p ∈ s, s.rank p = i := by
  refine ⟨s.toList.get ⟨i, hi⟩, List.getElem_mem hi, ?_⟩
  exact s.nodup.idxOf_getElem i hi

theorem rank_inj (hp : p ∈ s) : s.rank p = s.rank q ↔ p = q :=
  List.idxOf_inj hp

theorem rank_le (hp : p ∈ s) (hq : q ∈ s) (hle : p ≤ q) : s.rank p ≤ s.rank q := by
  by_contra hlt
  have hlt : s.rank q < s.rank p := Nat.lt_of_not_le hlt
  have hasc := List.pairwise_iff_get.1 s.ascending ⟨s.rank q, rank_lt hq⟩ ⟨s.rank p, rank_lt hp⟩ hlt
  rw [get_rank hp, get_rank hq] at hasc
  omega

end Positions

namespace Listing

variable {edge edge' : Nat → Nat → Prop} {n p q i : Nat} {s : Positions} {order listed : List Nat}

/-- The graph `edge'` is the part of the graph `edge` at the set of positions, which has, with a
position, its predecessors. -/
structure Part (edge : Nat → Nat → Prop) (n : Nat) (s : Positions) (edge' : Nat → Nat → Prop) :
    Prop where
  lt : ∀ p ∈ s, p < n
  closed : ∀ p q, edge p q → q ∈ s → p ∈ s
  source_lt : ∀ i j, edge' i j → i < s.size
  edge_iff : ∀ p ∈ s, ∀ q ∈ s, edge' (s.rank p) (s.rank q) ↔ edge p q

/-- What is left of a list in the part. -/
def within (s : Positions) (order : List Nat) : List Nat :=
  (order.filter (· ∈ s)).map s.rank

theorem rank_mem_within (hp : p ∈ s) : s.rank p ∈ within s order ↔ p ∈ order := by
  rw [within, List.mem_map]
  constructor
  · rintro ⟨q, hq, heq⟩
    obtain ⟨hmem, hqs⟩ := List.mem_filter.1 hq
    have hqp := (Positions.rank_inj (of_decide_eq_true hqs)).1 heq
    exact hqp ▸ hmem
  · intro hmem
    exact ⟨p, List.mem_filter.2 ⟨hmem, decide_eq_true hp⟩, rfl⟩

theorem within_snoc_of_mem (hp : p ∈ s) :
    within s (order ++ [p]) = within s order ++ [s.rank p] := by
  simp [within, hp]

theorem within_snoc_of_not_mem (hp : p ∉ s) : within s (order ++ [p]) = within s order := by
  simp [within, hp]

/-- In the part a position may be listed next exactly if it may be in the whole graph. -/
theorem Part.available_iff (h : Part edge n s edge') (hp : p ∈ s) :
    Available edge' s.size (within s listed) (s.rank p) ↔ Available edge n listed p := by
  constructor
  · intro hav
    refine ⟨h.lt p hp, fun hmem => hav.not_mem ((rank_mem_within hp).2 hmem), fun q he => ?_⟩
    have hq := h.closed q p he hp
    exact (rank_mem_within hq).1 (hav.closed _ ((h.edge_iff q hq p hp).2 he))
  · intro hav
    refine ⟨Positions.rank_lt hp, fun hmem => hav.not_mem ((rank_mem_within hp).1 hmem), ?_⟩
    intro i he
    obtain ⟨q, hq, rfl⟩ := Positions.exists_rank (h.source_lt _ _ he)
    exact (rank_mem_within hq).2 (hav.closed q ((h.edge_iff q hq p hp).1 he))

theorem Part.least (h : Part edge n s edge') (hp : p ∈ s) (hleast : Least edge n listed p) :
    Least edge' s.size (within s listed) (s.rank p) where
  toAvailable := (h.available_iff hp).2 hleast.toAvailable
  le i hav := by
    obtain ⟨q, hq, rfl⟩ := Positions.exists_rank hav.lt
    exact Positions.rank_le hp hq (hleast.le q ((h.available_iff hq).1 hav))

/-- What is left of a greedy list is a greedy list of the part. -/
theorem Greedy.part (h : Part edge n s edge') (hg : Greedy edge n order) :
    Greedy edge' s.size (within s order) := by
  induction order using List.reverseRecOn with
  | nil => exact greedy_nil
  | append_singleton l p ih =>
      by_cases hp : p ∈ s
      · rw [within_snoc_of_mem hp]
        exact (ih hg.of_append).snoc (h.least hp (hg l p [] rfl))
      · rw [within_snoc_of_not_mem hp]
        exact ih hg.of_append

/-- Of a list of all positions all positions of the part are left. -/
theorem length_within (hperm : order.Perm (List.range n)) (hlt : ∀ p ∈ s, p < n) :
    (within s order).length = s.size := by
  have hfilter : (order.filter (· ∈ s)).Perm s.toList := by
    refine (List.perm_ext_iff_of_nodup ((hperm.nodup_iff.2 List.nodup_range).filter _) s.nodup).2 ?_
    intro p
    rw [List.mem_filter, decide_eq_true_iff, hperm.mem_iff, List.mem_range]
    exact ⟨And.right, fun hp => ⟨hlt p hp, hp⟩⟩
  rw [within, List.length_map]
  exact hfilter.length_eq

end Listing

/-- The definition with the tasks of these names only, and with the relations that lead to them. -/
def Definition.restrict (d : Definition) (keep : String → Bool) : Definition :=
  { d with
    tasks := d.tasks.filter fun t => keep t.name
    relations := d.relations.filter fun r => keep r.target }

namespace Definition

variable {d : Definition} {keep : String → Bool} {name a b : String}

theorem declares_restrict_iff :
    (d.restrict keep).Declares name ↔ d.Declares name ∧ keep name = true := by
  constructor
  · rintro ⟨t, ht, rfl⟩
    obtain ⟨hmem, hkeep⟩ := List.mem_filter.1 ht
    exact ⟨⟨t, hmem, rfl⟩, hkeep⟩
  · rintro ⟨⟨t, ht, rfl⟩, hkeep⟩
    exact ⟨t, List.mem_filter.2 ⟨ht, hkeep⟩, rfl⟩

theorem depends_restrict_iff : (d.restrict keep).Depends a b ↔ d.Depends a b ∧ keep b = true :=
  List.mem_filter

end Definition

namespace Graph

variable {g g' u : Graph} {d : Definition} {keep : String → Bool} {p : Nat}

/-- The positions of the tasks with these names. -/
def kept (g : Graph) (keep : String → Bool) : Positions :=
  .ofPredicate g.nodes.length fun p => keep (g.nameAt p)

theorem mem_kept : p ∈ g.kept keep ↔ p < g.nodes.length ∧ keep (g.nameAt p) = true :=
  Positions.mem_ofPredicate

theorem nodesAt_kept : g.nodesAt (g.kept keep).toList = g.nodes.filter fun n => keep n.name := by
  refine nodesAt_eq_filter (fun p hp => (mem_kept.1 hp).1) fun p n hn => ?_
  obtain ⟨hp, rfl⟩ := List.getElem?_eq_some_iff.1 hn
  simp [mem_kept, nameAt, hp]

theorem getElem?_nodesAt {ps : List Nat} (hlt : ∀ p ∈ ps, p < g.nodes.length) (i : Nat) :
    (g.nodesAt ps)[i]? = ps[i]?.bind fun p => g.nodes[p]? := by
  induction ps generalizing i with
  | nil => rfl
  | cons p ps ih =>
      obtain ⟨hp, hps⟩ := List.forall_mem_cons.1 hlt
      rw [nodesAt_cons hp]
      cases i with
      | zero => simp [hp]
      | succ i =>
          rw [List.getElem?_cons_succ, List.getElem?_cons_succ]
          exact ih hps i

theorem length_nodesAt {ps : List Nat} (hlt : ∀ p ∈ ps, p < g.nodes.length) :
    (g.nodesAt ps).length = ps.length := by
  induction ps with
  | nil => rfl
  | cons p ps ih =>
      obtain ⟨hp, hps⟩ := List.forall_mem_cons.1 hlt
      rw [nodesAt_cons hp, List.length_cons, List.length_cons, ih hps]

/-! ### The graph of a restricted definition -/

theorem ofTasks_restrict (hu : ofTasks d = .ok u) (keep : String → Bool) :
    ofTasks (d.restrict keep) =
      .ok (unrelated d.name (.ofNodes (u.nodes.filter fun n => keep n.name))) := by
  obtain ⟨hblank, nodes, hnodes, hnd, rfl⟩ := ofTasks_eq_ok_iff.1 hu
  rw [← Roster.nodes_ofNodes nodes] at hnodes hnd
  refine ofTasks_eq_ok_iff.2 ⟨fun t ht => hblank t (List.mem_of_mem_filter ht), _, ?_, ?_, rfl⟩
  · refine List.rel_filter ?_ hnodes
    intro n t hn
    show keep n.name = true ↔ keep t.name = true
    rw [hn.name]
  · exact hnd.sublist (List.filter_sublist.map _)

/-- What remains of the relations can be entered in what remains of the tasks. -/
theorem Of.exists_relateAll_restrict (hg : g.Of d) (hu : ofTasks d = .ok u)
    (hclosed : ∀ a b, d.Depends a b → keep b = true → keep a = true) :
    ∃ g', (unrelated d.name (.ofNodes (u.nodes.filter fun n => keep n.name))).relateAll 0
      (d.restrict keep).relations = .ok g' := by
  refine (exists_relateAll_ofTasks_iff (ofTasks_restrict hu keep)).2 fun r hr => ?_
  obtain ⟨hmem, hkeep⟩ := List.mem_filter.1 hr
  obtain ⟨htarget, hsource, hne⟩ := hg.relatable_iff.1 (hg.relatable r hmem)
  refine ⟨?_, fun s hs => ?_, hne⟩
  · exact Definition.declares_restrict_iff.2 ⟨htarget, hkeep⟩
  · obtain ⟨source, target⟩ := r
    obtain rfl : source = some s := hs
    exact Definition.declares_restrict_iff.2 ⟨hsource s rfl, hclosed s target hmem hkeep⟩

section part

variable (hnodes : g'.nodes = g.nodes.filter fun n => keep n.name)

include hnodes

theorem length_nodes_restrict : g'.nodes.length = (g.kept keep).size := by
  rw [hnodes, ← nodesAt_kept]
  exact length_nodesAt fun p hp => (mem_kept.1 hp).1

theorem getElem?_rank_kept (hp : p ∈ g.kept keep) :
    g'.nodes[(g.kept keep).rank p]? = g.nodes[p]? := by
  rw [hnodes, ← nodesAt_kept, getElem?_nodesAt fun p hp => (mem_kept.1 hp).1,
    Positions.getElem?_rank hp, Option.bind_some]

theorem nameAt_rank_kept (hp : p ∈ g.kept keep) :
    g'.nameAt ((g.kept keep).rank p) = g.nameAt p := by
  rw [nameAt, nameAt, getElem?_rank_kept hnodes hp]

/-- The graph of the restricted definition is the part of the graph at the kept positions. -/
theorem Of.part_restrict (hg : g.Of d) (hg' : g'.Of (d.restrict keep))
    (hclosed : ∀ a b, d.Depends a b → keep b = true → keep a = true) :
    Listing.Part (Sorting.Edge g.predecessors) g.nodes.length (g.kept keep)
      (Sorting.Edge g'.predecessors) where
  lt p hp := (mem_kept.1 hp).1
  closed p q he hq := by
    have hp := (hg.represents.mirrored.lt_of_mem_predecessors he).1
    exact mem_kept.2 ⟨hp, hclosed _ _ (hg.depends_of_edge he) (mem_kept.1 hq).2⟩
  source_lt i j he := by
    rw [← length_nodes_restrict hnodes]
    exact (hg'.represents.mirrored.lt_of_mem_predecessors he).1
  edge_iff p hp q hq := by
    have hlt : ∀ r ∈ g.kept keep, (g.kept keep).rank r < g'.nodes.length := by
      intro r hr
      rw [length_nodes_restrict hnodes]
      exact Positions.rank_lt hr
    obtain ⟨hp', -⟩ := mem_kept.1 hp
    obtain ⟨hq', hkeep⟩ := mem_kept.1 hq
    rw [hg'.edge_iff (hlt p hp) (hlt q hq), hg.edge_iff hp' hq', nameAt_rank_kept hnodes hp,
      nameAt_rank_kept hnodes hq, Definition.depends_restrict_iff]
    exact and_iff_left hkeep

/-- What is left of the order of a graph is the order of the restricted graph. -/
theorem Of.order_restrict (hg : g.Of d) (hg' : g'.Of (d.restrict keep)) {ps : List Nat}
    (hps : g.order = .ok ps)
    (hclosed : ∀ a b, d.Depends a b → keep b = true → keep a = true) :
    g'.order = .ok (Listing.within (g.kept keep) ps) := by
  obtain ⟨hgreedy, hlen⟩ := greedy_of_order hg.represents.mirrored hps
  have hpart := hg.part_restrict hnodes hg' hclosed
  have hleft := hgreedy.part hpart
  have hlength := Listing.length_within (hgreedy.perm_of_length_eq hlen) hpart.lt
  rw [← length_nodes_restrict hnodes] at hleft hlength
  exact order_of_greedy hg'.represents.mirrored hleft hlength

/-- The nodes at what is left of some positions are the kept nodes among those at all of them. -/
theorem nodesAt_within {ps : List Nat} (hlt : ∀ p ∈ ps, p < g.nodes.length) :
    g'.nodesAt (Listing.within (g.kept keep) ps) =
      (g.nodesAt ps).filter fun n => keep n.name := by
  rw [nodesAt, nodesAt, Listing.within, List.filterMap_map, List.filterMap_filter,
    List.filter_filterMap]
  refine List.filterMap_congr fun p hmemps => ?_
  have hp := hlt p hmemps
  have hn : g.nodes[p]? = some g.nodes[p] := List.getElem?_eq_getElem hp
  have hmem : p ∈ g.kept keep ↔ keep g.nodes[p].name = true := by
    simp [mem_kept, nameAt, hp]
  by_cases hkeep : keep g.nodes[p].name = true
  · rw [if_pos (decide_eq_true (hmem.2 hkeep)), Function.comp_apply,
      getElem?_rank_kept hnodes (hmem.2 hkeep), hn, Option.filter_some, if_pos hkeep]
  · rw [if_neg (by simpa [hmem] using hkeep), hn, Option.filter_some, if_neg hkeep]

end part

/-- **Tasks that nothing kept depends on may go**, wherever they are declared: if the kept tasks
have, with a task, all those it depends on, then the restricted definition has a graph, and its
tasks come in the order that they had among all tasks. -/
theorem topologicalOrder_restrict (h : build d = .ok g)
    (hclosed : ∀ a b, d.Depends a b → keep b = true → keep a = true) :
    ∃ g', build (d.restrict keep) = .ok g' ∧
      g'.topologicalOrder = g.topologicalOrder.filter fun n => keep n.name := by
  obtain ⟨u, hu, hrelate, ps, hps⟩ := build_eq_ok_iff.1 h
  have hg := of_build h
  obtain ⟨g', hrelate'⟩ := hg.exists_relateAll_restrict hu hclosed
  have hu' := ofTasks_restrict hu keep
  have hg' := of_relateAll hu' hrelate'
  have hnodes : g'.nodes = g.nodes.filter fun n => keep n.name := by
    rw [(roster_relateAll hrelate').1, (roster_relateAll hrelate).1]
    exact Roster.nodes_ofNodes _
  have horder := hg.order_restrict hnodes hg' hps hclosed
  refine ⟨g', build_eq_ok_iff.2 ⟨_, hu', hrelate', _, horder⟩, ?_⟩
  have hgreedy := (greedy_of_order hg.represents.mirrored hps).1
  rw [topologicalOrder_eq horder, topologicalOrder_eq hps]
  exact nodesAt_within hnodes fun p hp => hgreedy.lt_of_mem hp

theorem topologicalOrder_lateSource_restrict :
    build lateSource = .ok lateSourceGraph ∧
      ∃ g', build (lateSource.restrict (· != "report")) = .ok g' ∧
        g'.topologicalOrder = [⟨"extract", .dataX, false⟩, ⟨"load", .sql, false⟩] := by
  have hbuild : build lateSource = .ok lateSourceGraph := by rfl
  have hclosed : ∀ a b, lateSource.Depends a b → (b != "report") = true →
      (a != "report") = true := by
    simp [lateSource, Definition.Depends]
  obtain ⟨g', hg', horder⟩ := topologicalOrder_restrict hbuild hclosed
  exact ⟨hbuild, g', hg', horder⟩

end Graph

end TaskFlow
