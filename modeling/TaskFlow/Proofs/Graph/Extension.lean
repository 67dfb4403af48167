import TaskFlow.Proofs.Graph.EdgeSet
import TaskFlow.Proofs.Graph.Neighbours

/-! # One more dependency

A definition that has a graph is given one more dependency, anywhere among its relations.  A cycle
can only arise through it, so the new definition has a graph exactly if no path leads back
(`acyclic_insert_iff`).  A schedule of the new definition is one of the old (`Schedule.of_depend`),
which is why the order of its tasks cannot come before the old one; and where the old order is a
schedule of the new definition, it is still greedy and therefore stays (`build_depend`). -/

namespace TaskFlow

/-! ### Paths through one more edge -/

section Paths

variable {α : Type} {r r' : α → α → Prop} {a b x y : α}

/-- A path that may use one more edge avoids it, or leads to its source and on from its target. -/
theorem transGen_insert (hins : ∀ u v, r' u v → r u v ∨ u = a ∧ v = b)
    (h : Relation.TransGen r' x y) :
    Relation.TransGen r x y ∨ Relation.ReflTransGen r x a ∧ Relation.ReflTransGen r b y := by
  induction h with
  | single hstep =>
      rcases hins _ _ hstep with hold | ⟨rfl, rfl⟩
      · exact .inl (.single hold)
      · exact .inr ⟨.refl, .refl⟩
  | tail _ hstep ih =>
      rcases hins _ _ hstep with hold | ⟨rfl, rfl⟩
      · rcases ih with hpath | ⟨hxa, hby⟩
        · exact .inl (hpath.tail hold)
        · exact .inr ⟨hxa, hby.tail hold⟩
      · rcases ih with hpath | ⟨hxa, -⟩
        · exact .inr ⟨hpath.to_reflTransGen, .refl⟩
        · exact .inr ⟨hxa, .refl⟩

/-- One more edge closes a cycle exactly if a path leads back from its target to its source. -/
theorem acyclic_insert_iff (hins : ∀ u v, r' u v ↔ r u v ∨ u = a ∧ v = b)
    (hacyclic : ∀ x, ¬ Relation.TransGen r x x) (hne : a ≠ b) :
    (∀ x, ¬ Relation.TransGen r' x x) ↔ ¬ Relation.TransGen r b a := by
  constructor
  · intro h hback
    have hback' : Relation.TransGen r' b a :=
      Relation.TransGen.mono (fun u v huv => (hins u v).2 (.inl huv)) b a hback
    exact h b (hback'.tail ((hins a b).2 (.inr ⟨rfl, rfl⟩)))
  · intro hno x hcycle
    rcases transGen_insert (fun u v => (hins u v).1) hcycle with hold | ⟨hxa, hbx⟩
    · exact hacyclic x hold
    · rcases Relation.reflTransGen_iff_eq_or_transGen.1 (hbx.trans hxa) with heq | hback
      · exact hne heq
      · exact hno hback

end Paths

namespace Definition

variable {d : Definition} {a b x y : String} {j : Nat} {ps : List Nat}

/-- The definition in which `b` depends on `a`, said by a relation that is inserted at a position,
or at the end if there are not as many relations. -/
def depend (d : Definition) (j : Nat) (a b : String) : Definition :=
  { d with relations := d.relations.take j ++ ⟨some a, b⟩ :: d.relations.drop j }

theorem mem_relations_depend {r : Relation} :
    r ∈ (d.depend j a b).relations ↔ r ∈ d.relations ∨ r = ⟨some a, b⟩ := by
  have hsplit : r ∈ d.relations ↔ r ∈ d.relations.take j ∨ r ∈ d.relations.drop j := by
    rw [← List.mem_append, List.take_append_drop]
  rw [hsplit, depend, List.mem_append, List.mem_cons]
  tauto

theorem depends_depend_iff :
    (d.depend j a b).Depends x y ↔ d.Depends x y ∨ x = a ∧ y = b := by
  rw [Depends, mem_relations_depend, Relation.mk.injEq, Option.some.injEq]
  rfl

theorem Sound.depend (h : d.Sound) (ha : d.Declares a) (hb : d.Declares b) (hne : a ≠ b) :
    (d.depend j a b).Sound where
  target_declared r hr := by
    rcases mem_relations_depend.1 hr with hr | rfl
    · exact h.target_declared r hr
    · exact hb
  source_declared r hr s hs := by
    rcases mem_relations_depend.1 hr with hr | rfl
    · exact h.source_declared r hr s hs
    · cases hs
      exact ha
  source_ne_target r hr := by
    rcases mem_relations_depend.1 hr with hr | rfl
    · exact h.source_ne_target r hr
    · exact fun hself => hne (Option.some.inj hself)

/-- What respects the new dependency too is a schedule without it. -/
theorem Schedule.of_depend (h : (d.depend j a b).Schedule ps) : d.Schedule ps where
  perm := h.perm
  before p q s t hs ht hdep := h.before p q s t hs ht (depends_depend_iff.2 (.inl hdep))

/-- A schedule in which the new dependency points forwards respects it. -/
theorem Schedule.depend (h : d.Schedule ps)
    (hnew : ∀ p q s t, d.tasks[p]? = some s → d.tasks[q]? = some t → s.name = a → t.name = b →
      [p, q].Sublist ps) : (d.depend j a b).Schedule ps where
  perm := h.perm
  before p q s t hs ht hdep := by
    rcases depends_depend_iff.1 hdep with hold | ⟨hsource, htarget⟩
    · exact h.before p q s t hs ht hold
    · exact hnew p q s t hs ht hsource htarget

end Definition

namespace Graph

variable {g g' : Graph} {d d' : Definition} {a b : String} {j : Nat} {ps : List Nat}

/-! ### The graph with one more dependency -/

/-- With one more dependency the tasks and relations make a graph with the same tasks, and its order
decides whether the definition has it. -/
theorem exists_of_depend (h : build d = .ok g) (ha : d.Declares a) (hb : d.Declares b)
    (hne : a ≠ b) (j : Nat) :
    ∃ g' : Graph, g'.Of (d.depend j a b) ∧ g'.toRoster = g.toRoster ∧
      build (d.depend j a b) = g'.order.map fun _ => g' := by
  obtain ⟨u, hu, hrelate, -⟩ := build_eq_ok_iff.1 h
  have hu' : ofTasks (d.depend j a b) = .ok u := hu
  obtain ⟨g', hg', hroster, hbuild⟩ := exists_of_sound hu' ((of_build h).sound.depend ha hb hne)
  exact ⟨g', hg', hroster.trans (roster_relateAll hrelate).1.symm, hbuild⟩

theorem Of.edge_mono (hg : g.Of d) (hg' : g'.Of d') (hroster : g'.toRoster = g.toRoster)
    (hdep : ∀ x y, d.Depends x y → d'.Depends x y) {p q : Nat}
    (he : Sorting.Edge g.predecessors p q) : Sorting.Edge g'.predecessors p q := by
  obtain ⟨x, y, hxy, hp, hq⟩ := hg.edge_iff_exists.1 he
  refine hg'.edge_iff_exists.2 ⟨x, y, hdep x y hxy, ?_, ?_⟩
  · rw [hroster, hp]
  · rw [hroster, hq]

/-- A schedule in which the names of the two tasks stand in the order of the new dependency respects
it. -/
theorem Of.schedule_depend (hg : g.Of d) (hs : d.Schedule ps)
    (hbefore : [a, b].Sublist (ps.map g.nameAt)) : (d.depend j a b).Schedule ps := by
  obtain ⟨l, hl, hnames⟩ := List.sublist_map_iff.1 hbefore
  obtain ⟨p, l, rfl, ha, hnames⟩ := List.map_eq_cons_iff.1 hnames.symm
  obtain ⟨q, l, rfl, hb, hnil⟩ := List.map_eq_cons_iff.1 hnames
  obtain rfl := List.map_eq_nil_iff.1 hnil
  refine hs.depend fun p' q' s t hs' ht' hsa htb => ?_
  have hsame : ∀ i ∈ ps, ∀ i' u, d.tasks[i']? = some u → u.name = g.nameAt i → i' = i := by
    intro i hi i' u hu hname
    have hlt : i < g.nodes.length := by
      rw [hg.length_nodes]
      exact List.mem_range.1 (hs.perm.mem_iff.1 hi)
    obtain ⟨hlt', hname'⟩ := hg.nameAt_of_task hu
    exact hg.nameAt_inj hlt' hlt (hname'.trans hname)
  have hmem : ∀ i ∈ [p, q], i ∈ ps := fun i hi => hl.subset hi
  have hp := hsame p (hmem p List.mem_cons_self) p' s hs' (hsa.trans ha.symm)
  have hq := hsame q (hmem q (List.mem_cons_of_mem p List.mem_cons_self)) q' t ht'
    (htb.trans hb.symm)
  rw [hp, hq]
  exact hl

/-- Where the new dependency points forwards in the order, the order stays. -/
theorem Of.order_depend (hg : g.Of d) (hg' : g'.Of (d.depend j a b))
    (hroster : g'.toRoster = g.toRoster) (h : g.order = .ok ps)
    (hbefore : [a, b].Sublist (ps.map g.nameAt)) : g'.order = .ok ps := by
  obtain ⟨hgreedy, hlen⟩ := greedy_of_order hg.represents.mirrored h
  have hschedule := hg'.schedule_iff.1 (hg.schedule_depend (hg.schedule_of_order h) hbefore)
  rw [← hroster] at hgreedy hlen
  refine order_of_greedy hg'.represents.mirrored (hgreedy.of_schedule hschedule ?_) hlen
  exact fun p q => hg.edge_mono hg' hroster fun x y hxy => Definition.depends_depend_iff.2 (.inl hxy)

/-- **One more dependency.**  Let a definition that has a graph be given a dependency of one declared
task on another.  It has a graph still exactly if no path leads back, and is found to have a cycle
otherwise.  The order of its tasks, read as declaration positions, does not come before the old one;
and if the one task stands before the other there already, the definition has a graph with the very
same order. -/
theorem build_depend (h : build d = .ok g) (ha : d.Declares a) (hb : d.Declares b) (hne : a ≠ b)
    (j : Nat) :
    ((∃ g', build (d.depend j a b) = .ok g') ↔ ¬ Relation.TransGen d.Depends b a) ∧
      (Relation.TransGen d.Depends b a →
        ∃ p name, build (d.depend j a b) = .error (.cycle p name)) ∧
      (∀ g', build (d.depend j a b) = .ok g' →
        Listing.LexLe (g.positionsOf g.topologicalOrder) (g'.positionsOf g'.topologicalOrder)) ∧
      ([a, b].Sublist (g.topologicalOrder.map Node.name) →
        ∃ g', build (d.depend j a b) = .ok g' ∧ g'.topologicalOrder = g.topologicalOrder) := by
  have hg := of_build h
  obtain ⟨ps, hps⟩ := order_of_build h
  obtain ⟨hgreedy, -⟩ := greedy_of_order hg.represents.mirrored hps
  obtain ⟨g', hg', hroster, hbuild⟩ := exists_of_depend h ha hb hne j
  have hiff : (∃ ps', g'.order = .ok ps') ↔ ¬ Relation.TransGen d.Depends b a := by
    rw [hg'.exists_order_iff]
    refine acyclic_insert_iff (fun x y => Definition.depends_depend_iff) ?_ hne
    exact hg.exists_order_iff.1 ⟨ps, hps⟩
  rw [hbuild]
  refine ⟨?_, ?_, ?_, ?_⟩
  · rw [← hiff]
    constructor
    · rintro ⟨_, hok⟩
      obtain ⟨ps', hps', -⟩ := map_eq_ok_iff.1 hok
      exact ⟨ps', hps'⟩
    · rintro ⟨ps', hps'⟩
      exact ⟨g', map_eq_ok_iff.2 ⟨ps', hps', rfl⟩⟩
  · intro hback
    cases horder : g'.order with
    | ok ps' => exact absurd hback (hiff.1 ⟨ps', horder⟩)
    | error e =>
        obtain ⟨p, name, rfl⟩ := exists_cycle_of_order horder
        exact ⟨p, name, rfl⟩
  · intro g'' hok
    obtain ⟨ps', hps', rfl⟩ := map_eq_ok_iff.1 hok
    rw [hg.positionsOf_topologicalOrder hps, hg'.positionsOf_topologicalOrder hps']
    exact hgreedy.lexLe_schedule (hg.schedule_iff.1 (hg'.schedule_of_order hps').of_depend)
  · intro hbefore
    rw [topologicalOrder_eq hps, map_name_nodesAt fun p hp => hgreedy.lt_of_mem hp] at hbefore
    have hps' := hg.order_depend hg' hroster hps hbefore
    refine ⟨g', map_eq_ok_iff.2 ⟨ps, hps', rfl⟩, ?_⟩
    rw [topologicalOrder_eq hps, topologicalOrder_eq hps', nodesAt, nodesAt, hroster]

/-- The report may come before the load, as it does anyway; the extraction may not come after it. -/
theorem build_lateSource_depend :
    build lateSource = .ok lateSourceGraph ∧
      (∃ g', build (lateSource.depend 1 "report" "load") = .ok g' ∧
        g'.topologicalOrder = lateSourceGraph.topologicalOrder) ∧
      ∃ p name, build (lateSource.depend 1 "load" "extract") = .error (.cycle p name) := by
  have hbuild : build lateSource = .ok lateSourceGraph := by rfl
  have hload : lateSource.Declares "load" := ⟨⟨"load", "SQL", false⟩, by decide, rfl⟩
  have hreport : lateSource.Declares "report" := ⟨⟨"report", "SHELL", true⟩, by decide, rfl⟩
  have hextract : lateSource.Declares "extract" := ⟨⟨"extract", "DATAX", false⟩, by decide, rfl⟩
  have hback : lateSource.Depends "extract" "load" := by decide
  obtain ⟨-, -, -, hstays⟩ := build_depend hbuild hreport hload (by decide) 1
  obtain ⟨-, hcycle, -⟩ := build_depend hbuild hload hextract (by decide) 1
  exact ⟨hbuild, hstays (by decide), hcycle (.single hback)⟩

end Graph

end TaskFlow
