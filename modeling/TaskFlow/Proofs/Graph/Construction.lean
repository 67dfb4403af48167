import Mathlib.Data.List.Forall2
import TaskFlow.Graph.Build
import TaskFlow.Proofs.Graph.Roster
import TaskFlow.Proofs.Graph.Sorting
import TaskFlow.Result

/-! # How a graph is made

The tasks of a definition become nodes one by one (`ofTasks_eq_ok_iff`) and its relations become
edges one by one.  After some relations a graph `Represents` them: its two tables mirror each other
and hold an edge exactly for each of these relations that has a source.  One relation preserves
this (`relate_represents`), hence all do (`relateAll_represents`); a relation is refused exactly if
it is not `Relatable`, which is a matter of the nodes alone (`exists_relateAll_iff`).  Where the
construction fails, it fails at the first task or relation that is refused (`ofTasks_eq_error_iff`,
`relateAll_eq_error_iff`).

`of_build` sums up what a graph that is built has to do with its definition. -/

namespace TaskFlow

open Positions (entry)

/-- The node is made of the task. -/
structure Node.Of (n : Node) (t : Task) : Prop where
  name : n.name = t.name
  typeName : n.taskType.name = t.typeName
  skip : n.skip = t.skip

namespace Graph

variable {g g' : Graph} {d : Definition} {e : Defect} {r : Relation} {done rs : List Relation}
  {p q j : Nat}

/-! ### Tasks -/

theorem addTask_eq_ok_iff {s s' : Roster} {task : Task} :
    addTask s task = .ok s' ↔
      Text.isBlankText task.name = false ∧ s.position? task.name = none ∧
        ∃ n : Node, n.Of task ∧ s' = s.snoc n := by
  unfold addTask
  constructor
  · intro h
    split at h
    · cases h
    · rename_i hblank
      split at h
      · cases h
      · rename_i t ht
        split at h
        · cases h
        · rename_i hfresh
          cases h
          have htype := Registry.resolve_eq_ok_iff.1 ht
          refine ⟨by simpa using hblank, by simpa using hfresh, _, ⟨rfl, htype, rfl⟩, rfl⟩
  · rintro ⟨hblank, hfresh, n, ⟨hname, htype, hskip⟩, rfl⟩
    rw [if_neg (by simp [hblank]), Registry.resolve_eq_ok_iff.2 htype]
    dsimp only
    rw [if_neg (by simp [hfresh]), ← hname, ← hskip]

/-- A task that is refused fails one of its checks and passes those before it. -/
theorem addTask_eq_error {s : Roster} {task : Task} (h : addTask s task = .error e) :
    Text.isBlankText task.name = true ∧ e = .blankName s.nodes.length ∨
      Text.isBlankText task.name = false ∧
        ((∀ ty : TaskType, ty.name ≠ task.typeName) ∧
            e = .unknownType s.nodes.length task.name task.typeName ∨
          (∃ ty : TaskType, ty.name = task.typeName) ∧ (∃ p, s.position? task.name = some p) ∧
            e = .repeatedName s.nodes.length task.name) := by
  unfold addTask at h
  split at h
  · rename_i hblank
    cases h
    exact .inl ⟨hblank, rfl⟩
  · rename_i hblank
    refine .inr ⟨by simpa using hblank, ?_⟩
    split at h
    · rename_i hresolve
      cases h
      refine .inl ⟨fun ty hty => ?_, rfl⟩
      rw [Registry.resolve_eq_ok_iff.2 hty] at hresolve
      cases hresolve
    · rename_i ty hty
      split at h
      · rename_i htaken
        cases h
        exact .inr ⟨⟨ty, Registry.resolve_eq_ok_iff.1 hty⟩, Option.isSome_iff_exists.1 htaken, rfl⟩
      · cases h

/-- Tasks are added one by one, as long as each has a name of its own. -/
theorem foldlM_addTask_eq_ok_iff {tasks : List Task} {s s' : Roster} (hs : s.Indexed) :
    tasks.foldlM addTask s = .ok s' ↔
      (∀ t ∈ tasks, Text.isBlankText t.name = false) ∧
        ∃ new, List.Forall₂ Node.Of new tasks ∧ s' = new.foldl Roster.snoc s ∧
          ((s.nodes ++ new).map Node.name).Nodup := by
  induction tasks generalizing s with
  | nil =>
      simp only [List.foldlM_nil, List.forall₂_nil_right_iff, List.not_mem_nil, false_implies,
        implies_true, true_and, exists_eq_left, List.append_nil, List.foldl_nil]
      constructor
      · rintro ⟨⟩
        exact ⟨rfl, hs.nodup⟩
      · rintro ⟨rfl, -⟩
        rfl
  | cons t tasks ih =>
      rw [List.foldlM_cons, bind_eq_ok_iff]
      constructor
      · rintro ⟨s₁, h₁, h₂⟩
        obtain ⟨hblank, hfresh, n, hn, rfl⟩ := addTask_eq_ok_iff.1 h₁
        rw [← hn.name] at hfresh
        obtain ⟨hblanks, new, hnew, rfl, hnd⟩ := (ih (hs.snoc hfresh)).1 h₂
        refine ⟨List.forall_mem_cons.2 ⟨hblank, hblanks⟩, n :: new, .cons hn hnew, rfl, ?_⟩
        simpa [Roster.snoc] using hnd
      · rintro ⟨hblank, _, hall, rfl, hnd⟩
        obtain ⟨n, new, hn, hnew, rfl⟩ := List.forall₂_cons_right_iff.1 hall
        obtain ⟨hblank, hblanks⟩ := List.forall_mem_cons.1 hblank
        have hfresh : s.position? n.name = none := by
          refine hs.position?_eq_none_iff.2 fun m hm => ?_
          rw [List.map_append, List.nodup_append] at hnd
          exact hnd.2.2 m.name (List.mem_map_of_mem hm) n.name List.mem_cons_self
        have hadd : addTask s t = .ok (s.snoc n) :=
          addTask_eq_ok_iff.2 ⟨hblank, hn.name ▸ hfresh, n, hn, rfl⟩
        refine ⟨_, hadd, (ih (hs.snoc hfresh)).2 ⟨hblanks, new, hnew, rfl, ?_⟩⟩
        simpa [Roster.snoc] using hnd

theorem ofTasks_eq_ok_iff :
    ofTasks d = .ok g ↔
      (∀ t ∈ d.tasks, Text.isBlankText t.name = false) ∧
        ∃ nodes, List.Forall₂ Node.Of nodes d.tasks ∧ (nodes.map Node.name).Nodup ∧
          g = unrelated d.name (.ofNodes nodes) := by
  have hmap : ofTasks d = .ok g ↔
      ∃ s, d.tasks.foldlM addTask .empty = .ok s ∧ unrelated d.name s = g := by
    exact map_eq_ok_iff
  rw [hmap]
  constructor
  · rintro ⟨s, h, rfl⟩
    obtain ⟨hblank, nodes, hnodes, rfl, hnd⟩ := (foldlM_addTask_eq_ok_iff Roster.indexed_empty).1 h
    exact ⟨hblank, nodes, hnodes, hnd, rfl⟩
  · rintro ⟨hblank, nodes, hnodes, hnd, rfl⟩
    refine ⟨_, (foldlM_addTask_eq_ok_iff Roster.indexed_empty).2 ?_, rfl⟩
    exact ⟨hblank, nodes, hnodes, rfl, hnd⟩

theorem ofTasks_eq_error_iff :
    ofTasks d = .error e ↔
      ∃ before task after s, d.tasks = before ++ task :: after ∧
        before.foldlM addTask .empty = .ok s ∧ addTask s task = .error e := by
  rw [← foldlM_eq_error_iff, ofTasks]
  cases d.tasks.foldlM addTask .empty <;> simp [Functor.map, Except.map]

/-- The nodes of some tasks have their names. -/
theorem map_name_eq {nodes : List Node} {tasks : List Task}
    (h : List.Forall₂ Node.Of nodes tasks) : nodes.map Node.name = tasks.map Task.name := by
  induction h with
  | nil => rfl
  | cons hn _ ih => rw [List.map_cons, List.map_cons, hn.name, ih]

/-! ### Relations -/

/-- The graph holds the relations that have been added to it, and nothing else. -/
structure Represents (g : Graph) (rs : List Relation) : Prop where
  indexed : g.Indexed
  mirrored : Mirrored g.nodes.length g.successors g.predecessors
  edge_iff : ∀ p q, Sorting.Edge g.predecessors p q ↔
    ∃ r ∈ rs, r.source.bind g.position? = some p ∧ g.position? r.target = some q
  irrefl : ∀ p, ¬ Sorting.Edge g.predecessors p p

theorem Represents.nodup (hg : g.Represents done) : (g.nodes.map Node.name).Nodup :=
  hg.indexed.nodup

/-- The relation speaks of tasks of the graph, and of two different ones. -/
structure Relatable (g : Graph) (r : Relation) : Prop where
  target : ∃ q, g.position? r.target = some q
  source : ∀ s, r.source = some s → ∃ p, g.position? s = some p
  ne : r.source ≠ some r.target

theorem relate_eq_ok_iff :
    g.relate j r = .ok g' ↔
      ∃ q, g.position? r.target = some q ∧
        (r.source = none ∧ g' = g ∨
          ∃ s p, r.source = some s ∧ g.position? s = some p ∧ p ≠ q ∧ g' = g.link p q) := by
  unfold relate
  cases hq : g.position? r.target with
  | none => simp
  | some q =>
      cases hs : r.source with
      | none => simp [eq_comm]
      | some s =>
          cases hp : g.position? s with
          | none => simp [hp]
          | some p =>
              by_cases hpq : p = q
              · simp [hp, hpq]
              · simp [hp, hpq, eq_comm]

theorem relate_eq_error_iff :
    g.relate j r = .error e ↔
      g.position? r.target = none ∧ e = .unknownTarget j r.target ∨
        ∃ q s, g.position? r.target = some q ∧ r.source = some s ∧
          (g.position? s = none ∧ e = .unknownSource j s ∨
            g.position? s = some q ∧ e = .selfDependency j s) := by
  unfold relate
  cases hq : g.position? r.target with
  | none => simp [eq_comm]
  | some q =>
      cases hs : r.source with
      | none => simp
      | some s =>
          cases hp : g.position? s with
          | none => simp [hp, eq_comm]
          | some p =>
              by_cases hpq : p = q
              · simp [hp, hpq, eq_comm]
              · simp [hp, hpq]

theorem exists_relate_iff (hg : g.Indexed) :
    (∃ g', g.relate j r = .ok g') ↔ g.Relatable r := by
  constructor
  · rintro ⟨g', h⟩
    obtain ⟨q, hq, ⟨hs, -⟩ | ⟨s, p, hs, hp, hne, -⟩⟩ := relate_eq_ok_iff.1 h
    · exact ⟨⟨q, hq⟩, by simp [hs], by simp [hs]⟩
    · refine ⟨⟨q, hq⟩, ?_, ?_⟩
      · rintro s' hs'
        rw [hs] at hs'
        cases hs'
        exact ⟨p, hp⟩
      · rw [hs]
        rintro ⟨rfl⟩
        rw [hp] at hq
        exact hne (Option.some.inj hq)
  · rintro ⟨⟨q, hq⟩, hsource, hne⟩
    cases hs : r.source with
    | none => exact ⟨g, relate_eq_ok_iff.2 ⟨q, hq, .inl ⟨hs, rfl⟩⟩⟩
    | some s =>
        obtain ⟨p, hp⟩ := hsource s hs
        refine ⟨g.link p q, relate_eq_ok_iff.2 ⟨q, hq, .inr ⟨s, p, hs, hp, ?_, rfl⟩⟩⟩
        rintro rfl
        exact hne (by rw [hs, hg.position?_inj hp hq])

theorem roster_relate (h : g.relate j r = .ok g') :
    g'.toRoster = g.toRoster ∧ g'.name = g.name := by
  obtain ⟨q, -, ⟨-, rfl⟩ | ⟨s, p, -, -, -, rfl⟩⟩ := relate_eq_ok_iff.1 h
  · exact ⟨rfl, rfl⟩
  · exact ⟨rfl, rfl⟩

/-- The edges after an edge has been entered. -/
theorem edge_link (hm : Mirrored g.nodes.length g.successors g.predecessors) {i k : Nat}
    (hk : k < g.nodes.length) :
    Sorting.Edge (g.link i k).predecessors p q ↔
      p = i ∧ q = k ∨ Sorting.Edge g.predecessors p q := by
  have hk' : k < g.predecessors.length := by rw [hm.length_predecessors]; exact hk
  rw [Sorting.Edge, link, Positions.mem_entry_modify_insert hk', and_comm]
  rfl

/-- One more relation is represented. -/
theorem relate_represents (hg : g.Represents done) (h : g.relate j r = .ok g') :
    g'.Represents (done ++ [r]) := by
  obtain ⟨k, hk, ⟨hs, rfl⟩ | ⟨s, i, hs, hi, hne, rfl⟩⟩ := relate_eq_ok_iff.1 h
  · refine ⟨hg.indexed, hg.mirrored, ?_, hg.irrefl⟩
    intro p q
    rw [hg.edge_iff]
    simp [or_and_right, exists_or, hs]
  · have hi' := hg.indexed.lt_of_position? hi
    have hk' := hg.indexed.lt_of_position? hk
    refine ⟨hg.indexed, hg.mirrored.insert hi' hk', ?_, ?_⟩
    · intro p q
      rw [edge_link hg.mirrored hk', hg.edge_iff]
      have hpos : (g.link i k).position? = g.position? := rfl
      simp only [List.mem_append, List.mem_singleton, or_and_right, exists_or, exists_eq_left, hs,
        Option.bind_some, hpos, hi, hk, Option.some.injEq]
      rw [or_comm, eq_comm (a := p), eq_comm (a := q)]
    · intro p hp
      rcases (edge_link hg.mirrored hk').1 hp with ⟨rfl, rfl⟩ | hp
      · exact hne rfl
      · exact hg.irrefl p hp

theorem relateAll_cons_eq_ok_iff :
    g.relateAll j (r :: rs) = .ok g' ↔
      ∃ g₁, g.relate j r = .ok g₁ ∧ g₁.relateAll (j + 1) rs = .ok g' :=
  bind_eq_ok_iff

theorem relateAll_eq_error_iff :
    g.relateAll j rs = .error e ↔
      ∃ before r after g', rs = before ++ r :: after ∧ g.relateAll j before = .ok g' ∧
        g'.relate (j + before.length) r = .error e := by
  constructor
  · intro h
    induction rs generalizing g j with
    | nil => cases h
    | cons r rs ih =>
        rcases bind_eq_error_iff.1 h with h | ⟨g₁, h₁, h⟩
        · exact ⟨[], r, rs, g, rfl, rfl, h⟩
        · obtain ⟨before, r', after, g', rfl, hbefore, hr'⟩ := ih h
          refine ⟨r :: before, r', after, g', rfl, relateAll_cons_eq_ok_iff.2 ⟨g₁, h₁, hbefore⟩, ?_⟩
          rwa [List.length_cons, Nat.add_comm before.length, ← Nat.add_assoc]
  · rintro ⟨before, r, after, g', rfl, hbefore, hr⟩
    induction before generalizing g j with
    | nil =>
        cases hbefore
        exact bind_eq_error_iff.2 (.inl hr)
    | cons r' before ih =>
        obtain ⟨g₁, h₁, hbefore⟩ := relateAll_cons_eq_ok_iff.1 hbefore
        refine bind_eq_error_iff.2 (.inr ⟨g₁, h₁, ih hbefore ?_⟩)
        rwa [List.length_cons, Nat.add_comm before.length, ← Nat.add_assoc] at hr

theorem roster_relateAll (h : g.relateAll j rs = .ok g') :
    g'.toRoster = g.toRoster ∧ g'.name = g.name := by
  induction rs generalizing g j with
  | nil =>
      cases h
      exact ⟨rfl, rfl⟩
  | cons r rs ih =>
      obtain ⟨g₁, h₁, h₂⟩ := relateAll_cons_eq_ok_iff.1 h
      obtain ⟨hn₁, hw₁⟩ := roster_relate h₁
      obtain ⟨hn₂, hw₂⟩ := ih h₂
      exact ⟨hn₂.trans hn₁, hw₂.trans hw₁⟩

theorem relateAll_represents (hg : g.Represents done) (h : g.relateAll j rs = .ok g') :
    g'.Represents (done ++ rs) := by
  induction rs generalizing g j done with
  | nil =>
      cases h
      rw [List.append_nil]
      exact hg
  | cons r rs ih =>
      obtain ⟨g₁, h₁, h₂⟩ := relateAll_cons_eq_ok_iff.1 h
      have := ih (relate_represents hg h₁) h₂
      rwa [List.append_assoc] at this

theorem Relatable.congr (h : g'.toRoster = g.toRoster) : g'.Relatable r ↔ g.Relatable r := by
  constructor
  · rintro ⟨ht, hs, hne⟩
    rw [h] at ht hs
    exact ⟨ht, hs, hne⟩
  · rintro ⟨ht, hs, hne⟩
    rw [← h] at ht hs
    exact ⟨ht, hs, hne⟩

theorem exists_relateAll_iff (hg : g.Indexed) :
    (∃ g', g.relateAll j rs = .ok g') ↔ ∀ r ∈ rs, g.Relatable r := by
  induction rs generalizing g j with
  | nil => simp [relateAll]
  | cons r rs ih =>
      constructor
      · rintro ⟨g', h⟩
        obtain ⟨g₁, h₁, h₂⟩ := relateAll_cons_eq_ok_iff.1 h
        have hroster := (roster_relate h₁).1
        refine List.forall_mem_cons.2 ⟨(exists_relate_iff hg).1 ⟨g₁, h₁⟩, fun r' hr' => ?_⟩
        exact (Relatable.congr hroster).1 ((ih (hroster ▸ hg)).1 ⟨g', h₂⟩ r' hr')
      · intro hall
        obtain ⟨hr, hrs⟩ := List.forall_mem_cons.1 hall
        obtain ⟨g₁, h₁⟩ := (exists_relate_iff hg).2 hr
        have hroster := (roster_relate h₁).1
        have hrs₁ : ∀ r' ∈ rs, g₁.Relatable r' :=
          fun r' hr' => (Relatable.congr hroster).2 (hrs r' hr')
        obtain ⟨g', h₂⟩ := (ih (hroster ▸ hg)).2 hrs₁
        exact ⟨g', relateAll_cons_eq_ok_iff.2 ⟨g₁, h₁, h₂⟩⟩

/-! ### Order -/

/-- The sorting of a graph ends in a state that keeps the invariant, with nothing ready. -/
theorem sorted_invariant (hm : Mirrored g.nodes.length g.successors g.predecessors) :
    Sorting.Invariant g.nodes.length g.predecessors g.sorted ∧ g.sorted.ready = .empty := by
  have hstart := Sorting.start_invariant hm.length_predecessors
  exact ⟨Sorting.run_invariant hm hstart _, Sorting.ready_run hm hstart (Nat.le_add_left _ _)⟩

theorem order_eq_ok_iff {ps : List Nat} :
    g.order = .ok ps ↔ g.nodes.length ≤ g.sorted.order.length ∧ g.sorted.order = ps := by
  rw [order]
  split
  · rename_i h
    simp [Nat.not_le.2 h]
  · rename_i h
    simp [Nat.le_of_not_lt h]

/-- An order is greedy and complete. -/
theorem greedy_of_order (hm : Mirrored g.nodes.length g.successors g.predecessors)
    {ps : List Nat} (h : g.order = .ok ps) :
    Listing.Greedy (Sorting.Edge g.predecessors) g.nodes.length ps ∧
      ps.length = g.nodes.length := by
  obtain ⟨hlen, rfl⟩ := order_eq_ok_iff.1 h
  have hgreedy := (sorted_invariant hm).1.greedy
  exact ⟨hgreedy, Nat.le_antisymm hgreedy.length_le hlen⟩

/-- A greedy list of all positions is the order. -/
theorem order_of_greedy (hm : Mirrored g.nodes.length g.successors g.predecessors) {ps : List Nat}
    (h : Listing.Greedy (Sorting.Edge g.predecessors) g.nodes.length ps)
    (hlen : ps.length = g.nodes.length) : g.order = .ok ps := by
  obtain ⟨hinv, hready⟩ := sorted_invariant hm
  have hle : g.sorted.order.length ≤ ps.length := hlen ▸ hinv.greedy.length_le
  have hsorted := hinv.greedy.eq_of_length_le (hinv.exhausted hready) h hle
  exact order_eq_ok_iff.2 ⟨by rw [hsorted, hlen], hsorted⟩

theorem exists_order_iff (hm : Mirrored g.nodes.length g.successors g.predecessors) :
    (∃ ps, g.order = .ok ps) ↔
      ∀ p, ¬ Relation.TransGen (Sorting.Edge g.predecessors) p p := by
  obtain ⟨hinv, hready⟩ := sorted_invariant hm
  have hlt : ∀ p q, Sorting.Edge g.predecessors p q → p < g.nodes.length :=
    fun p q he => (hm.lt_of_mem_predecessors he).1
  rw [← hinv.greedy.length_eq_iff_acyclic hlt (hinv.exhausted hready)]
  constructor
  · rintro ⟨ps, h⟩
    obtain ⟨hlen, -⟩ := order_eq_ok_iff.1 h
    exact Nat.le_antisymm hinv.greedy.length_le hlen
  · intro hlen
    exact ⟨_, order_eq_ok_iff.2 ⟨hlen.ge, rfl⟩⟩

/-! ### The graph of a definition -/

/-- The graph has the tasks and the relations of the definition. -/
structure Of (g : Graph) (d : Definition) : Prop where
  name : g.name = d.name
  nodes : List.Forall₂ Node.Of g.nodes d.tasks
  represents : g.Represents d.relations
  relatable : ∀ r ∈ d.relations, g.Relatable r

theorem build_eq_ok_iff :
    build d = .ok g ↔
      ∃ u, ofTasks d = .ok u ∧ u.relateAll 0 d.relations = .ok g ∧ ∃ ps, g.order = .ok ps := by
  unfold build
  constructor
  · intro h
    obtain ⟨u, hu, h⟩ := bind_eq_ok_iff.1 h
    obtain ⟨g', hg, h⟩ := bind_eq_ok_iff.1 h
    obtain ⟨ps, hps, h⟩ := bind_eq_ok_iff.1 h
    cases h
    exact ⟨u, hu, hg, ps, hps⟩
  · rintro ⟨u, hu, hg, ps, hps⟩
    exact bind_eq_ok_iff.2 ⟨u, hu, bind_eq_ok_iff.2 ⟨g, hg, bind_eq_ok_iff.2 ⟨ps, hps, rfl⟩⟩⟩

theorem build_eq_error_iff :
    build d = .error e ↔
      ofTasks d = .error e ∨
        ∃ u, ofTasks d = .ok u ∧
          (u.relateAll 0 d.relations = .error e ∨
            ∃ g, u.relateAll 0 d.relations = .ok g ∧ g.order = .error e) := by
  have hlast : ∀ g : Graph, (do let _ ← g.order; return g) = Except.error e ↔ g.order = .error e := by
    intro g
    rw [bind_eq_error_iff, or_iff_left]
    rintro ⟨ps, -, h⟩
    cases h
  unfold build
  simp only [bind_eq_error_iff, hlast]

theorem unrelated_represents {name : String} {s : Roster} (hs : s.Indexed) :
    (unrelated name s).Represents [] where
  indexed := hs
  mirrored := .empty s.nodes
  edge_iff _ _ := iff_of_false (Positions.mem_entry_map_empty s.nodes) (by simp)
  irrefl _ := Positions.mem_entry_map_empty s.nodes

/-- What the relations of a definition make of its tasks. -/
theorem of_relateAll {u : Graph} (hu : ofTasks d = .ok u)
    (hg : u.relateAll 0 d.relations = .ok g) : g.Of d := by
  obtain ⟨-, nodes, hnodes, hnd, rfl⟩ := ofTasks_eq_ok_iff.1 hu
  have hindexed := Roster.indexed_ofNodes hnd
  obtain ⟨hroster, hname⟩ := roster_relateAll hg
  have hgnodes : g.nodes = nodes := by
    rw [hroster]
    exact Roster.nodes_ofNodes nodes
  refine ⟨hname, ?_, ?_, ?_⟩
  · rw [hgnodes]
    exact hnodes
  · exact relateAll_represents (unrelated_represents hindexed) hg
  · intro r hr
    exact (Relatable.congr hroster).2 ((exists_relateAll_iff hindexed).1 ⟨g, hg⟩ r hr)

/-- The first relations of a definition make the graph of a definition that has no others. -/
theorem of_relateAll_first {u : Graph} (hu : ofTasks d = .ok u)
    (hg : u.relateAll 0 done = .ok g) : g.Of { d with relations := done } :=
  of_relateAll (d := { d with relations := done }) hu hg

theorem of_ofTasks {u : Graph} (hu : ofTasks d = .ok u) : u.Of { d with relations := [] } :=
  of_relateAll_first hu rfl

theorem of_build (h : build d = .ok g) : g.Of d := by
  obtain ⟨u, hu, hg, -⟩ := build_eq_ok_iff.1 h
  exact of_relateAll hu hg

theorem order_of_build (h : build d = .ok g) : ∃ ps, g.order = .ok ps := by
  obtain ⟨u, hu, hg, hps⟩ := build_eq_ok_iff.1 h
  exact hps

/-! ### Edges by name -/

/-- The name of the task at a position. -/
def nameAt (g : Graph) (p : Nat) : String :=
  (g.nodes[p]?.map Node.name).getD ""

theorem Of.nameAt_eq (hg : g.Of d) {name : String} (h : g.position? name = some p) :
    g.nameAt p = name := by
  obtain ⟨n, hn, rfl⟩ := (hg.represents.indexed _ _).1 h
  simp [nameAt, hn]

theorem Of.position?_nameAt (hg : g.Of d) (hp : p < g.nodes.length) :
    g.position? (g.nameAt p) = some p := by
  refine (hg.represents.indexed _ _).2 ⟨g.nodes[p], ?_, ?_⟩
  · exact List.getElem?_eq_getElem hp
  · simp [nameAt, hp]

/-- Different tasks have different names. -/
theorem Of.nameAt_inj (hg : g.Of d) (hp : p < g.nodes.length) (hq : q < g.nodes.length)
    (h : g.nameAt p = g.nameAt q) : p = q := by
  have hpos := hg.position?_nameAt hp
  rw [h, hg.position?_nameAt hq] at hpos
  exact (Option.some.inj hpos).symm

theorem Of.edge_iff_exists (hg : g.Of d) :
    Sorting.Edge g.predecessors p q ↔
      ∃ a b, d.Depends a b ∧ g.position? a = some p ∧ g.position? b = some q := by
  rw [hg.represents.edge_iff]
  constructor
  · rintro ⟨⟨source, target⟩, hr, hp, hq⟩
    obtain ⟨a, ha, hp⟩ := Option.bind_eq_some_iff.1 hp
    dsimp only at ha hq
    subst ha
    exact ⟨a, target, hr, hp, hq⟩
  · rintro ⟨a, b, hr, hp, hq⟩
    exact ⟨_, hr, hp, hq⟩

theorem Of.edge_iff (hg : g.Of d) (hp : p < g.nodes.length) (hq : q < g.nodes.length) :
    Sorting.Edge g.predecessors p q ↔ d.Depends (g.nameAt p) (g.nameAt q) := by
  rw [hg.edge_iff_exists]
  constructor
  · rintro ⟨a, b, hr, ha, hb⟩
    rw [hg.nameAt_eq ha, hg.nameAt_eq hb]
    exact hr
  · intro hr
    exact ⟨_, _, hr, hg.position?_nameAt hp, hg.position?_nameAt hq⟩

/-- The ends of a dependency are declared. -/
theorem Of.position?_of_depends (hg : g.Of d) {a b : String} (h : d.Depends a b) :
    ∃ p q, g.position? a = some p ∧ g.position? b = some q := by
  have hr := hg.relatable _ h
  obtain ⟨q, hq⟩ := hr.target
  obtain ⟨p, hp⟩ := hr.source a rfl
  exact ⟨p, q, hp, hq⟩

theorem Of.depends_of_edge (hg : g.Of d) (he : Sorting.Edge g.predecessors p q) :
    d.Depends (g.nameAt p) (g.nameAt q) := by
  obtain ⟨hp, hq⟩ := hg.represents.mirrored.lt_of_mem_predecessors he
  exact (hg.edge_iff hp hq).1 he

/-- The position of a name, if it is that of a task. -/
def index (g : Graph) (name : String) : Nat :=
  (g.position? name).getD 0

theorem Of.edge_of_depends (hg : g.Of d) {a b : String} (h : d.Depends a b) :
    Sorting.Edge g.predecessors (g.index a) (g.index b) := by
  obtain ⟨p, q, hp, hq⟩ := hg.position?_of_depends h
  rw [index, index, hp, hq]
  exact hg.edge_iff_exists.2 ⟨a, b, h, hp, hq⟩

/-- Along dependencies one comes back to a name exactly if one does to a position. -/
theorem Of.acyclic_iff (hg : g.Of d) :
    (∀ p, ¬ Relation.TransGen (Sorting.Edge g.predecessors) p p) ↔
      ∀ name, ¬ Relation.TransGen d.Depends name name := by
  constructor
  · intro h name hcycle
    exact h (g.index name) (hcycle.lift g.index fun _ _ hab => hg.edge_of_depends hab)
  · intro h p hcycle
    exact h (g.nameAt p) (hcycle.lift g.nameAt fun _ _ he => hg.depends_of_edge he)

end Graph

end TaskFlow
