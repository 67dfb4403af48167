import TaskFlow.Proofs.Graph.Neighbours

/-! # Renaming tasks

The graph of a definition knows its tasks by their positions, and of their names only which of them
are equal.  So when the tasks of a definition are renamed by an injective map, in their declarations
and in the relations alike, every step of the construction goes as before: it succeeds with a graph
of the same tables (`Graph.Renamed`) or fails with the same defect under the new name
(`Defect.rename`).  `build_alike` says so of the whole construction, and `build_rename` adds what the
two graphs answer. -/

namespace TaskFlow

open Positions (entry)

/-! ### Computations that go alike -/

section Alike

variable {ε ε' α α' β β' : Type} {E : ε → ε' → Prop} {R : α → α' → Prop} {S : β → β' → Prop}

/-- Both computations succeed with related results, or both fail with related errors. -/
inductive Alike (E : ε → ε' → Prop) (R : α → α' → Prop) : Except ε α → Except ε' α' → Prop
  | ok {a : α} {a' : α'} : R a a' → Alike E R (.ok a) (.ok a')
  | error {e : ε} {e' : ε'} : E e e' → Alike E R (.error e) (.error e')

theorem Alike.bind {x : Except ε α} {x' : Except ε' α'} {f : α → Except ε β}
    {f' : α' → Except ε' β'} (h : Alike E R x x')
    (hf : ∀ a a', x = .ok a → x' = .ok a' → R a a' → Alike E S (f a) (f' a')) :
    Alike E S (x >>= f) (x' >>= f') := by
  cases h with
  | ok hR => exact hf _ _ rfl rfl hR
  | error hE => exact .error hE

theorem Alike.map {x : Except ε α} {x' : Except ε' α'} {f : α → β} {f' : α' → β'}
    (h : Alike E R x x') (hf : ∀ a a', R a a' → S (f a) (f' a')) :
    Alike E S (f <$> x) (f' <$> x') := by
  cases h with
  | ok hR => exact .ok (hf _ _ hR)
  | error hE => exact .error hE

theorem Alike.exists_ok_iff {x : Except ε α} {x' : Except ε' α'} (h : Alike E R x x') :
    (∃ a, x = .ok a) ↔ ∃ a', x' = .ok a' := by
  cases h with
  | ok => exact iff_of_true ⟨_, rfl⟩ ⟨_, rfl⟩
  | error => exact iff_of_false nofun nofun

end Alike

/-! ### Renamed definitions -/

/-- The relation between the tasks of the new names. -/
def Relation.rename (r : String → String) (rel : Relation) : Relation where
  source := rel.source.map r
  target := r rel.target

/-- Position by position, the second definition has the tasks and relations of the first one under
other names.  The types of the tasks and whether they are skipped do not matter. -/
structure Definition.Renames (r : String → String) (d d' : Definition) : Prop where
  names : d'.tasks.map Task.name = (d.tasks.map Task.name).map r
  relations : d'.relations = d.relations.map (Relation.rename r)

/-- The tasks of the second roster stand where those of the first do and are found under the new
names. -/
structure Roster.Renamed (r : String → String) (s s' : Roster) : Prop where
  names : s'.nodes.map Node.name = (s.nodes.map Node.name).map r
  position? : ∀ name, s'.position? (r name) = s.position? name

namespace Roster

variable {r : String → String} {s s' : Roster} {n n' : Node}

theorem renamed_empty : Roster.empty.Renamed r .empty :=
  ⟨rfl, fun _ => rfl⟩

theorem Renamed.length_nodes (h : s.Renamed r s') : s'.nodes.length = s.nodes.length := by
  simpa using congrArg List.length h.names

theorem Renamed.snoc (h : s.Renamed r s') (hr : Function.Injective r) (hn : n'.name = r n.name) :
    (s.snoc n).Renamed r (s'.snoc n') where
  names := by simp [Roster.snoc, h.names, hn]
  position? name := by
    rw [position?_snoc, position?_snoc, hn, h.length_nodes, h.position?]
    simp only [hr.eq_iff]

end Roster

/-- The task passes the checks that are made of each task alone. -/
structure Task.Declarable (t : Task) : Prop where
  name_not_blank : ∃ c ∈ t.name.toList, Text.isBlank c = false
  type_known : ∃ ty : TaskType, ty.name = t.typeName

namespace Graph

/-- The same defect at the same place, under the new name. -/
def Defect.rename (r : String → String) : Defect → Defect
  | blankName task => blankName task
  | unknownType task name raw => unknownType task (r name) raw
  | repeatedName task name => repeatedName task (r name)
  | unknownTarget relation name => unknownTarget relation (r name)
  | unknownSource relation name => unknownSource relation (r name)
  | selfDependency relation name => selfDependency relation (r name)
  | cycle task name => cycle task (r name)

/-- The two graphs have the same tables, and the second has the names of the first renamed. -/
structure Renamed (r : String → String) (g g' : Graph) : Prop where
  roster : g.toRoster.Renamed r g'.toRoster
  successors : g'.successors = g.successors
  predecessors : g'.predecessors = g.predecessors

/-- Both computations succeed with related results, or fail with the same defect, renamed. -/
abbrev AlikeUnder {α α' : Type} (r : String → String) (R : α → α' → Prop) :
    Except Defect α → Except Defect α' → Prop :=
  Alike (fun e e' => e' = e.rename r) R

variable {r : String → String} {g g' : Graph} {d d' : Definition}

/-! ### Tasks -/

/-- A task that passes its own checks is added unless its name is taken. -/
theorem addTask_of_declarable {t : Task} (ht : t.Declarable) (s : Roster) :
    ∃ n : Node, n.Of t ∧ addTask s t =
      if (s.position? t.name).isSome then .error (.repeatedName s.nodes.length t.name)
      else .ok (s.snoc n) := by
  obtain ⟨ty, hty⟩ := ht.type_known
  refine ⟨⟨t.name, ty, t.skip⟩, ⟨rfl, hty, rfl⟩, ?_⟩
  have hblank := Text.isBlankText_eq_false_iff.2 ht.name_not_blank
  rw [addTask, if_neg (by simp [hblank]), Registry.resolve_eq_ok_iff.2 hty]

theorem addTask_alike (hr : Function.Injective r) {s s' : Roster} {t t' : Task}
    (ht : t.Declarable) (ht' : t'.Declarable) (hname : t'.name = r t.name) (h : s.Renamed r s') :
    AlikeUnder r (Roster.Renamed r) (addTask s t) (addTask s' t') := by
  obtain ⟨n, hn, hadd⟩ := addTask_of_declarable ht s
  obtain ⟨n', hn', hadd'⟩ := addTask_of_declarable ht' s'
  rw [hadd, hadd', hname, h.position?, h.length_nodes]
  by_cases htaken : (s.position? t.name).isSome = true
  · rw [if_pos htaken, if_pos htaken]
    exact .error rfl
  · rw [if_neg htaken, if_neg htaken]
    refine .ok (h.snoc hr ?_)
    rw [hn'.name, hn.name, hname]

theorem foldlM_addTask_alike (hr : Function.Injective r) {tasks tasks' : List Task}
    {s s' : Roster} (ht : ∀ t ∈ tasks, t.Declarable) (ht' : ∀ t ∈ tasks', t.Declarable)
    (hnames : tasks'.map Task.name = (tasks.map Task.name).map r) (h : s.Renamed r s') :
    AlikeUnder r (Roster.Renamed r) (tasks.foldlM addTask s) (tasks'.foldlM addTask s') := by
  induction tasks generalizing tasks' s s' with
  | nil =>
      obtain rfl := List.map_eq_nil_iff.1 hnames
      exact .ok h
  | cons t tasks ih =>
      cases tasks' with
      | nil => cases hnames
      | cons t' tasks' =>
          obtain ⟨hname, hnames⟩ := List.cons.inj hnames
          obtain ⟨ht, htasks⟩ := List.forall_mem_cons.1 ht
          obtain ⟨ht', htasks'⟩ := List.forall_mem_cons.1 ht'
          rw [List.foldlM_cons, List.foldlM_cons]
          refine (addTask_alike hr ht ht' hname h).bind fun s₁ s₁' _ _ h₁ => ?_
          exact ih htasks htasks' hnames h₁

theorem unrelated_renamed {name name' : String} {s s' : Roster} (h : s.Renamed r s') :
    Renamed r (unrelated name s) (unrelated name' s') := by
  have hlen := h.length_nodes
  refine ⟨h, ?_, ?_⟩
  all_goals simp [unrelated, List.map_const', hlen]

theorem ofTasks_alike (hr : Function.Injective r) (h : d.Renames r d')
    (hd : ∀ t ∈ d.tasks, t.Declarable) (hd' : ∀ t ∈ d'.tasks, t.Declarable) :
    AlikeUnder r (Renamed r) (ofTasks d) (ofTasks d') := by
  have htasks := foldlM_addTask_alike hr hd hd' h.names Roster.renamed_empty
  exact htasks.map fun _ _ => unrelated_renamed

/-! ### Relations -/

theorem Renamed.link (h : Renamed r g g') (p q : Nat) : Renamed r (g.link p q) (g'.link p q) where
  roster := h.roster
  successors := by rw [Graph.link, Graph.link, h.successors]
  predecessors := by rw [Graph.link, Graph.link, h.predecessors]

theorem relate_alike (h : Renamed r g g') (j : Nat) (rel : Relation) :
    AlikeUnder r (Renamed r) (g.relate j rel) (g'.relate j (rel.rename r)) := by
  obtain ⟨source, target⟩ := rel
  simp only [relate, Relation.rename, h.roster.position?]
  cases g.position? target with
  | none => exact .error rfl
  | some q =>
      cases source with
      | none => exact .ok h
      | some s =>
          simp only [Option.map_some, h.roster.position?]
          cases g.position? s with
          | none => exact .error rfl
          | some p =>
              by_cases hpq : p = q
              · simp only [if_pos hpq]
                exact .error rfl
              · simp only [if_neg hpq]
                exact .ok (h.link p q)

theorem relateAll_alike (h : Renamed r g g') (j : Nat)
    (rels : List Relation) :
    AlikeUnder r (Renamed r) (g.relateAll j rels)
      (g'.relateAll j (rels.map (Relation.rename r))) := by
  induction rels generalizing g g' j with
  | nil => exact .ok h
  | cons rel rels ih =>
      rw [List.map_cons, relateAll, relateAll]
      exact (relate_alike h j rel).bind fun g₁ g₁' _ _ h₁ => ih h₁ (j + 1)

/-! ### Order -/

theorem Renamed.sorted (h : Renamed r g g') : g'.sorted = g.sorted := by
  rw [Graph.sorted, Graph.sorted, h.successors, h.predecessors, h.roster.length_nodes]

theorem Renamed.name_getElem? (h : Renamed r g g') (p : Nat) :
    g'.nodes[p]?.map Node.name = (g.nodes[p]?.map Node.name).map r := by
  simpa using congrArg (fun names => names[p]?) h.roster.names

theorem order_alike (h : Renamed r g g')
    (hm : Mirrored g.nodes.length g.successors g.predecessors) :
    AlikeUnder r (· = ·) g.order g'.order := by
  rw [order, order, h.sorted, h.roster.length_nodes]
  by_cases hlen : g.sorted.order.length < g.nodes.length
  · -- The defect names a task only if the position is one of the graph.
    obtain ⟨hinv, hready⟩ := sorted_invariant hm
    have hstuck := hinv.stuck_lt hready hlen
    simp only [if_pos hlen]
    refine .error ?_
    rw [h.name_getElem?, List.getElem?_eq_getElem hstuck]
    rfl
  · simp only [if_neg hlen]
    exact .ok rfl

/-! ### The whole construction -/

theorem build_alike (hr : Function.Injective r) (h : d.Renames r d')
    (hd : ∀ t ∈ d.tasks, t.Declarable) (hd' : ∀ t ∈ d'.tasks, t.Declarable) :
    AlikeUnder r (Renamed r) (build d) (build d') := by
  rw [build, build]
  refine (ofTasks_alike hr h hd hd').bind fun u u' hu hu' hrenamed => ?_
  rw [h.relations]
  refine (relateAll_alike hrenamed 0 d.relations).bind fun g g' hg hg' hrenamed => ?_
  have hof := of_relateAll hu hg
  exact (order_alike hrenamed hof.represents.mirrored).bind fun _ _ _ _ _ => .ok hrenamed

/-! ### Answers as positions -/

/-- Asked about a task, both graphs answer with the tasks at the same positions. -/
theorem Renamed.positionsOf_neighbours (h : Renamed r g g') (hg : g.Of d) (hg' : g'.Of d')
    {name : String} (hname : d.Declares name) :
    (∃ ps, (g.directPost (some name)).map g.positionsOf = .ok ps ∧
        (g'.directPost (some (r name))).map g'.positionsOf = .ok ps) ∧
      ∃ ps, (g.directPre (some name)).map g.positionsOf = .ok ps ∧
        (g'.directPre (some (r name))).map g'.positionsOf = .ok ps := by
  obtain ⟨p, hp⟩ := hg.exists_position?_iff.2 hname
  have hp' : g'.position? (r name) = some p := (h.roster.position? name).trans hp
  have hm := hg.represents.mirrored
  have hm' := hg'.represents.mirrored
  have hnd := hg.represents.nodup
  have hnd' := hg'.represents.nodup
  constructor
  · refine ⟨_, Graph.positionsOf_neighbours hnd hp fun q hq => (hm.lt_of_mem_successors hq).2, ?_⟩
    rw [← h.successors]
    exact Graph.positionsOf_neighbours hnd' hp' fun q hq => (hm'.lt_of_mem_successors hq).2
  · refine ⟨_, Graph.positionsOf_neighbours hnd hp fun q hq => (hm.lt_of_mem_predecessors hq).1, ?_⟩
    rw [← h.predecessors]
    exact Graph.positionsOf_neighbours hnd' hp' fun q hq => (hm'.lt_of_mem_predecessors hq).1

/-- So do they when no task is named. -/
theorem Renamed.positionsOf_nodesWithout (h : Renamed r g g') (hg : g.Of d) (hg' : g'.Of d') :
    (∃ ps, (g.directPost none).map g.positionsOf = .ok ps ∧
        (g'.directPost none).map g'.positionsOf = .ok ps) ∧
      ∃ ps, (g.directPre none).map g.positionsOf = .ok ps ∧
        (g'.directPre none).map g'.positionsOf = .ok ps := by
  have hm := hg.represents.mirrored
  have hm' := hg'.represents.mirrored
  have hnd := hg.represents.nodup
  have hnd' := hg'.represents.nodup
  constructor
  · refine ⟨_, congrArg Except.ok (Graph.positionsOf_nodesWithout hnd hm.length_predecessors), ?_⟩
    rw [← h.predecessors, ← h.roster.length_nodes]
    exact congrArg Except.ok (Graph.positionsOf_nodesWithout hnd' hm'.length_predecessors)
  · refine ⟨_, congrArg Except.ok (Graph.positionsOf_nodesWithout hnd hm.length_successors), ?_⟩
    rw [← h.successors, ← h.roster.length_nodes]
    exact congrArg Except.ok (Graph.positionsOf_nodesWithout hnd' hm'.length_successors)

theorem Renamed.positionsOf_topologicalOrder (h : Renamed r g g') (hg : build d = .ok g)
    (hg' : build d' = .ok g') :
    g'.positionsOf g'.topologicalOrder = g.positionsOf g.topologicalOrder := by
  obtain ⟨ps, hps⟩ := order_of_build hg
  obtain ⟨ps', hps'⟩ := order_of_build hg'
  rw [(of_build hg).positionsOf_topologicalOrder hps,
    (of_build hg').positionsOf_topologicalOrder hps', ← (order_eq_ok_iff.1 hps).2,
    ← (order_eq_ok_iff.1 hps').2, h.sorted]

/-- **Renaming tasks changes only names.**  Let the tasks of two definitions be declarable, and let
the second one have the tasks and relations of the first one, renamed by an injective map; names of
workflows, task types and skip flags may differ.  Then both have a graph or none has.  Their graphs
answer every question, about a declared name, without a name, and about the order, with tasks at the
same positions; and if they have none, they have the same defect at the same place, under the new
name. -/
theorem build_rename (hr : Function.Injective r) (h : d.Renames r d')
    (hd : ∀ t ∈ d.tasks, t.Declarable) (hd' : ∀ t ∈ d'.tasks, t.Declarable) :
    ((∃ g, build d = .ok g) ↔ ∃ g', build d' = .ok g') ∧
      (∀ g g', build d = .ok g → build d' = .ok g' →
        (∀ name : Option String, (∀ s ∈ name, d.Declares s) →
          (∃ ps, (g.directPost name).map g.positionsOf = .ok ps ∧
            (g'.directPost (name.map r)).map g'.positionsOf = .ok ps) ∧
          ∃ ps, (g.directPre name).map g.positionsOf = .ok ps ∧
            (g'.directPre (name.map r)).map g'.positionsOf = .ok ps) ∧
        g'.positionsOf g'.topologicalOrder = g.positionsOf g.topologicalOrder) ∧
      ∀ e e', build d = .error e → build d' = .error e' → e' = e.rename r := by
  have halike := build_alike hr h hd hd'
  refine ⟨halike.exists_ok_iff, ?_, ?_⟩
  · intro g g' hg hg'
    rw [hg, hg'] at halike
    cases halike with
    | ok hrenamed =>
        refine ⟨fun name hname => ?_, hrenamed.positionsOf_topologicalOrder hg hg'⟩
        cases name with
        | none => exact hrenamed.positionsOf_nodesWithout (of_build hg) (of_build hg')
        | some s =>
            exact hrenamed.positionsOf_neighbours (of_build hg) (of_build hg') (hname s rfl)
  · intro e e' he he'
    rw [he, he'] at halike
    cases halike with
    | error hdefect => exact hdefect

/-- The tasks of `lateSource` in another workflow, under longer names. -/
def lateSourceCopy : Definition where
  name := "copy"
  tasks := [⟨"copy of load", "SHELL", true⟩, ⟨"copy of report", "SHELL", true⟩,
    ⟨"copy of extract", "HTTP", true⟩]
  relations := [⟨some "copy of extract", "copy of load"⟩, ⟨none, "copy of report"⟩,
    ⟨some "copy of extract", "copy of load"⟩]

theorem build_lateSourceCopy :
    ∃ g, build lateSourceCopy = .ok g ∧
      (g.directPre (some "copy of load")).map g.positionsOf = .ok [2] ∧
      g.positionsOf g.topologicalOrder = [1, 2, 0] := by
  have hr : Function.Injective ("copy of " ++ ·) := fun s t => by simp
  have hrenames : lateSource.Renames ("copy of " ++ ·) lateSourceCopy := ⟨rfl, rfl⟩
  have hd : ∀ t ∈ lateSource.tasks, t.Declarable := by
    simp only [lateSource, List.forall_mem_cons]
    exact ⟨⟨⟨'l', .head _, rfl⟩, .sql, rfl⟩, ⟨⟨'r', .head _, rfl⟩, .shell, rfl⟩,
      ⟨⟨'e', .head _, rfl⟩, .dataX, rfl⟩, List.forall_mem_nil _⟩
  have hd' : ∀ t ∈ lateSourceCopy.tasks, t.Declarable := by
    simp only [lateSourceCopy, List.forall_mem_cons]
    exact ⟨⟨⟨'c', .head _, rfl⟩, .shell, rfl⟩, ⟨⟨'c', .head _, rfl⟩, .shell, rfl⟩,
      ⟨⟨'c', .head _, rfl⟩, .http, rfl⟩, List.forall_mem_nil _⟩
  have hbuild : build lateSource = .ok lateSourceGraph := by rfl
  obtain ⟨hiff, hanswers, -⟩ := build_rename hr hrenames hd hd'
  obtain ⟨g, hg⟩ := hiff.1 ⟨_, hbuild⟩
  obtain ⟨hneighbours, horder⟩ := hanswers _ _ hbuild hg
  have hload : ∀ s ∈ some "load", lateSource.Declares s := by
    rintro s ⟨⟩
    exact ⟨_, List.mem_cons_self, rfl⟩
  obtain ⟨-, ps, hps, hps'⟩ := hneighbours (some "load") hload
  have hload : (lateSourceGraph.directPre (some "load")).map lateSourceGraph.positionsOf = .ok [2] := by
    rfl
  rw [hload] at hps
  cases hps
  exact ⟨g, hg, hps', horder.trans rfl⟩

end Graph

end TaskFlow
