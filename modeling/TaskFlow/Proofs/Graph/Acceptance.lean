import TaskFlow.Proofs.Graph.Construction

/-! # Which definitions have a graph

`Definition.Admissible` says of a definition alone, without positions and tables, what makes it a
workflow.  A graph is built of the admissible definitions and of no others
(`build_succeeds_iff`). -/

namespace TaskFlow

namespace Definition

/-- The definition has a task of that name. -/
def Declares (d : Definition) (name : String) : Prop :=
  ∃ t ∈ d.tasks, t.name = name

/-- The definition describes a workflow. -/
structure Admissible (d : Definition) : Prop where
  name_not_blank : ∀ t ∈ d.tasks, ∃ c ∈ t.name.toList, Text.isBlank c = false
  names_distinct : (d.tasks.map Task.name).Nodup
  type_known : ∀ t ∈ d.tasks, ∃ ty : TaskType, ty.name = t.typeName
  target_declared : ∀ r ∈ d.relations, d.Declares r.target
  source_declared : ∀ r ∈ d.relations, ∀ s, r.source = some s → d.Declares s
  source_ne_target : ∀ r ∈ d.relations, r.source ≠ some r.target
  /-- No chain of dependencies leads from a task back to itself. -/
  acyclic : ∀ name, ¬ Relation.TransGen d.Depends name name

end Definition

theorem Text.isBlankText_eq_false_iff {s : String} :
    Text.isBlankText s = false ↔ ∃ c ∈ s.toList, Text.isBlank c = false := by
  simp [Text.isBlankText]

namespace Graph

variable {g : Graph} {d : Definition}

theorem exists_nodes_iff {tasks : List Task} :
    (∃ nodes, List.Forall₂ Node.Of nodes tasks) ↔
      ∀ t ∈ tasks, ∃ ty : TaskType, ty.name = t.typeName := by
  induction tasks with
  | nil => simp
  | cons t tasks ih =>
      rw [List.forall_mem_cons, ← ih]
      constructor
      · rintro ⟨_, h⟩
        obtain ⟨n, nodes, hn, hnodes, rfl⟩ := List.forall₂_cons_right_iff.1 h
        exact ⟨⟨n.taskType, hn.typeName⟩, nodes, hnodes⟩
      · rintro ⟨⟨ty, hty⟩, nodes, hnodes⟩
        exact ⟨⟨t.name, ty, t.skip⟩ :: nodes, .cons ⟨rfl, hty, rfl⟩ hnodes⟩

theorem exists_ofTasks_iff :
    (∃ u, ofTasks d = .ok u) ↔
      (∀ t ∈ d.tasks, ∃ c ∈ t.name.toList, Text.isBlank c = false) ∧
        (d.tasks.map Task.name).Nodup ∧ ∀ t ∈ d.tasks, ∃ ty : TaskType, ty.name = t.typeName := by
  rw [← exists_nodes_iff]
  constructor
  · rintro ⟨u, hu⟩
    obtain ⟨hblank, nodes, hnodes, hnd, -⟩ := ofTasks_eq_ok_iff.1 hu
    refine ⟨fun t ht => Text.isBlankText_eq_false_iff.1 (hblank t ht), ?_, nodes, hnodes⟩
    rwa [map_name_eq hnodes] at hnd
  · rintro ⟨hblank, hnd, nodes, hnodes⟩
    refine ⟨unrelated d.name (.ofNodes nodes), ofTasks_eq_ok_iff.2 ⟨?_, nodes, hnodes, ?_, rfl⟩⟩
    · exact fun t ht => Text.isBlankText_eq_false_iff.2 (hblank t ht)
    · rwa [map_name_eq hnodes]

/-- The names that are found are those that are declared. -/
theorem Of.exists_position?_iff (hg : g.Of d) {name : String} :
    (∃ p, g.position? name = some p) ↔ d.Declares name := by
  have hmem : d.Declares name ↔ name ∈ g.nodes.map Node.name := by
    rw [map_name_eq hg.nodes, List.mem_map]
    rfl
  rw [hmem, ← Option.isSome_iff_exists, ← not_iff_not, Bool.not_eq_true, Option.isSome_eq_false_iff,
    Option.isNone_iff_eq_none, hg.represents.indexed.position?_eq_none_iff]
  simp

theorem Of.relatable_iff (hg : g.Of d) {r : Relation} :
    g.Relatable r ↔
      d.Declares r.target ∧ (∀ s, r.source = some s → d.Declares s) ∧ r.source ≠ some r.target := by
  constructor
  · rintro ⟨ht, hs, hne⟩
    exact ⟨hg.exists_position?_iff.1 ht, fun s h => hg.exists_position?_iff.1 (hs s h), hne⟩
  · rintro ⟨ht, hs, hne⟩
    exact ⟨hg.exists_position?_iff.2 ht, fun s h => hg.exists_position?_iff.2 (hs s h), hne⟩

/-- Among the tasks of a definition, relations can be entered that speak of declared tasks and never
of the same task twice. -/
theorem exists_relateAll_ofTasks_iff {u : Graph} (hu : ofTasks d = .ok u) {j : Nat}
    {rs : List Relation} :
    (∃ g, u.relateAll j rs = .ok g) ↔ ∀ r ∈ rs,
      d.Declares r.target ∧ (∀ s, r.source = some s → d.Declares s) ∧ r.source ≠ some r.target := by
  have hof := of_ofTasks hu
  rw [exists_relateAll_iff hof.represents.indexed]
  exact forall₂_congr fun r _ => hof.relatable_iff

/-- Once the tasks and relations have passed, cycles decide. -/
theorem Of.exists_order_iff (hg : g.Of d) :
    (∃ ps, g.order = .ok ps) ↔ ∀ name, ¬ Relation.TransGen d.Depends name name := by
  rw [Graph.exists_order_iff hg.represents.mirrored]
  exact hg.acyclic_iff

/-- A definition has a graph exactly if its tasks have names, all different, that are not blank, and
types that exist, its relations speak of declared tasks and never of the same task twice, and no
task depends on itself through others. -/
theorem build_succeeds_iff (d : Definition) : (∃ g, build d = .ok g) ↔ d.Admissible := by
  constructor
  · rintro ⟨g, h⟩
    obtain ⟨u, hu, hg, hps⟩ := build_eq_ok_iff.1 h
    obtain ⟨hblank, hnd, htype⟩ := exists_ofTasks_iff.1 ⟨u, hu⟩
    have hrel := (exists_relateAll_ofTasks_iff hu).1 ⟨g, hg⟩
    exact {
      name_not_blank := hblank
      names_distinct := hnd
      type_known := htype
      target_declared := fun r hr => (hrel r hr).1
      source_declared := fun r hr => (hrel r hr).2.1
      source_ne_target := fun r hr => (hrel r hr).2.2
      acyclic := (of_relateAll hu hg).exists_order_iff.1 hps }
  · intro h
    obtain ⟨u, hu⟩ := exists_ofTasks_iff.2 ⟨h.name_not_blank, h.names_distinct, h.type_known⟩
    obtain ⟨g, hg⟩ := (exists_relateAll_ofTasks_iff hu).2 fun r hr =>
      ⟨h.target_declared r hr, h.source_declared r hr, h.source_ne_target r hr⟩
    have hps := (of_relateAll hu hg).exists_order_iff.2 h.acyclic
    exact ⟨g, build_eq_ok_iff.2 ⟨u, hu, hg, hps⟩⟩

end Graph

end TaskFlow
