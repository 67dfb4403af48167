import TaskFlow.Proofs.Graph.Acceptance
import TaskFlow.Proofs.Graph.Order

/-! # Only the set of dependencies counts

The tables of a graph hold sets, so neither the order nor the repetition of relations leaves a
trace, and relations without a source leave none at all.  Two definitions with the same tasks and
the same dependencies therefore have the very same graph (`Of.eq_of_depends_iff`), if their
relations are `Definition.Sound`, and the same cycle is found in it otherwise
(`build_eq_of_depends_iff`). -/

namespace TaskFlow

open Positions (entry)

namespace Positions

/-- Tables of one length with the same entries are equal. -/
theorem table_ext {table table' : List Positions} (hlen : table.length = table'.length)
    (h : ∀ p q, q ∈ entry table p ↔ q ∈ entry table' p) : table = table' := by
  refine List.ext_getElem hlen fun p hp hp' => ?_
  have hentry : entry table p = entry table' p := eq_of_mem_iff (h p)
  simpa [entry, hp, hp'] using hentry

end Positions

theorem Mirrored.eq_of_mem_iff {n : Nat} {successors successors' : List Positions}
    {predecessors predecessors' : List Positions} (h : Mirrored n successors predecessors)
    (h' : Mirrored n successors' predecessors')
    (hmem : ∀ p q, p ∈ entry predecessors q ↔ p ∈ entry predecessors' q) :
    successors = successors' ∧ predecessors = predecessors' := by
  constructor
  · refine Positions.table_ext (h.length_successors.trans h'.length_successors.symm) fun p q => ?_
    rw [h.mem_iff, h'.mem_iff]
    exact hmem p q
  · refine Positions.table_ext (h.length_predecessors.trans h'.length_predecessors.symm) ?_
    exact fun q p => hmem p q

/-- The relations pass the checks that are made of each of them alone. -/
structure Definition.Sound (d : Definition) : Prop where
  target_declared : ∀ r ∈ d.relations, d.Declares r.target
  source_declared : ∀ r ∈ d.relations, ∀ s, r.source = some s → d.Declares s
  source_ne_target : ∀ r ∈ d.relations, r.source ≠ some r.target

namespace Graph

variable {g g' u : Graph} {d d' : Definition} {p q : Nat}

/-- A graph is determined by its tasks and its dependencies. -/
theorem Of.eq_of_depends_iff (hg : g.Of d) (hg' : g'.Of d') (hname : g.name = g'.name)
    (hroster : g.toRoster = g'.toRoster) (hdep : ∀ a b, d.Depends a b ↔ d'.Depends a b) : g = g' := by
  have hedge : ∀ p q, Sorting.Edge g.predecessors p q ↔ Sorting.Edge g'.predecessors p q := by
    intro p q
    rw [hg.edge_iff_exists, hg'.edge_iff_exists]
    simp only [hdep, hroster]
  have hm := hg.represents.mirrored
  have hm' := hg'.represents.mirrored
  rw [← hroster] at hm'
  obtain ⟨hsucc, hpred⟩ := hm.eq_of_mem_iff hm' hedge
  cases g
  cases g'
  congr

theorem exists_relateAll_of_sound (hu : ofTasks d = .ok u) (h : d.Sound) :
    ∃ g, u.relateAll 0 d.relations = .ok g :=
  (exists_relateAll_ofTasks_iff hu).2 fun r hr =>
    ⟨h.target_declared r hr, h.source_declared r hr, h.source_ne_target r hr⟩

/-- Once tasks and relations have passed, the order decides. -/
theorem build_eq_of_relateAll (hu : ofTasks d = .ok u) (hg : u.relateAll 0 d.relations = .ok g) :
    build d = g.order.map fun _ => g := by
  rw [build, hu]
  show (u.relateAll 0 d.relations >>= _) = _
  rw [hg]
  cases horder : g.order with
  | error e => simp [bind, Except.bind, Except.map, horder]
  | ok ps => simp [bind, Except.bind, Except.map, horder, pure, Except.pure]

theorem Of.sound (hg : g.Of d) : d.Sound where
  target_declared r hr := (hg.relatable_iff.1 (hg.relatable r hr)).1
  source_declared r hr := (hg.relatable_iff.1 (hg.relatable r hr)).2.1
  source_ne_target r hr := (hg.relatable_iff.1 (hg.relatable r hr)).2.2

/-- Sound relations make a graph of the tasks, and its order decides whether the definition has it. -/
theorem exists_of_sound (hu : ofTasks d = .ok u) (h : d.Sound) :
    ∃ g : Graph, g.Of d ∧ g.toRoster = u.toRoster ∧ build d = g.order.map fun _ => g := by
  obtain ⟨g, hg⟩ := exists_relateAll_of_sound hu h
  exact ⟨g, of_relateAll hu hg, (roster_relateAll hg).1, build_eq_of_relateAll hu hg⟩

theorem exists_cycle_of_order {e : Defect} (h : g.order = .error e) :
    ∃ p name, e = .cycle p name := by
  rw [order] at h
  split at h
  · cases h
    exact ⟨_, _, rfl⟩
  · cases h

/-- **Only the set of dependencies counts.**  Definitions with the same name, the same tasks and the
same dependencies, whose relations pass the checks that are made of each alone, have the very same
graph, so that it answers every question alike, or fail with the same defect: that of the tasks, if
they have one, and otherwise the same cycle. -/
theorem build_eq_of_depends_iff (hname : d.name = d'.name) (htasks : d.tasks = d'.tasks)
    (hd : d.Sound) (hd' : d'.Sound) (hdep : ∀ a b, d.Depends a b ↔ d'.Depends a b) :
    build d = build d' ∧
      ∀ e, build d = .error e → ofTasks d = .error e ∨ ∃ p name, e = .cycle p name := by
  have htasks' : ofTasks d' = ofTasks d := by rw [ofTasks, ofTasks, hname, htasks]
  cases hu : ofTasks d with
  | error e =>
      have hbuild : build d = .error e := by rw [build, hu]; rfl
      have hbuild' : build d' = .error e := by rw [build, htasks', hu]; rfl
      rw [hbuild, hbuild']
      exact ⟨rfl, fun e' he' => .inl he'⟩
  | ok u =>
      rw [hu] at htasks'
      obtain ⟨g, hg⟩ := exists_relateAll_of_sound hu hd
      obtain ⟨g', hg'⟩ := exists_relateAll_of_sound htasks' hd'
      have hsame : g = g' := by
        obtain ⟨hn, hw⟩ := roster_relateAll hg
        obtain ⟨hn', hw'⟩ := roster_relateAll hg'
        exact (of_relateAll hu hg).eq_of_depends_iff (of_relateAll htasks' hg')
          (hw.trans hw'.symm) (hn.trans hn'.symm) hdep
      rw [build_eq_of_relateAll hu hg, build_eq_of_relateAll htasks' hg', hsame]
      refine ⟨rfl, fun e he => .inr ?_⟩
      cases horder : g'.order with
      | error e' =>
          rw [horder] at he
          cases he
          exact exists_cycle_of_order horder
      | ok ps =>
          rw [horder] at he
          cases he

theorem build_lateSource_reordered :
    build lateSource =
      build { lateSource with relations := [⟨none, "extract"⟩, ⟨some "extract", "load"⟩] } := by
  refine (build_eq_of_depends_iff rfl rfl ⟨?_, ?_, ?_⟩ ⟨?_, ?_, ?_⟩ ?_).1
  all_goals simp [lateSource, Definition.Declares, Definition.Depends]

end Graph

end TaskFlow
