import TaskFlow.Proofs.Graph.Rejection

/-! # What the sorting leaves out

A definition is `Definition.Checked` when all checks of its tasks and relations pass; then its tasks
and relations make a graph (`checked_iff`), and only cycles can stand in the way.  The sorting of
this graph leaves out the tasks that a cycle leads to and no others.  If there are any, the first
one declared is reported, and if there are none, the definition has the graph (`build_of_checked`).
-/

namespace TaskFlow

namespace Definition

variable {d : Definition}

/-- All checks pass, that of cycles apart. -/
def Checked (d : Definition) : Prop :=
  ∀ c ∈ d.checks, c ≠ .cycle → d.Passes c

theorem FirstFinds.mem_checks {c : Check} {e : Graph.Defect} (h : d.FirstFinds c e) :
    c ∈ d.checks := by
  obtain ⟨before, after, hsplit, -⟩ := h.first
  rw [hsplit]
  exact List.mem_append_right _ List.mem_cons_self

/-- In a definition that is checked, only the check of cycles finds anything. -/
theorem Checked.eq_cycle (h : d.Checked) {c : Check} {e : Graph.Defect} (hc : d.FirstFinds c e) :
    c = .cycle := by
  by_contra hne
  exact h c hc.mem_checks hne e hc.found

theorem checked_of_passBelow (htasks : d.PassBelow Check.ofTask d.tasks.length)
    (hrelations : d.PassBelow Check.ofRelation d.relations.length) : d.Checked := by
  intro c hc hne
  rw [checks, List.mem_append, List.mem_append, List.mem_singleton] at hc
  rcases hc with hc | hc | hc
  · exact htasks.flatMap c hc
  · exact hrelations.flatMap c hc
  · exact absurd hc hne

end Definition

namespace Graph

variable {g u : Graph} {d : Definition} {name : String}

/-! ### Checked definitions -/

theorem exists_ofTasks_of_checked (h : d.Checked) : ∃ u, ofTasks d = .ok u := by
  cases hu : ofTasks d with
  | ok u => exact ⟨u, rfl⟩
  | error e =>
      obtain ⟨before, task, after, nodes, hd, hnodes, hlast⟩ := ofTasks_eq_error_iff.1 hu
      obtain ⟨c, htask, -, hc⟩ := firstFinds_of_task hd hnodes hlast
      rw [h.eq_cycle hc] at htask
      cases htask

theorem exists_relateAll_of_checked (h : d.Checked) (hu : ofTasks d = .ok u) :
    ∃ g, u.relateAll 0 d.relations = .ok g := by
  cases hg : u.relateAll 0 d.relations with
  | ok g => exact ⟨g, rfl⟩
  | error e =>
      obtain ⟨before, r, after, g, hd, hbefore, hlast⟩ := relateAll_eq_error_iff.1 hg
      rw [Nat.zero_add] at hlast
      obtain ⟨c, -, hrelation, hc⟩ := firstFinds_of_relation hu hd hbefore hlast
      rw [h.eq_cycle hc] at hrelation
      cases hrelation

/-- The definitions that are checked are those of which tasks and relations make a graph. -/
theorem checked_iff :
    d.Checked ↔ ∃ u g, ofTasks d = .ok u ∧ u.relateAll 0 d.relations = .ok g := by
  constructor
  · intro h
    obtain ⟨u, hu⟩ := exists_ofTasks_of_checked h
    obtain ⟨g, hg⟩ := exists_relateAll_of_checked h hu
    exact ⟨u, g, hu, hg⟩
  · rintro ⟨u, g, hu, hg⟩
    refine Definition.checked_of_passBelow (passBelow_of_ofTasks hu) ?_
    exact passBelow_of_relateAll hu (List.append_nil _).symm hg

/-! ### Cycles among declared tasks -/

/-- Every task on a cycle is declared. -/
theorem Of.declares_of_onCycle (hg : g.Of d) (h : d.OnCycle name) : d.Declares name := by
  obtain ⟨b, hb, -⟩ := Relation.TransGen.head'_iff.1 h
  obtain ⟨p, q, hp, -⟩ := hg.position?_of_depends hb
  exact hg.exists_position?_iff.1 ⟨p, hp⟩

/-- There is an order exactly if no cycle leads to a declared task. -/
theorem Of.exists_order_iff_not_behindCycle (hg : g.Of d) :
    (∃ ps, g.order = .ok ps) ↔ ∀ t ∈ d.tasks, ¬ d.BehindCycle t.name := by
  rw [hg.exists_order_iff]
  constructor
  · rintro h t - ⟨c, hc, -⟩
    exact h c hc
  · intro h name hcycle
    obtain ⟨t, ht, rfl⟩ := hg.declares_of_onCycle hcycle
    exact h t ht (Definition.OnCycle.behindCycle hcycle)

/-- Tasks that are made into nodes have names. -/
theorem name_ne_empty_of_ofTasks (hu : ofTasks d = .ok u) {t : Task} (ht : t ∈ d.tasks) :
    t.name ≠ "" := by
  obtain ⟨hblank, -⟩ := exists_ofTasks_iff.1 ⟨u, hu⟩
  obtain ⟨c, hc, -⟩ := hblank t ht
  intro hempty
  rw [hempty] at hc
  exact List.not_mem_nil hc

/-- **What the sorting leaves out decides.**  When the tasks and relations of a definition pass their
checks, they make a graph, and its sorting ends with nothing ready and leaves out exactly the tasks
that are on a cycle or depend on one, directly or through others.  If there are such tasks, the first
one declared is reported, by its name, which is not empty; and if there are none, the definition has
this graph. -/
theorem build_of_checked (h : d.Checked) :
    ∃ u g, ofTasks d = .ok u ∧ u.relateAll 0 d.relations = .ok g ∧ g.sorted.ready = .empty ∧
      (∀ p t, d.tasks[p]? = some t → (p ∉ g.sorted.order ↔ d.BehindCycle t.name)) ∧
      ((∃ t ∈ d.tasks, d.BehindCycle t.name) →
        ∃ p t, d.FirstBehindCycle p t ∧ t.name ≠ "" ∧ build d = .error (.cycle p t.name) ∧
          (Defect.cycle p t.name).fault d.name =
            { kind := .invalidWorkflow
              message := "workflow '" ++ d.name ++ "': " ++
                ("dependency cycle through task '" ++ t.name ++ "'") }) ∧
      ((∀ t ∈ d.tasks, ¬ d.BehindCycle t.name) → build d = .ok g) := by
  obtain ⟨u, g, hu, hrelate⟩ := checked_iff.1 h
  have hg := of_relateAll hu hrelate
  have hready := (sorted_invariant hg.represents.mirrored).2
  refine ⟨u, g, hu, hrelate, hready, ?_, ?_, ?_⟩
  · intro p t ht
    obtain ⟨hp, hname⟩ := hg.nameAt_of_task ht
    rw [hg.mem_sorted_iff hp, hname, not_not]
  · rintro ⟨s, hs, hbehind⟩
    cases horder : g.order with
    | ok ps => exact absurd hbehind (hg.exists_order_iff_not_behindCycle.1 ⟨ps, horder⟩ s hs)
    | error e =>
        obtain ⟨p, t, rfl, hfirst⟩ := hg.order_eq_error horder
        have ht : t ∈ d.tasks := List.mem_of_getElem? hfirst.task
        refine ⟨p, t, hfirst, name_ne_empty_of_ofTasks hu ht, ?_, rfl⟩
        exact build_eq_error_iff.2 (.inr ⟨u, hu, .inr ⟨g, hrelate, horder⟩⟩)
  · intro hnone
    exact build_eq_ok_iff.2 ⟨u, hu, hrelate, hg.exists_order_iff_not_behindCycle.2 hnone⟩

/-- The report is left out with the two tasks of the cycle, and it is the first of them. -/
theorem build_hanging_checked :
    hanging.Checked ∧ hanging.BehindCycle "report" ∧
      build hanging = .error (.cycle 0 "report") := by
  have hchecked : hanging.Checked := checked_iff.2 ⟨_, _, rfl, rfl⟩
  have hload : hanging.Depends "extract" "load" := by decide
  have hextract : hanging.Depends "load" "extract" := by decide
  have hreport : hanging.Depends "load" "report" := by decide
  have hbehind : hanging.BehindCycle "report" :=
    ⟨"load", .tail (.single hextract) hload, .single hreport⟩
  obtain ⟨-, -, -, -, -, -, hcycle, -⟩ := build_of_checked hchecked
  obtain ⟨p, t, hfirst, -, hbuild, -⟩ := hcycle ⟨_, List.mem_cons_self, hbehind⟩
  have hp : p = 0 := by
    by_contra hne
    exact hfirst.first 0 _ (Nat.pos_of_ne_zero hne) rfl hbehind
  subst hp
  cases hfirst.task
  exact ⟨hchecked, hbehind, hbuild⟩

end Graph

end TaskFlow
