import TaskFlow.Proofs.Graph.Order

/-! # The task of a reported cycle

Once its tasks and relations have passed, a definition has no graph because some task is stuck: the
sorting lists exactly the tasks that no cycle leads to (`Of.mem_sorted_iff`), and the first declared
task that it leaves out is reported (`Of.order_eq_error`).  A cycle leads to this task, but the task
need not be on it (`build_cycle`, `build_hanging`). -/

namespace TaskFlow

namespace Definition

/-- A chain of dependencies leads from the task back to itself. -/
def OnCycle (d : Definition) (name : String) : Prop :=
  Relation.TransGen d.Depends name name

/-- The task is on a cycle, or depends on one that is, directly or through others. -/
def BehindCycle (d : Definition) (name : String) : Prop :=
  ∃ c, d.OnCycle c ∧ Relation.ReflTransGen d.Depends c name

/-- A cycle leads to the task at the position, and to none declared before it. -/
structure FirstBehindCycle (d : Definition) (p : Nat) (t : Task) : Prop where
  task : d.tasks[p]? = some t
  behind : d.BehindCycle t.name
  first : ∀ q s, q < p → d.tasks[q]? = some s → ¬ d.BehindCycle s.name

variable {d : Definition} {name : String}

theorem OnCycle.behindCycle (h : d.OnCycle name) : d.BehindCycle name :=
  ⟨name, h, .refl⟩

/-- Where nothing else depends on a cycle, all that is behind one is on it. -/
theorem BehindCycle.onCycle (hclosed : ∀ a b, d.OnCycle a → d.Depends a b → d.OnCycle b)
    (h : d.BehindCycle name) : d.OnCycle name := by
  obtain ⟨c, hc, hpath⟩ := h
  induction hpath with
  | refl => exact hc
  | tail _ hab ih => exact hclosed _ _ ih hab

end Definition

namespace Graph

variable {g : Graph} {d : Definition} {e : Defect} {p : Nat} {name : String}

/-! ### Which tasks are left out -/

/-- A cycle leads to a position exactly if one leads to the task there. -/
theorem Of.behindCycle_iff (hg : g.Of d) (hp : p < g.nodes.length) :
    (∃ c, Relation.TransGen (Sorting.Edge g.predecessors) c c ∧
        Relation.ReflTransGen (Sorting.Edge g.predecessors) c p) ↔
      d.BehindCycle (g.nameAt p) := by
  constructor
  · rintro ⟨c, hc, hcp⟩
    exact ⟨g.nameAt c, hc.lift g.nameAt fun _ _ he => hg.depends_of_edge he,
      hcp.lift g.nameAt fun _ _ he => hg.depends_of_edge he⟩
  · rintro ⟨c, hc, hcp⟩
    have hindex : g.index (g.nameAt p) = p := by
      rw [index, hg.position?_nameAt hp]
      rfl
    have hpath : Relation.ReflTransGen (Sorting.Edge g.predecessors) (g.index c)
        (g.index (g.nameAt p)) := hcp.lift g.index fun _ _ hab => hg.edge_of_depends hab
    rw [hindex] at hpath
    exact ⟨g.index c, hc.lift g.index fun _ _ hab => hg.edge_of_depends hab, hpath⟩

/-- Listed are exactly the tasks that no cycle leads to. -/
theorem Of.mem_sorted_iff (hg : g.Of d) (hp : p < g.nodes.length) :
    p ∈ g.sorted.order ↔ ¬ d.BehindCycle (g.nameAt p) := by
  have hm := hg.represents.mirrored
  obtain ⟨hinv, hready⟩ := sorted_invariant hm
  rw [← hg.behindCycle_iff hp]
  exact hinv.greedy.mem_iff_no_cycle (fun p q he => (hm.lt_of_mem_predecessors he).1)
    (hinv.exhausted hready) hp

/-! ### Which task is reported -/

/-- Without an order, the task that is stuck is reported. -/
theorem order_eq_error (hm : Mirrored g.nodes.length g.successors g.predecessors)
    (h : g.order = .error e) :
    g.sorted.stuck < g.nodes.length ∧ e = .cycle g.sorted.stuck (g.nameAt g.sorted.stuck) := by
  rw [order] at h
  split at h
  · rename_i hlen
    obtain ⟨hinv, hready⟩ := sorted_invariant hm
    exact ⟨hinv.stuck_lt hready hlen, (Except.error.inj h).symm⟩
  · cases h

/-- Without an order, the first declared task that a cycle leads to is reported. -/
theorem Of.order_eq_error (hg : g.Of d) (h : g.order = .error e) :
    ∃ p t, e = .cycle p t.name ∧ d.FirstBehindCycle p t := by
  have hm := hg.represents.mirrored
  obtain ⟨hinv, hready⟩ := sorted_invariant hm
  obtain ⟨hlt, rfl⟩ := Graph.order_eq_error hm h
  obtain ⟨t, ht, hname⟩ := hg.exists_task_of_lt hlt
  refine ⟨g.sorted.stuck, t, by rw [hname], ht, ?_, ?_⟩
  · by_contra hnot
    rw [← hname] at hnot
    exact hinv.stuck_not_mem hready hlt ((hg.mem_sorted_iff hlt).2 hnot)
  · intro q s hq hs
    obtain ⟨hq', hname'⟩ := hg.nameAt_of_task hs
    rw [← hname']
    exact (hg.mem_sorted_iff hq').1 (hinv.mem_of_lt_stuck hready hq)

/-- A task that is refused is not reported as a cycle. -/
theorem ofTasks_ne_cycle : ofTasks d ≠ .error (.cycle p name) := by
  intro h
  obtain ⟨_, _, _, _, -, -, h⟩ := ofTasks_eq_error_iff.1 h
  obtain ⟨-, h⟩ | ⟨-, ⟨-, h⟩ | ⟨-, -, h⟩⟩ := addTask_eq_error h <;> cases h

/-- A relation that is refused is not reported as a cycle. -/
theorem relateAll_ne_cycle {rs : List Relation} {j : Nat} :
    g.relateAll j rs ≠ .error (.cycle p name) := by
  intro h
  obtain ⟨_, _, _, _, -, -, h⟩ := relateAll_eq_error_iff.1 h
  obtain ⟨-, h⟩ | ⟨_, _, -, -, ⟨-, h⟩ | ⟨-, h⟩⟩ := relate_eq_error_iff.1 h <;> cases h

/-- A cycle is reported of a declared task that it leads to.  No task on a cycle is declared before
it, and where nothing else depends on a cycle, the task itself is on one. -/
theorem build_cycle (h : build d = .error (.cycle p name)) :
    (∃ t, d.tasks[p]? = some t ∧ t.name = name) ∧ d.BehindCycle name ∧
      (∀ q s, d.tasks[q]? = some s → d.OnCycle s.name → p ≤ q) ∧
      ((∀ a b, d.OnCycle a → d.Depends a b → d.OnCycle b) → d.OnCycle name) := by
  rcases build_eq_error_iff.1 h with h | ⟨u, hu, h | ⟨g, hg, h⟩⟩
  · exact absurd h ofTasks_ne_cycle
  · exact absurd h relateAll_ne_cycle
  · obtain ⟨p', t, heq, ht, hbehind, hfirst⟩ := (of_relateAll hu hg).order_eq_error h
    obtain ⟨rfl, rfl⟩ := Defect.cycle.inj heq
    refine ⟨⟨t, ht, rfl⟩, hbehind, fun q s hs hcycle => ?_, fun hclosed => hbehind.onCycle hclosed⟩
    by_contra hlt
    exact hfirst q s (Nat.lt_of_not_le hlt) hs hcycle.behindCycle

/-- Two tasks that depend on each other. -/
def deadlock : Definition where
  name := "etl"
  tasks := [⟨"extract", "DATAX", false⟩, ⟨"load", "SQL", false⟩]
  relations := [⟨some "extract", "load"⟩, ⟨some "load", "extract"⟩]

theorem build_deadlock :
    build deadlock = .error (.cycle 0 "extract") ∧ deadlock.OnCycle "extract" := by
  have hbuild : build deadlock = .error (.cycle 0 "extract") := by rfl
  refine ⟨hbuild, (build_cycle hbuild).2.2.2 fun a b _ hab => ?_⟩
  have hba : deadlock.Depends b a := by
    simp only [Definition.Depends, deadlock, List.mem_cons, Relation.mk.injEq, Option.some.injEq,
      List.not_mem_nil, or_false] at hab ⊢
    tauto
  exact .tail (.single hba) hab

/-- A report of two tasks that depend on each other, declared before them. -/
def hanging : Definition where
  name := "etl"
  tasks := [⟨"report", "SHELL", false⟩, ⟨"extract", "DATAX", false⟩, ⟨"load", "SQL", false⟩]
  relations := [⟨some "extract", "load"⟩, ⟨some "load", "extract"⟩, ⟨some "load", "report"⟩]

/-- The report is reported, though nothing depends on it. -/
theorem build_hanging :
    build hanging = .error (.cycle 0 "report") ∧
      ((Defect.cycle 0 "report").fault "etl").message =
        "workflow 'etl': dependency cycle through task 'report'" ∧
      ¬ hanging.OnCycle "report" := by
  refine ⟨rfl, by decide, fun h => ?_⟩
  obtain ⟨b, hb, -⟩ := Relation.TransGen.head'_iff.1 h
  simp [Definition.Depends, hanging] at hb

end Graph

end TaskFlow
