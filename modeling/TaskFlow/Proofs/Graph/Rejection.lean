import TaskFlow.Proofs.Graph.Acceptance
import TaskFlow.Proofs.Graph.Cycle

/-! # Why a definition has no graph

A definition is checked in a fixed order (`Definition.checks`): of each task that its name is not
blank, that its type exists and that its name is not taken, then of each relation that its ends are
declared and differ, and at last that no dependency leads back to where it came from.
`Definition.Finds` says of each check by itself what defect it finds.

A definition without a graph has the defect that the first failing check finds, and whatever comes
after the task or relation at fault leaves it as it is (`build_error_first`). -/

namespace TaskFlow

namespace Definition

/-! ### Checks -/

/-- A check of a definition, with the position of the task or relation that is checked. -/
inductive Check
  | blankName (task : Nat)
  | unknownType (task : Nat)
  | repeatedName (task : Nat)
  | unknownTarget (relation : Nat)
  | unknownSource (relation : Nat)
  | selfDependency (relation : Nat)
  | cycle
deriving DecidableEq, Repr

namespace Check

/-- The checks of one task, in their order. -/
def ofTask (p : Nat) : List Check :=
  [blankName p, unknownType p, repeatedName p]

/-- The checks of one relation, in their order. -/
def ofRelation (j : Nat) : List Check :=
  [unknownTarget j, unknownSource j, selfDependency j]

/-- The task that is checked, if it is a task. -/
def task? : Check → Option Nat
  | blankName p | unknownType p | repeatedName p => some p
  | _ => none

/-- The relation that is checked, if it is a relation. -/
def relation? : Check → Option Nat
  | unknownTarget j | unknownSource j | selfDependency j => some j
  | _ => none

end Check

variable {d : Definition} {c : Check} {e : Graph.Defect} {n : Nat}

/-- All checks of a definition in their order. -/
def checks (d : Definition) : List Check :=
  (List.range d.tasks.length).flatMap Check.ofTask ++
    ((List.range d.relations.length).flatMap Check.ofRelation ++ [.cycle])

/-- The check fails, and this is the defect that it finds. -/
inductive Finds (d : Definition) : Check → Graph.Defect → Prop
  | blankName {p : Nat} {t : Task} (ht : d.tasks[p]? = some t)
      (h : ∀ c ∈ t.name.toList, Text.isBlank c = true) :
      Finds d (.blankName p) (.blankName p)
  | unknownType {p : Nat} {t : Task} (ht : d.tasks[p]? = some t)
      (h : ∀ ty : TaskType, ty.name ≠ t.typeName) :
      Finds d (.unknownType p) (.unknownType p t.name t.typeName)
  | repeatedName {p q : Nat} {t s : Task} (ht : d.tasks[p]? = some t) (hs : d.tasks[q]? = some s)
      (hlt : q < p) (h : s.name = t.name) :
      Finds d (.repeatedName p) (.repeatedName p t.name)
  | unknownTarget {j : Nat} {r : Relation} (hr : d.relations[j]? = some r)
      (h : ¬ d.Declares r.target) :
      Finds d (.unknownTarget j) (.unknownTarget j r.target)
  | unknownSource {j : Nat} {r : Relation} {s : String} (hr : d.relations[j]? = some r)
      (hs : r.source = some s) (h : ¬ d.Declares s) :
      Finds d (.unknownSource j) (.unknownSource j s)
  | selfDependency {j : Nat} {r : Relation} (hr : d.relations[j]? = some r)
      (h : r.source = some r.target) :
      Finds d (.selfDependency j) (.selfDependency j r.target)
  | cycle {p : Nat} {t : Task} {name : String} (ht : d.tasks[p]? = some t)
      (h : d.OnCycle name) :
      Finds d .cycle (.cycle p t.name)

/-- The check does not fail. -/
def Passes (d : Definition) (c : Check) : Prop :=
  ∀ e, ¬ d.Finds c e

/-- The check fails after all checks before it have passed, and this is the defect that it finds. -/
structure FirstFinds (d : Definition) (c : Check) (e : Graph.Defect) : Prop where
  found : d.Finds c e
  first : ∃ before after, d.checks = before ++ c :: after ∧ ∀ b ∈ before, d.Passes b

/-! ### What is told of a failing check -/

/-- The task name or relation end that is at fault, where there is one. -/
def culprit? (d : Definition) : Check → Option String
  | .repeatedName p => d.tasks[p]?.map Task.name
  | .unknownTarget j | .selfDependency j => d.relations[j]?.map Relation.target
  | .unknownSource j => d.relations[j]?.bind Relation.source
  | _ => none

/-- The text has the name between single quotes in it. -/
def Quotes (text name : String) : Prop :=
  ∃ front back, text = front ++ ("'" ++ name ++ "'") ++ back

/-- What a user sees of a failing check.  An unknown type is told of its task, and everything else of
the workflow. -/
structure Tells (d : Definition) (c : Check) (f : Fault) : Prop where
  taskType : f.taskType = none
  kind_eq_iff : f.kind = .unknownTaskType ↔ ∃ p, c = .unknownType p
  ofType : ∀ p t, c = .unknownType p → d.tasks[p]? = some t →
    f.message = "task '" ++ t.name ++ "': unknown task type '" ++ t.typeName ++ "'"
  ofWorkflow : (∀ p, c ≠ .unknownType p) → f.kind = .invalidWorkflow ∧
    ∃ what, f.message = "workflow '" ++ d.name ++ "': " ++ what ∧
      ∀ name ∈ d.culprit? c, Quotes what name

/-- Anything but an unknown type is told of the workflow. -/
theorem tells_of_message {what : String} (hc : ∀ p, c ≠ .unknownType p)
    (hkind : e.kind = .invalidWorkflow)
    (hmessage : e.message d.name = "workflow '" ++ d.name ++ "': " ++ what)
    (hquotes : ∀ name ∈ d.culprit? c, Quotes what name) : d.Tells c (e.fault d.name) where
  taskType := rfl
  kind_eq_iff := by
    refine iff_of_false ?_ fun ⟨p, hp⟩ => hc p hp
    show e.kind ≠ _
    rw [hkind]
    decide
  ofType p t hp := absurd hp (hc p)
  ofWorkflow _ := ⟨hkind, what, hmessage, hquotes⟩

/-- An unknown type is told of its task. -/
theorem message_unknownType (workflow : String) (p : Nat) (name raw : String) :
    (Graph.Defect.unknownType p name raw).message workflow =
      "task '" ++ name ++ "': unknown task type '" ++ raw ++ "'" := by
  have hmessage : (Graph.Defect.unknownType p name raw).message workflow =
      "task '" ++ name ++ "': " ++ ("unknown task type '" ++ raw ++ "'") := rfl
  have hsplit : "': unknown task type '" = "': " ++ "unknown task type '" := by decide
  rw [hmessage, hsplit]
  simp only [String.append_assoc]

theorem Finds.tells (h : d.Finds c e) : d.Tells c (e.fault d.name) := by
  cases h with
  | @unknownType p t ht h =>
      refine ⟨rfl, iff_of_true rfl ⟨p, rfl⟩, ?_, fun hne => absurd rfl (hne p)⟩
      intro q s hq hs
      rw [← Check.unknownType.inj hq, ht] at hs
      rw [← Option.some.inj hs]
      exact message_unknownType d.name p t.name t.typeName
  | blankName ht h =>
      exact tells_of_message nofun rfl rfl nofun
  | cycle ht h =>
      exact tells_of_message nofun rfl rfl nofun
  | repeatedName ht hs hlt h =>
      refine tells_of_message nofun rfl rfl ?_
      simp only [culprit?, ht, Option.map_some, Option.mem_some_iff, forall_eq']
      exact ⟨"duplicate task name ", "", by simp [← String.append_assoc]⟩
  | unknownTarget hr h =>
      refine tells_of_message nofun rfl rfl ?_
      simp only [culprit?, hr, Option.map_some, Option.mem_some_iff, forall_eq']
      exact ⟨"relation references unknown task ", "", by simp [← String.append_assoc]⟩
  | unknownSource hr hs h =>
      refine tells_of_message nofun rfl rfl ?_
      simp only [culprit?, hr, Option.bind_some, hs, Option.mem_some_iff, forall_eq']
      exact ⟨"relation references unknown task ", "", by simp [← String.append_assoc]⟩
  | selfDependency hr h =>
      refine tells_of_message nofun rfl rfl ?_
      simp only [culprit?, hr, Option.map_some, Option.mem_some_iff, forall_eq']
      refine ⟨"task ", " cannot depend on itself", ?_⟩
      have hsplit : "' cannot depend on itself" = "'" ++ " cannot depend on itself" := by decide
      rw [hsplit, ← String.append_assoc, ← String.append_assoc, ← String.append_assoc]
      simp only [String.reduceAppend]

/-! ### The order of the checks -/

/-- The checks of one of many tasks, with those of the tasks before and behind it. -/
theorem flatMap_range_eq (checks : Nat → List Check) {p : Nat} (hp : p < n) :
    ∃ rest, (List.range n).flatMap checks = (List.range p).flatMap checks ++ (checks p ++ rest) := by
  obtain ⟨k, rfl⟩ : ∃ k, n = p + (k + 1) := ⟨n - p - 1, by omega⟩
  refine ⟨((List.range k).map (p + · + 1)).flatMap checks, ?_⟩
  rw [List.range_add, List.flatMap_append, List.range_succ_eq_map, List.map_cons, List.flatMap_cons,
    List.map_map]
  rfl

/-- The checks of all tasks, or of all relations, that are numbered below `n` pass. -/
def PassBelow (d : Definition) (checks : Nat → List Check) (n : Nat) : Prop :=
  ∀ i < n, ∀ b ∈ checks i, d.Passes b

theorem PassBelow.flatMap {checks : Nat → List Check} (h : d.PassBelow checks n) :
    ∀ b ∈ (List.range n).flatMap checks, d.Passes b := by
  intro b hb
  obtain ⟨i, hi, hb⟩ := List.mem_flatMap.1 hb
  exact h i (List.mem_range.1 hi) b hb

theorem FirstFinds.of_task {p : Nat} (before : List Check) {after : List Check}
    (hp : p < d.tasks.length) (hpassed : d.PassBelow Check.ofTask p)
    (hsplit : Check.ofTask p = before ++ c :: after) (hbefore : ∀ b ∈ before, d.Passes b)
    (hfound : d.Finds c e) : d.FirstFinds c e := by
  obtain ⟨rest, hrest⟩ := flatMap_range_eq Check.ofTask hp
  refine ⟨hfound, (List.range p).flatMap Check.ofTask ++ before,
    after ++ rest ++ ((List.range d.relations.length).flatMap Check.ofRelation ++ [.cycle]),
    ?_, List.forall_mem_append.2 ⟨hpassed.flatMap, hbefore⟩⟩
  rw [checks, hrest, hsplit]
  simp only [List.append_assoc, List.cons_append]

theorem FirstFinds.of_relation {j : Nat} (before : List Check) {after : List Check}
    (hj : j < d.relations.length) (htasks : d.PassBelow Check.ofTask d.tasks.length)
    (hpassed : d.PassBelow Check.ofRelation j) (hsplit : Check.ofRelation j = before ++ c :: after)
    (hbefore : ∀ b ∈ before, d.Passes b) (hfound : d.Finds c e) : d.FirstFinds c e := by
  obtain ⟨rest, hrest⟩ := flatMap_range_eq Check.ofRelation hj
  refine ⟨hfound, (List.range d.tasks.length).flatMap Check.ofTask ++
    ((List.range j).flatMap Check.ofRelation ++ before), after ++ rest ++ [.cycle], ?_, ?_⟩
  · rw [checks, hrest, hsplit]
    simp only [List.append_assoc, List.cons_append]
  · exact List.forall_mem_append.2
      ⟨htasks.flatMap, List.forall_mem_append.2 ⟨hpassed.flatMap, hbefore⟩⟩

theorem FirstFinds.of_cycle (htasks : d.PassBelow Check.ofTask d.tasks.length)
    (hrelations : d.PassBelow Check.ofRelation d.relations.length) (hfound : d.Finds .cycle e) :
    d.FirstFinds .cycle e :=
  ⟨hfound, _, [], (List.append_assoc _ _ _).symm,
    List.forall_mem_append.2 ⟨htasks.flatMap, hrelations.flatMap⟩⟩

/-! ### Checks that pass -/

theorem passes_blankName {p : Nat} {t : Task} (ht : d.tasks[p]? = some t)
    (h : Text.isBlankText t.name = false) : d.Passes (.blankName p) := by
  rintro e (⟨ht', hblank⟩)
  obtain rfl := Option.some.inj (ht.symm.trans ht')
  obtain ⟨c, hc, hfalse⟩ := Text.isBlankText_eq_false_iff.1 h
  rw [hblank c hc] at hfalse
  cases hfalse

theorem passes_unknownType {p : Nat} {t : Task} (ht : d.tasks[p]? = some t)
    (h : ∃ ty : TaskType, ty.name = t.typeName) : d.Passes (.unknownType p) := by
  rintro e (_ | ⟨ht', hnone⟩)
  obtain rfl := Option.some.inj (ht.symm.trans ht')
  obtain ⟨ty, hty⟩ := h
  exact hnone ty hty

theorem passes_unknownTarget {j : Nat} {r : Relation} (hr : d.relations[j]? = some r)
    (h : d.Declares r.target) : d.Passes (.unknownTarget j) := by
  rintro e (_ | _ | _ | ⟨hr', hnot⟩)
  obtain rfl := Option.some.inj (hr.symm.trans hr')
  exact hnot h

theorem passes_unknownSource {j : Nat} {r : Relation} (hr : d.relations[j]? = some r)
    (h : ∀ s, r.source = some s → d.Declares s) : d.Passes (.unknownSource j) := by
  rintro e (_ | _ | _ | _ | ⟨hr', hs, hnot⟩)
  obtain rfl := Option.some.inj (hr.symm.trans hr')
  exact hnot (h _ hs)

theorem passes_selfDependency {j : Nat} {r : Relation} (hr : d.relations[j]? = some r)
    (h : r.source ≠ some r.target) : d.Passes (.selfDependency j) := by
  rintro e (_ | _ | _ | _ | _ | ⟨hr', hself⟩)
  obtain rfl := Option.some.inj (hr.symm.trans hr')
  exact h hself

/-- The checks of a task pass when its name is new among the tasks up to it. -/
theorem passes_ofTask {tasks rest : List Task} (hd : d.tasks = tasks ++ rest)
    (hblank : ∀ t ∈ tasks, Text.isBlankText t.name = false)
    (htype : ∀ t ∈ tasks, ∃ ty : TaskType, ty.name = t.typeName)
    (hnd : (tasks.map Task.name).Nodup) : d.PassBelow Check.ofTask tasks.length := by
  intro q hq b hb
  have hget : ∀ i, i < tasks.length → d.tasks[i]? = tasks[i]? := by
    intro i hi
    rw [hd, List.getElem?_append_left hi]
  have ht : d.tasks[q]? = some tasks[q] := by rw [hget q hq, List.getElem?_eq_getElem hq]
  have hmem : tasks[q] ∈ tasks := List.getElem_mem hq
  rcases List.mem_cons.1 hb with rfl | hb
  · exact passes_blankName ht (hblank _ hmem)
  rcases List.mem_cons.1 hb with rfl | hb
  · exact passes_unknownType ht (htype _ hmem)
  obtain rfl := List.mem_singleton.1 hb
  rintro e (_ | _ | ⟨ht', hs, hlt, hname⟩)
  rename_i r t s
  rw [hget q hq] at ht'
  rw [hget r (hlt.trans hq)] at hs
  have hnames : (tasks.map Task.name)[r]? = (tasks.map Task.name)[q]? := by
    rw [List.getElem?_map, List.getElem?_map, hs, ht', Option.map_some, Option.map_some, hname]
  have hr : r < (tasks.map Task.name).length := by
    rw [List.length_map]
    exact hlt.trans hq
  exact hlt.ne ((List.getElem?_inj hr hnd).1 hnames)

/-- The checks of a relation pass when it speaks of declared tasks and of two different ones. -/
theorem passes_ofRelation {j : Nat} {r : Relation} (hr : d.relations[j]? = some r)
    (htarget : d.Declares r.target) (hsource : ∀ s, r.source = some s → d.Declares s)
    (hne : r.source ≠ some r.target) : ∀ b ∈ Check.ofRelation j, d.Passes b := by
  simp only [Check.ofRelation, List.forall_mem_cons, List.not_mem_nil, false_implies, implies_true,
    and_true]
  exact ⟨passes_unknownTarget hr htarget, passes_unknownSource hr hsource,
    passes_selfDependency hr hne⟩

end Definition

open Definition (Check)

namespace Graph

variable {g : Graph} {d : Definition} {r : Relation} {rs : List Relation} {e : Defect}

/-! ### The first failing check -/

/-- Tasks of which nodes are made pass their checks. -/
theorem passBelow_of_foldlM {tasks rest : List Task} {s : Roster}
    (hd : d.tasks = tasks ++ rest) (h : tasks.foldlM addTask .empty = .ok s) :
    d.PassBelow Check.ofTask tasks.length ∧ List.Forall₂ Node.Of s.nodes tasks ∧ s.Indexed := by
  obtain ⟨hblank, nodes, hnodes, rfl, hnd⟩ := (foldlM_addTask_eq_ok_iff Roster.indexed_empty).1 h
  have hnd : (nodes.map Node.name).Nodup := hnd
  refine ⟨Definition.passes_ofTask hd hblank (exists_nodes_iff.1 ⟨_, hnodes⟩) ?_, ?_, ?_⟩
  · rwa [map_name_eq hnodes] at hnd
  · rwa [← Roster.nodes_ofNodes nodes] at hnodes
  · exact Roster.indexed_ofNodes hnd

theorem passBelow_of_ofTasks {u : Graph} (h : ofTasks d = .ok u) :
    d.PassBelow Check.ofTask d.tasks.length := by
  obtain ⟨s, hs, -⟩ := map_eq_ok_iff.1 h
  exact (passBelow_of_foldlM (List.append_nil _).symm hs).1

/-- Relations that are added to the graph pass their checks. -/
theorem passBelow_of_relateAll {u : Graph} {rest : List Relation} (hu : ofTasks d = .ok u)
    (hd : d.relations = rs ++ rest) (h : u.relateAll 0 rs = .ok g) :
    d.PassBelow Check.ofRelation rs.length := by
  intro i hi
  have hr : d.relations[i]? = some rs[i] := by
    rw [hd, List.getElem?_append_left hi, List.getElem?_eq_getElem hi]
  obtain ⟨htarget, hsource, hne⟩ :=
    (exists_relateAll_ofTasks_iff hu).1 ⟨g, h⟩ rs[i] (List.getElem_mem hi)
  exact Definition.passes_ofRelation hr htarget hsource hne

/-- A task that is refused is found by the first failing check. -/
theorem firstFinds_of_task {before after : List Task} {task : Task} {s : Roster}
    (hd : d.tasks = before ++ task :: after) (hs : before.foldlM addTask .empty = .ok s)
    (h : addTask s task = .error e) :
    ∃ c : Check, c.task? = some before.length ∧ c.relation? = none ∧ d.FirstFinds c e := by
  obtain ⟨hpassed, hof, hindexed⟩ := passBelow_of_foldlM hd hs
  have hp : before.length < d.tasks.length := by
    rw [hd, List.length_append, List.length_cons]
    omega
  have ht : d.tasks[before.length]? = some task := by
    simp [hd]
  have hlen : s.nodes.length = before.length := hof.length_eq
  rw [← hlen] at ht hp hpassed ⊢
  rcases addTask_eq_error h with ⟨hblank, rfl⟩ | ⟨hblank, ⟨htype, rfl⟩ | ⟨htype, htaken, rfl⟩⟩
  · have hall : ∀ c ∈ task.name.toList, Text.isBlank c = true := by
      simpa [Text.isBlankText] using hblank
    refine ⟨.blankName s.nodes.length, rfl, rfl, ?_⟩
    exact .of_task [] hp hpassed rfl (List.forall_mem_nil _) (.blankName ht hall)
  · have hbefore := Definition.passes_blankName ht hblank
    refine ⟨.unknownType s.nodes.length, rfl, rfl, ?_⟩
    exact .of_task [.blankName s.nodes.length] hp hpassed rfl (List.forall_mem_singleton.2 hbefore)
      (.unknownType ht htype)
  · have hbefore := Definition.passes_blankName ht hblank
    have hbefore' := Definition.passes_unknownType ht htype
    obtain ⟨q, hpos⟩ := htaken
    obtain ⟨n, hn, hname⟩ := (hindexed _ _).1 hpos
    obtain ⟨hq, rfl⟩ := List.getElem?_eq_some_iff.1 hn
    have hq' : q < before.length := hlen ▸ hq
    have hfirst : d.tasks[q]? = some before[q] := by
      rw [hd, List.getElem?_append_left hq', List.getElem?_eq_getElem hq']
    have hsame : before[q].name = task.name := (hof.get hq hq').name.symm.trans hname
    refine ⟨.repeatedName s.nodes.length, rfl, rfl, ?_⟩
    exact .of_task [.blankName s.nodes.length, .unknownType s.nodes.length] hp hpassed rfl
      (List.forall_mem_cons.2 ⟨hbefore, List.forall_mem_singleton.2 hbefore'⟩)
      (.repeatedName ht hfirst hq hsame)

/-- A relation that is refused is found by the first failing check. -/
theorem firstFinds_of_relation {u : Graph} {before after : List Relation} (hu : ofTasks d = .ok u)
    (hd : d.relations = before ++ r :: after) (hbefore : u.relateAll 0 before = .ok g)
    (h : g.relate before.length r = .error e) :
    ∃ c : Check, c.task? = none ∧ c.relation? = some before.length ∧ d.FirstFinds c e := by
  have htasks := passBelow_of_ofTasks hu
  have hpassed := passBelow_of_relateAll hu hd hbefore
  have hj : before.length < d.relations.length := by
    rw [hd, List.length_append, List.length_cons]
    omega
  have hr : d.relations[before.length]? = some r := by simp [hd]
  have hof := of_relateAll_first hu hbefore
  have hdeclares {name} {p} (hpos : g.position? name = some p) : d.Declares name :=
    hof.exists_position?_iff.1 ⟨p, hpos⟩
  have hnot : ∀ {name}, g.position? name = none → ¬ d.Declares name := by
    intro name hnone hdecl
    obtain ⟨p, hp⟩ := hof.exists_position?_iff.2 hdecl
    rw [hnone] at hp
    cases hp
  rcases relate_eq_error_iff.1 h with ⟨hq, rfl⟩ | ⟨q, s, hq, hs, ⟨hp, rfl⟩ | ⟨hp, rfl⟩⟩
  · refine ⟨.unknownTarget before.length, rfl, rfl, ?_⟩
    exact .of_relation [] hj htasks hpassed rfl (List.forall_mem_nil _)
      (.unknownTarget hr (hnot hq))
  · have htarget := Definition.passes_unknownTarget hr (hdeclares hq)
    refine ⟨.unknownSource before.length, rfl, rfl, ?_⟩
    exact .of_relation [.unknownTarget before.length] hj htasks hpassed rfl
      (List.forall_mem_singleton.2 htarget) (.unknownSource hr hs (hnot hp))
  · have htarget := Definition.passes_unknownTarget hr (hdeclares hq)
    obtain rfl := hof.represents.indexed.position?_inj hp hq
    have hsource : d.Passes (.unknownSource before.length) := by
      refine Definition.passes_unknownSource hr fun s hs' => ?_
      obtain rfl := Option.some.inj (hs.symm.trans hs')
      exact hdeclares hq
    refine ⟨.selfDependency before.length, rfl, rfl, ?_⟩
    exact .of_relation [.unknownTarget before.length, .unknownSource before.length] hj htasks hpassed
      rfl (List.forall_mem_cons.2 ⟨htarget, List.forall_mem_singleton.2 hsource⟩)
      (.selfDependency hr hs)

/-- Once all tasks and relations have passed, a missing order is found as a cycle. -/
theorem firstFinds_of_order {u : Graph} (hu : ofTasks d = .ok u)
    (hg : u.relateAll 0 d.relations = .ok g) (h : g.order = .error e) : d.FirstFinds .cycle e := by
  have hof := of_relateAll hu hg
  obtain ⟨p, t, rfl, ht, ⟨c, hc, -⟩, -⟩ := hof.order_eq_error h
  refine .of_cycle (passBelow_of_ofTasks hu) ?_ (.cycle ht hc)
  exact passBelow_of_relateAll hu (List.append_nil _).symm hg

/-! ### What comes after the first failing check -/

/-- Whatever comes after a task that is refused, the definition has the same defect. -/
theorem build_error_of_task {before : List Task} {task : Task} {s : Roster}
    (hs : before.foldlM addTask .empty = .ok s) (h : addTask s task = .error e)
    (name : String) (tasks : List Task) (relations : List Relation) :
    build ⟨name, before ++ task :: tasks, relations⟩ = .error e :=
  build_eq_error_iff.2 (.inl (ofTasks_eq_error_iff.2 ⟨before, task, tasks, s, rfl, hs, h⟩))

/-- Whatever comes after a relation that is refused, the definition has the same defect. -/
theorem build_error_of_relation {u : Graph} {before : List Relation} (hu : ofTasks d = .ok u)
    (hbefore : u.relateAll 0 before = .ok g) (h : g.relate before.length r = .error e)
    (relations : List Relation) :
    build { d with relations := before ++ r :: relations } = .error e := by
  refine build_eq_error_iff.2 (.inr ⟨u, hu, .inl (relateAll_eq_error_iff.2 ?_)⟩)
  refine ⟨before, r, relations, g, rfl, hbefore, ?_⟩
  rwa [Nat.zero_add]

/-- A definition without a graph has the defect that the first failing check finds.  It is told as a
fault of that kind, and it stays the defect when everything behind the task or relation at fault is
replaced. -/
theorem build_error_first (h : build d = .error e) :
    ∃ c : Check, d.FirstFinds c e ∧ d.Tells c (e.fault d.name) ∧
      (∀ p, c.task? = some p → ∀ tasks relations,
        build { d with tasks := d.tasks.take (p + 1) ++ tasks, relations := relations } =
          .error e) ∧
      ∀ j, c.relation? = some j → ∀ relations,
        build { d with relations := d.relations.take (j + 1) ++ relations } = .error e := by
  rcases build_eq_error_iff.1 h with h | ⟨u, hu, h | ⟨g, hg, h⟩⟩
  · obtain ⟨before, task, after, s, hd, hs, hlast⟩ := ofTasks_eq_error_iff.1 h
    obtain ⟨c, htask, hrelation, hc⟩ := firstFinds_of_task hd hs hlast
    refine ⟨c, hc, hc.found.tells, fun p hp tasks relations => ?_, fun j hj => ?_⟩
    · obtain rfl := Option.some.inj (htask.symm.trans hp)
      have htake : d.tasks.take (before.length + 1) ++ tasks = before ++ task :: tasks := by
        simp [hd, List.take_append]
      rw [htake]
      exact build_error_of_task hs hlast d.name tasks relations
    · rw [hrelation] at hj
      cases hj
  · obtain ⟨before, r, after, g, hd, hbefore, hlast⟩ := relateAll_eq_error_iff.1 h
    rw [Nat.zero_add] at hlast
    obtain ⟨c, htask, hrelation, hc⟩ := firstFinds_of_relation hu hd hbefore hlast
    refine ⟨c, hc, hc.found.tells, fun p hp => ?_, fun j hj relations => ?_⟩
    · rw [htask] at hp
      cases hp
    · obtain rfl := Option.some.inj (hrelation.symm.trans hj)
      have htake : d.relations.take (before.length + 1) ++ relations =
          before ++ r :: relations := by
        simp [hd, List.take_append]
      rw [htake]
      exact build_error_of_relation hu hbefore hlast relations
  · have hc := firstFinds_of_order hu hg h
    exact ⟨.cycle, hc, hc.found.tells, nofun, nofun⟩

/-- A cycle, then a relation that speaks of no task, then a task that depends on itself. -/
def tangled : Definition where
  name := "etl"
  tasks := [⟨"extract", "DATAX", false⟩, ⟨"load", "SQL", false⟩]
  relations := [⟨some "extract", "load"⟩, ⟨some "load", "extract"⟩, ⟨none, "report"⟩,
    ⟨some "load", "load"⟩]

theorem build_tangled :
    build tangled = .error (.unknownTarget 2 "report") ∧
      tangled.FirstFinds (.unknownTarget 2) (.unknownTarget 2 "report") ∧
      ∀ relations, build { tangled with relations := tangled.relations.take 3 ++ relations } =
        .error (.unknownTarget 2 "report") := by
  have hbuild : build tangled = .error (.unknownTarget 2 "report") := by rfl
  obtain ⟨c, hc, -, -, hrest⟩ := build_error_first hbuild
  have hcheck : c = .unknownTarget 2 := by
    generalize heq : Defect.unknownTarget 2 "report" = e at hc
    cases hc.found with
    | unknownTarget hr h => rw [(Defect.unknownTarget.inj heq).1]
    | _ => cases heq
  subst hcheck
  exact ⟨hbuild, hc, hrest 2 rfl⟩

end Graph

end TaskFlow
