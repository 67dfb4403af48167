import TaskFlow.Command.Run
import TaskFlow.Proofs.Graph.Renaming
import TaskFlow.Proofs.Json.Write

/-! # Names of task types at the boundaries

A name of a task type comes in as it is, as a JSON value or text, as the argument of a command, or
with a task of a definition.  Wherever it comes in, it is either `Accepted`, for one and the same
task type, which gives the name back when it is written, or `Refused`, with the name as it was
written in the message (`name_accepted_or_refused`).

For a definition this is said of those whose only defect, if they have one, is the type in question
(`Definition.ValidUpTo`): they have a graph as soon as an existing type stands in its place. -/

namespace TaskFlow

open Json (Decoder Doc IsString Reads Token)
open Json.Decoder (string_reads)

/-! ### Definitions up to a type -/

/-- The task with a task type in the place of that name of a type. -/
def Task.retype (raw : String) (ty : TaskType) (t : Task) : Task :=
  if t.typeName = raw then { t with typeName := ty.name } else t

/-- The definition with a task type in the place of that name of a type. -/
def Definition.retype (raw : String) (ty : TaskType) (d : Definition) : Definition :=
  { d with tasks := d.tasks.map (Task.retype raw ty) }

/-- The definition has tasks of that type, and nothing else can be wrong with it. -/
structure Definition.ValidUpTo (raw : String) (d : Definition) : Prop where
  used : ∃ t ∈ d.tasks, t.typeName = raw
  otherwise : ∃ ty g, Graph.build (d.retype raw ty) = .ok g

section retype

variable {raw : String} {ty : TaskType} {t : Task} {d : Definition}

theorem Task.retype_of_eq (h : t.typeName = raw) :
    t.retype raw ty = { t with typeName := ty.name } :=
  if_pos h

theorem Task.retype_of_ne (h : t.typeName ≠ raw) : t.retype raw ty = t :=
  if_neg h

theorem Task.name_retype : (t.retype raw ty).name = t.name := by
  by_cases h : t.typeName = raw
  · rw [Task.retype_of_eq h]
  · rw [Task.retype_of_ne h]

theorem Relation.rename_id (rel : Relation) : rel.rename id = rel := by
  rw [Relation.rename, Option.map_id]
  rfl

theorem Definition.retype_renames : (d.retype raw ty).Renames id d where
  names := by
    rw [List.map_id, retype, List.map_map]
    exact List.map_congr_left fun t _ => Task.name_retype.symm
  relations := by
    rw [funext Relation.rename_id, List.map_id']
    rfl

end retype

namespace Graph

variable {raw : String} {ty : TaskType} {d : Definition} {g : Graph} {t : TaskType}

theorem declarable_of_build (h : build d = .ok g) : ∀ t ∈ d.tasks, t.Declarable := by
  obtain ⟨u, hu, -⟩ := build_eq_ok_iff.1 h
  obtain ⟨hblank, -, htype⟩ := exists_ofTasks_iff.1 ⟨u, hu⟩
  exact fun t ht => ⟨hblank t ht, htype t ht⟩

/-- With a type that exists, the definition has a graph. -/
theorem exists_build_of_validUpTo (hd : d.ValidUpTo t.name) :
    ∃ g, build d = .ok g ∧ ∀ task ∈ d.tasks, task.typeName = t.name →
      ∃ n, g.node? task.name = some n ∧ n.taskType = t := by
  obtain ⟨ty, g₁, hg₁⟩ := hd.otherwise
  have hretyped := declarable_of_build hg₁
  have hdeclarable : ∀ task ∈ d.tasks, task.Declarable := by
    intro task htask
    obtain ⟨hblank, htype⟩ := hretyped _ (List.mem_map_of_mem htask)
    rw [Task.name_retype] at hblank
    refine ⟨hblank, ?_⟩
    by_cases hraw : task.typeName = t.name
    · exact ⟨t, hraw.symm⟩
    · rwa [Task.retype_of_ne hraw] at htype
  have halike := build_alike Function.injective_id Definition.retype_renames hretyped hdeclarable
  obtain ⟨g, hg⟩ := halike.exists_ok_iff.1 ⟨g₁, hg₁⟩
  refine ⟨g, hg, fun task htask hname => ?_⟩
  obtain ⟨n, hn, hof⟩ := (of_build hg).node?_eq htask
  exact ⟨n, hn, TaskType.name_injective (hof.typeName.trans hname)⟩

theorem addTask_unknownType {s : Roster} {task : Task}
    (hblank : Text.isBlankText task.name = false) (h : TaskType.ofName? task.typeName = none) :
    addTask s task = .error (.unknownType s.nodes.length task.name task.typeName) := by
  have hresolve : Registry.standard.resolve task.typeName =
      .error (.unknownTaskType task.typeName) := TaskType.parse_eq_error h
  rw [addTask, if_neg (by simp [hblank]), hresolve]

/-- With a type that does not exist, the first task of this type is refused. -/
theorem foldlM_addTask_unknownType (hraw : TaskType.ofName? raw = none) {tasks : List Task}
    {s s' : Roster} (h : (tasks.map (Task.retype raw ty)).foldlM addTask s = .ok s')
    (hused : ∃ t ∈ tasks, t.typeName = raw) :
    ∃ i name, tasks.foldlM addTask s = .error (.unknownType i name raw) := by
  induction tasks generalizing s with
  | nil =>
      obtain ⟨t, ht, -⟩ := hused
      cases ht
  | cons task tasks ih =>
      rw [List.map_cons, List.foldlM_cons, bind_eq_ok_iff] at h
      obtain ⟨s₁, h₁, h⟩ := h
      rw [List.foldlM_cons]
      -- Up to the first task of this type both definitions take the same steps.
      by_cases htype : task.typeName = raw
      · obtain ⟨hblank, -⟩ := addTask_eq_ok_iff.1 h₁
        rw [Task.name_retype] at hblank
        rw [← htype] at hraw
        rw [addTask_unknownType hblank hraw, htype]
        exact ⟨_, _, rfl⟩
      · rw [Task.retype_of_ne htype] at h₁
        rw [h₁]
        refine ih h ?_
        obtain ⟨t, ht, hname⟩ := hused
        rcases List.mem_cons.1 ht with rfl | ht
        · exact absurd hname htype
        · exact ⟨t, ht, hname⟩

theorem build_unknownType (hraw : TaskType.ofName? raw = none) (hd : d.ValidUpTo raw) :
    ∃ i name, build d = .error (.unknownType i name raw) := by
  obtain ⟨ty, g, hg⟩ := hd.otherwise
  obtain ⟨u, hu, -⟩ := build_eq_ok_iff.1 hg
  obtain ⟨s, hs, -⟩ := map_eq_ok_iff.1 hu
  obtain ⟨i, name, herror⟩ := foldlM_addTask_unknownType hraw hs hd.used
  refine ⟨i, name, ?_⟩
  rw [build, ofTasks, herror]
  rfl

end Graph

/-! ### What the boundaries do with a name -/

/-- The fault is that of an unknown task type, and ends with the name as it was written. -/
structure Fault.Refuses (raw : String) (f : Fault) : Prop where
  kind : f.kind = .unknownTaskType
  taskType : f.taskType = none
  message : ∃ front, f.message = front ++ ("unknown task type '" ++ raw ++ "'")

/-- The name is taken for the task type at every boundary, and is what the task type is written
as. -/
structure TaskType.Accepted (raw : String) (t : TaskType) : Prop where
  parse : TaskType.parse raw = .ok t
  ofString : TaskType.ofString raw = .ok t
  resolve : TaskType.resolve raw = .ok t
  lookup (r : Registry) : r.resolve raw = .ok t
  describe (settings : Settings) (read : String → FileContent) :
    (Command.describe raw).run settings read = .ok (t.descriptor.sheet.write settings.format)
  form (settings : Settings) (read : String → FileContent) :
    (Command.form raw).run settings read =
      .ok ((t.form settings.docsBase).rendering.write settings.format)
  build (d : Definition) : d.ValidUpTo raw →
    ∃ g, Graph.build d = .ok g ∧ ∀ task ∈ d.tasks, task.typeName = raw →
      ∃ n, g.node? task.name = some n ∧ n.taskType = t
  name_eq : t.name = raw
  shown : ({} : Text.Padding).apply t.name = raw
  written : t.toJson = .str raw ∧ Decoder.string.ofText t.toJson.compact = .ok raw

/-- The name is refused at every boundary. -/
structure TaskType.Refused (raw : String) (e : NameError) : Prop where
  parse : TaskType.parse raw = .error e
  ofString : TaskType.ofString raw = .error e
  resolve : TaskType.resolve raw = .error e
  lookup (r : Registry) : r.resolve raw = .error e
  fault : e.fault.Refuses raw
  describe (settings : Settings) (read : String → FileContent) :
    (Command.describe raw).run settings read = .error (.unknownName e)
  form (settings : Settings) (read : String → FileContent) :
    (Command.form raw).run settings read = .error (.unknownName e)
  build (d : Definition) : d.ValidUpTo raw →
    ∃ defect, Graph.build d = .error defect ∧ (defect.fault d.name).Refuses raw
  decode : Decoder.taskType.ofJson (.str raw) = .error (.refused e)

namespace TaskType

variable {raw : String} {t : TaskType}

theorem accepted_name (t : TaskType) : Accepted t.name t := by
  have hparse := parse_eq_ok_iff.2 (rfl : t.name = t.name)
  have hlookup : Registry.standard.resolve t.name = .ok t := hparse
  refine ⟨hparse, hparse, hparse, fun _ => hparse, ?_, ?_, ?_, rfl, Text.Padding.apply_empty t.name,
    rfl, ?_⟩
  · intro settings read
    rw [Command.run, Command.answer, hlookup]
    rfl
  · intro settings read
    rw [Command.run, Command.answer, hlookup]
    rfl
  · exact fun d hd => Graph.exists_build_of_validUpTo hd
  · exact string_reads.ofText_compact (Json.isString_ofString t.name)

theorem accepted_iff : Accepted raw t ↔ parse raw = .ok t := by
  constructor
  · exact Accepted.parse
  · intro h
    obtain rfl := parse_eq_ok_iff.1 h
    exact accepted_name t

theorem refused_of_ofName? (h : ofName? raw = none) : Refused raw (.unknownTaskType raw) := by
  have hparse := parse_eq_error h
  have hlookup : Registry.standard.resolve raw = .error (.unknownTaskType raw) := hparse
  have hstring : ofString raw = .error (.unknownTaskType raw) := hparse
  refine ⟨hparse, hstring, hparse, fun _ => hparse, ⟨rfl, rfl, "", String.empty_append.symm⟩,
    ?_, ?_, ?_, ?_⟩
  · intro settings read
    rw [Command.run, Command.answer, hlookup]
    rfl
  · intro settings read
    rw [Command.run, Command.answer, hlookup]
    rfl
  · intro d hd
    obtain ⟨i, name, hbuild⟩ := Graph.build_unknownType h hd
    exact ⟨_, hbuild, rfl, rfl, _, rfl⟩
  · show (ofString raw).mapError _ = _
    rw [hstring]
    rfl

theorem accepted_or_refused (raw : String) : (∃ t, Accepted raw t) ∨ ∃ e, Refused raw e := by
  cases h : ofName? raw with
  | none => exact .inr ⟨_, refused_of_ofName? h⟩
  | some t =>
      obtain rfl := ofName?_eq_some_iff.1 h
      exact .inl ⟨t, accepted_name t⟩

/-! ### Names in JSON -/

theorem ofJson_eq_ok_iff {v : Json} :
    Decoder.taskType.ofJson v = .ok t ↔ ∃ s, v = .str s ∧ parse s = .ok t := by
  cases v with
  | str s =>
      show (ofString s).mapError _ = .ok t ↔ _
      rw [mapError_eq_ok_iff]
      constructor
      · intro h
        exact ⟨s, rfl, h⟩
      · rintro ⟨_, ⟨⟩, h⟩
        exact h
  | _ => exact iff_of_false nofun (by rintro ⟨_, ⟨⟩, _⟩)

theorem reads : Reads Decoder.taskType fun doc t => ∃ s, IsString doc s ∧ parse s = .ok t := by
  have h := Json.Decoder.refine_reads string_reads fun s => (ofString s).mapError Json.Mismatch.refused
  simp only [mapError_eq_ok_iff] at h
  exact h

end TaskType

/-- **One reader decides on names of task types, wherever they come in.**  A name is taken for one
task type everywhere and given back by it, or it is refused everywhere.  A JSON value or text is
read as a task type exactly if it is a string, whatever its characters are written as, that is such
a name. -/
theorem name_accepted_or_refused (raw text : String) (v : Json) (t : TaskType) :
    ((∃ ty, TaskType.Accepted raw ty) ∨ ∃ e, TaskType.Refused raw e) ∧
      (Decoder.taskType.ofJson v = .ok t ↔ ∃ s, v = .str s ∧ TaskType.Accepted s t) ∧
      (Decoder.taskType.ofText text = .ok t ↔
        ∃ doc : Doc, Token.Spelled doc.tokens text.toList ∧
          ∃ s, IsString doc s ∧ TaskType.Accepted s t) := by
  refine ⟨TaskType.accepted_or_refused raw, ?_, ?_⟩
  · simp only [TaskType.accepted_iff]
    exact TaskType.ofJson_eq_ok_iff
  · simp only [TaskType.accepted_iff]
    exact TaskType.reads.ofText_eq_ok_iff text t

/-- A task type that does not exist is refused by the construction of a graph. -/
theorem name_refused_foreign :
    ∃ defect, Graph.build { Graph.lateSource with
        tasks := [⟨"load", "SQL", false⟩, ⟨"report", "SEATUNNEL", true⟩, ⟨"extract", "DATAX", false⟩] } =
          .error defect ∧ (defect.fault "etl").Refuses "SEATUNNEL" := by
  obtain ⟨hname, -⟩ := name_accepted_or_refused "SEATUNNEL" "" .null .shell
  rcases hname with ⟨t, ht⟩ | ⟨e, he⟩
  · exact absurd ht.name_eq (by cases t <;> decide)
  · refine he.build _ ⟨⟨_, List.mem_cons_of_mem _ List.mem_cons_self, rfl⟩, .shell,
      Graph.lateSourceGraph, ?_⟩
    rfl

end TaskFlow
