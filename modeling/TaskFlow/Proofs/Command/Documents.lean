import TaskFlow.Command.Catalogue
import TaskFlow.Command.Report
import TaskFlow.Proofs.Json.Members
import TaskFlow.Proofs.Json.Reading

/-! # What documents tell

The JSON documents of the commands are objects, or lists of objects, with fixed keys.  Of each kind
it is said here which keys it has, in which order, and what stands under each of them.  There is one
such document (`Descriptor.toldBy_iff`, `FormLayout.toldBy_iff`, `Report.toldBy_iff`), and it is
sound: no key is given twice, and numbers that are not too large can be read back. -/

namespace TaskFlow

variable {v : Json} {fits : Prop}

/-! ### Entries of the catalogue -/

/-- The document tells the entry of a task type. -/
structure Descriptor.ToldBy (d : Descriptor) (v : Json) : Prop where
  keys : v.keys = ["id", "alias", "modality", "helper_link_disabled", "selectable"]
  taskType : v.get? "id" = some (.str d.taskType.name)
  label : v.get? "alias" = some (.str d.label)
  modality : v.get? "modality" = some (.str d.modality.name)
  helpDisabled : v.get? "helper_link_disabled" = some (.bool d.helpDisabled)
  selectable : v.get? "selectable" = some (.bool d.taskType.isSelectable)

namespace Descriptor

variable {d : Descriptor}

theorem nodup_keys_row : d.row.keys.Nodup :=
  (by decide : ["id", "alias", "modality", "helper_link_disabled", "selectable"].Nodup)

theorem toldBy_iff : d.ToldBy v ↔ v = d.row := by
  rw [row, Json.eq_obj_iff (List.cons_ne_nil _ _) nodup_keys_row, Modality.toJson,
    Modality.key_eq_name]
  simp only [List.forall_mem_cons]
  constructor
  · rintro ⟨hkeys, htype, hlabel, hmodality, hhelp, hselectable⟩
    exact ⟨hkeys, htype, hlabel, hmodality, hhelp, hselectable, List.forall_mem_nil _⟩
  · rintro ⟨hkeys, htype, hlabel, hmodality, hhelp, hselectable, -⟩
    exact ⟨hkeys, htype, hlabel, hmodality, hhelp, hselectable⟩

theorem forall₂_toldBy_iff {ds : List Descriptor} {rows : List Json} :
    List.Forall₂ ToldBy ds rows ↔ rows = ds.map row := by
  induction ds generalizing rows with
  | nil => exact List.forall₂_nil_left_iff
  | cons d ds ih =>
      rw [List.forall₂_cons_left_iff, List.map_cons]
      constructor
      · rintro ⟨v, rows, hv, hrows, rfl⟩
        rw [toldBy_iff.1 hv, ih.1 hrows]
      · rintro rfl
        exact ⟨_, _, toldBy_iff.2 rfl, ih.2 rfl, rfl⟩

theorem sound_row : d.row.Sound fits := by
  refine .obj nodup_keys_row ?_
  simp only [List.forall_mem_cons]
  exact ⟨.str _, .str _, .str _, .bool _, .bool _, List.forall_mem_nil _⟩

end Descriptor

/-! ### The consistency check -/

/-- The document tells that the registry is consistent, and how large it is. -/
structure Registry.ToldBy (r : Registry) (v : Json) : Prop where
  keys : v.keys = ["descriptors", "ok", "selectable"]
  descriptors : v.get? "descriptors" = some (.num (.ofNat r.descriptors.length))
  consistent : v.get? "ok" = some (.bool true)
  selectable : v.get? "selectable" = some (.num (.ofNat r.selectable.length))

namespace Registry

variable {r : Registry}

theorem nodup_keys_summary : r.summary.json.keys.Nodup :=
  (by decide : ["descriptors", "ok", "selectable"].Nodup)

theorem toldBy_iff : r.ToldBy v ↔ v = r.summary.json := by
  rw [summary, Json.eq_obj_iff (List.cons_ne_nil _ _) nodup_keys_summary]
  simp only [List.forall_mem_cons]
  constructor
  · rintro ⟨hkeys, hdescriptors, hok, hselectable⟩
    exact ⟨hkeys, hdescriptors, hok, hselectable, List.forall_mem_nil _⟩
  · rintro ⟨hkeys, hdescriptors, hok, hselectable, -⟩
    exact ⟨hkeys, hdescriptors, hok, hselectable⟩

theorem sound_summary (hdescriptors : r.descriptors.length ≤ Json.Numeral.maxSignificand)
    (hselectable : r.selectable.length ≤ Json.Numeral.maxSignificand) :
    r.summary.json.Sound fits := by
  refine .obj nodup_keys_summary ?_
  simp only [List.forall_mem_cons]
  exact ⟨.nat fun _ => hdescriptors, .bool _, .nat fun _ => hselectable, List.forall_mem_nil _⟩

end Registry

/-! ### Forms -/

/-- The document tells the form of a task type. -/
structure FormLayout.ToldBy (f : FormLayout) (v : Json) : Prop where
  keys : v.keys = ["task_type", "alias", "fields", "section", "helper_link"]
  taskType : v.get? "task_type" = some (.str f.taskType.name)
  label : v.get? "alias" = some (.str f.label)
  fields : v.get? "fields" = some (.arr (f.fields.map fun x => .str x.label))
  formSection : v.get? "section" =
    some (.str (if f.formSection = .dataX then "data_x" else f.formSection.name))
  helpLink : v.get? "helper_link" = some (f.helpLink.elim .null .str)

namespace FormLayout

variable {f : FormLayout}

theorem nodup_keys_toJson : f.toJson.keys.Nodup :=
  (by decide : ["task_type", "alias", "fields", "section", "helper_link"].Nodup)

theorem toldBy_iff : f.ToldBy v ↔ v = f.toJson := by
  rw [toJson, Json.eq_obj_iff (List.cons_ne_nil _ _) nodup_keys_toJson]
  simp only [List.forall_mem_cons, FormField.key_eq_label, FormSection.key_eq_name]
  constructor
  · rintro ⟨hkeys, htype, hlabel, hfields, hsection, hlink⟩
    exact ⟨hkeys, htype, hlabel, hfields, hsection, hlink, List.forall_mem_nil _⟩
  · rintro ⟨hkeys, htype, hlabel, hfields, hsection, hlink, -⟩
    exact ⟨hkeys, htype, hlabel, hfields, hsection, hlink⟩

theorem sound_toJson : f.toJson.Sound fits := by
  refine .obj nodup_keys_toJson ?_
  simp only [List.forall_mem_cons]
  refine ⟨.str _, .str _, .strings _ _, .str _, ?_, List.forall_mem_nil _⟩
  cases f.helpLink with
  | none => exact .null
  | some link => exact .str link

end FormLayout

/-! ### Reports on workflows -/

/-- The document tells the report on a workflow. -/
structure Report.ToldBy (r : Report) (v : Json) : Prop where
  keys : v.keys = ["workflow", "tasks", "roots", "order", "streaming", "skipped"]
  workflow : v.get? "workflow" = some (.str r.workflow)
  tasks : v.get? "tasks" = some (.num (.ofNat r.tasks))
  roots : v.get? "roots" = some (.arr (r.roots.map .str))
  order : v.get? "order" = some (.arr (r.order.map .str))
  streaming : v.get? "streaming" = some (.arr (r.streaming.map .str))
  skipped : v.get? "skipped" = some (.arr (r.skipped.map .str))

namespace Report

variable {r : Report}

theorem nodup_keys_toJson : r.toJson.keys.Nodup :=
  (by decide : ["workflow", "tasks", "roots", "order", "streaming", "skipped"].Nodup)

theorem toldBy_iff : r.ToldBy v ↔ v = r.toJson := by
  rw [toJson, Json.eq_obj_iff (List.cons_ne_nil _ _) nodup_keys_toJson]
  simp only [List.forall_mem_cons]
  constructor
  · rintro ⟨hkeys, hworkflow, htasks, hroots, horder, hstreaming, hskipped⟩
    exact ⟨hkeys, hworkflow, htasks, hroots, horder, hstreaming, hskipped, List.forall_mem_nil _⟩
  · rintro ⟨hkeys, hworkflow, htasks, hroots, horder, hstreaming, hskipped, -⟩
    exact ⟨hkeys, hworkflow, htasks, hroots, horder, hstreaming, hskipped⟩

theorem sound_toJson (h : fits → r.tasks ≤ Json.Numeral.maxSignificand) :
    r.toJson.Sound fits := by
  refine .obj nodup_keys_toJson ?_
  simp only [List.forall_mem_cons]
  exact ⟨.str _, .nat h, .strings _ _, .strings _ _, .strings _ _, .strings _ _,
    List.forall_mem_nil _⟩

end Report

end TaskFlow
