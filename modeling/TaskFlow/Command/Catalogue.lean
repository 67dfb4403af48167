import TaskFlow.Command.Rendering
import TaskFlow.Registry
import TaskFlow.TaskType.Format
import TaskFlow.Text.Padding

/-! # Answers about task types

The catalogue of task types, the entry of one of them, the result of the consistency check, and the
form of a task type. -/

namespace TaskFlow

/-! ### Entries of the catalogue -/

/-- The row of a task type in a JSON document. -/
def Descriptor.row (d : Descriptor) : Json :=
  .obj [("id", d.taskType.toJson), ("alias", .str d.label), ("modality", d.modality.toJson),
    ("helper_link_disabled", .bool d.helpDisabled), ("selectable", .bool d.taskType.isSelectable)]

/-- The line of a task type in the catalogue: two columns of fourteen characters and the
modality. -/
def Descriptor.line (d : Descriptor) : String :=
  let column : Text.Padding := { width := some 14 }
  column.apply d.taskType.name ++ " " ++ column.apply d.label ++ " " ++ d.modality.name

/-- The word for a truth value. -/
def truth (b : Bool) : String :=
  if b then "true" else "false"

/-- One task type, a line for each of its properties. -/
def Descriptor.sheet (d : Descriptor) : Rendering where
  lines := [
    "id:                   " ++ d.taskType.name,
    "alias:                " ++ d.label,
    "modality:             " ++ d.modality.name,
    "helper link disabled: " ++ truth d.helpDisabled,
    "selectable:           " ++ truth d.taskType.isSelectable]
  json := d.row

/-- The descriptors of a selection of task types, in its order. -/
def Registry.selected (r : Registry) : List Descriptor :=
  r.selectable.filterMap r.describe?

/-- The selectable task types, or all of the table. -/
def Registry.catalogue (r : Registry) (all : Bool) : Rendering :=
  let ds := if all then r.descriptors else r.selected
  { lines := ds.map Descriptor.line
    json := .arr (ds.map Descriptor.row) }

/-- That the registry is consistent, and how large it is. -/
def Registry.summary (r : Registry) : Rendering where
  lines := ["OK: " ++ toString r.descriptors.length ++ " descriptors, "
    ++ toString r.selectable.length ++ " selectable"]
  json := .obj [("descriptors", .nat r.descriptors.length), ("ok", .bool true),
    ("selectable", .nat r.selectable.length)]

/-! ### Forms -/

/-- The form of a task type, a line for each field. -/
def FormLayout.rendering (f : FormLayout) : Rendering where
  lines := (f.label ++ " (" ++ f.taskType.name ++ ")") ::
    f.fields.map (fun x => "  - " ++ x.label) ++
    ("  section: " ++ f.formSection.name) ::
    f.helpLink.toList.map (fun link => "  help: " ++ link)
  json := f.toJson

end TaskFlow
