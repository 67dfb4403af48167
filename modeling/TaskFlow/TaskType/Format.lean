import TaskFlow.Form.Layout
import TaskFlow.Json.Basic

/-! # Task types and forms as JSON values -/

namespace TaskFlow

def TaskType.toJson (t : TaskType) : Json :=
  .str t.name

def Modality.toJson (m : Modality) : Json :=
  .str m.key

/-- A descriptor with all its fields. -/
def Descriptor.toJson (d : Descriptor) : Json :=
  .obj [("id", d.taskType.toJson), ("display_alias", .str d.label),
    ("helper_link_disabled", .bool d.helpDisabled), ("execution_modality", d.modality.toJson)]

/-- A form with all its fields; a link that is not there is null. -/
def FormLayout.toJson (f : FormLayout) : Json :=
  .obj [("task_type", f.taskType.toJson), ("alias", .str f.label),
    ("fields", .arr (f.fields.map fun x => .str x.key)), ("section", .str f.formSection.key),
    ("helper_link", f.helpLink.elim .null .str)]

end TaskFlow
