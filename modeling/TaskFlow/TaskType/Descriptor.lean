import TaskFlow.TaskType.Modality
import TaskFlow.TaskType.Basic

/-! # Descriptors

What is known about a task type: the label under which it is shown, whether its help page is linked,
and how its tasks are executed. -/

namespace TaskFlow

/-- The entry of a task type in the table. -/
structure Descriptor where
  taskType : TaskType
  /-- The label shown to people; it may differ from the canonical name. -/
  label : String
  helpDisabled : Bool := false
  modality : Modality := .batch
deriving DecidableEq, Repr

namespace Descriptor

/-- The entry of a task type that runs as a bounded job and has a help page. -/
def plain (t : TaskType) (label : String) : Descriptor :=
  { taskType := t, label := label }

/-- The same entry with its help page suppressed. -/
def withoutHelp (d : Descriptor) : Descriptor :=
  { d with helpDisabled := true }

/-- The same entry for tasks that run as a stream. -/
def streaming (d : Descriptor) : Descriptor :=
  { d with modality := .stream }

def isStreaming (d : Descriptor) : Bool :=
  d.modality == .stream

end Descriptor

namespace TaskType

/-- The descriptor of a task type.  There is one for every value of the type. -/
def descriptor : TaskType → Descriptor
  | addax => .plain addax "Addax"
  | flinkStream => (Descriptor.plain flinkStream flinkStream.name).withoutHelp.streaming
  | hiveCli => (Descriptor.plain hiveCli hiveCli.name).withoutHelp
  | dataFactory => (Descriptor.plain dataFactory dataFactory.name).withoutHelp
  | t => .plain t t.name

/-- Tasks of this type run as a stream. -/
def isStreaming (t : TaskType) : Bool :=
  t.descriptor.isStreaming

@[simp]
theorem taskType_descriptor (t : TaskType) : t.descriptor.taskType = t := by
  cases t <;> rfl

end TaskType

end TaskFlow
