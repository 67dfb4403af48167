import TaskFlow.Form.Field
import TaskFlow.TaskType.Descriptor
import TaskFlow.Text.Blank

/-! # Form layouts

The form of a task type: the shared fields (a stream has none that only make sense for bounded
jobs), the section of the type, and a link to its help page.  The address of a help page is the base
of the documentation followed by a path with the name of the type. -/

namespace TaskFlow

/-- Lower case for the letters of ASCII, and `-` in place of `_`. -/
def slugChar (c : Char) : Char :=
  if c = '_' then '-' else c.toLower

/-- The name of a task type as it stands in the address of its help page. -/
def TaskType.slug (t : TaskType) : String :=
  String.ofList (t.name.toList.map slugChar)

/-- The base of the documentation without slashes at its end. -/
def trimSlashes (base : String) : String :=
  String.ofList (Text.trimEnd (· == '/') base.toList)

/-- The address of the help page of a task type under a base, unless its help is suppressed. -/
def Descriptor.helpLink (d : Descriptor) (base : String) : Option String :=
  if d.helpDisabled then none
  else some (trimSlashes base ++ "/guide/task/" ++ d.taskType.slug ++ ".html")

/-- The section of a task type.  A stream shares the section of its engine. -/
def TaskType.formSection : TaskType → FormSection
  | shell => .shell
  | subProcess => .childNode
  | procedure => .procedure
  | sql => .sql
  | spark => .spark
  | flink => .flink
  | flinkStream => .flink
  | python => .python
  | dependent => .dependent
  | http => .http
  | dataX => .dataX
  | addax => .addax
  | conditions => .conditions
  | switch => .switch
  | hiveCli => .hiveCli
  | dataFactory => .dataFactory

/-- The form of a task type. -/
structure FormLayout where
  taskType : TaskType
  label : String
  fields : List FormField
  formSection : FormSection
  helpLink : Option String
deriving DecidableEq, Repr

/-- The form of a task type, with help under the given base. -/
def TaskType.form (t : TaskType) (base : String) : FormLayout :=
  let d := t.descriptor
  { taskType := t
    label := d.label
    fields := FormField.all.filter fun f => !(d.isStreaming && f.batchOnly)
    formSection := t.formSection
    helpLink := d.helpLink base }

end TaskFlow
