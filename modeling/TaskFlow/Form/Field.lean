import TaskFlow.Text.Casing

/-! # Form fields

The fields that the form of any task shares, and the sections that follow them, one for each group
of task types.  Each has two spellings.  That in texts is given one by one (`FormField.label`,
`FormSection.name`), that in JSON documents follows from the words of the name (`FormField.key`,
`FormSection.key`). -/

namespace TaskFlow

/-- A field shared by the forms of all task types. -/
inductive FormField
  | name
  | runFlag
  | cache
  | description
  | taskPriority
  | workerGroup
  | environmentName
  | taskGroup
  | failed
  | resourceLimit
  | delayTime
  | timeoutAlarm
  | preTasks
deriving DecidableEq, Repr

namespace FormField

/-- All fields in the order of the form. -/
def all : List FormField :=
  [name, runFlag, cache, description, taskPriority, workerGroup, environmentName, taskGroup,
    failed, resourceLimit, delayTime, timeoutAlarm, preTasks]

/-- The spelling of a field in texts. -/
def label : FormField → String
  | name => "name"
  | runFlag => "run_flag"
  | cache => "cache"
  | description => "description"
  | taskPriority => "task_priority"
  | workerGroup => "worker_group"
  | environmentName => "environment_name"
  | taskGroup => "task_group"
  | failed => "failed"
  | resourceLimit => "resource_limit"
  | delayTime => "delay_time"
  | timeoutAlarm => "timeout_alarm"
  | preTasks => "pre_tasks"

/-- The name of a field, each word with a capital. -/
def pascalName : FormField → String
  | name => "Name"
  | runFlag => "RunFlag"
  | cache => "Cache"
  | description => "Description"
  | taskPriority => "TaskPriority"
  | workerGroup => "WorkerGroup"
  | environmentName => "EnvironmentName"
  | taskGroup => "TaskGroup"
  | failed => "Failed"
  | resourceLimit => "ResourceLimit"
  | delayTime => "DelayTime"
  | timeoutAlarm => "TimeoutAlarm"
  | preTasks => "PreTasks"

/-- The spelling of a field in JSON documents. -/
def key (f : FormField) : String :=
  Text.snakeCase f.pascalName

/-- Both spellings of a field agree. -/
theorem key_eq_label (f : FormField) : f.key = f.label := by
  cases f <;> decide

/-- The field makes sense for bounded jobs only. -/
def batchOnly : FormField → Bool
  | cache | failed | delayTime | timeoutAlarm | preTasks => true
  | _ => false

end FormField

/-- A group of fields for particular task types. -/
inductive FormSection
  | shell
  | childNode
  | procedure
  | sql
  | spark
  | flink
  | python
  | dependent
  | http
  | dataX
  | addax
  | conditions
  | switch
  | hiveCli
  | dataFactory
deriving DecidableEq, Repr

namespace FormSection

/-- The spelling of a section in texts. -/
def name : FormSection → String
  | shell => "shell"
  | childNode => "child_node"
  | procedure => "procedure"
  | sql => "sql"
  | spark => "spark"
  | flink => "flink"
  | python => "python"
  | dependent => "dependent"
  | http => "http"
  | dataX => "datax"
  | addax => "addax"
  | conditions => "conditions"
  | switch => "switch"
  | hiveCli => "hive_cli"
  | dataFactory => "data_factory"

/-- The name of a section, each word with a capital. -/
def pascalName : FormSection → String
  | shell => "Shell"
  | childNode => "ChildNode"
  | procedure => "Procedure"
  | sql => "Sql"
  | spark => "Spark"
  | flink => "Flink"
  | python => "Python"
  | dependent => "Dependent"
  | http => "Http"
  | dataX => "DataX"
  | addax => "Addax"
  | conditions => "Conditions"
  | switch => "Switch"
  | hiveCli => "HiveCli"
  | dataFactory => "DataFactory"

/-- The spelling of a section in JSON documents. -/
def key (s : FormSection) : String :=
  Text.snakeCase s.pascalName

/-- Both spellings of a section agree, but for one. -/
theorem key_eq_name (s : FormSection) : s.key = if s = dataX then "data_x" else s.name := by
  cases s <;> decide

end FormSection

end TaskFlow
