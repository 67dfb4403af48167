import TaskFlow.TaskType.Basic

/-! # Faults as they are shown

Each part of the library has its own type of causes (`NameError`, `Registry.Defect`,
`Graph.Defect`, ...).  A `Fault` is what a user sees of a cause: its kind, a message and, where the
table of descriptors is at fault, the task type concerned. -/

namespace TaskFlow

/-- The kinds of fault that a user can tell apart. -/
inductive FaultKind
  | unknownTaskType
  | missingDescriptor
  | duplicateDescriptor
  | orphanSelectable
  | invalidWorkflow
  | invalidInput
  | parseFailure
deriving DecidableEq, Repr

/-- The name under which a kind of fault is shown. -/
def FaultKind.name : FaultKind → String
  | unknownTaskType => "UnknownTaskType"
  | missingDescriptor => "MissingDescriptor"
  | duplicateDescriptor => "DuplicateDescriptor"
  | orphanSelectable => "OrphanSelectable"
  | invalidWorkflow => "InvalidWorkflow"
  | invalidInput => "InvalidInput"
  | parseFailure => "ParseFailure"

/-- What is shown of a cause. -/
structure Fault where
  kind : FaultKind
  message : String
  /-- The task type whose table entry is at fault, if the table is. -/
  taskType : Option TaskType := none
deriving DecidableEq, Repr

/-- The kind and the message on one line. -/
def Fault.display (f : Fault) : String :=
  f.kind.name ++ ": " ++ f.message

end TaskFlow
