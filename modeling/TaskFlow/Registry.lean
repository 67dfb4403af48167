import TaskFlow.TaskType.Descriptor
import TaskFlow.TaskType.Resolve

/-! # The registry of task types

A registry is a table of descriptors and a list of the task types offered for selection.  It is
consistent when the table lists every task type once, in table order and with a label, and the
selection repeats nothing.  `Registry.check` names the first defect of a registry; the registry in
use passes (`check_standard`). -/

namespace TaskFlow

/-- Descriptors in table order, and the task types offered for selection. -/
structure Registry where
  descriptors : List Descriptor
  selectable : List TaskType
deriving DecidableEq, Repr

namespace Registry

/-- Why a registry is inconsistent. -/
inductive Defect
  /-- A second descriptor of the task type. -/
  | repeated (t : TaskType)
  /-- A descriptor without a label. -/
  | unnamed (t : TaskType)
  /-- A descriptor that is not at the position of its task type. -/
  | misplaced (t : TaskType)
  /-- No descriptor of the task type. -/
  | missing (t : TaskType)
  /-- A selectable task type that is listed twice or has no descriptor. -/
  | orphan (t : TaskType)
deriving DecidableEq, Repr

namespace Defect

/-- The task type concerned. -/
def taskType : Defect → TaskType
  | repeated t | unnamed t | misplaced t | missing t | orphan t => t

def kind : Defect → FaultKind
  | repeated _ => .duplicateDescriptor
  | unnamed _ | misplaced _ | missing _ => .missingDescriptor
  | orphan _ => .orphanSelectable

def message : Defect → String
  | repeated t => "task type '" ++ t.name ++ "' has more than one descriptor"
  | unnamed t => "task type '" ++ t.name ++ "' has an empty display alias"
  | misplaced t => "descriptor for task type '" ++ t.name ++ "' is out of order"
  | missing t => "missing descriptor for task type '" ++ t.name ++ "'"
  | orphan t => "selectable task type '" ++ t.name ++ "' is listed twice or has no descriptor"

def fault (e : Defect) : Fault :=
  { kind := e.kind, message := e.message, taskType := some e.taskType }

end Defect

/-! ### The consistency check -/

/-- Looks at each descriptor in turn: its task type is not among those `seen` before it, and its
label is not empty. -/
def checkDescriptors (seen : List TaskType) : List Descriptor → Except Defect Unit
  | [] => .ok ()
  | d :: ds =>
    if d.taskType ∈ seen then .error (.repeated d.taskType)
    else if d.label = "" then .error (.unnamed d.taskType)
    else checkDescriptors (d.taskType :: seen) ds

/-- Compares the task types with the descriptors position by position.  `present` holds the task
types that have a descriptor somewhere. -/
def checkPositions (present : List TaskType) : List TaskType → List Descriptor → Except Defect Unit
  | [], _ => .ok ()
  | t :: _, [] => .error (.missing t)
  | t :: ts, d :: ds =>
    if d.taskType = t then checkPositions present ts ds
    else if t ∈ present then .error (.misplaced t)
    else .error (.missing t)

/-- Looks at each selectable task type in turn: it has a descriptor and is not among those `listed`
before it. -/
def checkSelectable (present : List TaskType) (listed : List TaskType) :
    List TaskType → Except Defect Unit
  | [] => .ok ()
  | t :: ts =>
    if t ∈ present ∧ t ∉ listed then checkSelectable present (t :: listed) ts
    else .error (.orphan t)

/-- The task types that have a descriptor. -/
def present (r : Registry) : List TaskType :=
  r.descriptors.map (·.taskType)

/-- Names the first defect: of the descriptors one by one, then of their order, then of the
selection. -/
def check (r : Registry) : Except Defect Unit := do
  checkDescriptors [] r.descriptors
  checkPositions r.present TaskType.all r.descriptors
  checkSelectable r.present [] r.selectable

/-! ### Look-up -/

/-- The descriptor at the table position of the task type. -/
def describe? (r : Registry) (t : TaskType) : Option Descriptor :=
  r.descriptors[t.index]?

/-- Whether tasks of the type run as a stream, as the descriptor at its table position says. -/
def isStreaming? (r : Registry) (t : TaskType) : Option Bool :=
  (r.describe? t).map Descriptor.isStreaming

/-- The task type that a name from outside stands for, whatever the registry holds. -/
def resolve (_ : Registry) (raw : String) : Except NameError TaskType :=
  TaskType.resolve raw

theorem resolve_eq_ok_iff {r : Registry} {raw : String} {t : TaskType} :
    r.resolve raw = .ok t ↔ t.name = raw :=
  TaskType.resolve_eq_ok_iff

/-- The registry in use. -/
def standard : Registry where
  descriptors := TaskType.all.map TaskType.descriptor
  selectable := TaskType.selectable

theorem describe?_standard (t : TaskType) : standard.describe? t = some t.descriptor := by
  cases t <;> rfl

theorem isStreaming?_standard (t : TaskType) : standard.isStreaming? t = some t.isStreaming := by
  rw [isStreaming?, describe?_standard]
  rfl

theorem check_standard : standard.check = .ok () := by
  rfl

end Registry

end TaskFlow
