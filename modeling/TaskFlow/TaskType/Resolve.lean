import TaskFlow.Fault
import TaskFlow.TaskType.Modality

/-! # Names from outside

Names of task types and modalities that arrive from outside are resolved here and nowhere else: an
unknown name is refused with the name as it was written, and never replaced by a default.  What is
resolved is the canonical name (`TaskType.parse_eq_ok_iff`, `Modality.resolve_eq_ok_iff`).  There are
several ways in for the name of a task type, and all of them ask `TaskType.parse`. -/

namespace TaskFlow

/-- Why a name from outside is refused. -/
inductive NameError
  | unknownTaskType (raw : String)
  | unknownModality (raw : String)
deriving DecidableEq, Repr

namespace NameError

/-- What is wrong, with the refused name between single quotes. -/
def message : NameError → String
  | unknownTaskType raw => "unknown task type '" ++ raw ++ "'"
  | unknownModality raw => "unknown execution modality '" ++ raw ++ "'"

def kind : NameError → FaultKind
  | unknownTaskType _ => .unknownTaskType
  | unknownModality _ => .parseFailure

def fault (e : NameError) : Fault :=
  { kind := e.kind, message := e.message }

end NameError

/-- The task type with this canonical name. -/
def TaskType.parse (raw : String) : Except NameError TaskType :=
  match ofName? raw with
  | some t => .ok t
  | none => .error (.unknownTaskType raw)

/-- The task type that a stored string is turned into. -/
def TaskType.ofString (raw : String) : Except NameError TaskType :=
  parse raw

/-- The task type that a name from outside stands for. -/
def TaskType.resolve (raw : String) : Except NameError TaskType :=
  parse raw

/-- The modality that a name from outside stands for. -/
def Modality.resolve (raw : String) : Except NameError Modality :=
  match ofName? raw with
  | some m => .ok m
  | none => .error (.unknownModality raw)

theorem TaskType.parse_eq_ok_iff {raw : String} {t : TaskType} :
    parse raw = .ok t ↔ t.name = raw := by
  rw [← ofName?_eq_some_iff, parse]
  cases ofName? raw with
  | none => simp
  | some t' => simp

theorem TaskType.parse_eq_error {raw : String} (h : ofName? raw = none) :
    parse raw = .error (.unknownTaskType raw) := by
  rw [parse, h]

theorem TaskType.resolve_eq_ok_iff {raw : String} {t : TaskType} :
    resolve raw = .ok t ↔ t.name = raw :=
  parse_eq_ok_iff

theorem Modality.resolve_eq_ok_iff {raw : String} {m : Modality} :
    resolve raw = .ok m ↔ m.name = raw := by
  rw [← ofName?_eq_some_iff, resolve]
  cases ofName? raw with
  | none => simp
  | some m' => simp

end TaskFlow
