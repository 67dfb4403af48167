import TaskFlow.Text.Casing

/-! # Execution modalities

A task type runs as a bounded job or as a continuous stream.  The spelling of a modality in texts is
its canonical name; that in JSON documents follows from its name in letters (`Modality.key`), and is
the same (`Modality.key_eq_name`). -/

namespace TaskFlow

/-- How a task of some type is executed. -/
inductive Modality
  | stream
  | batch
deriving DecidableEq, Repr

namespace Modality

/-- The canonical name. -/
def name : Modality → String
  | stream => "STREAM"
  | batch => "BATCH"

/-- The name of a modality with a capital. -/
def pascalName : Modality → String
  | stream => "Stream"
  | batch => "Batch"

/-- The spelling of a modality in JSON documents. -/
def key (m : Modality) : String :=
  Text.upperCase m.pascalName

theorem key_eq_name (m : Modality) : m.key = m.name := by
  cases m <;> decide

/-- The modality with this canonical name. -/
def ofName? (raw : String) : Option Modality :=
  [stream, batch].find? fun m => m.name == raw

/-- Jobs are bounded unless something else is said. -/
instance : Inhabited Modality := ⟨batch⟩

theorem ofName?_eq_some_iff {raw : String} {m : Modality} :
    ofName? raw = some m ↔ m.name = raw := by
  constructor
  · intro h
    have hname := List.find?_some h
    exact eq_of_beq hname
  · rintro rfl
    cases m <;> rfl

end Modality

end TaskFlow
