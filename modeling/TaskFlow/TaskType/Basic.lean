/-! # Task types

The sixteen kinds of task that a workflow can schedule.  Their order in the table (`TaskType.all`)
is the order of the enumeration: `getElem?_all_index` says that `index` is the position in the
table.  Names are exact: `ofName?_eq_some_iff` says that the reader of names accepts the canonical
names and nothing else. -/

namespace TaskFlow

/-- A kind of task. -/
inductive TaskType
  | shell
  | subProcess
  | procedure
  | sql
  | spark
  | flink
  | python
  | dependent
  | http
  | dataX
  | addax
  | conditions
  | switch
  | flinkStream
  | hiveCli
  | dataFactory
deriving DecidableEq, Repr

namespace TaskType

/-- All task types in table order. -/
def all : List TaskType :=
  [shell, subProcess, procedure, sql, spark, flink, python, dependent, http, dataX, addax,
    conditions, switch, flinkStream, hiveCli, dataFactory]

/-- The task types that are offered for selection: all but the last two of the table. -/
def selectable : List TaskType :=
  [shell, subProcess, procedure, sql, spark, flink, python, dependent, http, dataX, addax,
    conditions, switch, flinkStream]

/-- The canonical name. -/
def name : TaskType → String
  | shell => "SHELL"
  | subProcess => "SUB_PROCESS"
  | procedure => "PROCEDURE"
  | sql => "SQL"
  | spark => "SPARK"
  | flink => "FLINK"
  | python => "PYTHON"
  | dependent => "DEPENDENT"
  | http => "HTTP"
  | dataX => "DATAX"
  | addax => "ADDAX"
  | conditions => "CONDITIONS"
  | switch => "SWITCH"
  | flinkStream => "FLINK_STREAM"
  | hiveCli => "HIVECLI"
  | dataFactory => "DATA_FACTORY"

/-- The position in the table. -/
def index (t : TaskType) : Nat :=
  t.ctorIdx

/-- The task type is offered for selection. -/
def isSelectable (t : TaskType) : Bool :=
  selectable.contains t

/-- The task type with this canonical name.  Nothing is trimmed and letter case counts. -/
def ofName? (raw : String) : Option TaskType :=
  all.find? fun t => t.name == raw

/-- The task types of a list in table order, each once. -/
def inTableOrder (ts : List TaskType) : List TaskType :=
  all.filter fun t => ts.contains t

theorem getElem?_all_index (t : TaskType) : all[t.index]? = some t := by
  cases t <;> rfl

theorem mem_all (t : TaskType) : t ∈ all :=
  List.mem_of_getElem? (getElem?_all_index t)

theorem name_injective {s t : TaskType} (h : s.name = t.name) : s = t := by
  cases s <;> cases t <;> revert h <;> decide

theorem ofName?_eq_some_iff {raw : String} {t : TaskType} :
    ofName? raw = some t ↔ t.name = raw := by
  constructor
  · intro h
    have hname := List.find?_some h
    exact eq_of_beq hname
  · rintro rfl
    cases h : ofName? t.name with
    | none => exact absurd (List.find?_eq_none.1 h t (mem_all t)) (by simp)
    | some s =>
        have hname := List.find?_some h
        exact congrArg some (name_injective (eq_of_beq hname))

end TaskType

end TaskFlow
