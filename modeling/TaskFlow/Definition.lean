/-! # Workflow definitions

A workflow as it is stored: named tasks and the relations between them.  Nothing is checked here;
types of tasks are still names, and relations may speak of tasks that do not exist.  An `Edit`
changes a definition in one place. -/

namespace TaskFlow

/-- A task as it is declared. -/
structure Task where
  name : String
  /-- The name of the task type, as written. -/
  typeName : String
  skip : Bool := false
deriving DecidableEq, Repr

/-- A dependency of the target on the source.  Without a source the target is only mentioned. -/
structure Relation where
  source : Option String := none
  target : String
deriving DecidableEq, Repr

/-- A workflow as it is stored. -/
structure Definition where
  name : String
  tasks : List Task := []
  relations : List Relation := []
deriving DecidableEq, Repr

namespace Definition

/-- The definition has a relation from `source` to `target`. -/
def Depends (d : Definition) (source target : String) : Prop :=
  { source := some source, target := target } ∈ d.relations

instance (d : Definition) (source target : String) : Decidable (d.Depends source target) :=
  inferInstanceAs (Decidable (_ ∈ _))

/-! ### Edits -/

/-- A change to a definition. -/
inductive Edit
  | rename (name : String)
  /-- A new task, at a position or at the end; there is no position behind the end. -/
  | addTask (task : Task) (position : Option Nat)
  /-- All tasks of that name go. -/
  | removeTask (name : String)
  | setSkip (name : String) (value : Bool)
  | setType (name : String) (typeName : String)
  /-- A new relation at the end. -/
  | addRelation (relation : Relation)
  /-- All relations equal to this one go. -/
  | removeRelation (relation : Relation)
deriving DecidableEq, Repr

/-- Changes every task of that name. -/
def mapNamed (d : Definition) (name : String) (change : Task → Task) : Definition :=
  { d with tasks := d.tasks.map fun t => if t.name = name then change t else t }

/-- The definition after an edit. -/
def edit (d : Definition) : Edit → Definition
  | .rename name => { d with name := name }
  | .addTask task position =>
    let count := d.tasks.length
    { d with tasks := d.tasks.insertIdx (min (position.getD count) count) task }
  | .removeTask name => { d with tasks := d.tasks.filter fun t => t.name ≠ name }
  | .setSkip name value => d.mapNamed name fun t => { t with skip := value }
  | .setType name typeName => d.mapNamed name fun t => { t with typeName := typeName }
  | .addRelation relation => { d with relations := d.relations ++ [relation] }
  | .removeRelation relation => { d with relations := d.relations.filter (· ≠ relation) }

end Definition

end TaskFlow
