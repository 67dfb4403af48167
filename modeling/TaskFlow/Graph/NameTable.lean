/-! # Tables of names

A finite table from names to positions.  What a table holds is said by `find?`: the empty table holds
nothing, and a name that is entered has its new position (`find?_insert`). -/

namespace TaskFlow

/-- Names with their positions. -/
structure NameTable where
  entries : List (String × Nat)
  /-- Each name has one position. -/
  distinct : (entries.map Prod.fst).Nodup
deriving DecidableEq, Repr

namespace NameTable

/-- No names. -/
def empty : NameTable :=
  ⟨[], List.nodup_nil⟩

/-- The position of a name. -/
def find? (t : NameTable) (name : String) : Option Nat :=
  t.entries.lookup name

@[simp]
theorem find?_empty (name : String) : empty.find? name = none :=
  rfl

/-- The table with the position of a name, in the place of the one that it had. -/
def insert (t : NameTable) (name : String) (p : Nat) : NameTable where
  entries := (name, p) :: t.entries.filter (·.1 ≠ name)
  distinct := by
    rw [List.map_cons, List.nodup_cons]
    refine ⟨?_, t.distinct.sublist (List.filter_sublist.map _)⟩
    simp

theorem lookup_filter_ne {entries : List (String × Nat)} {name name' : String} (h : name' ≠ name) :
    (entries.filter (·.1 ≠ name)).lookup name' = entries.lookup name' := by
  induction entries with
  | nil => rfl
  | cons e entries ih =>
    rw [List.lookup_cons, ← ih]
    by_cases hkey : e.1 = name
    · rw [List.filter_cons_of_neg (by simp [hkey]), beq_false_of_ne (hkey ▸ h)]
    · rw [List.filter_cons_of_pos (by simp [hkey]), List.lookup_cons]

theorem find?_insert (t : NameTable) (name : String) (p : Nat) (name' : String) :
    (t.insert name p).find? name' = if name' = name then some p else t.find? name' := by
  unfold find? insert
  rw [List.lookup_cons]
  by_cases h : name' = name
  · rw [if_pos h, h, beq_self_eq_true]
  · rw [if_neg h, beq_false_of_ne h, lookup_filter_ne h]

end NameTable

end TaskFlow
