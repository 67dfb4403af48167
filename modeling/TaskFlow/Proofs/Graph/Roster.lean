import Mathlib.Data.List.Induction
import Mathlib.Data.List.Nodup
import TaskFlow.Graph.Basic

/-! # Tasks and the table of their names

The tasks of a roster stand in a list, and its table of names says where they are.  The two belong
together (`Roster.Indexed`) as long as every task that is added has a name of its own
(`Indexed.snoc`), which is so exactly if the names are distinct (`indexed_ofNodes`,
`Indexed.nodup`). -/

namespace TaskFlow

namespace Roster

variable {s : Roster} {n : Node} {nodes : List Node} {name a b : String} {p : Nat}

theorem position?_empty : empty.position? name = none :=
  NameTable.find?_empty name

/-- A task that is added is found by its name, and hides a task that had this name before. -/
theorem position?_snoc :
    (s.snoc n).position? name = if name = n.name then some s.nodes.length else s.position? name :=
  s.names.find?_insert n.name s.nodes.length name

/-- The table of names has the position of each task, and nothing else. -/
def Indexed (s : Roster) : Prop :=
  ∀ name p, s.position? name = some p ↔ ∃ n, s.nodes[p]? = some n ∧ n.name = name

/-! ### What the table says -/

theorem Indexed.position?_eq_none_iff (hs : s.Indexed) :
    s.position? name = none ↔ ∀ n ∈ s.nodes, n.name ≠ name := by
  rw [Option.eq_none_iff_forall_ne_some]
  constructor
  · rintro h n hn rfl
    obtain ⟨p, hp⟩ := List.mem_iff_getElem?.1 hn
    exact h p ((hs _ _).2 ⟨n, hp, rfl⟩)
  · intro h p hp
    obtain ⟨n, hn, hname⟩ := (hs _ _).1 hp
    exact h n (List.mem_of_getElem? hn) hname

theorem Indexed.lt_of_position? (hs : s.Indexed) (h : s.position? name = some p) :
    p < s.nodes.length := by
  obtain ⟨n, hn, -⟩ := (hs _ _).1 h
  exact (List.getElem?_eq_some_iff.1 hn).1

theorem Indexed.position?_inj (hs : s.Indexed) (ha : s.position? a = some p)
    (hb : s.position? b = some p) : a = b := by
  obtain ⟨n, hn, rfl⟩ := (hs _ _).1 ha
  obtain ⟨m, hm, rfl⟩ := (hs _ _).1 hb
  rw [hn] at hm
  cases hm
  rfl

/-- Each task is found by its name. -/
theorem Indexed.position?_eq (hs : s.Indexed) (hn : s.nodes[p]? = some n) :
    s.position? n.name = some p :=
  (hs _ _).2 ⟨n, hn, rfl⟩

/-- A name has one position, hence one task. -/
theorem Indexed.nodup (hs : s.Indexed) : (s.nodes.map Node.name).Nodup := by
  refine List.nodup_iff_injective_getElem.2 fun i j hij => Fin.ext ?_
  have hpos : ∀ i : Fin (s.nodes.map Node.name).length,
      s.position? (s.nodes.map Node.name)[i] = some i.1 := by
    intro i
    have hi : i.1 < s.nodes.length := by simpa using i.2
    simpa using hs.position?_eq (List.getElem?_eq_getElem hi)
  have hi := hpos i
  rw [show (s.nodes.map Node.name)[i] = (s.nodes.map Node.name)[j] from hij, hpos j] at hi
  exact (Option.some.inj hi).symm

/-! ### Adding tasks -/

theorem indexed_empty : empty.Indexed := by
  intro name p
  rw [position?_empty]
  simp [empty]

/-- A task with a name of its own keeps the list and the table together. -/
theorem Indexed.snoc (hs : s.Indexed) (hfresh : s.position? n.name = none) :
    (s.snoc n).Indexed := by
  intro name p
  rw [position?_snoc, Roster.snoc]
  by_cases hname : name = n.name
  · subst hname
    rw [if_pos rfl, Option.some.injEq]
    constructor
    · rintro rfl
      exact ⟨n, by simp, rfl⟩
    · rintro ⟨m, hm, hmn⟩
      rcases Nat.lt_or_ge p s.nodes.length with hp | hp
      · rw [List.getElem?_append_left hp] at hm
        exact absurd hmn (hs.position?_eq_none_iff.1 hfresh m (List.mem_of_getElem? hm))
      · have hlt := (List.getElem?_eq_some_iff.1 hm).1
        rw [List.length_append, List.length_singleton] at hlt
        omega
  · rw [if_neg hname, hs name p]
    refine exists_congr fun m => and_congr_left fun hmn => ?_
    rcases Nat.lt_or_ge p s.nodes.length with hp | hp
    · rw [List.getElem?_append_left hp]
    · rw [List.getElem?_append_right hp, List.getElem?_eq_none hp]
      refine iff_of_false nofun fun hm => hname ?_
      rw [← hmn, List.mem_singleton.1 (List.mem_of_getElem? hm)]

/-- The roster of some tasks, added one by one. -/
def ofNodes (nodes : List Node) : Roster :=
  nodes.foldl snoc empty

theorem ofNodes_snoc : ofNodes (nodes ++ [n]) = (ofNodes nodes).snoc n := by
  rw [ofNodes, List.foldl_append]
  rfl

@[simp]
theorem nodes_ofNodes (nodes : List Node) : (ofNodes nodes).nodes = nodes := by
  induction nodes using List.reverseRecOn with
  | nil => rfl
  | append_singleton nodes n ih => rw [ofNodes_snoc, snoc, ih]

/-- Tasks with different names are found by their names. -/
theorem indexed_ofNodes (hnd : (nodes.map Node.name).Nodup) : (ofNodes nodes).Indexed := by
  induction nodes using List.reverseRecOn with
  | nil => exact indexed_empty
  | append_singleton nodes n ih =>
      rw [List.map_append, List.nodup_append] at hnd
      obtain ⟨hnodes, -, hfresh⟩ := hnd
      rw [ofNodes_snoc]
      refine (ih hnodes).snoc ((ih hnodes).position?_eq_none_iff.2 fun m hm => ?_)
      rw [nodes_ofNodes] at hm
      exact hfresh _ (List.mem_map_of_mem hm) _ (List.mem_singleton_self _)

end Roster

end TaskFlow
