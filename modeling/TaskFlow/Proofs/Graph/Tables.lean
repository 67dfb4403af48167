import Mathlib.Data.List.Basic
import TaskFlow.Graph.Positions

/-! # Tables of neighbours

A graph keeps its edges twice, as a table of successors and as a table of predecessors.  Two such
tables are `Mirrored` when each says the same as the other; then every position in them belongs to
the graph (`Mirrored.lt_of_mem_successors`, `Mirrored.lt_of_mem_predecessors`).  An edge that is
entered in both leaves them mirrored (`Mirrored.insert`). -/

namespace TaskFlow

namespace Positions

variable {table : List Positions} {p q : Nat}

/-- The neighbours of a position in a table; none outside the table. -/
abbrev entry (table : List Positions) (p : Nat) : Positions :=
  table[p]?.getD .empty

theorem lt_of_mem_entry (h : q ∈ entry table p) : p < table.length := by
  by_contra hp
  rw [entry, List.getElem?_eq_none (Nat.le_of_not_lt hp)] at h
  exact not_mem_empty q h

theorem mem_entry_map_empty {α : Type} (xs : List α) :
    ¬ q ∈ entry (xs.map fun _ => Positions.empty) p := by
  intro h
  have hp := lt_of_mem_entry h
  rw [List.length_map] at hp
  simp [entry, hp] at h

theorem mem_entry_modify_insert {i j : Nat} (hi : i < table.length) :
    q ∈ entry (table.modify i (·.insert j)) p ↔ p = i ∧ q = j ∨ q ∈ entry table p := by
  by_cases hp : p = i
  · subst hp
    simp [entry, hi]
  · have hne : i ≠ p := fun h => hp h.symm
    simp [entry, hne, hp]

theorem nodup (s : Positions) : s.toList.Nodup :=
  s.ascending.imp Nat.ne_of_lt

/-- Sets with the same members are equal. -/
theorem eq_of_mem_iff {s t : Positions} (h : ∀ p, p ∈ s ↔ p ∈ t) : s = t := by
  refine Positions.ext (List.Perm.eq_of_pairwise ?_ s.ascending t.ascending ?_)
  · intro a b _ _ hab hba
    exact absurd (Nat.lt_trans hab hba) (Nat.lt_irrefl a)
  · exact (List.perm_ext_iff_of_nodup s.nodup t.nodup).2 h

end Positions

open Positions (entry)

variable {n : Nat} {successors predecessors : List Positions} {p q : Nat}

/-- Two tables over `n` positions, the one with the edges of the other turned round. -/
structure Mirrored (n : Nat) (successors predecessors : List Positions) : Prop where
  length_successors : successors.length = n
  length_predecessors : predecessors.length = n
  mem_iff : ∀ p q, q ∈ entry successors p ↔ p ∈ entry predecessors q

namespace Mirrored

theorem lt_of_mem_predecessors (h : Mirrored n successors predecessors)
    (he : p ∈ entry predecessors q) : p < n ∧ q < n := by
  refine ⟨?_, ?_⟩
  · rw [← h.length_successors]
    exact Positions.lt_of_mem_entry ((h.mem_iff p q).2 he)
  · rw [← h.length_predecessors]
    exact Positions.lt_of_mem_entry he

theorem lt_of_mem_successors (h : Mirrored n successors predecessors)
    (he : q ∈ entry successors p) : p < n ∧ q < n :=
  h.lt_of_mem_predecessors ((h.mem_iff p q).1 he)

theorem empty {α : Type} (xs : List α) :
    Mirrored xs.length (xs.map fun _ => .empty) (xs.map fun _ => .empty) where
  length_successors := List.length_map _
  length_predecessors := List.length_map _
  mem_iff _ _ :=
    iff_of_false (Positions.mem_entry_map_empty xs) (Positions.mem_entry_map_empty xs)

theorem insert (h : Mirrored n successors predecessors) {i j : Nat} (hi : i < n) (hj : j < n) :
    Mirrored n (successors.modify i (·.insert j)) (predecessors.modify j (·.insert i)) where
  length_successors := by rw [List.length_modify, h.length_successors]
  length_predecessors := by rw [List.length_modify, h.length_predecessors]
  mem_iff p q := by
    rw [Positions.mem_entry_modify_insert (by rw [h.length_successors]; exact hi),
      Positions.mem_entry_modify_insert (by rw [h.length_predecessors]; exact hj), h.mem_iff p q,
      and_comm]

end Mirrored

end TaskFlow
