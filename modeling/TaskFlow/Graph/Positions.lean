/-! # Sets of positions

A finite set of positions in a list, kept as an ascending list without repetition.  What a set holds
is said by `∈`: `mem_insert` and `mem_ofPredicate` say it of the two ways to build one, and `pop?`
takes the least position out (`pop?_eq_some`). -/

namespace TaskFlow

/-- A finite set of positions. -/
@[ext]
structure Positions where
  /-- The positions from the least to the greatest, each once. -/
  toList : List Nat
  ascending : toList.Pairwise (· < ·)

namespace Positions

instance : DecidableEq Positions := fun s t =>
  decidable_of_iff (s.toList = t.toList) Positions.ext_iff.symm

instance : Repr Positions where
  reprPrec s n := reprPrec s.toList n

instance : Membership Nat Positions where
  mem s p := p ∈ s.toList

theorem mem_toList {s : Positions} {p : Nat} : p ∈ s.toList ↔ p ∈ s :=
  Iff.rfl

instance (s : Positions) (p : Nat) : Decidable (p ∈ s) :=
  decidable_of_iff (p ∈ s.toList) mem_toList

/-- No positions. -/
def empty : Positions :=
  ⟨[], List.Pairwise.nil⟩

/-- The number of positions. -/
def size (s : Positions) : Nat :=
  s.toList.length

def isEmpty (s : Positions) : Bool :=
  s.toList.isEmpty

@[simp]
theorem not_mem_empty (p : Nat) : p ∉ empty :=
  List.not_mem_nil

/-! ### Insertion -/

/-- Inserts into an ascending list, unless the position is there already. -/
def insertAscending (p : Nat) : List Nat → List Nat
  | [] => [p]
  | q :: qs => if p < q then p :: q :: qs else if p = q then q :: qs else q :: insertAscending p qs

theorem mem_insertAscending {p q : Nat} {qs : List Nat} :
    q ∈ insertAscending p qs ↔ q = p ∨ q ∈ qs := by
  induction qs with
  | nil => simp [insertAscending]
  | cons r rs ih => grind [insertAscending]

theorem pairwise_insertAscending {p : Nat} {qs : List Nat} (h : qs.Pairwise (· < ·)) :
    (insertAscending p qs).Pairwise (· < ·) := by
  induction qs with
  | nil => simp [insertAscending]
  | cons r rs ih =>
    rw [List.pairwise_cons] at h
    have hrest := ih h.2
    unfold insertAscending
    split
    · rename_i hlt
      refine List.pairwise_cons.2 ⟨fun q hq => ?_, List.pairwise_cons.2 h⟩
      rcases List.mem_cons.1 hq with rfl | hq
      · exact hlt
      · exact Nat.lt_trans hlt (h.1 q hq)
    · split
      · exact List.pairwise_cons.2 h
      · refine List.pairwise_cons.2 ⟨fun q hq => ?_, hrest⟩
        rcases mem_insertAscending.1 hq with rfl | hq
        · omega
        · exact h.1 q hq

/-- The set with one more position. -/
def insert (s : Positions) (p : Nat) : Positions :=
  ⟨insertAscending p s.toList, pairwise_insertAscending s.ascending⟩

@[simp]
theorem mem_insert {s : Positions} {p q : Nat} : q ∈ s.insert p ↔ q = p ∨ q ∈ s :=
  mem_insertAscending

/-! ### Selection and removal -/

/-- The positions below `n` that satisfy `keep`. -/
def ofPredicate (n : Nat) (keep : Nat → Bool) : Positions :=
  ⟨(List.range n).filter keep, List.Pairwise.filter _ List.pairwise_lt_range⟩

@[simp]
theorem mem_ofPredicate {n p : Nat} {keep : Nat → Bool} :
    p ∈ ofPredicate n keep ↔ p < n ∧ keep p = true := by
  rw [← mem_toList]
  simp [ofPredicate]

/-- The least position and the set without it. -/
def pop? (s : Positions) : Option (Nat × Positions) :=
  match s with
  | ⟨[], _⟩ => none
  | ⟨p :: ps, h⟩ => some (p, ⟨ps, (List.pairwise_cons.1 h).2⟩)

theorem pop?_eq_none {s : Positions} : s.pop? = none ↔ s = empty := by
  obtain ⟨_ | ⟨p, ps⟩, h⟩ := s <;> simp [pop?, empty]

theorem pop?_eq_some {s rest : Positions} {p : Nat} :
    s.pop? = some (p, rest) ↔ s.toList = p :: rest.toList := by
  obtain ⟨_ | ⟨q, qs⟩, h⟩ := s <;> simp [pop?, Positions.ext_iff]

end Positions

end TaskFlow
