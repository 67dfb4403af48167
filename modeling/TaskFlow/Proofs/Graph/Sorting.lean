import TaskFlow.Graph.Sorting
import TaskFlow.Proofs.Graph.Greedy
import TaskFlow.Proofs.Graph.Tables

/-! # What the sorting of a graph keeps

For tables of neighbours that mirror each other, every state of a sorting satisfies
`Sorting.Invariant`: the counter of a task is the number of its predecessors that are not listed,
the ready tasks are those that are available, and the list is greedy.  Within a step, while the
successors of the listed task are released one after the other, the counters of those still due are
one too high (`Releasing`).

`step_invariant` and `run_invariant` carry the invariant through a step and a run.  A run of as many
steps as there are tasks ends with nothing ready (`ready_run`), so its list is exhausted
(`Invariant.exhausted`).  The task that is stuck then is the first that the list leaves out
(`Invariant.stuck_not_mem`, `Invariant.mem_of_lt_stuck`). -/

namespace TaskFlow

open Listing
open Positions (entry)

namespace Sorting

variable {n : Nat} {successors predecessors : List Positions} {s s' : Sorting} {p q : Nat}

/-- The task at `q` depends on the one at `p`. -/
def Edge (predecessors : List Positions) (p q : Nat) : Prop :=
  p ∈ entry predecessors q

/-- The number of predecessors that are not listed. -/
def openCount (predecessors : List Positions) (order : List Nat) (q : Nat) : Nat :=
  (entry predecessors q).toList.countP (· ∉ order)

/-- The counters while the successors `due` of the last listed task are still to be released. -/
structure Releasing (n : Nat) (predecessors : List Positions) (due : List Nat) (s : Sorting) :
    Prop where
  length_pending : s.pending.length = n
  pending : ∀ q < n,
    s.pending[q]? = some (openCount predecessors s.order q + if q ∈ due then 1 else 0)
  ready : ∀ q, q ∈ s.ready ↔ q < n ∧ q ∉ s.order ∧ s.pending[q]? = some 0

/-- What every state of a sorting satisfies. -/
structure Invariant (n : Nat) (predecessors : List Positions) (s : Sorting) : Prop
    extends Releasing n predecessors [] s where
  greedy : Greedy (Edge predecessors) n s.order

/-! ### Counting predecessors -/

theorem openCount_eq_zero {order : List Nat} :
    openCount predecessors order q = 0 ↔ ∀ p, Edge predecessors p q → p ∈ order := by
  simp [openCount, Edge, Positions.mem_toList]

theorem countP_append_singleton {order xs : List Nat} (hp : p ∉ order) (hxs : xs.Nodup) :
    xs.countP (· ∉ order) = xs.countP (· ∉ order ++ [p]) + if p ∈ xs then 1 else 0 := by
  induction xs with
  | nil => rfl
  | cons x xs ih =>
      obtain ⟨hx, hxs⟩ := List.nodup_cons.1 hxs
      have ih := ih hxs
      rw [List.countP_cons, List.countP_cons, ih]
      by_cases hpx : p = x
      · subst hpx
        simp [hp, hx]
      · have hxp : ¬ x = p := fun h => hpx h.symm
        have hmem : x ∈ order ++ [p] ↔ x ∈ order := by simp [hxp]
        simp only [hmem, List.mem_cons, hpx, false_or]
        omega

/-- Listing a task takes it off the counters of its successors. -/
theorem openCount_append_singleton {order : List Nat} (hp : p ∉ order) :
    openCount predecessors order q =
      openCount predecessors (order ++ [p]) q +
        if p ∈ (entry predecessors q).toList then 1 else 0 :=
  countP_append_singleton hp (Positions.nodup _)

/-! ### The start -/

theorem start_invariant (h : predecessors.length = n) :
    Invariant n predecessors (start predecessors) where
  length_pending := by rw [start, List.length_map, h]
  pending q hq := by
    have hq' : q < predecessors.length := by omega
    simp [start, openCount, entry, hq', Positions.size]
  ready q := by
    simp only [start, Positions.mem_ofPredicate, List.length_map, h, beq_iff_eq, List.not_mem_nil,
      not_false_eq_true, true_and]
  greedy := greedy_nil

/-! ### Releasing the successors of a task -/

@[simp]
theorem order_release (s : Sorting) (q : Nat) : (s.release q).order = s.order :=
  rfl

theorem pending_release (s : Sorting) (q v : Nat) :
    (s.release q).pending[v]? = if q = v then s.pending[v]?.map (· - 1) else s.pending[v]? := by
  simp only [release, List.getElem?_modify]
  by_cases h : q = v <;> simp [h]

theorem mem_ready_release {v : Nat} :
    v ∈ (s.release q).ready ↔
      v ∈ s.ready ∨ v = q ∧ (s.release q).pending[q]? = some 0 := by
  by_cases h : (s.release q).pending[q]? = some 0
  · have hready : (s.release q).ready = s.ready.insert q := if_pos h
    rw [hready, Positions.mem_insert, or_comm]
    simp [h]
  · have hready : (s.release q).ready = s.ready := if_neg h
    rw [hready]
    simp [h]

/-- A counter that is lowered is positive. -/
theorem Releasing.pending_pos {due : List Nat} (h : Releasing n predecessors (q :: due) s)
    (hq : q < n) : s.pending[q]? = some (openCount predecessors s.order q + 1) := by
  simpa using h.pending q hq

theorem Releasing.release {due : List Nat} (h : Releasing n predecessors (q :: due) s)
    (hq : q < n) (hdue : q ∉ due) (horder : q ∉ s.order) :
    Releasing n predecessors due (s.release q) where
  length_pending := by
    simp only [Sorting.release, List.length_modify, h.length_pending]
  pending v hv := by
    rw [pending_release, order_release]
    by_cases hqv : q = v
    · subst hqv
      simp [h.pending_pos hq, hdue]
    · have hvq : ¬ v = q := fun h => hqv h.symm
      rw [if_neg hqv, h.pending v hv]
      simp [hvq]
  ready v := by
    rw [mem_ready_release, h.ready, pending_release, pending_release, order_release, if_pos rfl]
    by_cases hqv : q = v
    · subst hqv
      simp [h.pending_pos hq, hq, horder]
    · have hvq : ¬ v = q := fun h => hqv h.symm
      simp [hqv, hvq]

theorem Releasing.foldl_release {due : List Nat} (h : Releasing n predecessors due s)
    (hdue : due.Nodup) (hlt : ∀ q ∈ due, q < n) (horder : ∀ q ∈ due, q ∉ s.order) :
    Releasing n predecessors [] (due.foldl Sorting.release s) ∧
      (due.foldl Sorting.release s).order = s.order := by
  induction due generalizing s with
  | nil => exact ⟨h, rfl⟩
  | cons q due ih =>
      obtain ⟨hq, hdue⟩ := List.nodup_cons.1 hdue
      have hrel := h.release (hlt q List.mem_cons_self) hq (horder q List.mem_cons_self)
      exact ih hrel hdue (fun v hv => hlt v (List.mem_cons_of_mem _ hv))
        (fun v hv => horder v (List.mem_cons_of_mem _ hv))

/-! ### One step -/

theorem Invariant.mem_ready (h : Invariant n predecessors s) :
    p ∈ s.ready ↔ Available (Edge predecessors) n s.order p := by
  rw [h.ready]
  constructor
  · rintro ⟨hp, hmem, hpend⟩
    rw [h.pending p hp] at hpend
    refine ⟨hp, hmem, openCount_eq_zero.1 ?_⟩
    simpa using hpend
  · intro hav
    refine ⟨hav.lt, hav.not_mem, ?_⟩
    rw [h.pending p hav.lt]
    simpa using openCount_eq_zero.2 hav.closed

theorem Invariant.least (h : Invariant n predecessors s) {rest : Positions}
    (hpop : s.ready.pop? = some (p, rest)) : Least (Edge predecessors) n s.order p := by
  have hlist := Positions.pop?_eq_some.1 hpop
  have hp : p ∈ s.ready := by
    rw [← Positions.mem_toList, hlist]
    exact List.mem_cons_self
  refine ⟨h.mem_ready.1 hp, fun q hq => ?_⟩
  have hq' := h.mem_ready.2 hq
  rw [← Positions.mem_toList, hlist] at hq'
  have hasc := s.ready.ascending
  rw [hlist] at hasc
  rcases List.mem_cons.1 hq' with rfl | hmem
  · exact Nat.le_refl _
  · exact Nat.le_of_lt ((List.pairwise_cons.1 hasc).1 q hmem)

theorem mem_of_pop {ready rest : Positions} (hpop : ready.pop? = some (p, rest)) :
    q ∈ rest ↔ q ∈ ready ∧ q ≠ p := by
  have hlist := Positions.pop?_eq_some.1 hpop
  have hasc := ready.ascending
  rw [hlist] at hasc
  rw [← Positions.mem_toList (s := ready), hlist, List.mem_cons]
  constructor
  · intro hq
    exact ⟨.inr hq, fun h => Nat.lt_irrefl p ((List.pairwise_cons.1 hasc).1 p (h ▸ hq))⟩
  · rintro ⟨rfl | hq, hne⟩
    · exact absurd rfl hne
    · exact hq

/-- The state behind the listing of a task, before its successors are released. -/
theorem Invariant.releasing (hm : Mirrored n successors predecessors)
    (h : Invariant n predecessors s) {rest : Positions} (hpop : s.ready.pop? = some (p, rest)) :
    Releasing n predecessors (entry successors p).toList
      { s with ready := rest, order := s.order ++ [p] } where
  length_pending := h.length_pending
  pending q hq := by
    have hp := (h.least hpop).not_mem
    have hiff : q ∈ (entry successors p).toList ↔ p ∈ (entry predecessors q).toList :=
      hm.mem_iff p q
    rw [h.pending q hq, openCount_append_singleton hp]
    simp [hiff]
  ready q := by
    rw [mem_of_pop hpop, h.ready]
    simp only [List.mem_append, List.mem_singleton]
    tauto

/-- The successors of the task that is listed next are tasks that are not listed. -/
theorem Invariant.due (hm : Mirrored n successors predecessors) (h : Invariant n predecessors s)
    {rest : Positions} (hpop : s.ready.pop? = some (p, rest)) :
    (∀ q ∈ (entry successors p).toList, q < n) ∧
      ∀ q ∈ (entry successors p).toList, q ∉ s.order ++ [p] := by
  have hleast := h.least hpop
  refine ⟨fun q hq => (hm.lt_of_mem_successors hq).2, fun q hq hmem => ?_⟩
  have he : Edge predecessors p q := (hm.mem_iff p q).1 hq
  rcases List.mem_append.1 hmem with hmem | hmem
  · exact hleast.not_mem (h.greedy.closed hmem he)
  · rw [List.mem_singleton.1 hmem] at he
    exact hleast.not_mem (hleast.closed p he)

theorem emit_invariant (hm : Mirrored n successors predecessors) (h : Invariant n predecessors s)
    {rest : Positions} (hpop : s.ready.pop? = some (p, rest)) :
    Invariant n predecessors (s.emit successors p rest) ∧
      (s.emit successors p rest).order = s.order ++ [p] := by
  obtain ⟨hlt, horder⟩ := h.due hm hpop
  have hgreedy := h.greedy.snoc (h.least hpop)
  obtain ⟨hrel, heq⟩ := (h.releasing hm hpop).foldl_release (Positions.nodup _) hlt horder
  refine ⟨{ toReleasing := hrel, greedy := ?_ }, heq⟩
  rw [emit, heq]
  exact hgreedy

theorem step_invariant (hm : Mirrored n successors predecessors) (h : Invariant n predecessors s)
    (hs : s.step successors = some s') :
    Invariant n predecessors s' ∧ ∃ p, s'.order = s.order ++ [p] := by
  obtain ⟨⟨p, rest⟩, hpop, rfl⟩ := Option.map_eq_some_iff.1 hs
  obtain ⟨hinv, heq⟩ := emit_invariant hm h hpop
  exact ⟨hinv, p, heq⟩

theorem step_eq_none : s.step successors = none ↔ s.ready = .empty := by
  rw [step, Option.map_eq_none_iff, Positions.pop?_eq_none]

/-! ### A whole run -/

theorem run_invariant (hm : Mirrored n successors predecessors) (h : Invariant n predecessors s)
    (k : Nat) : Invariant n predecessors (run successors k s) := by
  induction k generalizing s with
  | zero => exact h
  | succ k ih =>
      unfold run
      split
      · exact h
      · rename_i s' hs
        exact ih (step_invariant hm h hs).1

/-- Steps for all tasks that are not listed are enough. -/
theorem ready_run (hm : Mirrored n successors predecessors) (h : Invariant n predecessors s) {k : Nat}
    (hk : n ≤ s.order.length + k) : (run successors k s).ready = .empty := by
  induction k generalizing s with
  | zero =>
      refine Positions.eq_of_mem_iff fun p => iff_of_false (fun hp => ?_) (Positions.not_mem_empty p)
      have hav := h.mem_ready.1 hp
      have hperm := h.greedy.perm_of_length_eq (Nat.le_antisymm h.greedy.length_le hk)
      exact hav.not_mem (hperm.mem_iff.2 (List.mem_range.2 hav.lt))
  | succ k ih =>
      unfold run
      split
      · rename_i hs
        exact step_eq_none.1 hs
      · rename_i s' hs
        obtain ⟨hinv, p, hp⟩ := step_invariant hm h hs
        refine ih hinv ?_
        rw [hp, List.length_append, List.length_singleton]
        omega

theorem Invariant.exhausted (h : Invariant n predecessors s) (hr : s.ready = .empty) :
    Exhausted (Edge predecessors) n s.order := by
  intro p hp
  have hmem := h.mem_ready.2 hp
  rw [hr] at hmem
  exact Positions.not_mem_empty p hmem

/-- When nothing is ready, a counter is positive exactly if its task is missing from the list. -/
theorem Invariant.pending_pos_iff (h : Invariant n predecessors s) (hr : s.ready = .empty)
    (hp : p < s.pending.length) : 0 < s.pending[p] ↔ p ∉ s.order := by
  have hpn : p < n := by rwa [h.length_pending] at hp
  have hget : s.pending[p]? = some s.pending[p] := List.getElem?_eq_getElem hp
  rw [Nat.pos_iff_ne_zero]
  refine not_congr ?_
  constructor
  · intro hzero
    by_contra hmem
    have hready := (h.ready p).2 ⟨hpn, hmem, by rw [hget, hzero]⟩
    rw [hr] at hready
    exact Positions.not_mem_empty p hready
  · intro hmem
    have hcount := h.pending p hpn
    rw [openCount_eq_zero.2 fun q he => h.greedy.closed hmem he, hget] at hcount
    simpa using hcount

/-- When nothing is ready and a task is missing from the list, the first task with a pending
predecessor is one of the graph. -/
theorem Invariant.stuck_lt (h : Invariant n predecessors s) (hr : s.ready = .empty)
    (hlen : s.order.length < n) : s.stuck < n := by
  have hmissing : ∃ q < n, q ∉ s.order := by
    by_contra hall
    have hsub : List.range n ⊆ s.order := by
      intro q hq
      by_contra hmem
      exact hall ⟨q, List.mem_range.1 hq, hmem⟩
    have hle := (List.subperm_of_subset List.nodup_range hsub).length_le
    rw [List.length_range] at hle
    omega
  obtain ⟨q, hq, hmem⟩ := hmissing
  have hq' : q < s.pending.length := by rw [h.length_pending]; exact hq
  rw [stuck, ← h.length_pending, List.findIdx_lt_length]
  exact ⟨s.pending[q], List.getElem_mem hq', by simpa using (h.pending_pos_iff hr hq').2 hmem⟩

/-- The task that is stuck is missing from the list. -/
theorem Invariant.stuck_not_mem (h : Invariant n predecessors s) (hr : s.ready = .empty)
    (hlt : s.stuck < n) : s.stuck ∉ s.order := by
  have hlt' : s.pending.findIdx (0 < ·) < s.pending.length := by
    rw [h.length_pending]
    exact hlt
  have hpos := List.findIdx_getElem (w := hlt')
  exact (h.pending_pos_iff hr hlt').1 (by simpa using hpos)

/-- All tasks before the one that is stuck are listed. -/
theorem Invariant.mem_of_lt_stuck (h : Invariant n predecessors s) (hr : s.ready = .empty)
    (hq : q < s.stuck) : q ∈ s.order := by
  have hq' : q < s.pending.length := Nat.lt_of_lt_of_le hq List.findIdx_le_length
  have hnot := List.not_of_lt_findIdx hq
  by_contra hmem
  have hpos := (h.pending_pos_iff hr hq').2 hmem
  simp [hpos] at hnot

end Sorting

end TaskFlow
