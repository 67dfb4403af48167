import Mathlib.Data.Fintype.EquivFin
import Mathlib.Data.Fintype.Sets
import Mathlib.Data.List.Nodup
import Mathlib.Logic.Relation
import Mathlib.Order.WellFounded

/-! # Listing positions greedily

A finite graph on the positions below `n` is listed one position at a time.  A position is
`Available` when it is not listed yet and all its predecessors are; a list is `Greedy` when each of
its positions is the least available one after those before it, and `Exhausted` when none is
available after it.

A greedy list that is exhausted leaves out the positions that a cycle leads to and no others
(`mem_iff_no_cycle`), so it is complete exactly on an acyclic graph (`length_eq_iff_acyclic`).  A
complete one is a `Schedule`, and no schedule comes before it in the lexicographic order
(`Greedy.schedule`, `Greedy.lexLe_schedule`).  It stays greedy when edges are added of which it is a
schedule too (`Greedy.of_schedule`).  Of two greedy lists one begins with the other
(`Greedy.prefix_or_prefix`), so there is no other that is as long as an exhausted one. -/

namespace TaskFlow.Listing

variable {edge : Nat → Nat → Prop} {n : Nat} {order : List Nat}

/-- The position may be listed next. -/
structure Available (edge : Nat → Nat → Prop) (n : Nat) (listed : List Nat) (p : Nat) : Prop where
  lt : p < n
  not_mem : p ∉ listed
  closed : ∀ q, edge q p → q ∈ listed

/-- The position is the least that may be listed next. -/
structure Least (edge : Nat → Nat → Prop) (n : Nat) (listed : List Nat) (p : Nat) : Prop
    extends Available edge n listed p where
  le : ∀ q, Available edge n listed q → p ≤ q

/-- Each position is the least that may be listed after those before it. -/
def Greedy (edge : Nat → Nat → Prop) (n : Nat) (order : List Nat) : Prop :=
  ∀ listed p rest, order = listed ++ p :: rest → Least edge n listed p

/-- Nothing more may be listed. -/
def Exhausted (edge : Nat → Nat → Prop) (n : Nat) (order : List Nat) : Prop :=
  ∀ p, ¬ Available edge n order p

/-- All positions below `n`, each after its predecessors. -/
structure Schedule (edge : Nat → Nat → Prop) (n : Nat) (order : List Nat) : Prop where
  perm : order.Perm (List.range n)
  before : ∀ p q, edge p q → [p, q].Sublist order

/-- The list comes before the other in the lexicographic order, or is the same. -/
def LexLe (ps qs : List Nat) : Prop :=
  ps = qs ∨ List.Lex (· < ·) ps qs

/-! ### Greedy lists -/

theorem greedy_nil : Greedy edge n [] := by
  intro listed p rest h
  simp at h

theorem Greedy.snoc {p : Nat} (h : Greedy edge n order) (hp : Least edge n order p) :
    Greedy edge n (order ++ [p]) := by
  intro listed q rest heq
  rcases List.eq_nil_or_concat rest with rfl | ⟨rest', z, rfl⟩
  · obtain ⟨rfl, h2⟩ := List.append_inj' heq rfl
    cases h2
    exact hp
  · have heq' : order ++ [p] = (listed ++ q :: rest') ++ [z] := by simpa using heq
    exact h listed q rest' (List.append_inj' heq' rfl).1

theorem Greedy.of_append {rest : List Nat} (h : Greedy edge n (order ++ rest)) :
    Greedy edge n order := by
  intro listed p rest' heq
  exact h listed p (rest' ++ rest) (by rw [heq, List.append_assoc, List.cons_append])

/-- Where a position stands in a greedy list. -/
theorem Greedy.least_of_mem {p : Nat} (h : Greedy edge n order) (hp : p ∈ order) :
    ∃ listed rest, order = listed ++ p :: rest ∧ Least edge n listed p := by
  obtain ⟨listed, rest, heq⟩ := List.append_of_mem hp
  exact ⟨listed, rest, heq, h listed p rest heq⟩

theorem Greedy.lt_of_mem {p : Nat} (h : Greedy edge n order) (hp : p ∈ order) : p < n := by
  obtain ⟨_, _, _, hleast⟩ := h.least_of_mem hp
  exact hleast.lt

/-- With a position, all its predecessors are listed. -/
theorem Greedy.closed {p q : Nat} (h : Greedy edge n order) (hq : q ∈ order) (he : edge p q) :
    p ∈ order := by
  obtain ⟨listed, rest, heq, hleast⟩ := h.least_of_mem hq
  rw [heq]
  exact List.mem_append_left _ (hleast.closed p he)

theorem Greedy.nodup (h : Greedy edge n order) : order.Nodup := by
  induction order using List.reverseRecOn with
  | nil => exact List.nodup_nil
  | append_singleton l p ih =>
      have hp := h l p [] rfl
      exact (ih h.of_append).append (List.nodup_singleton p) (by simpa using hp.not_mem)

theorem Greedy.length_le (h : Greedy edge n order) : order.length ≤ n := by
  have hsub : order ⊆ List.range n := fun p hp => List.mem_range.2 (h.lt_of_mem hp)
  simpa using (List.subperm_of_subset h.nodup hsub).length_le

/-- A position stands behind its predecessors. -/
theorem Greedy.sublist {p q : Nat} (h : Greedy edge n order) (hq : q ∈ order) (he : edge p q) :
    [p, q].Sublist order := by
  obtain ⟨listed, rest, heq, hleast⟩ := h.least_of_mem hq
  rw [heq]
  exact (List.singleton_sublist.2 (hleast.closed p he)).append
    ((List.nil_sublist rest).cons_cons q)

theorem Greedy.perm_of_length_eq (h : Greedy edge n order) (hn : order.length = n) :
    order.Perm (List.range n) := by
  have hsub : order ⊆ List.range n := fun p hp => List.mem_range.2 (h.lt_of_mem hp)
  exact (List.subperm_of_subset h.nodup hsub).perm_of_length_le (by simp [hn])

/-! ### One greedy list -/

theorem Least.unique {p q : Nat} {listed : List Nat} (hp : Least edge n listed p)
    (hq : Least edge n listed q) : p = q :=
  Nat.le_antisymm (hp.le q hq.toAvailable) (hq.le p hp.toAvailable)

/-- Of two greedy lists of a graph one goes on where the other ends. -/
theorem Greedy.prefix_or_prefix {order' : List Nat} (h : Greedy edge n order)
    (h' : Greedy edge n order') : order <+: order' ∨ order' <+: order := by
  induction order using List.reverseRecOn with
  | nil => exact .inl (List.nil_prefix)
  | append_singleton l p ih =>
      rcases ih h.of_append with ⟨rest, rfl⟩ | hpre
      · cases rest with
        | nil =>
            rw [List.append_nil]
            exact .inr (List.prefix_append l [p])
        | cons q rest =>
            obtain rfl := (h l p [] rfl).unique (h' l q rest rfl)
            exact .inl ⟨rest, by simp⟩
      · exact .inr (hpre.trans (List.prefix_append l [p]))

/-- A greedy list that is exhausted is as long as any. -/
theorem Greedy.eq_of_length_le {order' : List Nat} (h : Greedy edge n order)
    (hex : Exhausted edge n order) (h' : Greedy edge n order')
    (hlen : order.length ≤ order'.length) : order = order' := by
  rcases h.prefix_or_prefix h' with ⟨rest, rfl⟩ | hpre
  · cases rest with
    | nil => exact (List.append_nil order).symm
    | cons q rest => exact absurd (h' order q rest rfl).toAvailable (hex q)
  · exact (hpre.eq_of_length_le hlen).symm

/-! ### Cycles -/

/-- Walking back within a finite set of positions runs into a cycle. -/
theorem exists_cycle (s : Finset Nat) (hne : s.Nonempty)
    (hback : ∀ p ∈ s, ∃ q ∈ s, edge q p) : ∃ c ∈ s, Relation.TransGen edge c c := by
  by_contra hno
  let r : s → s → Prop := fun p q => Relation.TransGen edge p q
  have : IsTrans s r := ⟨fun _ _ _ hab hbc => hab.trans hbc⟩
  have : Std.Irrefl r := ⟨fun c hc => hno ⟨c, c.2, hc⟩⟩
  obtain ⟨p, hp⟩ := hne
  obtain ⟨m, -, hm⟩ :=
    (Finite.wellFounded_of_trans_of_irrefl r).has_min Set.univ ⟨⟨p, hp⟩, trivial⟩
  obtain ⟨q, hq, he⟩ := hback m m.2
  exact hm ⟨q, hq⟩ trivial (Relation.TransGen.single he)

theorem Greedy.mem_of_reflTransGen {p q : Nat} (h : Greedy edge n order) (hq : q ∈ order)
    (hr : Relation.ReflTransGen edge p q) : p ∈ order := by
  induction hr using Relation.ReflTransGen.head_induction_on with
  | refl => exact hq
  | head he _ ih => exact h.closed ih he

/-- The positions of a walk stand in its order. -/
theorem Greedy.idxOf_lt {p q : Nat} (h : Greedy edge n order) (hq : q ∈ order)
    (hr : Relation.TransGen edge p q) : order.idxOf p < order.idxOf q := by
  have hstep : ∀ {a b}, b ∈ order → edge a b → order.idxOf a < order.idxOf b := by
    intro a b hb he
    obtain ⟨listed, rest, heq, hleast⟩ := h.least_of_mem hb
    have ha : a ∈ listed := hleast.closed a he
    rw [heq, List.idxOf_append_of_mem ha, List.idxOf_append_of_notMem hleast.not_mem]
    exact Nat.lt_of_lt_of_le (List.idxOf_lt_length_iff.2 ha) (Nat.le_add_right _ _)
  induction hr with
  | single he => exact hstep hq he
  | tail _ he ih => exact (ih (h.closed hq he)).trans (hstep hq he)

/-- Listed are exactly the positions that no cycle leads to. -/
theorem Greedy.mem_iff_no_cycle (hlt : ∀ p q, edge p q → p < n) (h : Greedy edge n order)
    (hex : Exhausted edge n order) {p : Nat} (hp : p < n) :
    p ∈ order ↔ ¬ ∃ c, Relation.TransGen edge c c ∧ Relation.ReflTransGen edge c p := by
  classical
  constructor
  · rintro hmem ⟨c, hc, hcp⟩
    exact (h.idxOf_lt (h.mem_of_reflTransGen hmem hcp) hc).ne rfl
  · intro hno
    by_contra hmem
    -- the ancestors of `p` that are not listed: each has a predecessor among them
    let s := (Finset.range n).filter fun q => q ∉ order ∧ Relation.ReflTransGen edge q p
    have hs : ∀ q, q ∈ s ↔ q < n ∧ q ∉ order ∧ Relation.ReflTransGen edge q p := by
      intro q
      rw [Finset.mem_filter, Finset.mem_range]
    have hback : ∀ q ∈ s, ∃ q' ∈ s, edge q' q := by
      intro q hq
      obtain ⟨hqn, hqo, hqp⟩ := (hs q).1 hq
      by_contra hnone
      refine hex q ⟨hqn, hqo, fun q' he => ?_⟩
      by_contra hq'
      exact hnone ⟨q', (hs q').2 ⟨hlt q' q he, hq', hqp.head he⟩, he⟩
    obtain ⟨c, hcs, hc⟩ := exists_cycle s ⟨p, (hs p).2 ⟨hp, hmem, .refl⟩⟩ hback
    exact hno ⟨c, hc, ((hs c).1 hcs).2.2⟩

/-- All positions are listed exactly if there is no cycle. -/
theorem Greedy.length_eq_iff_acyclic (hlt : ∀ p q, edge p q → p < n) (h : Greedy edge n order)
    (hex : Exhausted edge n order) :
    order.length = n ↔ ∀ p, ¬ Relation.TransGen edge p p := by
  constructor
  · intro hn c hc
    have hcn : c < n := by
      obtain ⟨d, hcd, -⟩ := Relation.TransGen.head'_iff.1 hc
      exact hlt c d hcd
    have hmem : c ∈ order := (h.perm_of_length_eq hn).mem_iff.2 (List.mem_range.2 hcn)
    exact (h.mem_iff_no_cycle hlt hex hcn).1 hmem ⟨c, hc, .refl⟩
  · intro hno
    have hall : List.range n ⊆ order := by
      intro p hp
      refine (h.mem_iff_no_cycle hlt hex (List.mem_range.1 hp)).2 ?_
      rintro ⟨c, hc, -⟩
      exact hno c hc
    have hle := (List.subperm_of_subset List.nodup_range hall).length_le
    rw [List.length_range] at hle
    exact Nat.le_antisymm h.length_le hle

/-! ### Schedules -/

theorem Greedy.schedule (hlt : ∀ p q, edge p q → q < n) (h : Greedy edge n order)
    (hn : order.length = n) : Schedule edge n order where
  perm := h.perm_of_length_eq hn
  before p q he :=
    h.sublist ((h.perm_of_length_eq hn).mem_iff.2 (List.mem_range.2 (hlt p q he))) he

/-- What stands before a position that occurs once. -/
theorem mem_of_sublist_of_nodup {p q : Nat} {listed rest : List Nat}
    (hnd : (listed ++ p :: rest).Nodup) (h : [q, p].Sublist (listed ++ p :: rest)) :
    q ∈ listed := by
  have hp : p ∉ rest := fun hmem => (List.nodup_cons.1 (List.nodup_append.1 hnd).2.1).1 hmem
  obtain ⟨a, b, hab, ha, hb⟩ := List.sublist_append_iff.1 h
  cases a with
  | nil =>
      have hmem : p ∈ rest := by
        rw [List.nil_append] at hab
        rw [← hab] at hb
        have htail := hb.tail
        exact List.singleton_sublist.1 htail
      exact absurd hmem hp
  | cons c a' =>
      obtain ⟨rfl, -⟩ := List.cons.inj hab
      exact ha.subset List.mem_cons_self

/-- Each position of a schedule is available after those before it. -/
theorem Schedule.available {p : Nat} {listed rest : List Nat}
    (h : Schedule edge n (listed ++ p :: rest)) : Available edge n listed p := by
  have hnd : (listed ++ p :: rest).Nodup := h.perm.nodup_iff.2 List.nodup_range
  refine ⟨?_, ?_, ?_⟩
  · exact List.mem_range.1 (h.perm.mem_iff.1 (by simp))
  · intro hmem
    exact (List.nodup_append.1 hnd).2.2 p hmem p List.mem_cons_self rfl
  · intro q he
    exact mem_of_sublist_of_nodup hnd (h.before q p he)

/-- Behind a common beginning, the rest of a greedy list comes first. -/
theorem Greedy.rest_lexLe (listed : List Nat) {ps qs : List Nat}
    (h : Greedy edge n (listed ++ ps)) (hs : Schedule edge n (listed ++ qs))
    (hlen : ps.length ≤ qs.length) : LexLe ps qs := by
  induction ps generalizing listed qs with
  | nil =>
      cases qs with
      | nil => exact .inl rfl
      | cons q qs => exact .inr .nil
  | cons p ps ih =>
      cases qs with
      | nil => simp at hlen
      | cons q qs =>
          have hle : p ≤ q := (h listed p ps rfl).le q hs.available
          rcases Nat.lt_or_eq_of_le hle with hlt | rfl
          · exact .inr (.rel hlt)
          · have hrest : LexLe ps qs :=
              ih (listed ++ [p]) (by simpa using h) (by simpa using hs) (by simpa using hlen)
            rcases hrest with rfl | hlex
            · exact .inl rfl
            · exact .inr (.cons hlex)

/-- No schedule comes before a greedy list. -/
theorem Greedy.lexLe_schedule {qs : List Nat} (h : Greedy edge n order)
    (hs : Schedule edge n qs) : LexLe order qs := by
  refine Greedy.rest_lexLe [] h hs ?_
  rw [hs.perm.length_eq, List.length_range]
  exact h.length_le

/-- A greedy list stays greedy when edges are added that it respects: what is available with them
was available without them. -/
theorem Greedy.of_schedule {edge' : Nat → Nat → Prop} (h : Greedy edge n order)
    (hs : Schedule edge' n order) (hsub : ∀ p q, edge p q → edge' p q) :
    Greedy edge' n order := by
  rintro listed p rest rfl
  refine ⟨hs.available, fun q hq => ?_⟩
  have hq' : Available edge n listed q := ⟨hq.lt, hq.not_mem, fun r he => hq.closed r (hsub r q he)⟩
  exact (h listed p rest rfl).le q hq'

end TaskFlow.Listing
