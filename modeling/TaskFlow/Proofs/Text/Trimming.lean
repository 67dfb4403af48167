import Mathlib.Data.List.DropRight
import TaskFlow.Text.Blank

/-! # Trimmed texts

`trimEnd` removes characters that satisfy a predicate, and stops behind one that does not
(`exists_eq_trimEnd_append`, `eq_false_of_getLast?_trimEnd`).  It is the removal from the right of the
list library, so that texts which end with such a character are left as they are.  `trimBlank` leaves
neither a blank in front nor one at the end. -/

namespace TaskFlow.Text

variable {p : Char → Bool} {cs front back : List Char} {c : Char}

/-! ### The end of a text -/

theorem trimEnd_eq_rdropWhile (p : Char → Bool) (cs : List Char) : trimEnd p cs = cs.rdropWhile p := by
  induction cs with
  | nil => rfl
  | cons c cs ih =>
      rw [List.rdropWhile, List.reverse_cons, List.dropWhile_append]
      rw [List.rdropWhile] at ih
      unfold trimEnd
      rw [ih]
      cases h : cs.reverse.dropWhile p with
      | nil => cases hc : p c <;> simp [hc]
      | cons d ds => cases hd : (d :: ds).reverse <;> simp_all

theorem trimEnd_eq_nil_iff : trimEnd p cs = [] ↔ ∀ c ∈ cs, p c = true := by
  rw [trimEnd_eq_rdropWhile, List.rdropWhile_eq_nil_iff]

theorem exists_eq_trimEnd_append (p : Char → Bool) (cs : List Char) :
    ∃ back, cs = trimEnd p cs ++ back ∧ ∀ c ∈ back, p c = true := by
  refine ⟨cs.rtakeWhile p, ?_, fun c => List.mem_rtakeWhile_imp⟩
  rw [trimEnd_eq_rdropWhile, List.rdropWhile_append_rtakeWhile]

theorem trimEnd_sublist (p : Char → Bool) (cs : List Char) : (trimEnd p cs).Sublist cs := by
  obtain ⟨back, hback, -⟩ := exists_eq_trimEnd_append p cs
  have hsub := List.sublist_append_left (trimEnd p cs) back
  rwa [← hback] at hsub

theorem head?_of_head?_trimEnd (h : (trimEnd p cs).head? = some c) : cs.head? = some c := by
  obtain ⟨back, hback, -⟩ := exists_eq_trimEnd_append p cs
  rw [hback, List.head?_append, h, Option.some_or]

theorem trimEnd_eq_self_iff : trimEnd p cs = cs ↔ ∀ c ∈ cs.getLast?, p c = false := by
  rw [trimEnd_eq_rdropWhile, List.rdropWhile_eq_self_iff]
  cases cs using List.reverseRecOn with
  | nil => simp
  | append_singleton cs c => simp

/-- What is left does not end with a character that is removed. -/
theorem eq_false_of_getLast?_trimEnd (h : (trimEnd p cs).getLast? = some c) : p c = false := by
  have hself : trimEnd p (trimEnd p cs) = trimEnd p cs := by
    simp only [trimEnd_eq_rdropWhile, List.rdropWhile_idempotent]
  exact trimEnd_eq_self_iff.1 hself c h

theorem trimEnd_append (h : ∀ c ∈ back, p c = true) : trimEnd p (front ++ back) = trimEnd p front := by
  simp only [trimEnd_eq_rdropWhile]
  induction back using List.reverseRecOn with
  | nil => rw [List.append_nil]
  | append_singleton back c ih =>
      rw [List.forall_mem_append, List.forall_mem_singleton] at h
      rw [← List.append_assoc, List.rdropWhile_concat_pos p _ c h.2, ih h.1]

/-! ### Both ends of a text -/

theorem eq_false_of_head?_dropWhile (h : (cs.dropWhile p).head? = some c) : p c = false := by
  have hhead := List.head?_dropWhile_not p cs
  rwa [h] at hhead

/-- What is left does not begin with a blank. -/
theorem eq_false_of_head?_trimBlank (h : (trimBlank cs).head? = some c) : isBlank c = false := by
  have hdrop : (cs.dropWhile isBlank).head? = some c := head?_of_head?_trimEnd h
  exact eq_false_of_head?_dropWhile hdrop

/-- What is left does not end with a blank. -/
theorem eq_false_of_getLast?_trimBlank (h : (trimBlank cs).getLast? = some c) : isBlank c = false :=
  eq_false_of_getLast?_trimEnd h

theorem trimBlank_sublist (cs : List Char) : (trimBlank cs).Sublist cs :=
  (trimEnd_sublist isBlank _).trans (List.dropWhile_sublist isBlank)

theorem trimBlank_eq_self_iff :
    trimBlank cs = cs ↔
      (∀ c ∈ cs.head?, isBlank c = false) ∧ ∀ c ∈ cs.getLast?, isBlank c = false := by
  constructor
  · intro h
    rw [← h]
    exact ⟨fun c => eq_false_of_head?_trimBlank, fun c => eq_false_of_getLast?_trimBlank⟩
  · rintro ⟨hhead, hlast⟩
    have hdrop : cs.dropWhile isBlank = cs := by
      cases cs with
      | nil => rfl
      | cons c cs => rw [List.dropWhile_cons_of_neg (by simp [hhead c rfl])]
    rw [trimBlank, hdrop, trimEnd_eq_self_iff.2 hlast]

end TaskFlow.Text
