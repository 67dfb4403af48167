/-! # Results that may fail

When a sequence of two fallible steps succeeds, both do.  When a run of such steps fails, it fails
with the error of the first step that does (`foldlM_eq_error_iff`); when the steps commute, their
order does not matter (`foldlM_perm`). -/

namespace TaskFlow

theorem bind_eq_ok_iff {ε α β : Type} {x : Except ε α} {f : α → Except ε β} {b : β} :
    x >>= f = .ok b ↔ ∃ a, x = .ok a ∧ f a = .ok b := by
  cases x <;> simp [bind, Except.bind]

/-- A first step that only checks. -/
theorem bind_unit_eq_ok_iff {ε β : Type} {x : Except ε Unit} {y : Except ε β} {b : β} :
    (x >>= fun _ => y) = .ok b ↔ x = .ok () ∧ y = .ok b := by
  cases x <;> simp [bind, Except.bind]

theorem bind_eq_error_iff {ε α β : Type} {x : Except ε α} {f : α → Except ε β} {e : ε} :
    x >>= f = .error e ↔ x = .error e ∨ ∃ a, x = .ok a ∧ f a = .error e := by
  cases x <;> simp [bind, Except.bind]

theorem foldlM_eq_error_iff {ε α σ : Type} {f : σ → α → Except ε σ} {xs : List α} {s : σ} {e : ε} :
    xs.foldlM f s = .error e ↔
      ∃ before x after s', xs = before ++ x :: after ∧ before.foldlM f s = .ok s' ∧
        f s' x = .error e := by
  constructor
  · intro h
    induction xs generalizing s with
    | nil => cases h
    | cons y xs ih =>
      rw [List.foldlM_cons] at h
      rcases bind_eq_error_iff.1 h with h | ⟨s₁, h₁, h⟩
      · exact ⟨[], y, xs, s, rfl, rfl, h⟩
      · obtain ⟨before, x, after, s', rfl, hbefore, hx⟩ := ih h
        refine ⟨y :: before, x, after, s', rfl, ?_, hx⟩
        rw [List.foldlM_cons]
        exact bind_eq_ok_iff.2 ⟨s₁, h₁, hbefore⟩
  · rintro ⟨before, x, after, s', rfl, hbefore, hx⟩
    rw [List.foldlM_append]
    refine bind_eq_error_iff.2 (.inr ⟨s', hbefore, ?_⟩)
    rw [List.foldlM_cons]
    exact bind_eq_error_iff.2 (.inl hx)

/-- Steps that may be taken in either order may be taken in any. -/
theorem foldlM_perm {ε α σ : Type} {f : σ → α → Except ε σ}
    (hcomm : ∀ s x y, (f s x >>= (f · y)) = (f s y >>= (f · x))) {xs ys : List α}
    (h : xs.Perm ys) (s : σ) : xs.foldlM f s = ys.foldlM f s := by
  induction h generalizing s with
  | nil => rfl
  | cons x _ ih =>
      rw [List.foldlM_cons, List.foldlM_cons]
      exact congrArg (f s x >>= ·) (funext ih)
  | swap x y zs =>
      simp only [List.foldlM_cons, ← bind_assoc, hcomm]
  | trans _ _ ih₁ ih₂ => rw [ih₁, ih₂]

theorem map_eq_ok_iff {ε α β : Type} {x : Except ε α} {f : α → β} {b : β} :
    x.map f = .ok b ↔ ∃ a, x = .ok a ∧ f a = b := by
  cases x <;> simp [Except.map]

/-- Results are compared alike whatever the errors are. -/
theorem ok_eq_ok_iff {ε ε' α : Type} {a b : α} :
    (.ok a : Except ε α) = .ok b ↔ (.ok a : Except ε' α) = .ok b := by
  rw [Except.ok.injEq, Except.ok.injEq]

theorem mapError_eq_error_iff {ε ε' α : Type} {x : Except ε α} {f : ε → ε'} {e' : ε'} :
    x.mapError f = .error e' ↔ ∃ e, x = .error e ∧ f e = e' := by
  constructor
  · intro h
    cases x with
    | error e => exact ⟨e, rfl, Except.error.inj h⟩
    | ok a => cases h
  · rintro ⟨e, rfl, rfl⟩
    rfl

theorem mapError_eq_ok_iff {ε ε' α : Type} {x : Except ε α} {f : ε → ε'} {a : α} :
    x.mapError f = .ok a ↔ x = .ok a := by
  cases x with
  | error e => exact iff_of_false nofun nofun
  | ok b => exact ok_eq_ok_iff

theorem toOption_eq_some_iff {ε α : Type} {x : Except ε α} {a : α} :
    x.toOption = some a ↔ x = .ok a := by
  cases x <;> simp [Except.toOption]

end TaskFlow
