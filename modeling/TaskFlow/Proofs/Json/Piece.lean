import TaskFlow.Json.Piece

/-! # The grammar of strings

`Piece.AllWritten ps cs` says that `cs`, what stands between two quotation marks, is a string of
JSON made of the pieces `ps`, and `Piece.Denotes ps cs` that these pieces stand for the characters
`cs`, every half of a surrogate pair being next to its other half.  The scanner takes what is
written up to the closing mark (`scan_written`, `scan_append`), and pieces are resolved exactly if
they denote something (`resolve_eq_ok_iff`). -/

namespace TaskFlow.Json

namespace Piece

/-- A character as it is, one escaped by a letter, or the number of a UTF-16 unit. -/
inductive Written : Piece → List Char → Prop
  | plain {c : Char} : c ≠ '"' → c ≠ '\\' → 0x20 ≤ c.toNat → Written (.char c) [c]
  | escaped {e c : Char} : escaped? e = some c → Written (.char c) ['\\', e]
  | unit {a b c d : Char} {n : Nat} :
      unitValue? a b c d = some n → Written (ofUnit n) ['\\', 'u', a, b, c, d]

/-- The pieces one after the other. -/
inductive AllWritten : List Piece → List Char → Prop
  | nil : AllWritten [] []
  | cons {p : Piece} {ps : List Piece} {w cs : List Char} :
      Written p w → AllWritten ps cs → AllWritten (p :: ps) (w ++ cs)

/-- The pieces stand for the characters. -/
inductive Denotes : List Piece → List Char → Prop
  | nil : Denotes [] []
  | char {c : Char} {ps : List Piece} {cs : List Char} :
      Denotes ps cs → Denotes (.char c :: ps) (c :: cs)
  | pair {n m : Nat} {ps : List Piece} {cs : List Char} :
      isHigh n = true → isLow m = true → Denotes ps cs →
      Denotes (.surrogate n :: .surrogate m :: ps) (joined n m :: cs)

/-! ### Reading -/

theorem prepend_eq_iff {p : Piece} {r : List Piece × Except Problem (List Char)} {ps : List Piece}
    {rest : List Char} :
    prepend p r = (ps, .ok rest) ↔ ∃ qs, ps = p :: qs ∧ r = (qs, .ok rest) := by
  obtain ⟨qs, result⟩ := r
  constructor
  · intro h
    cases h
    exact ⟨qs, rfl, rfl⟩
  · rintro ⟨_, rfl, h⟩
    cases h
    rfl

theorem scan_written {cs rest : List Char} {ps : List Piece} (h : scan cs = (ps, .ok rest)) :
    ∃ w, AllWritten ps w ∧ cs = w ++ '"' :: rest := by
  fun_induction scan cs generalizing ps with
  | case1 => cases h
  | case2 cs =>
      cases h
      exact ⟨[], .nil, rfl⟩
  | case3 a b c d cs n hn ih =>
      obtain ⟨qs, rfl, hqs⟩ := prepend_eq_iff.1 h
      obtain ⟨w, hw, rfl⟩ := ih hqs
      exact ⟨_, .cons (.unit hn) hw, rfl⟩
  | case4 => cases h
  | case5 => cases h
  | case6 c cs _ _ e he ih =>
      obtain ⟨qs, rfl, hqs⟩ := prepend_eq_iff.1 h
      obtain ⟨w, hw, rfl⟩ := ih hqs
      exact ⟨_, .cons (.escaped he) hw, rfl⟩
  | case7 => cases h
  | case8 => cases h
  | case9 => cases h
  | case10 c cs hquote hunit hu hescape hslash hctl ih =>
      obtain ⟨qs, rfl, hqs⟩ := prepend_eq_iff.1 h
      obtain ⟨w, hw, hcs⟩ := ih hqs
      have hc : c ≠ '\\' := by
        intro hc
        cases cs with
        | nil => exact hslash hc rfl
        | cons d ds => exact hescape d ds hc rfl
      refine ⟨[c] ++ w, .cons (.plain hquote hc (Nat.le_of_not_lt hctl)) hw, ?_⟩
      rw [hcs]
      rfl

theorem scan_plain {c : Char} (hquote : c ≠ '"') (hslash : c ≠ '\\') (hctl : 0x20 ≤ c.toNat)
    (cs : List Char) : scan (c :: cs) = prepend (.char c) (scan cs) := by
  rw [scan]
  · rw [if_neg (Nat.not_lt.2 hctl)]
  all_goals simp_all

theorem scan_escaped {e c : Char} (he : escaped? e = some c) (cs : List Char) :
    scan ('\\' :: e :: cs) = prepend (.char c) (scan cs) := by
  have hu : e ≠ 'u' := by
    rintro rfl
    cases he
  rw [scan]
  · rw [he]
  all_goals simp_all

theorem scan_unit {a b c d : Char} {n : Nat} (hn : unitValue? a b c d = some n) (cs : List Char) :
    scan ('\\' :: 'u' :: a :: b :: c :: d :: cs) = prepend (ofUnit n) (scan cs) := by
  rw [scan, hn]

theorem scan_append {ps : List Piece} {w : List Char} (hw : AllWritten ps w) (rest : List Char) :
    scan (w ++ '"' :: rest) = (ps, .ok rest) := by
  induction hw with
  | nil => rfl
  | @cons p ps w cs hp _ ih =>
      rw [List.append_assoc]
      have hprepend : prepend p (scan (cs ++ '"' :: rest)) = (p :: ps, .ok rest) := by rw [ih]; rfl
      cases hp with
      | plain hquote hslash hctl => exact (scan_plain hquote hslash hctl _).trans hprepend
      | escaped he => exact (scan_escaped he _).trans hprepend
      | unit hn => exact (scan_unit hn _).trans hprepend

/-! ### Resolving -/

theorem resolve_eq_ok_iff {atEnd : Problem} {ps : List Piece} {cs : List Char} :
    resolve atEnd ps = .ok cs ↔ Denotes ps cs := by
  constructor
  · intro h
    fun_induction resolve atEnd ps generalizing cs with
    | case1 =>
        cases h
        exact .nil
    | case2 c ps ih =>
        obtain ⟨cs', hcs, rfl⟩ := map_eq_ok_iff.1 h
        exact .char (ih hcs)
    | case3 => cases h
    | case4 => cases h
    | case5 n m ps hpair ih =>
        obtain ⟨cs', hcs, rfl⟩ := map_eq_ok_iff.1 h
        rw [Bool.and_eq_true] at hpair
        exact .pair hpair.1 hpair.2 (ih hcs)
    | case6 => cases h
  · intro h
    induction h with
    | nil => rfl
    | char _ ih => rw [resolve, ih]; rfl
    | pair hn hm _ ih => rw [resolve, if_pos (by rw [hn, hm]; rfl), ih]; rfl

end Piece

end TaskFlow.Json
