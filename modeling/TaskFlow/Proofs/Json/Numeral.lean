import Mathlib.Data.List.TakeWhile
import TaskFlow.Json.Numeral

/-! # The grammar of numerals

`Numeral.Written n cs` says that `cs` is a number of JSON and `n` what it is made of.  The scanner
takes such a number from the start of a text (`scan_written`), and takes it whole when what follows
could not continue it (`scan_append`). -/

namespace TaskFlow.Json

/-- The text does not begin with a character that satisfies `p`. -/
def NotBefore (p : Char → Bool) (rest : List Char) : Prop :=
  ∀ c cs, rest = c :: cs → p c = false

theorem notBefore_cons {p : Char → Bool} {c : Char} {cs : List Char} (h : p c = false) :
    NotBefore p (c :: cs) := by
  intro c' cs' heq
  cases heq
  exact h

theorem NotBefore.mono {p q : Char → Bool} {rest : List Char} (hpq : ∀ c, p c = false → q c = false)
    (h : NotBefore p rest) : NotBefore q rest :=
  fun c cs heq => hpq c (h c cs heq)

namespace Numeral

/-! ### Grammar -/

/-- Decimal digits, at least one. -/
def Digits (ds : List Char) : Prop :=
  ds ≠ [] ∧ ∀ c ∈ ds, c.isDigit = true

/-- A single zero, or digits of which the first is not zero. -/
inductive WholeWritten : Nat → List Char → Prop
  | zero : WholeWritten 0 ['0']
  | digits {c : Char} {cs : List Char} :
      c ≠ '0' → Digits (c :: cs) → WholeWritten (digitsValue (c :: cs)) (c :: cs)

/-- Nothing, or a point and digits. -/
inductive FractionWritten : List (Fin 10) → List Char → Prop
  | none : FractionWritten [] []
  | point {ds : List Char} : Digits ds → FractionWritten (ds.map digitValue) ('.' :: ds)

/-- Nothing or a sign; true for minus. -/
inductive SignWritten : Bool → List Char → Prop
  | none : SignWritten false []
  | plus : SignWritten false ['+']
  | minus : SignWritten true ['-']

/-- Nothing, or the letter `e` in either case, a sign and digits. -/
inductive ExponentWritten : Option Int → List Char → Prop
  | none : ExponentWritten none []
  | some {e : Char} {minus : Bool} {sign ds : List Char} :
      e = 'e' ∨ e = 'E' → SignWritten minus sign → Digits ds →
      ExponentWritten (some (if minus then -(digitsValue ds : Int) else digitsValue ds))
        (e :: (sign ++ ds))

/-- The text is the number: a sign, the whole part, a fraction and an exponent. -/
inductive Written (n : Numeral) : List Char → Prop
  | mk {w f e : List Char} :
      WholeWritten n.whole w → FractionWritten n.fraction f → ExponentWritten n.exponent e →
      Written n ((if n.negative then ['-'] else []) ++ (w ++ (f ++ e)))

/-- A character with which a number could go on. -/
def continues (c : Char) : Bool :=
  c.isDigit || c == '.' || c == 'e' || c == 'E'

/-! ### Digits -/

theorem scanDigits_written {cs ds rest : List Char} (h : scanDigits cs = .ok (ds, rest)) :
    Digits ds ∧ cs = ds ++ rest := by
  unfold scanDigits at h
  split at h
  · cases h
  · rename_i hne
    cases h
    refine ⟨⟨hne, fun c hc => List.mem_takeWhile_imp hc⟩, ?_⟩
    exact List.takeWhile_append_dropWhile.symm

theorem scanDigits_append {ds rest : List Char} (hds : Digits ds)
    (hrest : NotBefore Char.isDigit rest) : scanDigits (ds ++ rest) = .ok (ds, rest) := by
  have htake : rest.takeWhile Char.isDigit = [] := by
    cases rest with
    | nil => rfl
    | cons c cs => rw [List.takeWhile_cons, hrest c cs rfl]; rfl
  have hdrop : rest.dropWhile Char.isDigit = rest := by
    cases rest with
    | nil => rfl
    | cons c cs => rw [List.dropWhile_cons, hrest c cs rfl]; rfl
  unfold scanDigits
  rw [List.takeWhile_append_of_pos hds.2, List.dropWhile_append_of_pos hds.2, htake, hdrop,
    List.append_nil]
  split
  · exact absurd rfl hds.1
  · rfl

/-! ### The parts of a number -/

theorem scanWhole_written {cs rest : List Char} {n : Nat} (h : scanWhole cs = .ok (n, rest)) :
    ∃ w, WholeWritten n w ∧ cs = w ++ rest := by
  unfold scanWhole at h
  split at h
  · refine ⟨['0'], ?_⟩
    split at h
    · split at h
      · cases h
      · cases h
        exact ⟨.zero, rfl⟩
    · cases h
      exact ⟨.zero, rfl⟩
  · rename_i hzero
    obtain ⟨⟨ds, rest'⟩, hr, he⟩ := map_eq_ok_iff.1 h
    cases he
    obtain ⟨hds, rfl⟩ := scanDigits_written hr
    cases ds with
    | nil => exact absurd rfl hds.1
    | cons c ds =>
        have hc : c ≠ '0' := by
          rintro rfl
          exact hzero _ rfl
        exact ⟨c :: ds, .digits hc hds, rfl⟩

theorem scanWhole_append {w rest : List Char} {n : Nat} (hw : WholeWritten n w)
    (hrest : NotBefore Char.isDigit rest) : scanWhole (w ++ rest) = .ok (n, rest) := by
  cases hw with
  | zero =>
      cases rest with
      | nil => rfl
      | cons c cs =>
          rw [List.cons_append, List.nil_append, scanWhole, hrest c cs rfl]
          rfl
  | @digits c cs hc hds =>
      have h := scanDigits_append hds hrest
      rw [List.cons_append] at h ⊢
      unfold scanWhole
      split
      · rename_i heq
        cases heq
        exact absurd rfl hc
      · rw [h]
        rfl

theorem scanFraction_written {cs rest : List Char} {ds : List (Fin 10)}
    (h : scanFraction cs = .ok (ds, rest)) : ∃ f, FractionWritten ds f ∧ cs = f ++ rest := by
  unfold scanFraction at h
  split at h
  · obtain ⟨⟨ds', rest'⟩, hr, he⟩ := map_eq_ok_iff.1 h
    cases he
    obtain ⟨hds, rfl⟩ := scanDigits_written hr
    exact ⟨'.' :: ds', .point hds, rfl⟩
  · cases h
    exact ⟨[], .none, rfl⟩

theorem scanFraction_append {f rest : List Char} {ds : List (Fin 10)} (hf : FractionWritten ds f)
    (hrest : NotBefore (fun c => c.isDigit || c == '.') rest) :
    scanFraction (f ++ rest) = .ok (ds, rest) := by
  cases hf with
  | none =>
      rw [List.nil_append]
      unfold scanFraction
      split
      · have := hrest _ _ rfl
        simp at this
      · rfl
  | point hds =>
      have hdigit : NotBefore Char.isDigit rest := hrest.mono fun c hc => by simp_all
      rw [List.cons_append, scanFraction, scanDigits_append hds hdigit]
      rfl

theorem scanSign_written (cs : List Char) :
    ∃ s, SignWritten (scanSign cs).1 s ∧ cs = s ++ (scanSign cs).2 := by
  unfold scanSign
  split
  · exact ⟨['+'], .plus, rfl⟩
  · exact ⟨['-'], .minus, rfl⟩
  · exact ⟨[], .none, rfl⟩

theorem scanSign_append {s ds : List Char} {minus : Bool} (hs : SignWritten minus s)
    (hds : Digits ds) (rest : List Char) : scanSign (s ++ (ds ++ rest)) = (minus, ds ++ rest) := by
  cases hs with
  | none =>
      obtain ⟨hne, hall⟩ := hds
      cases ds with
      | nil => exact absurd rfl hne
      | cons c ds =>
          have hc := hall c List.mem_cons_self
          rw [List.nil_append, List.cons_append]
          unfold scanSign
          split
          · rename_i heq
            cases heq
            exact absurd hc (by decide)
          · rename_i heq
            cases heq
            exact absurd hc (by decide)
          · rfl
  | plus => rfl
  | minus => rfl

theorem scanExponent_written {cs rest : List Char} {x : Option Int}
    (h : scanExponent cs = .ok (x, rest)) : ∃ e, ExponentWritten x e ∧ cs = e ++ rest := by
  unfold scanExponent at h
  split at h
  · rename_i c cs
    split at h
    · rename_i hletter
      obtain ⟨⟨ds, rest'⟩, hr, he⟩ := map_eq_ok_iff.1 h
      cases he
      obtain ⟨hds, heq⟩ := scanDigits_written hr
      obtain ⟨s, hs, hcs⟩ := scanSign_written cs
      refine ⟨c :: (s ++ ds), .some hletter hs hds, ?_⟩
      rw [heq] at hcs
      rw [hcs, List.cons_append, List.append_assoc, ← hcs]
    · cases h
      exact ⟨[], .none, rfl⟩
  · cases h
    exact ⟨[], .none, rfl⟩

theorem scanExponent_append {e rest : List Char} {x : Option Int} (he : ExponentWritten x e)
    (hrest : NotBefore continues rest) : scanExponent (e ++ rest) = .ok (x, rest) := by
  cases he with
  | none =>
      cases rest with
      | nil => rfl
      | cons c cs =>
          have hc := hrest c cs rfl
          have hletter : ¬ (c = 'e' ∨ c = 'E') := by
            rintro (rfl | rfl) <;> exact absurd hc (by decide)
          rw [List.nil_append, scanExponent, if_neg hletter]
  | some hletter hs hds =>
      have hdigit : NotBefore Char.isDigit rest := hrest.mono fun c hc => by simp_all [continues]
      rw [List.cons_append, List.append_assoc, scanExponent, if_pos hletter,
        scanSign_append hs hds, scanDigits_append hds hdigit]
      rfl

/-! ### Numbers -/

theorem notBefore_exponent {e rest : List Char} {x : Option Int} (he : ExponentWritten x e)
    (hrest : NotBefore continues rest) :
    NotBefore (fun c => c.isDigit || c == '.') (e ++ rest) := by
  cases he with
  | none => exact hrest.mono fun c hc => by simp_all [continues]
  | some hletter => exact notBefore_cons (by rcases hletter with rfl | rfl <;> decide)

theorem notBefore_fraction {f rest : List Char} {ds : List (Fin 10)} (hf : FractionWritten ds f)
    (hrest : NotBefore (fun c => c.isDigit || c == '.') rest) :
    NotBefore Char.isDigit (f ++ rest) := by
  cases hf with
  | none => exact hrest.mono fun c hc => by simp_all
  | point => exact notBefore_cons (by decide)

theorem scanUnsigned_written {minus : Bool} {cs rest : List Char} {n : Numeral}
    (h : scanUnsigned minus cs = .ok (n, rest)) :
    n.negative = minus ∧ ∃ w f e, WholeWritten n.whole w ∧ FractionWritten n.fraction f ∧
      ExponentWritten n.exponent e ∧ cs = w ++ (f ++ e) ++ rest := by
  unfold scanUnsigned at h
  obtain ⟨⟨whole, cs₁⟩, hscan₁, h⟩ := bind_eq_ok_iff.1 h
  obtain ⟨⟨fraction, cs₂⟩, hscan₂, h⟩ := bind_eq_ok_iff.1 h
  obtain ⟨⟨exponent, cs₃⟩, hscan₃, h⟩ := bind_eq_ok_iff.1 h
  cases h
  obtain ⟨w, hw, rfl⟩ := scanWhole_written hscan₁
  obtain ⟨f, hf, rfl⟩ := scanFraction_written hscan₂
  obtain ⟨e, he, rfl⟩ := scanExponent_written hscan₃
  exact ⟨rfl, w, f, e, hw, hf, he, by simp⟩

theorem scanUnsigned_append {n : Numeral} {w f e rest : List Char} (hw : WholeWritten n.whole w)
    (hf : FractionWritten n.fraction f) (he : ExponentWritten n.exponent e)
    (hrest : NotBefore continues rest) :
    scanUnsigned n.negative (w ++ (f ++ e) ++ rest) = .ok (n, rest) := by
  have hx := notBefore_exponent he hrest
  have hwhole := scanWhole_append hw (notBefore_fraction hf hx)
  rw [List.append_assoc, List.append_assoc]
  refine bind_eq_ok_iff.2 ⟨_, hwhole, bind_eq_ok_iff.2 ⟨_, scanFraction_append hf hx, ?_⟩⟩
  exact bind_eq_ok_iff.2 ⟨_, scanExponent_append he hrest, rfl⟩

theorem scan_written {cs rest : List Char} {n : Numeral} (h : scan cs = .ok (n, rest)) :
    ∃ w, Written n w ∧ cs = w ++ rest := by
  unfold scan at h
  split at h
  · obtain ⟨hneg, w, f, e, hw, hf, he, rfl⟩ := scanUnsigned_written h
    refine ⟨_, .mk hw hf he, ?_⟩
    rw [hneg]
    rfl
  · obtain ⟨hneg, w, f, e, hw, hf, he, rfl⟩ := scanUnsigned_written h
    refine ⟨_, .mk hw hf he, ?_⟩
    rw [hneg]
    rfl

/-- The whole part begins with a digit, which is no sign. -/
theorem WholeWritten.head {n : Nat} {w : List Char} (h : WholeWritten n w) :
    ∃ c cs, w = c :: cs ∧ c.isDigit = true := by
  cases h with
  | zero => exact ⟨'0', [], rfl, by decide⟩
  | @digits c cs _ hds => exact ⟨c, cs, rfl, hds.2 c List.mem_cons_self⟩

theorem scan_append {n : Numeral} {w rest : List Char} (hw : Written n w)
    (hrest : NotBefore continues rest) : scan (w ++ rest) = .ok (n, rest) := by
  cases hw with
  | @mk w f e hw hf he =>
      have h := scanUnsigned_append hw hf he hrest
      obtain ⟨c, cs, rfl, hc⟩ := hw.head
      cases hneg : n.negative with
      | true =>
          rw [hneg] at h
          exact h
      | false =>
          rw [hneg] at h
          rw [if_neg (by simp), List.nil_append]
          unfold scan
          split
          · rename_i heq
            cases heq
            exact absurd hc (by decide)
          · exact h

end Numeral

end TaskFlow.Json
