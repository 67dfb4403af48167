import TaskFlow.Json.Problem
import TaskFlow.Result

/-! # Numerals

A number as it is written: sign, whole part, digits after the point and exponent.  `Numeral.scan`
reads one from the start of a text and `Numeral.write` writes one. -/

namespace TaskFlow.Json

/-- A number as it is written. -/
structure Numeral where
  negative : Bool := false
  whole : Nat
  /-- The digits after the point; none when there is no point. -/
  fraction : List (Fin 10) := []
  /-- The power of ten, if one is written. -/
  exponent : Option Int := none
deriving DecidableEq, Repr

/-- The value of a decimal digit. -/
def digitValue (c : Char) : Fin 10 :=
  Fin.ofNat 10 (c.toNat - '0'.toNat)

/-- The character of a decimal digit. -/
def digitChar (d : Fin 10) : Char :=
  Char.ofNat ('0'.toNat + d.val)

/-- The number that a run of digits denotes. -/
def digitsValue (cs : List Char) : Nat :=
  cs.foldl (fun n c => n * 10 + (digitValue c).val) 0

namespace Numeral

/-- The numeral of a natural number. -/
def ofNat (n : Nat) : Numeral :=
  { whole := n }

/-! ### Reading

Each reader takes its part from the start of the text and returns it with the rest. -/

/-- Digits, at least one. -/
def scanDigits (cs : List Char) : Except Problem (List Char × List Char) :=
  match cs.takeWhile Char.isDigit with
  | [] => .error (.before cs)
  | ds => .ok (ds, cs.dropWhile Char.isDigit)

/-- The whole part: a single zero, or digits of which the first is not zero. -/
def scanWhole : List Char → Except Problem (Nat × List Char)
  | '0' :: cs =>
    match cs with
    | c :: _ => if c.isDigit then .error .malformed else .ok (0, cs)
    | [] => .ok (0, cs)
  | cs => (scanDigits cs).map fun (ds, rest) => (digitsValue ds, rest)

/-- A point and digits, if there is a point. -/
def scanFraction : List Char → Except Problem (List (Fin 10) × List Char)
  | '.' :: cs => (scanDigits cs).map fun (ds, rest) => (ds.map digitValue, rest)
  | cs => .ok ([], cs)

/-- The sign of an exponent, if there is one; true for minus. -/
def scanSign : List Char → Bool × List Char
  | '+' :: cs => (false, cs)
  | '-' :: cs => (true, cs)
  | cs => (false, cs)

/-- The letter `e`, a sign and digits, if there is such a letter. -/
def scanExponent : List Char → Except Problem (Option Int × List Char)
  | c :: cs =>
    if c = 'e' ∨ c = 'E' then
      (scanDigits (scanSign cs).2).map fun (ds, rest) =>
        (some (if (scanSign cs).1 then -(digitsValue ds : Int) else digitsValue ds), rest)
    else .ok (none, c :: cs)
  | [] => .ok (none, [])

/-- A numeral without its sign. -/
def scanUnsigned (negative : Bool) (cs : List Char) : Except Problem (Numeral × List Char) := do
  let (whole, cs) ← scanWhole cs
  let (fraction, cs) ← scanFraction cs
  let (exponent, cs) ← scanExponent cs
  return ({ negative, whole, fraction, exponent }, cs)

/-- A numeral. -/
def scan : List Char → Except Problem (Numeral × List Char)
  | '-' :: cs => scanUnsigned true cs
  | cs => scanUnsigned false cs

/-! ### What a reader leaves is the end of its text -/

theorem scanDigits_suffix {cs ds rest : List Char} (h : scanDigits cs = .ok (ds, rest)) :
    rest <:+ cs := by
  unfold scanDigits at h
  split at h <;> cases h
  exact List.dropWhile_suffix _

theorem scanDigits_cons_suffix {c : Char} {cs ds rest : List Char}
    (h : scanDigits (c :: cs) = .ok (ds, rest)) : rest <:+ cs := by
  unfold scanDigits at h
  by_cases hc : c.isDigit
  · simp only [List.takeWhile_cons_of_pos hc, List.dropWhile_cons_of_pos hc] at h
    cases h
    exact List.dropWhile_suffix _
  · simp only [List.takeWhile_cons_of_neg hc] at h
    cases h

theorem scanWhole_cons_suffix {c : Char} {cs rest : List Char} {n : Nat}
    (h : scanWhole (c :: cs) = .ok (n, rest)) : rest <:+ cs := by
  unfold scanWhole at h
  split at h
  · rename_i heq
    cases heq
    split at h
    · split at h <;> cases h
      exact List.suffix_refl _
    · cases h
      exact List.suffix_refl _
  · obtain ⟨r, hr, he⟩ := map_eq_ok_iff.1 h
    cases he
    exact scanDigits_cons_suffix hr

theorem scanFraction_suffix {cs rest : List Char} {ds : List (Fin 10)}
    (h : scanFraction cs = .ok (ds, rest)) : rest <:+ cs := by
  unfold scanFraction at h
  split at h
  · obtain ⟨r, hr, he⟩ := map_eq_ok_iff.1 h
    cases he
    exact (scanDigits_suffix hr).trans (List.suffix_cons ..)
  · cases h
    exact List.suffix_refl _

theorem scanSign_suffix (cs : List Char) : (scanSign cs).2 <:+ cs := by
  unfold scanSign
  split
  · exact List.suffix_cons ..
  · exact List.suffix_cons ..
  · exact List.suffix_refl _

theorem scanExponent_suffix {cs rest : List Char} {e : Option Int}
    (h : scanExponent cs = .ok (e, rest)) : rest <:+ cs := by
  unfold scanExponent at h
  split at h
  · split at h
    · obtain ⟨r, hr, he⟩ := map_eq_ok_iff.1 h
      cases he
      exact (scanDigits_suffix hr).trans ((scanSign_suffix _).trans (List.suffix_cons ..))
    · cases h
      exact List.suffix_refl _
  · cases h
    exact List.suffix_refl _

theorem scanUnsigned_suffix {minus : Bool} {c : Char} {cs rest : List Char} {n : Numeral}
    (h : scanUnsigned minus (c :: cs) = .ok (n, rest)) : rest <:+ cs := by
  unfold scanUnsigned at h
  obtain ⟨w, hw, h⟩ := bind_eq_ok_iff.1 h
  obtain ⟨f, hf, h⟩ := bind_eq_ok_iff.1 h
  obtain ⟨e, he, h⟩ := bind_eq_ok_iff.1 h
  cases h
  exact (scanExponent_suffix he).trans ((scanFraction_suffix hf).trans (scanWhole_cons_suffix hw))

/-- A numeral takes at least one character. -/
theorem scan_suffix {c : Char} {cs rest : List Char} {n : Numeral}
    (h : scan (c :: cs) = .ok (n, rest)) : rest <:+ cs := by
  unfold scan at h
  split at h
  · rename_i heq
    cases heq
    cases cs with
    | nil => cases h
    | cons d ds => exact (scanUnsigned_suffix h).trans (List.suffix_cons ..)
  · exact scanUnsigned_suffix h

end Numeral

end TaskFlow.Json
