/-! # Binary fractions of limited precision

Non-negative numbers `significand * 2 ^ exponent` with at most 53 significant bits and exponents from
-1074 to 971.  Any other number is rounded to the nearest of these, and one half-way between two of
them to the one with the even significand.  `Binary64.nearest` rounds a quotient of natural numbers;
multiplication and division are defined by it. -/

namespace TaskFlow

/-- A non-negative number `significand * 2 ^ exponent`. -/
structure Binary64 where
  significand : Nat
  exponent : Int
deriving DecidableEq, Repr

namespace Binary64

/-- Zero, with the least exponent. -/
def zero : Binary64 :=
  ⟨0, -1074⟩

/-- The least number with 53 binary digits. -/
def leastFull : Nat :=
  Nat.pow 2 52

/-- The least number with 54 binary digits. -/
def leastOver : Nat :=
  Nat.pow 2 53

/-- A quotient rounded to a whole number, a half to the even neighbour. -/
def roundEven (num den : Nat) : Nat :=
  let q := num / den
  let r := num % den
  if den < 2 * r ∨ (den = 2 * r ∧ q % 2 = 1) then q + 1 else q

/-- The quotient `num / den` divided by `2 ^ e`, again as a quotient. -/
def scaled (num den : Nat) (e : Int) : Nat × Nat :=
  (num * Nat.pow 2 (-e).toNat, den * Nat.pow 2 e.toNat)

/-- The exponent with which the quotient has 53 significant bits, or the least exponent. -/
def exponentOf (num den : Nat) : Int :=
  let e : Int := (num.log2 : Int) - den.log2 - 53
  let q := scaled num den e
  max (if q.1 / q.2 < leastOver then e else e + 1) (-1074)

/-- The member nearest to `num / den`, or nothing when that is beyond the largest one. -/
def nearest (num den : Nat) : Option Binary64 :=
  if num = 0 then some zero
  else
    let e := exponentOf num den
    let q := scaled num den e
    let m := roundEven q.1 q.2
    let r : Binary64 := if m = leastOver then ⟨leastFull, e + 1⟩ else ⟨m, e⟩
    if r.exponent ≤ 971 then some r else none

/-- The number as a quotient of natural numbers. -/
def ratio (x : Binary64) : Nat × Nat :=
  (x.significand * Nat.pow 2 x.exponent.toNat, Nat.pow 2 (-x.exponent).toNat)

/-- The rounded product. -/
def mul (x y : Binary64) : Option Binary64 :=
  nearest (x.ratio.1 * y.ratio.1) (x.ratio.2 * y.ratio.2)

/-- The rounded quotient. -/
def div (x y : Binary64) : Option Binary64 :=
  nearest (x.ratio.1 * y.ratio.2) (x.ratio.2 * y.ratio.1)

/-- The rounded power of ten. -/
def pow10 (k : Nat) : Option Binary64 :=
  nearest (Nat.pow 10 k) 1

end Binary64

end TaskFlow
