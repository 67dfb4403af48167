import TaskFlow.Decimal.Shortest
import TaskFlow.Json.Numeral

/-! # What a numeral stands for

A numeral without point and exponent is an integer if it fits 64 bits.  Any other numeral is a
binary fraction: its leading digits, as many as fit 64 bits, are rounded and then multiplied or
divided by a power of ten.  A numeral beyond the largest binary fraction stands for nothing. -/

namespace TaskFlow.Json

/-- The value of a numeral. -/
inductive Number
  | integer (i : Int)
  | float (negative : Bool) (magnitude : Binary64)
deriving DecidableEq, Repr

namespace Numeral

/-- The largest significand. -/
def maxSignificand : Nat :=
  18446744073709551615

/-- Leaves off digits at the end until the number fits, and counts them. -/
def fitWhole (n : Nat) : Nat × Nat :=
  if n ≤ maxSignificand then (n, 0)
  else
    let r := fitWhole (n / 10)
    (r.1, r.2 + 1)
termination_by n
decreasing_by
  unfold maxSignificand at *
  omega

/-- Appends digits after the point as long as the number fits, and counts them. -/
def fitFraction (n : Nat) : List (Fin 10) → Nat × Nat
  | [] => (n, 0)
  | d :: ds =>
    if n * 10 + d.val ≤ maxSignificand then
      let r := fitFraction (n * 10 + d.val) ds
      (r.1, r.2 + 1)
    else (n, 0)

/-- The significand and the power of ten that belongs to it, without the written exponent. -/
def significand (n : Numeral) : Nat × Int :=
  let w := fitWhole n.whole
  let f := fitFraction w.1 n.fraction
  (f.1, (w.2 : Int) - f.2)

/-- The largest power of ten that is divided by at once. -/
def maxPower : Nat :=
  308

/-- Divides by the largest power `n` times, or until nothing is left. -/
def divideRepeatedly : Nat → Binary64 → Option Binary64
  | 0, x => some x
  | n + 1, x =>
    if x.significand = 0 then some x
    else
      (Binary64.pow10 maxPower).bind fun y => (x.div y).bind (divideRepeatedly n)

/-- Divides by `10 ^ k`: first by the largest power as often as it takes, then by what remains. -/
def scaleDown (x : Binary64) (k : Nat) : Option Binary64 := do
  let times := (k - 1) / maxPower
  let y ← divideRepeatedly times x
  y.div (← Binary64.pow10 (k - maxPower * times))

/-- Multiplies by a power of ten. -/
def scale (x : Binary64) (k : Int) : Option Binary64 :=
  if k < 0 then scaleDown x (-k).toNat
  else if k ≤ maxPower then do
    x.mul (← Binary64.pow10 k.toNat)
  else if x.significand = 0 then some x
  else none

/-- The largest written exponent that is looked at digit by digit. -/
def maxExponent : Nat :=
  2147483647

/-- The size of a numeral as a binary fraction. -/
def magnitude? (n : Numeral) : Option Binary64 :=
  let s := n.significand
  let e := n.exponent.getD 0
  if maxExponent < e.natAbs then
    if s.1 = 0 ∨ e < 0 then some .zero else none
  else do
    scale (← Binary64.nearest s.1 1) (s.2 + e)

/-- The value of a numeral, unless it is too large. -/
def number? (n : Numeral) : Option Number :=
  if n.fraction = [] ∧ n.exponent = none ∧ n.whole ≤ maxSignificand
      ∧ (n.negative → 0 < n.whole ∧ n.whole ≤ 9223372036854775808) then
    some (.integer (if n.negative then -n.whole else n.whole))
  else n.magnitude?.map (.float n.negative)

end Numeral

/-! ### Texts of numbers -/

/-- An exponent with its letter and its sign, which is written in either case. -/
def exponentText (e : Int) : List Char :=
  'e' :: (if e < 0 then '-' else '+') :: Nat.toDigits 10 e.natAbs

/-- A decimal without an exponent when its point stands at most 16 places behind its first digit and
at most 4 zeros stand between them, and with one otherwise. -/
def decimalText (x : Decimal) : String :=
  let ds := (Nat.toDigits 10 x.digits)
  let point : Int := ds.length + x.exponent
  String.ofList <|
    if 0 ≤ x.exponent ∧ point ≤ 16 then
      ds ++ List.replicate x.exponent.toNat '0' ++ ['.', '0']
    else if 0 < point ∧ point ≤ 16 then
      ds.take point.toNat ++ '.' :: ds.drop point.toNat
    else if -5 < point ∧ point ≤ 0 then
      ['0', '.'] ++ List.replicate (-point).toNat '0' ++ ds
    else
      ds.take 1 ++ (if ds.length = 1 then [] else '.' :: ds.drop 1) ++ exponentText (point - 1)

/-- The text of a number. -/
def Number.text : Number → String
  | .integer i => i.repr
  | .float negative x => (if negative then "-" else "") ++ decimalText x.shortest

end TaskFlow.Json
