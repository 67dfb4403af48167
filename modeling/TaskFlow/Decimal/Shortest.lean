import TaskFlow.Decimal.Binary64

/-! # Shortest decimals

The decimal with the fewest digits that is nearer to a given `Binary64` than to any other.  Decimals
with few digits lie on coarse grids, the multiples of a power of ten; the coarsest grid that has a
point close enough gives the digits. -/

namespace TaskFlow

/-- The number `digits * 10 ^ exponent`. -/
structure Decimal where
  digits : Nat
  exponent : Int
deriving DecidableEq, Repr

namespace Binary64

/-- The distance from `x` to the end of the numbers below it that round to `x`, in quarters of the
last place: half a place, or a quarter where the spacing changes. -/
def roomBelow (x : Binary64) : Nat :=
  if x.significand = leastFull ∧ -1074 < x.exponent then 1 else 2

/-- The decimal `c * 10 ^ p` rounds to `x`.  The ends of the interval belong to an even `x`. -/
def accepts (x : Binary64) (p : Int) (c : Nat) : Bool :=
  let unit := ratio ⟨1, x.exponent - 2⟩
  let place := Nat.pow 10 (-p).toNat * unit.1
  let point := c * Nat.pow 10 p.toNat * unit.2
  let low := (4 * x.significand - x.roomBelow) * place
  let high := (4 * x.significand + 2) * place
  if x.significand % 2 = 0 then decide (low ≤ point) && decide (point ≤ high)
  else decide (low < point) && decide (point < high)

/-- The point nearest to `x` of those on the grid of multiples of `10 ^ p` that round to `x`; the
even one of two that are equally near. -/
def onGrid (x : Binary64) (p : Int) : Option Nat :=
  let num := x.ratio.1 * Nat.pow 10 (-p).toNat
  let den := x.ratio.2 * Nat.pow 10 p.toNat
  let c := num / den
  let best := roundEven num den
  if x.accepts p best then some best
  else if x.accepts p c then some c
  else if x.accepts p (c + 1) then some (c + 1)
  else none

/-- Tries `n` grids, each ten times finer than the one before it. -/
def search (x : Binary64) : Nat → Int → Option Decimal
  | 0, _ => none
  | n + 1, p =>
    match x.onGrid p with
    | some c => some ⟨c, p⟩
    | none => search x n (p - 1)

/-- The shortest decimal that rounds to `x`; grids finer than the 17 significant digits of the least
number are never needed. -/
def shortest (x : Binary64) : Decimal :=
  if x.significand = 0 then ⟨0, 0⟩ else (x.search 700 310).getD ⟨0, 0⟩

end Binary64

end TaskFlow
