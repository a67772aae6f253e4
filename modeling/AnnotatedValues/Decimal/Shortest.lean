import AnnotatedValues.Decimal.Binary64

/-! # The fewest digits that read back

The decimal digits of a floating-point number are the fewest that are nearer to it than to any
other such number; among those of one length the nearest, and of two equally near the even one.
The search runs over grids of decimal numbers with 1, 2, … 17 digits, in exact arithmetic. -/
namespace AnnotatedValues.Decimal

/-- The interval of the real numbers that round to a given number, in quarters of its unit: all
three members count units of `2 ^ exponent / 4`. The ends belong to it when `closed`. -/
structure RoundingInterval where
  low : Nat
  value : Nat
  high : Nat
  closed : Bool
  exponent : Int
  deriving Repr, DecidableEq

/-- Below a power of two the neighbours are twice as dense as above it. -/
def Binary64.interval (x : Binary64) : RoundingInterval where
  low := if x.significand == Nat.pow 2 52 && x.exponent != Binary64.leastExponent
    then 4 * x.significand - 1 else 4 * x.significand - 2
  value := 4 * x.significand
  high := 4 * x.significand + 2
  closed := x.significand % 2 == 0
  exponent := x.exponent

/-- Digits and the power of ten of the last one. -/
structure Digits where
  digits : Nat
  power : Int
  deriving Repr, DecidableEq

namespace RoundingInterval

/-- `interval` scaled so that one step of the grid `10 ^ power` is `step`: the members of the
interval and the grid are then natural numbers. -/
structure OnGrid where
  low : Nat
  value : Nat
  high : Nat
  step : Nat

def onGrid (i : RoundingInterval) (power : Int) : OnGrid :=
  let twos := i.exponent - 2
  let up := Nat.pow 2 twos.toNat * Nat.pow 10 (-power).toNat
  ⟨i.low * up, i.value * up, i.high * up, Nat.pow 10 power.toNat * Nat.pow 2 (-twos).toNat⟩

/-- Whether the grid point number `k` lies in the interval. -/
def OnGrid.holds (g : OnGrid) (closed : Bool) (k : Nat) : Bool :=
  if closed then g.low ≤ k * g.step && k * g.step ≤ g.high
  else g.low < k * g.step && k * g.step < g.high

/-- Of the two grid points around the value, the one in the interval that is nearest to it. -/
def nearest? (i : RoundingInterval) (power : Int) : Option Nat :=
  let g := i.onGrid power
  let below := g.value / g.step
  let rest := g.value % g.step
  match g.holds i.closed below, g.holds i.closed (below + 1) with
  | true, false => some below
  | false, true => some (below + 1)
  | false, false => none
  | true, true =>
    if 2 * rest < g.step then some below
    else if g.step < 2 * rest then some (below + 1)
    else if below % 2 == 0 then some below else some (below + 1)

/-- The first grid with a point in the interval, from the coarsest down. -/
def search (i : RoundingInterval) (power : Int) : Nat → Digits
  | 0 => ⟨i.nearest? power |>.getD 0, power⟩
  | tries + 1 =>
    match i.nearest? power with
    | some digits => if digits == 0 then search i (power - 1) tries else ⟨digits, power⟩
    | none => search i (power - 1) tries

end RoundingInterval

/-- A power of ten that is no less than the number of decimal digits before the point. -/
def Binary64.decimalBound (x : Binary64) : Int :=
  ((x.significand.log2 + 1 + x.exponent) * 30103).fdiv 100000 + 1

/-- Removes zeros from the end. -/
def Digits.normalize (d : Digits) : Nat → Digits
  | 0 => d
  | n + 1 =>
    if d.digits != 0 && d.digits % 10 == 0 then normalize ⟨d.digits / 10, d.power + 1⟩ n else d

/-- The shortest digits of the absolute value of a number. -/
def Binary64.shortest (x : Binary64) : Digits :=
  if x.significand == 0 then ⟨0, 0⟩
  else (x.interval.search x.decimalBound 20).normalize 20

end AnnotatedValues.Decimal
