/-! # Finite binary floating-point numbers

A number is a sign, a significand below `2 ^ 53` and a power of two. The significand is at least
`2 ^ 52` unless the exponent is the least one, so that equal numbers are equal values; the two
zeros differ. A quotient of natural numbers is rounded to the nearest such number, a tie to the
even significand. -/
namespace AnnotatedValues.Decimal

/-- The number `(-1) ^ negative * significand * 2 ^ exponent`. -/
structure Binary64 where
  negative : Bool
  significand : Nat
  exponent : Int
  deriving DecidableEq, Repr, Inhabited

namespace Binary64

def leastExponent : Int := -1074

def greatestExponent : Int := 971

def zero (negative : Bool) : Binary64 := ⟨negative, 0, leastExponent⟩

/-- `numerator / denominator` to the nearest natural number, a tie to the even one. -/
def roundQuotient (numerator denominator : Nat) : Nat :=
  let quotient := numerator / denominator
  let twice := 2 * (numerator % denominator)
  if twice < denominator then quotient
  else if denominator < twice then quotient + 1
  else if quotient % 2 == 0 then quotient else quotient + 1

/-- The significand of `numerator / denominator` in units of `2 ^ exponent`. -/
def scaled (numerator denominator : Nat) (exponent : Int) : Nat :=
  if exponent < 0 then roundQuotient (numerator * Nat.pow 2 (-exponent).toNat) denominator
  else roundQuotient numerator (denominator * Nat.pow 2 exponent.toNat)

/-- The least power of two in whose units the quotient is below `2 ^ 53`, but never below the
least exponent. -/
def unitExponent (numerator denominator : Nat) : Int :=
  let guess := (numerator.log2 : Int) - denominator.log2 - 52
  let isBelow :=
    if guess < 1 then
      numerator * Nat.pow 2 (1 - guess).toNat < denominator * Nat.pow 2 53
    else numerator < denominator * Nat.pow 2 (53 + (guess - 1).toNat)
  max leastExponent (if isBelow then guess - 1 else guess)

/-- The quotient rounded to the nearest number; `none` when that would be beyond the greatest. -/
def ofQuotient? (negative : Bool) (numerator denominator : Nat) : Option Binary64 :=
  if numerator == 0 then some (zero negative)
  else
    let exponent := unitExponent numerator denominator
    let significand := scaled numerator denominator exponent
    let rounded : Binary64 :=
      if significand == Nat.pow 2 53 then ⟨negative, Nat.pow 2 52, exponent + 1⟩
      else ⟨negative, significand, exponent⟩
    if greatestExponent < rounded.exponent then none else some rounded

/-- `digits * 10 ^ power` rounded to the nearest number, where `count` is the number of decimal
digits of `digits`. Far outside the range of the numbers the power of ten is never computed. -/
def ofDecimal? (negative : Bool) (digits count : Nat) (power : Int) : Option Binary64 :=
  if digits == 0 then some (zero negative)
  else if 400 < count + power then none
  else if count + power < -400 then some (zero negative)
  else if power < 0 then ofQuotient? negative digits (Nat.pow 10 (-power).toNat)
  else ofQuotient? negative (digits * Nat.pow 10 power.toNat) 1

end Binary64

end AnnotatedValues.Decimal
