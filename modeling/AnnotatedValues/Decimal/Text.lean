import AnnotatedValues.Decimal.Shortest

/-! # Decimal numbers as text

Writing: a number with a decimal exponent from -5 to 15 is written positionally and always with a
point, any other with one digit before the point and an exponent. Two formats differ in the sign
of a positive exponent. Reading: an optional sign, digits with an optional point, an optional
exponent. -/
namespace AnnotatedValues.Decimal

/-- The one choice the written forms leave open. -/
structure ExponentFormat where
  plusSign : Bool
  deriving Repr, DecidableEq

def digitChar (n : Nat) : Char := Char.ofNat ('0'.toNat + n)

/-- The decimal digits of a natural number, at most `fuel` of them. -/
def digitsWithin : (fuel n : Nat) → List Char → List Char
  | 0, _, written => written
  | fuel + 1, n, written =>
    if n < 10 then digitChar n :: written
    else digitsWithin fuel (n / 10) (digitChar (n % 10) :: written)

def natText (n : Nat) : List Char := digitsWithin (n + 1) n []

def intText (n : Int) : List Char :=
  if n < 0 then '-' :: natText n.natAbs else natText n.natAbs

/-- `digits`, the first of which stands before a point `point` places to its right. -/
def positional (digits : List Char) (point : Int) : List Char :=
  if point ≤ 0 then '0' :: '.' :: List.replicate (-point).toNat '0' ++ digits
  else if digits.length ≤ point.toNat then
    digits ++ List.replicate (point.toNat - digits.length) '0' ++ ['.', '0']
  else digits.take point.toNat ++ '.' :: digits.drop point.toNat

def scientific (format : ExponentFormat) (digits : List Char) (exponent : Int) : List Char :=
  let mantissa := match digits with
    | first :: second :: rest => first :: '.' :: second :: rest
    | short => short
  let sign := if format.plusSign && 0 ≤ exponent then ['+'] else []
  mantissa ++ 'e' :: sign ++ intText exponent

/-- The absolute value of a number as text. -/
def Binary64.magnitudeText (format : ExponentFormat) (x : Binary64) : List Char :=
  if x.significand == 0 then ['0', '.', '0']
  else
    let shortest := x.shortest
    let digits := natText shortest.digits
    let point := digits.length + shortest.power
    if -5 < point && point ≤ 16 then positional digits point
    else scientific format digits (point - 1)

def Binary64.text (format : ExponentFormat) (x : Binary64) : List Char :=
  if x.negative then '-' :: x.magnitudeText format else x.magnitudeText format

/-- The value of a digit in bases up to sixteen, letters in either case. -/
def digitValue? (base : Nat) (c : Char) : Option Nat :=
  let n := c.toNat
  let value? :=
    if '0' ≤ c && c ≤ '9' then some (n - '0'.toNat)
    else if 'a' ≤ c && c ≤ 'f' then some (n - 'a'.toNat + 10)
    else if 'A' ≤ c && c ≤ 'F' then some (n - 'A'.toNat + 10)
    else none
  value?.filter (· < base)

/-- The number that the digits denote, read on from `value`. -/
def readDigits? (base : Nat) : (value : Nat) → List Char → Option Nat
  | value, [] => some value
  | value, c :: cs =>
    match digitValue? base c with
    | some digit => readDigits? base (value * base + digit) cs
    | none => none

/-- A natural number in the given base: at least one digit and nothing else. -/
def readNat? (base : Nat) : List Char → Option Nat
  | [] => none
  | cs => readDigits? base 0 cs

/-- Splits a sign off: whether it was a minus, and the rest. -/
def splitSign : List Char → Bool × List Char
  | '-' :: cs => (true, cs)
  | '+' :: cs => (false, cs)
  | cs => (false, cs)

/-- A decimal integer with an optional sign. -/
def readInt? (cs : List Char) : Option Int :=
  let (negative, digits) := splitSign cs
  (readNat? 10 digits).map fun n => if negative then -(n : Int) else n

/-- The exponent part of a number: nothing, or `e`, an optional sign and digits. -/
def readExponent? : List Char → Option Int
  | [] => some 0
  | c :: cs => if c == 'e' || c == 'E' then readInt? cs else none

def isDecimalDigit (c : Char) : Bool := '0' ≤ c && c ≤ '9'

/-- A decimal number with an optional sign, point and exponent, rounded to the nearest number;
`none` for other text and beyond the range. -/
def readBinary64? (cs : List Char) : Option Binary64 :=
  let (negative, cs) := splitSign cs
  let whole := cs.takeWhile isDecimalDigit
  let rest := cs.dropWhile isDecimalDigit
  let (fraction, rest) := match rest with
    | '.' :: rest => (rest.takeWhile isDecimalDigit, rest.dropWhile isDecimalDigit)
    | rest => ([], rest)
  if whole.isEmpty && fraction.isEmpty then none
  else
    match readExponent? rest, readDigits? 10 0 (whole ++ fraction) with
    | some exponent, some digits =>
      let significant := (whole ++ fraction).dropWhile (· == '0')
      Binary64.ofDecimal? negative digits significant.length (exponent - fraction.length)
    | _, _ => none

end AnnotatedValues.Decimal
