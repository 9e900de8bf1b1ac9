import RequestFlow.Decimal.Binary64

/-!
# The shortest decimal of a binary64 number

A number stands for every real that rounds to it.  Its shortest decimal has the
fewest digits among the decimals in that interval, and of those it is the one
nearest to the number.  The search walks the decimal grids from one digit to
seventeen and tests, on each, the two neighbours of the number in exact
arithmetic.
-/

namespace RequestFlow.Decimal

/-- A decimal: the digits as a natural number times ten to a power. -/
structure Numeral where
  digits : Nat
  power : Int
  deriving DecidableEq

/-- The number of decimal digits of a natural number. -/
def digitCount (value : Nat) : Nat :=
  (Nat.toDigits 10 value).length

/-- A fraction of natural numbers. -/
structure Fraction where
  numerator : Nat
  denominator : Nat

namespace Fraction

/-- The fraction divided by a power of ten. -/
def downTen (fraction : Fraction) (power : Int) : Fraction :=
  if 0 ≤ power then ⟨fraction.numerator, fraction.denominator * tenTo power.toNat⟩
  else ⟨fraction.numerator * tenTo (-power).toNat, fraction.denominator⟩

/-- The order of fractions. -/
def less (left right : Fraction) : Bool :=
  decide (left.numerator * right.denominator < right.numerator * left.denominator)

/-- Steps up to the first power of ten that lifts the fraction to one. -/
def liftPower (fraction : Fraction) : Nat → Nat → Nat
  | 0, power => power
  | steps + 1, power =>
      if fraction.denominator ≤ fraction.numerator * tenTo power then power
      else liftPower fraction steps (power + 1)

/-- The place of the first digit: the greatest power of ten that is not above the
fraction. -/
def leadingPower (fraction : Fraction) : Int :=
  if fraction.denominator ≤ fraction.numerator then
    (digitCount (fraction.numerator / fraction.denominator) : Int) - 1
  else
    -(fraction.liftPower 4
      (digitCount fraction.denominator - digitCount fraction.numerator - 1) : Int)

end Fraction

/-- The reals that round to a number. -/
structure Interval where
  low : Fraction
  high : Fraction
  /-- The ends belong to the interval. -/
  closed : Bool

/-- A fraction lies in the interval. -/
def Interval.holds (interval : Interval) (fraction : Fraction) : Bool :=
  if interval.closed then
    !fraction.less interval.low && !interval.high.less fraction
  else interval.low.less fraction && fraction.less interval.high

namespace Binary64

/-- A quarter of a unit of the significand, times a natural number. -/
def quarters (number : Binary64) (count : Nat) : Fraction :=
  if 0 ≤ number.exponent then ⟨count * twoTo number.exponent.toNat, 4⟩
  else ⟨count, 4 * twoTo (-number.exponent).toNat⟩

/-- The reals that round to a positive number: half a unit to each side, and a
quarter below a power of two, where the numbers lie closer. -/
def interval (number : Binary64) : Interval :=
  let below :=
    if number.significand == twoTo 52 && leastExponent < number.exponent then 1
    else 2
  ⟨number.quarters (4 * number.significand - below),
    number.quarters (4 * number.significand + 2), number.significand % 2 == 0⟩

/-- The value as a fraction. -/
def fraction (number : Binary64) : Fraction :=
  ⟨number.magnitude.1, number.magnitude.2⟩

/-- The neighbour of the value on a decimal grid that rounds to the number, the
nearer one if both do. -/
def onGrid? (number : Binary64) (power : Int) : Option Numeral :=
  let scaled := number.fraction.downTen power
  let floor := scaled.numerator / scaled.denominator
  let rest := scaled.numerator % scaled.denominator
  let holds (digits : Nat) : Bool :=
    number.interval.holds ((Fraction.mk digits 1).downTen (-power))
  let lower := if floor == 0 then false else holds floor
  if rest == 0 then (if lower then some ⟨floor, power⟩ else none)
  else
    match lower, holds (floor + 1) with
    | false, false => none
    | true, false => some ⟨floor, power⟩
    | false, true => some ⟨floor + 1, power⟩
    | true, true =>
        if 2 * rest < scaled.denominator ||
            (2 * rest == scaled.denominator && floor % 2 == 0) then
          some ⟨floor, power⟩
        else some ⟨floor + 1, power⟩

/-- Tries the grids of one digit more each time. -/
def searchGrids (number : Binary64) : Nat → Int → Numeral
  | 0, power => (number.onGrid? power).getD ⟨0, 0⟩
  | grids + 1, power =>
      match number.onGrid? power with
      | some decimal => decimal
      | none => searchGrids number grids (power - 1)

/-- The digits of a decimal without zeros at the end. -/
def dropZeros : Nat → Numeral → Numeral
  | 0, decimal => decimal
  | steps + 1, decimal =>
      if decimal.digits ≠ 0 ∧ decimal.digits % 10 = 0 then
        dropZeros steps ⟨decimal.digits / 10, decimal.power + 1⟩
      else decimal

/-- The shortest decimal that reads back as the number, its sign apart. -/
def shortest (number : Binary64) : Numeral :=
  if number.isZero then ⟨0, 0⟩
  else dropZeros 20 (number.searchGrids 17 number.fraction.leadingPower)

end Binary64

/-- Where a number's text is positional and how its exponent is written. -/
structure Layout where
  /-- Positional text begins at this power of ten of the first digit. -/
  leastPlace : Int
  /-- Positional text ends at this power of ten of the first digit. -/
  greatestPlace : Int
  /-- The text of a positive exponent's sign. -/
  plus : String

/-- The text of a number: positional within the layout's places and always with a
point, else with an exponent. -/
def Binary64.text (layout : Layout) (number : Binary64) : String :=
  let decimal := number.shortest
  let digits := Nat.toDigits 10 decimal.digits
  let place : Int := digits.length + decimal.power - 1
  let sign := if number.negative then "-" else ""
  let zeros (count : Int) : List Char := List.replicate count.toNat '0'
  let body : List Char :=
    if number.isZero then ['0', '.', '0']
    else if layout.leastPlace ≤ place && place ≤ layout.greatestPlace then
      if 0 ≤ decimal.power then digits ++ zeros decimal.power ++ ['.', '0']
      else if 0 ≤ place then
        digits.take (place + 1).toNat ++ ['.'] ++ digits.drop (place + 1).toNat
      else ['0', '.'] ++ zeros (-place - 1) ++ digits
    else
      let mantissa :=
        match digits with
        | [] => []
        | [digit] => [digit]
        | digit :: more => digit :: '.' :: more
      let exponent :=
        if 0 ≤ place then layout.plus.toList ++ Nat.toDigits 10 place.toNat
        else '-' :: Nat.toDigits 10 (-place).toNat
      mantissa ++ 'e' :: exponent
  sign ++ String.ofList body

end RequestFlow.Decimal
