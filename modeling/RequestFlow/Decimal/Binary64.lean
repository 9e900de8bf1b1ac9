import RequestFlow.Power

/-!
# Finite binary64 numbers

A finite number of the format binary64 is a sign, a significand below 2^53 and an
exponent of two. Arithmetic is exact rational arithmetic followed by one rounding:
to the nearest number, and of two equally near ones to the one with the even
significand.  A result beyond the largest number is no number.
-/

namespace RequestFlow.Decimal

/-- A finite binary64 number: the significand times two to the exponent, with a
sign. -/
structure Binary64 where
  negative : Bool
  /-- The significand, below 2^53. -/
  significand : Nat
  exponent : Int
  deriving DecidableEq

namespace Binary64

/-- The smallest exponent, that of the subnormal numbers. -/
def leastExponent : Int := -1074

/-- The greatest exponent. -/
def greatestExponent : Int := 971

/-- Zero with a sign. -/
def zero (negative : Bool) : Binary64 :=
  ⟨negative, 0, leastExponent⟩

instance : Inhabited Binary64 := ⟨zero false⟩

/-- The value is zero, with either sign. -/
def isZero (number : Binary64) : Bool :=
  number.significand == 0

/-- The number with the other sign. -/
def neg (number : Binary64) : Binary64 :=
  { number with negative := !number.negative }

/-- Two numbers have the same value; the two zeros do. -/
def sameValue (left right : Binary64) : Bool :=
  (left.isZero && right.isZero) || left == right

/-- The quotient rounded to the nearest natural number, a half to the even one. -/
def roundDiv (numerator denominator : Nat) : Nat :=
  let quotient := numerator / denominator
  let twice := 2 * (numerator % denominator)
  if twice < denominator then quotient
  else if denominator < twice then quotient + 1
  else if quotient % 2 == 0 then quotient
  else quotient + 1

/-- The fraction divided by a power of two, as a fraction. -/
def scale (numerator denominator : Nat) (exponent : Int) : Nat × Nat :=
  if 0 ≤ exponent then (numerator, denominator * twoTo exponent.toNat)
  else (numerator * twoTo (-exponent).toNat, denominator)

/-- The exponent at which the fraction has a significand of 53 bits, or the least
exponent. -/
def exponentFor (numerator denominator : Nat) : Int :=
  let guess : Int := (numerator.log2 : Int) - denominator.log2 - 52
  let scaled := scale numerator denominator guess
  let exact := if scaled.1 < scaled.2 * twoTo 52 then guess - 1 else guess
  max exact leastExponent

/-- The binary64 number nearest to a fraction, if there is one. -/
def ofRatio? (negative : Bool) (numerator denominator : Nat) : Option Binary64 :=
  if numerator == 0 then some (zero negative)
  else
    let exponent := exponentFor numerator denominator
    let scaled := scale numerator denominator exponent
    let significand := roundDiv scaled.1 scaled.2
    let number : Binary64 :=
      if significand == twoTo 53 then ⟨negative, twoTo 52, exponent + 1⟩
      else ⟨negative, significand, exponent⟩
    if greatestExponent < number.exponent then none else some number

/-- The number nearest to a natural number below 2^1023. -/
def ofNat (value : Nat) : Binary64 :=
  (ofRatio? false value 1).getD (zero false)

/-- The number nearest to an integer of magnitude below 2^1023. -/
def ofInt (value : Int) : Binary64 :=
  (ofRatio? (decide (value < 0)) value.natAbs 1).getD (zero false)

/-- The number nearest to a power of ten up to 10^308. -/
def tenPow (power : Nat) : Binary64 :=
  ofNat (tenTo power)

/-- The fraction that a number's magnitude is. -/
def magnitude (number : Binary64) : Nat × Nat :=
  if 0 ≤ number.exponent then (number.significand * twoTo number.exponent.toNat, 1)
  else (number.significand, twoTo (-number.exponent).toNat)

/-- The rounded product, if it is within range. -/
def mul? (left right : Binary64) : Option Binary64 :=
  ofRatio? (left.negative != right.negative) (left.magnitude.1 * right.magnitude.1)
    (left.magnitude.2 * right.magnitude.2)

/-- The rounded quotient, if it is within range. -/
def div? (left right : Binary64) : Option Binary64 :=
  ofRatio? (left.negative != right.negative) (left.magnitude.1 * right.magnitude.2)
    (left.magnitude.2 * right.magnitude.1)

@[simp]
theorem sameValue_refl (number : Binary64) : number.sameValue number = true := by
  simp [sameValue]

theorem sameValue_comm (left right : Binary64) :
    left.sameValue right = right.sameValue left := by
  simp [sameValue, Bool.and_comm, BEq.comm]

example : ofNat 9007199254740993 = ofNat 9007199254740992 := by decide +kernel

example : (tenPow 308).mul? (tenPow 1) = none := by decide +kernel

end Binary64

end RequestFlow.Decimal
