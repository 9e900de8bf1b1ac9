import RequestFlow.Decimal.Shortest

/-!
# Numbers of the data format

A number is an integer of the signed or unsigned 64-bit range or a finite binary64
number.  A numeral is the number as it is written; `Numeral.value?` reads it and
fails only beyond the range of binary64. Whole numerals without fraction and
exponent are integers while they fit, and `-0` is not one.  All others are read as
a significand of at most 64 bits, scaled by powers of ten with one rounding each.
-/

namespace RequestFlow.Json

open RequestFlow.Decimal

/-- A number: an integer or a binary64 number. -/
inductive Number where
  /-- An integer of the signed or unsigned 64-bit range. -/
  | integer (value : Int)
  | real (value : Binary64)
  deriving DecidableEq

instance : Inhabited Number := ⟨.integer 0⟩

namespace Number

/-- The number as a binary64 number, rounded. -/
def toReal : Number → Binary64
  | integer value => .ofInt value
  | real value => value

/-- Two numbers are of one kind and have the same value. -/
def sameAs : Number → Number → Bool
  | integer left, integer right => left == right
  | real left, real right => left.sameValue right
  | _, _ => false

/-- The numeric value is not zero. -/
def isNonzero (number : Number) : Bool :=
  !number.toReal.isZero

/-- Positional text reaches from five places behind the point to sixteen before
it. -/
def realLayout : Layout := ⟨-5, 15, "+"⟩

/-- The text of a number. -/
def text : Number → String
  | integer value => toString value
  | real value => value.text realLayout

@[simp] theorem sameAs_refl (number : Number) : number.sameAs number = true := by
  cases number <;> simp [sameAs]

end Number

/-- A number as it is written. -/
structure Numeral where
  negative : Bool
  whole : List Char
  /-- The digits behind the point, if there is one. -/
  fraction : Option (List Char)
  /-- The sign and the digits of the exponent, if there is one. -/
  exponent : Option (Bool × List Char)
  deriving DecidableEq

/-- The value of a decimal digit. -/
def digitValue (digit : Char) : Nat :=
  digit.toNat - '0'.toNat

/-- The value of a run of decimal digits. -/
def digitsValue (digits : List Char) : Nat :=
  digits.foldl (fun value digit => value * 10 + digitValue digit) 0

/-- Reads digits into a value as long as it stays within a bound, and returns the
digits left over. -/
def accumulate (bound : Nat) : Nat → List Char → Nat × List Char
  | value, [] => (value, [])
  | value, digit :: digits =>
      let next := value * 10 + digitValue digit
      if bound < next then (value, digit :: digits)
      else accumulate bound next digits

/-- The greatest significand that is kept exactly. -/
def significandBound : Nat := twoTo 64 - 1

/-- The greatest power of ten that is a binary64 number. -/
@[irreducible] def greatestTen : Nat := 308

/-- The number scaled by a power of ten, in steps that a binary64 power of ten can
make; three steps take any significand to zero. -/
def scaleTen? : Nat → Binary64 → Int → Option Binary64
  | 0, value, _ => some value
  | steps + 1, value, exponent =>
      if exponent.natAbs ≤ greatestTen then
        if 0 ≤ exponent then value.mul? (.tenPow exponent.natAbs)
        else value.div? (.tenPow exponent.natAbs)
      else if value.isZero then some value
      else if 0 ≤ exponent then none
      else (value.div? (.tenPow greatestTen)).bind fun next =>
        scaleTen? steps next (exponent + greatestTen)

namespace Numeral

/-- The power of ten that the exponent part stands for. -/
def exponentValue (numeral : Numeral) : Int :=
  match numeral.exponent with
  | none => 0
  | some (negative, digits) =>
      if negative then -(digitsValue digits : Int) else digitsValue digits

/-- The number that a numeral stands for, unless it is beyond the range of
binary64. -/
def value? (numeral : Numeral) : Option Number :=
  let whole := accumulate significandBound 0 numeral.whole
  let plain :=
    numeral.fraction.isNone && numeral.exponent.isNone && whole.2.isEmpty
  if plain && !numeral.negative then some (.integer whole.1)
  else if plain && 0 < whole.1 && whole.1 ≤ twoTo 63 then
    some (.integer (-(whole.1 : Int)))
  else
    let digits := numeral.fraction.getD []
    let fraction := accumulate significandBound whole.1 digits
    let places : Int :=
      (whole.2.length : Int) - (digits.length - fraction.2.length)
    let significand := Binary64.ofNat fraction.1
    (scaleTen? 4 significand (places + numeral.exponentValue)).map fun magnitude =>
      .real (if numeral.negative then magnitude.neg else magnitude)

end Numeral

end RequestFlow.Json
