import RequestFlow.Decimal.Binary64
import RequestFlow.Text.Digits
import RequestFlow.Text.Search

/-!
# Types of plain scalars

A plain scalar can stand for nothing, a truth value or a number.  A text that
looks like one of these has to be quoted where it is meant as a text; so has a
number with needless zeros in front.
-/

namespace RequestFlow.Yaml.PlainType

/-- The plain scalars that stand for nothing, the empty one apart. -/
def nulls : List String := ["null", "Null", "NULL", "~"]

/-- The truth value of a plain scalar. -/
def flag? (text : String) : Option Bool :=
  if ["true", "True", "TRUE"].contains text then some true
  else if ["false", "False", "FALSE"].contains text then some false
  else none

/-- The number in digits of the base that a mark in front names. -/
def markedNumber? : List Char → Option Nat
  | '0' :: 'x' :: digits => Text.natural? 16 digits
  | '0' :: 'o' :: digits => Text.natural? 8 digits
  | '0' :: 'b' :: digits => Text.natural? 2 digits
  | _ => none

/-- A needless zero is in front of digits. -/
def hasLeadingZero (digits : List Char) : Bool :=
  1 < digits.length && digits.head? == some '0' && digits.all Char.isDigit

/-- A text without a plus sign in front. -/
def unsigned (text : List Char) : List Char :=
  if text.head? == some '+' then text.drop 1 else text

/-- The natural number of a plain scalar, a plus sign allowed. -/
def natural? (text : String) : Option Nat :=
  let digits := unsigned text.toList
  if hasLeadingZero digits then none
  else (markedNumber? digits).or (Text.natural? 10 digits)

/-- A number with the mark of a base, within 128 bits. -/
def isMarkedInteger (text : List Char) : Bool :=
  match text with
  | '-' :: digits => (markedNumber? digits).any fun value => value ≤ twoTo 127
  | _ => (markedNumber? (unsigned text)).any fun value => value < twoTo 128

/-- Digits, a point among them allowed: all digits, and how many are behind the
point. -/
def mantissa? (text : List Char) : Option (List Char × Nat × List Char) :=
  let whole := text.takeWhile Char.isDigit
  let rest := text.drop whole.length
  let fraction :=
    if rest.head? == some '.' then (rest.drop 1).takeWhile Char.isDigit else []
  let rest :=
    if rest.head? == some '.' then rest.drop (1 + fraction.length) else rest
  if whole.isEmpty && fraction.isEmpty then none
  else some (whole ++ fraction, fraction.length, rest)

/-- The power of ten behind digits, up to the end of a text. -/
def exponent? (text : List Char) : Option Int :=
  match text with
  | [] => some 0
  | mark :: rest =>
      if mark == 'e' || mark == 'E' then
        match rest with
        | '-' :: digits =>
            (Text.natural? 10 digits).map fun value => -(value : Int)
        | _ => (Text.natural? 10 (unsigned rest)).map fun value => (value : Int)
      else none

/-- The greatest number of decimal digits that the range of binary64 can call
for. -/
def decimalRange : Int := 400

/-- The number times a power of ten is in the range of binary64. -/
def isInRange (value : Nat) (digits : Nat) (exponent : Int) : Bool :=
  if value = 0 || exponent + digits < -decimalRange then true
  else if decimalRange < exponent + digits then false
  else if 0 ≤ exponent then
    (Decimal.Binary64.ofRatio? false (value * tenTo exponent.toNat) 1).isSome
  else (Decimal.Binary64.ofRatio? false value (tenTo (-exponent).toNat)).isSome

/-- A decimal number within the range of binary64. -/
def isDecimal (text : List Char) : Bool :=
  let number := if text.head? == some '-' then text.drop 1 else unsigned text
  match mantissa? number with
  | none => false
  | some (digits, places, rest) =>
      match exponent? rest with
      | none => false
      | some exponent =>
          let value := (Text.natural? 10 digits).getD 0
          let significant := digits.dropWhile fun digit => digit == '0'
          isInRange value significant.length (exponent - places)

/-- The plain scalars that stand for numbers beyond the finite ones. -/
def nonFinite : List String :=
  [".inf", ".Inf", ".INF", "+.inf", "+.Inf", "+.INF", "-.inf", "-.Inf", "-.INF",
    ".nan", ".NaN", ".NAN"]

/-- A plain scalar with this text would not be read as a text, or looks like a
number. -/
def isTyped (text : String) : Bool :=
  let characters := text.toList
  let digits :=
    if characters.head? == some '-' then characters.drop 1 else unsigned characters
  text.isEmpty || nulls.contains text || (flag? text).isSome ||
    nonFinite.contains text || hasLeadingZero digits ||
    isMarkedInteger characters || isDecimal characters

end RequestFlow.Yaml.PlainType
