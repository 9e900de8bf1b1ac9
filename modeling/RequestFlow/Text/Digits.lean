import RequestFlow.Power

/-!
# Digits

Natural numbers written in a base up to sixteen, with letters of either case for
the digits above nine.
-/

namespace RequestFlow.Text

/-- The value of a digit below a base. -/
def digit? (base : Nat) (character : Char) : Option Nat :=
  let value :=
    if character.isDigit then some (character.toNat - '0'.toNat)
    else if 'a' ≤ character && character ≤ 'f' then
      some (character.toNat - 'a'.toNat + 10)
    else if 'A' ≤ character && character ≤ 'F' then
      some (character.toNat - 'A'.toNat + 10)
    else none
  value.filter fun value => value < base

theorem digit?_lt {base value : Nat} {character : Char}
    (read : digit? base character = some value) : value < base := by
  simpa using (Option.filter_eq_some_iff.mp read).2

/-- The number written in digits of a base, most significant first; no digits
write none. -/
def natural? (base : Nat) (digits : List Char) : Option Nat :=
  if digits.isEmpty then none
  else
    digits.foldlM
      (fun value character => (digit? base character).map (value * base + ·)) 0

/-- The bound of natural numbers of 64 bits. -/
def naturalBound : Nat := twoTo 64

end RequestFlow.Text
