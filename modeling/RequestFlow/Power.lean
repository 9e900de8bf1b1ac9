/-!
# Powers

Powers of two, which bound what fits into a number of bits, and powers of ten,
which give digits their places.  The main statements are their equations, and that
they are positive.
-/

namespace RequestFlow

/-- Two to a power. -/
def twoTo (exponent : Nat) : Nat :=
  Nat.pow 2 exponent

/-- Ten to a power. -/
def tenTo (exponent : Nat) : Nat :=
  Nat.pow 10 exponent

@[simp] theorem twoTo_zero : twoTo 0 = 1 := rfl

theorem twoTo_succ (exponent : Nat) : twoTo (exponent + 1) = twoTo exponent * 2 :=
  rfl

theorem twoTo_pos (exponent : Nat) : 0 < twoTo exponent :=
  Nat.pow_pos (by decide)

@[simp] theorem tenTo_zero : tenTo 0 = 1 := rfl

theorem tenTo_succ (exponent : Nat) : tenTo (exponent + 1) = tenTo exponent * 10 :=
  rfl

theorem tenTo_pos (exponent : Nat) : 0 < tenTo exponent :=
  Nat.pow_pos (by decide)

end RequestFlow
