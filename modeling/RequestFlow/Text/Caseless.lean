/-!
# Letters of either case

Names are compared without regard to the case of the letters `A` to `Z`; every
other character is compared as it stands.  `lower` is the common form and
`sameLetters` the comparison.
-/

namespace RequestFlow.Text

/-- The text with `A` to `Z` replaced by `a` to `z`. -/
def lower (text : String) : String :=
  String.ofList (text.toList.map Char.toLower)

/-- The text with `a` to `z` replaced by `A` to `Z`. -/
def upper (text : String) : String :=
  String.ofList (text.toList.map Char.toUpper)

/-- Two texts agree up to the case of the letters `A` to `Z`. -/
def sameLetters (left right : String) : Bool :=
  lower left == lower right

@[simp] theorem toList_lower (text : String) :
    (lower text).toList = text.toList.map Char.toLower := by
  simp [lower]

@[simp]
theorem sameLetters_refl (text : String) : sameLetters text text = true := by
  simp [sameLetters]

theorem sameLetters_iff {left right : String} :
    sameLetters left right = true ↔ lower left = lower right := by
  simp [sameLetters]

theorem sameLetters_comm (left right : String) :
    sameLetters left right = sameLetters right left := by
  simp [sameLetters, BEq.comm]

end RequestFlow.Text
