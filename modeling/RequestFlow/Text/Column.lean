/-!
# Columns

A text that is shorter than its column is filled with blanks, behind it or in
front of it; a longer one is not cut.  The main statements give the lengths.
-/

namespace RequestFlow.Text

/-- Blanks that fill a text up to a width. -/
def filling (width : Nat) (filler : Char) (text : String) : String :=
  String.ofList (List.replicate (width - text.length) filler)

/-- A text at the left of its column. -/
def atLeft (width : Nat) (text : String) : String :=
  text ++ filling width ' ' text

/-- A text at the right of its column. -/
def atRight (width : Nat) (text : String) : String :=
  filling width ' ' text ++ text

/-- A number with zeros in front of it. -/
def zeroFilled (width : Nat) (value : Nat) : String :=
  let text := toString value
  filling width '0' text ++ text

@[simp] theorem length_filling (width : Nat) (filler : Char) (text : String) :
    (filling width filler text).length = width - text.length := by
  simp [filling]

theorem length_atLeft (width : Nat) (text : String) :
    (atLeft width text).length = max width text.length := by
  simp [atLeft]
  omega

theorem length_atRight (width : Nat) (text : String) :
    (atRight width text).length = max width text.length := by
  simp [atRight]
  omega

end RequestFlow.Text
