/-!
# Lines of a text

A line ends at a line feed, together with a carriage return in front of it; the
last line may lack its end.  The main statement says that an empty text has no
lines and that each line end closes one.
-/

namespace RequestFlow.Text

/-- The lines of a text, without their ends. -/
def lines : List Char → List (List Char)
  | [] => []
  | '\n' :: text => [] :: lines text
  | '\r' :: '\n' :: text => [] :: lines text
  | character :: text =>
      match lines text with
      | [] => [[character]]
      | line :: rest => (character :: line) :: rest

@[simp] theorem lines_nil : lines [] = [] := rfl

@[simp]
theorem lines_lineFeed (text : List Char) :
    lines ('\n' :: text) = [] :: lines text := by
  simp [lines]

end RequestFlow.Text
