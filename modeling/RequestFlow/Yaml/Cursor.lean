/-!
# Places in a text

A cursor is a place in a text: the characters ahead, and how many characters,
lines and columns are behind.  A line ends with a line feed, a carriage return,
the two in the order of old, or one of the three line breaks of Unicode.  The main
statements say that every move leaves less ahead.
-/

namespace RequestFlow.Yaml

/-- A character that ends a line. -/
def isBreak (character : Char) : Bool :=
  character == '\n' || character == '\r' || character == '\u0085' ||
    character == '\u2028' || character == '\u2029'

/-- A character between words of a line. -/
def isGap (character : Char) : Bool :=
  character == ' ' || character == '\t'

/-- A word ends here: the text does, or a gap or a line break follows. -/
def endsWord : List Char → Bool
  | [] => true
  | character :: _ => isGap character || isBreak character

/-- A place in a text. -/
structure Cursor where
  rest : List Char
  index : Nat
  line : Nat
  /-- The number of characters behind in this line. -/
  column : Nat

namespace Cursor

/-- The beginning of a text. -/
def start (text : List Char) : Cursor := ⟨text, 0, 0, 0⟩

/-- The character ahead. -/
def peek? (cursor : Cursor) : Option Char :=
  cursor.rest.head?

/-- The character ahead is the given one. -/
def isAt (cursor : Cursor) (character : Char) : Bool :=
  cursor.peek? == some character

/-- A gap is ahead. -/
def atGap (cursor : Cursor) : Bool :=
  cursor.peek?.any isGap

/-- A gap or a line break is ahead. -/
def atBlank (cursor : Cursor) : Bool :=
  cursor.peek?.any fun character => isGap character || isBreak character

/-- Moves over characters of the line. -/
def skip (cursor : Cursor) (count : Nat) : Cursor :=
  ⟨cursor.rest.drop count, cursor.index + count, cursor.line,
    cursor.column + count⟩

/-- The characters of the line that satisfy a test. -/
def run (cursor : Cursor) (test : Char → Bool) : List Char :=
  cursor.rest.takeWhile fun character => !isBreak character && test character

/-- The place after the characters of the line that satisfy a test. -/
def after (cursor : Cursor) (test : Char → Bool) : Cursor :=
  cursor.skip (cursor.run test).length

/-- The place where the characters ahead are the given last ones of those that
were. -/
def skipTo (cursor : Cursor) (rest : List Char) : Cursor :=
  cursor.skip (cursor.rest.length - rest.length)

/-- The line break ahead and the place after it; a break of Unicode's own stays as
it is, any other becomes a line feed. -/
def lineBreak? (cursor : Cursor) : Option (Char × Cursor) :=
  match cursor.rest with
  | [] => none
  | '\r' :: '\n' :: rest =>
      some ('\n', ⟨rest, cursor.index + 2, cursor.line + 1, 0⟩)
  | character :: rest =>
      if isBreak character then
        let kept := character == '\u2028' || character == '\u2029'
        some (if kept then character else '\n',
          ⟨rest, cursor.index + 1, cursor.line + 1, 0⟩)
      else none

/-- The mark of byte order. -/
def orderMark : Char := '\uFEFF'

/-- The place behind a mark of byte order at the start of a line. -/
def pastOrderMark (cursor : Cursor) : Cursor :=
  if cursor.column == 0 && cursor.isAt orderMark then cursor.skip 1 else cursor

/-- The end of the line without a comment's text. -/
def pastComment (cursor : Cursor) : Cursor :=
  if cursor.isAt '#' then cursor.after fun _ => true else cursor

/-- The place after what is left of a line, which may only be a comment. -/
def pastLine? (cursor : Cursor) : Option Cursor :=
  let cursor := (cursor.after isGap).pastComment
  match cursor.lineBreak? with
  | some (_, next) => some next
  | none => if cursor.rest.isEmpty then some cursor else none

/-- A line that consists of three times the given character, alone or before a
gap, begins here. -/
def atMark (cursor : Cursor) (character : Char) : Bool :=
  cursor.column == 0 &&
    match cursor.rest with
    | first :: second :: third :: rest =>
        first == character && second == character && third == character &&
          endsWord rest
    | _ => false

/-- A mark between documents begins here. -/
def atDocumentMark (cursor : Cursor) : Bool :=
  cursor.atMark '-' || cursor.atMark '.'

theorem length_skip (cursor : Cursor) (count : Nat) :
    (cursor.skip count).rest.length = cursor.rest.length - count := by
  simp [skip]

/-- No move of a cursor goes back. -/
theorem length_after_le (cursor : Cursor) (test : Char → Bool) :
    (cursor.after test).rest.length ≤ cursor.rest.length := by
  simp [after, length_skip]

theorem length_pastComment_le (cursor : Cursor) :
    cursor.pastComment.rest.length ≤ cursor.rest.length := by
  rw [pastComment]
  split
  · exact length_after_le _ _
  · exact Nat.le_refl _

theorem length_pastOrderMark_le (cursor : Cursor) :
    cursor.pastOrderMark.rest.length ≤ cursor.rest.length := by
  rw [pastOrderMark]
  split
  · rw [length_skip]
    exact Nat.sub_le _ _
  · exact Nat.le_refl _

/-- A line break is not empty, so reading lines comes to an end. -/
theorem length_lineBreak {cursor next : Cursor} {character : Char}
    (found : cursor.lineBreak? = some (character, next)) :
    next.rest.length < cursor.rest.length := by
  rw [lineBreak?] at found
  split at found
  · exact absurd found (by simp)
  · next ahead =>
      simp only [Option.some.injEq, Prod.mk.injEq] at found
      rw [← found.2, ahead]
      simp only [List.length_cons]
      omega
  · next ahead =>
      split at found
      · simp only [Option.some.injEq, Prod.mk.injEq] at found
        simp [← found.2, ahead]
      · exact absurd found (by simp)

end Cursor

/-- What lies between two words. -/
structure Gap where
  /-- The spaces and tabs before the first line break. -/
  spaces : List Char
  breaks : List Char

namespace Gap

/-- No gap. -/
def none : Gap := ⟨[], []⟩

/-- The gap reaches over the end of a line. -/
def crosses (gap : Gap) : Bool :=
  !gap.breaks.isEmpty

/-- The text of a gap: a single line feed becomes a space, and of several the
first one is dropped. -/
def text (gap : Gap) : List Char :=
  match gap.breaks with
  | [] => gap.spaces
  | ['\n'] => [' ']
  | '\n' :: others => others
  | breaks => breaks

end Gap

namespace Cursor

/-- The gap ahead and the place after it.  Behind a line break a tab must not
stand left of the column `floor`. -/
def gap? (floor : Nat) (crossed : Bool) (cursor : Cursor) :
    Option (Gap × Cursor) :=
  match found : cursor.lineBreak? with
  | some (character, next) =>
      have := length_lineBreak found
      (gap? floor true next).map fun result =>
        ({ result.1 with breaks := character :: result.1.breaks }, result.2)
  | none =>
      match ahead : cursor.rest with
      | [] => some (.none, cursor)
      | character :: _ =>
          have : (cursor.skip 1).rest.length < cursor.rest.length := by
            simp [length_skip, ahead]
          if !isGap character then some (.none, cursor)
          else if crossed && character == '\t' && cursor.column < floor then none
          else
            (gap? floor crossed (cursor.skip 1)).map fun result =>
              if crossed then result
              else
                ({ result.1 with spaces := character :: result.1.spaces },
                  result.2)
termination_by cursor.rest.length

end Cursor

end RequestFlow.Yaml
