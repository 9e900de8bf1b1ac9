import RequestFlow.Json.Number
import RequestFlow.Json.Value
import RequestFlow.Text.Blank
import RequestFlow.Text.Search

/-!
# Paths to variables

A path is a sequence of segments with dots between them; a segment is a name of
letters, digits, `_`, `-` and `$`, followed by any number of indexes in brackets.
`Path.ofText?` reads a path, and `Path.follow` walks from a value along it.
-/

namespace RequestFlow.Condition

/-- A segment of a path: a field and the indexes behind it. -/
structure PathSegment where
  name : List Char
  /-- The indexes, each within 64 bits. -/
  indexes : List Nat
  deriving DecidableEq

/-- A path: its first segment and those behind it. -/
structure Path where
  head : PathSegment
  /-- The segments behind the first one. -/
  tail : List PathSegment
  deriving DecidableEq

/-- A character of a name. -/
def isNameCharacter (character : Char) : Bool :=
  character.isAlphanum || character == '_' || character == '-' || character == '$'

/-- The value of an index, if it is within 64 bits. -/
def indexValue? (digits : List Char) : Option Nat :=
  let value := Json.digitsValue digits
  if value < twoTo 64 then some value else none

/-- The digits of the indexes behind a name; `digits` are those of the open
bracket so far, in reverse, and there are none before the first bracket. -/
def indexDigits? : Option (List Char) → List Char → Option (List (List Char))
  | none, [] => some []
  | none, '[' :: text => indexDigits? (some []) text
  | none, _ :: _ => none
  | some _, [] => none
  | some digits, character :: text =>
      if character = ']' then
        if digits.isEmpty then none
        else (indexDigits? none text).map (digits.reverse :: ·)
      else if character.isDigit then indexDigits? (some (character :: digits)) text
      else none

/-- Reads a segment.  An index beyond 64 bits is left out. -/
def PathSegment.ofText? (text : List Char) : Option PathSegment :=
  let name := text.takeWhile isNameCharacter
  if name.isEmpty then none
  else (indexDigits? none (text.dropWhile isNameCharacter)).map fun digits =>
    ⟨name, digits.filterMap indexValue?⟩

/-- Reads a path. -/
def Path.ofText? (text : List Char) : Option Path :=
  if text.any Text.isBlank then none
  else
    match (Text.splitAt (· == '.') text).mapM PathSegment.ofText? with
    | some (head :: tail) => some ⟨head, tail⟩
    | _ => none

/-- Walks along indexes. -/
def followIndexes (value : Json) (indexes : List Nat) : Option Json :=
  indexes.foldlM Json.item? value

/-- Walks along a segment: to the field and then along the indexes. -/
def PathSegment.follow (value : Json) (segment : PathSegment) : Option Json :=
  (value.field? (String.ofList segment.name)).bind fun field =>
    followIndexes field segment.indexes

/-- Walks from the value of the first segment's name along the path; null where
there is nothing. -/
def Path.follow (path : Path) (value : Json) : Json :=
  ((followIndexes value path.head.indexes).bind fun start =>
    path.tail.foldlM PathSegment.follow start).getD .null

end RequestFlow.Condition
