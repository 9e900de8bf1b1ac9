import RequestFlow.Text.Digits
import RequestFlow.Yaml.Cursor

/-!
# Scalar texts

A scalar is a plain text, a text in quotes, or a block of lines.  Plain and quoted
texts may go on over several lines, which are folded: a single line break becomes
a space.  The lines of a block are indented; they are kept as they are or folded,
too, and its last line breaks are clipped to one, stripped or kept. Reading yields
nothing where a text is faulty.
-/

namespace RequestFlow.Yaml

/-- How a scalar is written. -/
inductive Style where
  | plain
  | singleQuoted
  | doubleQuoted
  | literal
  | folded
  deriving DecidableEq

/-- A mark of collections in brackets. -/
def isFlowMark (character : Char) : Bool :=
  character == ',' || character == '[' || character == ']' ||
    character == '\x7b' || character == '\x7d'

/-- A text that has been read. -/
structure ScalarText where
  text : List Char
  /-- The place behind it, and behind the gap that follows a plain text. -/
  next : Cursor
  /-- That gap reaches over the end of a line. -/
  crosses : Bool

/-- Puts text in front. -/
def ScalarText.after (scalar : ScalarText) (text : List Char) : ScalarText :=
  { scalar with text := text ++ scalar.text }

namespace Plain

/-- A colon is faulty in brackets before these. -/
def clashes : List Char → Bool
  | character :: _ => character == '?' || isFlowMark character
  | [] => false

/-- A plain text ends before a character. -/
def endsAt (inFlow : Bool) (character : Char) (rest : List Char) : Bool :=
  (character == ':' && endsWord rest) || (inFlow && isFlowMark character)

/-- The characters up to the next gap or the end of the text. -/
def word (inFlow : Bool) : List Char → Option (List Char)
  | [] => some []
  | character :: rest =>
      if isGap character || isBreak character then some []
      else if inFlow && character == ':' && clashes rest then none
      else if endsAt inFlow character rest then some []
      else (word inFlow rest).map (character :: ·)

/-- Reads on after a gap. -/
def readFrom (inFlow : Bool) (floor : Nat) : Nat → Gap → Cursor → Option ScalarText
  | 0, _, _ => none
  | fuel + 1, gap, cursor =>
      if cursor.atDocumentMark || cursor.isAt '#' then
        some ⟨[], cursor, gap.crosses⟩
      else
        match word inFlow cursor.rest with
        | none => none
        | some [] => some ⟨[], cursor, gap.crosses⟩
        | some characters =>
            let next := cursor.skip characters.length
            let text := gap.text ++ characters
            if !next.atBlank then some ⟨text, next, false⟩
            else
              match next.gap? floor false with
              | none => none
              | some (gap, next) =>
                  if !inFlow && next.column < floor then
                    some ⟨text, next, gap.crosses⟩
                  else (readFrom inFlow floor fuel gap next).map (·.after text)

/-- Reads a plain text.  Outside of brackets its further lines begin at the column
`floor` or behind. -/
def read? (inFlow : Bool) (floor : Nat) (cursor : Cursor) : Option ScalarText :=
  readFrom inFlow floor (cursor.rest.length + 1) .none cursor

/-- A plain text begins here: with no mark, or with a mark that a word follows. -/
def beginsAt (inFlow : Bool) (character : Char) (rest : List Char) : Bool :=
  if character == '-' then !endsWord rest
  else if character == '?' || character == ':' then !inFlow && !endsWord rest
  else
    !isGap character && !isFlowMark character &&
      !"#&*!|>'\"%@`".toList.contains character

end Plain

namespace Quoted

/-- The character that an escape of one letter stands for. -/
def escaped? : Char → Option Char
  | '0' => some '\u0000'
  | 'a' => some '\u0007'
  | 'b' => some '\u0008'
  | 't' => some '\t'
  | '\t' => some '\t'
  | 'n' => some '\n'
  | 'v' => some '\u000b'
  | 'f' => some '\u000c'
  | 'r' => some '\r'
  | 'e' => some '\u001b'
  | ' ' => some ' '
  | '"' => some '"'
  | '/' => some '/'
  | '\\' => some '\\'
  | 'N' => some '\u0085'
  | '_' => some '\u00a0'
  | 'L' => some '\u2028'
  | 'P' => some '\u2029'
  | _ => none

/-- The number of digits of an escape by code. -/
def codeLength? : Char → Option Nat
  | 'x' => some 2
  | 'u' => some 4
  | 'U' => some 8
  | _ => none

/-- The character of a code. -/
def ofCode? (code : Nat) : Option Char :=
  if valid : code.isValidChar then some (Char.ofNatAux code valid) else none

/-- The character that an escape stands for, and how many characters it has behind
the backslash. -/
def escape? : List Char → Option (Char × Nat)
  | [] => none
  | letter :: rest =>
      match codeLength? letter with
      | none => (escaped? letter).map fun character => (character, 1)
      | some length =>
          let digits := rest.take length
          if digits.length < length then none
          else
            ((Text.natural? 16 digits).bind ofCode?).map fun character =>
              (character, length + 1)

/-- How a word in quotes ends. -/
inductive Ending where
  | closing
  /-- A gap, a line break or the end of the text follows. -/
  | blank
  /-- A line break that counts as nothing follows. -/
  | joint

/-- The characters up to the next gap or the end of the quote, and what follows. -/
def word (double : Bool) : List Char → Option (List Char × List Char × Ending)
  | [] => some ([], [], .blank)
  | character :: rest =>
      if isGap character || isBreak character then
        some ([], character :: rest, .blank)
      else if !double && character == '\'' then
        match rest with
        | '\'' :: others =>
            (word double others).map fun result => ('\'' :: result.1, result.2)
        | _ => some ([], character :: rest, .closing)
      else if double && character == '"' then
        some ([], character :: rest, .closing)
      else if double && character == '\\' then
        if rest.head?.any isBreak then some ([], rest, .joint)
        else
          match escape? rest with
          | none => none
          | some (letter, count) =>
              (word double (rest.drop count)).map fun result =>
                (letter :: result.1, result.2)
      else (word double rest).map fun result => (character :: result.1, result.2)
termination_by text => text.length
decreasing_by
  all_goals simp only [List.length_cons, List.length_drop]
  all_goals omega

/-- Reads on behind the opening quote. -/
def readFrom (double : Bool) : Nat → Cursor → Option ScalarText
  | 0, _ => none
  | fuel + 1, cursor =>
      if cursor.atDocumentMark || cursor.rest.isEmpty then none
      else
        match word double cursor.rest with
        | none => none
        | some (text, rest, ending) =>
            let next := cursor.skipTo rest
            match ending with
            | .closing => some ⟨text, next.skip 1, false⟩
            | .blank =>
                match next.gap? 0 false with
                | none => none
                | some (gap, next) =>
                    (readFrom double fuel next).map (·.after (text ++ gap.text))
            | .joint =>
                match next.lineBreak? with
                | none => none
                | some (_, next) =>
                    match next.gap? 0 true with
                    | none => none
                    | some (gap, next) =>
                        (readFrom double fuel next).map
                          (·.after (text ++ gap.breaks))

/-- Reads a text in quotes. -/
def read? (double : Bool) (cursor : Cursor) : Option ScalarText :=
  readFrom double (cursor.rest.length + 1) (cursor.skip 1)

end Quoted

namespace Block

/-- What becomes of the last line breaks. -/
inductive Chomping where
  /-- One is left. -/
  | clip
  /-- None is left. -/
  | strip
  /-- All are left. -/
  | keep
  deriving DecidableEq

/-- What the first line of a block says. -/
structure Header where
  /-- What becomes of the last line breaks. -/
  chomping : Chomping
  /-- The indentation of the block in its parent. -/
  increment : Option Nat

/-- The chomping of a mark. -/
def chomping? : Char → Option Chomping
  | '+' => some .keep
  | '-' => some .strip
  | _ => none

/-- Reads a chomping mark. -/
def chompingAt (cursor : Cursor) : Option Chomping × Cursor :=
  match cursor.peek?.bind chomping? with
  | some chomping => (some chomping, cursor.skip 1)
  | none => (none, cursor)

/-- Reads an indentation. -/
def incrementAt (cursor : Cursor) : Option Nat × Cursor :=
  match cursor.peek?.bind (Text.digit? 10) with
  | some increment => (some increment, cursor.skip 1)
  | none => (none, cursor)

/-- Reads the marks of a block in either order; an indentation of zero is
faulty. -/
def header? (cursor : Cursor) : Option (Header × Cursor) :=
  let before := chompingAt cursor
  let digit := incrementAt before.2
  let behind := if before.1.isSome then (before.1, digit.2) else chompingAt digit.2
  if digit.1 = some 0 then none
  else some (⟨behind.1.getD .clip, digit.1⟩, behind.2)

/-- Moves over empty lines and indentation: the line breaks, the farthest column,
and the place of the next line's text.  An unknown indentation takes all spaces; a
tab in the indentation is faulty. -/
def blankLines (indentation : Option Nat) (cursor : Cursor) :
    Option (List Char × Nat × Cursor) :=
  let spaces := cursor.run fun character => character == ' '
  let next :=
    match indentation with
    | none => cursor.skip spaces.length
    | some column => cursor.skip (min spaces.length (column - cursor.column))
  if (indentation.all fun column => next.column < column) && next.isAt '\t' then
    none
  else
    match found : next.lineBreak? with
    | none => some ([], next.column, next)
    | some (character, following) =>
        have : following.rest.length < cursor.rest.length := by
          have shorter := Cursor.length_lineBreak found
          have : next.rest.length ≤ cursor.rest.length := by
            simp only [next]
            split <;> simp [Cursor.length_skip]
          omega
        (blankLines indentation following).map fun result =>
          (character :: result.1, max next.column result.2.1, result.2.2)
termination_by cursor.rest.length

/-- What is left of the line breaks behind the last line. -/
def chomped (chomping : Chomping) (last others : List Char) : List Char :=
  match chomping with
  | .clip => last
  | .strip => []
  | .keep => last ++ others

/-- The line break before a line: dropped if it is folded away, a space if it
joins two lines. -/
def joint (fold blank : Bool) (last others : List Char) : List Char :=
  if fold && last == ['\n'] && !blank then (if others.isEmpty then [' '] else [])
  else last

/-- Reads lines: behind the last line's break, behind empty lines, `blank` saying
that the last line began with a gap. -/
def linesFrom (fold : Bool) (chomping : Chomping) (column : Nat) :
    Nat → List Char → List Char → Bool → Cursor → Option ScalarText
  | 0, _, _, _, _ => none
  | fuel + 1, last, others, blank, cursor =>
      if cursor.column ≠ column || cursor.rest.isEmpty then
        some ⟨chomped chomping last others, cursor, false⟩
      else
        let text := joint fold (blank || cursor.atGap) last others ++ others ++
          cursor.run fun _ => true
        let next := cursor.after fun _ => true
        match next.lineBreak? with
        | none => some ⟨text, next, false⟩
        | some (character, next) =>
            match blankLines (some column) next with
            | none => none
            | some (others, _, next) =>
                (linesFrom fold chomping column fuel [character] others
                  cursor.atGap next).map (·.after text)

/-- Reads a block whose lines begin at the column `floor` or behind. -/
def read? (fold : Bool) (floor : Nat) (cursor : Cursor) : Option ScalarText := do
  let (header, next) ← header? (cursor.skip 1)
  let next ← next.pastLine?
  let stated := header.increment.map fun increment => floor - 1 + increment
  let (breaks, farthest, next) ← blankLines stated next
  let column := stated.getD (max (max farthest floor) 1)
  linesFrom fold header.chomping column (next.rest.length + 1) [] breaks false next

end Block

end RequestFlow.Yaml
