import RequestFlow.Text.Utf8
import RequestFlow.Yaml.PlainType
import RequestFlow.Yaml.Scalar

/-!
# Writing YAML

Data is written in lines: the entries of a mapping below each other, the items of
a sequence behind dashes in the column of their key.  A text is written plain
where that is possible, else in single quotes, as a literal block if it has line
feeds, or in double quotes with escapes if it must.
-/

namespace RequestFlow.Yaml

/-- Data to be written. -/
inductive Tree where
  /-- A scalar that stands for something else than a text. -/
  | plain (text : String)
  | text (text : String)
  | sequence (items : List Tree)
  | mapping (entries : List (String × Tree))

namespace Writing

/-- A character that is written as it is. -/
def isPrintable (character : Char) : Bool :=
  let code := character.toNat
  character == '\n' || (0x20 ≤ code && code ≤ 0x7E) ||
    (0xA0 ≤ code && code ≤ 0xD7FF) ||
    (0xE000 ≤ code && code ≤ 0xFFFD && code != 0xFEFF) || 0x10000 ≤ code

/-- A plain text cannot begin with these. -/
def isLeadingMark (character : Char) : Bool :=
  isFlowMark character || "#&*!|>'\"%@`".toList.contains character

/-- A mark that has to be quoted stands in a text after a given character. -/
def hasMarkAfter (before : Char) : List Char → Bool
  | [] => false
  | character :: rest =>
      (character == ':' && endsWord rest) ||
        (character == '#' && (isGap before || isBreak before)) ||
        hasMarkAfter character rest

/-- A text has a mark that has to be quoted. -/
def hasMark (text : List Char) : Bool :=
  match text with
  | [] => false
  | first :: rest =>
      text.take 3 == ['-', '-', '-'] || text.take 3 == ['.', '.', '.'] ||
        isLeadingMark first ||
        ((first == '?' || first == ':' || first == '-') && endsWord rest) ||
        hasMarkAfter first rest

/-- Two characters of a kind follow each other. -/
def hasPair (first second : Char → Bool) : List Char → Bool
  | character :: next :: rest =>
      (first character && second next) || hasPair first second (next :: rest)
  | _ => false

/-- A space. -/
def isSpace (character : Char) : Bool := character == ' '

/-- A space stands before a line break, or a character that has to be escaped in
the text. -/
def isSpecial (text : List Char) : Bool :=
  hasPair isSpace isBreak text || text.any fun character => !isPrintable character

/-- A text can be written plain. -/
def allowsPlain (text : List Char) : Bool :=
  !hasMark text && !text.any isBreak && !isSpecial text &&
    !text.head?.any isSpace && !text.getLast?.any isSpace

/-- A text can be written in single quotes. -/
def allowsSingleQuotes (text : List Char) : Bool :=
  !hasPair isBreak isSpace text && !isSpecial text

/-- A text can be written as a block. -/
def allowsBlock (text : List Char) : Bool :=
  !text.getLast?.any isSpace && !isSpecial text

/-- The style in which a text is written. -/
def styleOf (text : String) : Style :=
  let characters := text.toList
  if characters.contains '\n' then
    if allowsBlock characters then .literal else .doubleQuoted
  else if !PlainType.isTyped text && allowsPlain characters then .plain
  else if allowsSingleQuotes characters then .singleQuoted
  else .doubleQuoted

/-- The blanks in front of a line. -/
def indentation (column : Nat) : List Char :=
  List.replicate column ' '

/-- The characters of a text in single quotes, behind a line break or not. -/
def singleQuotedFrom (column : Nat) : Bool → List Char → List Char
  | behindBreak, [] => if behindBreak then indentation column else []
  | behindBreak, character :: rest =>
      if isBreak character then character :: singleQuotedFrom column true rest
      else
        (if behindBreak then indentation column else []) ++
          (if character == '\'' then ['\'', '\''] else [character]) ++
          singleQuotedFrom column false rest

/-- A text in single quotes. -/
def singleQuoted (column : Nat) (text : List Char) : List Char :=
  '\'' :: singleQuotedFrom column false text ++ ['\'']

/-- A digit of an upper-case hexadecimal number. -/
def hexDigit (value : Nat) : Char :=
  if value < 10 then Char.ofNat ('0'.toNat + value)
  else Char.ofNat ('A'.toNat + value - 10)

/-- The last digits of a hexadecimal number. -/
def hexDigits : Nat → Nat → List Char
  | 0, _ => []
  | count + 1, value => hexDigits count (value / 16) ++ [hexDigit (value % 16)]

/-- The letter of an escape of one letter. -/
def escapeLetter? : Char → Option Char
  | '\u0000' => some '0'
  | '\u0007' => some 'a'
  | '\u0008' => some 'b'
  | '\t' => some 't'
  | '\n' => some 'n'
  | '\u000b' => some 'v'
  | '\u000c' => some 'f'
  | '\r' => some 'r'
  | '\u001b' => some 'e'
  | '"' => some '"'
  | '\\' => some '\\'
  | '\u0085' => some 'N'
  | '\u00a0' => some '_'
  | '\u2028' => some 'L'
  | '\u2029' => some 'P'
  | _ => none

/-- An escape. -/
def escape (character : Char) : List Char :=
  let code := character.toNat
  match escapeLetter? character with
  | some letter => ['\\', letter]
  | none =>
      if code ≤ 0xFF then '\\' :: 'x' :: hexDigits 2 code
      else if code ≤ 0xFFFF then '\\' :: 'u' :: hexDigits 4 code
      else '\\' :: 'U' :: hexDigits 8 code

/-- A text in double quotes. -/
def doubleQuoted (text : List Char) : List Char :=
  let needsEscape := fun character =>
    !isPrintable character || isBreak character || character == '"' ||
      character == '\\'
  '"' :: text.flatMap (fun character =>
    if needsEscape character then escape character else [character]) ++ ['"']

/-- The marks in the first line of a block. -/
def blockMarks (text : List Char) : List Char :=
  let indent :=
    if text.head?.any fun first => isSpace first || isBreak first then ['2']
    else []
  let reversed := text.reverse
  let chomping :=
    match reversed with
    | [] => ['-']
    | last :: others =>
        if !isBreak last then ['-']
        else if others.head?.all isBreak then ['+']
        else []
  indent ++ chomping

/-- The lines of a block, behind a line break or not. -/
def blockLines (column : Nat) : Bool → List Char → List Char
  | behindBreak, [] => if behindBreak then [] else ['\n']
  | behindBreak, character :: rest =>
      if isBreak character then character :: blockLines column true rest
      else
        (if behindBreak then indentation column else []) ++
          character :: blockLines column false rest

/-- A text, and the end of its last line.  Its further lines begin in a column. -/
def scalar (column : Nat) (text : String) : List Char :=
  let characters := text.toList
  match styleOf text with
  | .plain => characters ++ ['\n']
  | .literal =>
      '|' :: blockMarks characters ++ '\n' :: blockLines column true characters
  | .doubleQuoted => doubleQuoted characters ++ ['\n']
  | _ => singleQuoted column characters ++ ['\n']

/-- The greatest number of bytes of a key that is not marked as one. -/
def longestKey : Nat := 128

/-- A key has to be marked as one: it has several lines or is long. -/
def needsMark (text : String) : Bool :=
  text.toList.any isBreak || longestKey < Text.byteCount text.toList

/-- A key and the colon behind it. -/
def key (column : Nat) (text : String) : List Char :=
  let characters := text.toList
  if needsMark text then
    '?' :: ' ' :: scalar (column + 2) text ++ indentation column ++ [':']
  else
    match styleOf text with
    | .plain => characters ++ [':']
    | .doubleQuoted => doubleQuoted characters ++ [':']
    | _ => singleQuoted column characters ++ [':']

mutual

/-- What follows a mark in a column.  A collection begins in the same line behind
the dash of an item and behind the colon of a marked key, and in the next line
behind any other key. -/
def value (sameLine : Bool) (column : Nat) : Tree → List Char
  | .plain text => ' ' :: text.toList ++ ['\n']
  | .text text => ' ' :: scalar (column + 2) text
  | .sequence [] => " []\n".toList
  | .sequence (item :: items) =>
      let inner := if sameLine then column + 2 else column
      (if sameLine then [' '] else '\n' :: indentation inner) ++ '-' ::
        value true inner item ++ sequenceItems inner items
  | .mapping [] => [' ', '\x7b', '\x7d', '\n']
  | .mapping (entry :: entries) =>
      let inner := column + 2
      (if sameLine then [' '] else '\n' :: indentation inner) ++
        key inner entry.1 ++ value (needsMark entry.1) inner entry.2 ++
        mappingEntries inner entries

/-- The items of a sequence in a column. -/
def sequenceItems (column : Nat) : List Tree → List Char
  | [] => []
  | item :: items =>
      indentation column ++ '-' :: value true column item ++
        sequenceItems column items

/-- The entries of a mapping in a column. -/
def mappingEntries (column : Nat) : List (String × Tree) → List Char
  | [] => []
  | entry :: entries =>
      indentation column ++ key column entry.1 ++
        value (needsMark entry.1) column entry.2 ++ mappingEntries column entries

end

end Writing

/-- The text of a mapping. -/
def Tree.writeMapping (entries : List (String × Tree)) : String :=
  if entries.isEmpty then "\x7b\x7d\n"
  else String.ofList (Writing.mappingEntries 0 entries)

end RequestFlow.Yaml
