import RequestFlow.Json.Syntax

/-!
# Writing data

Values are written on one line without spaces (`compact`), or with one part a line
and two blanks for each level (`pretty`).  In texts only the quote, the backslash
and the control characters are escaped.
-/

namespace RequestFlow.Json

/-- A digit of a lower-case hexadecimal number. -/
def hexDigit (value : Nat) : Char :=
  if value < 10 then Char.ofNat ('0'.toNat + value)
  else Char.ofNat ('a'.toNat + value - 10)

/-- How a character is written inside quotes. -/
def escape (character : Char) : List Char :=
  if character = '"' then ['\\', '"']
  else if character = '\\' then ['\\', '\\']
  else if character = '\n' then ['\\', 'n']
  else if character = '\r' then ['\\', 'r']
  else if character = '\t' then ['\\', 't']
  else if character = '\x08' then ['\\', 'b']
  else if character = '\x0c' then ['\\', 'f']
  else if character.toNat < 0x20 then
    ['\\', 'u', '0', '0', hexDigit (character.toNat / 16),
      hexDigit (character.toNat % 16)]
  else [character]

/-- A text in quotes. -/
def quote (text : String) : List Char :=
  '"' :: (text.toList.flatMap escape ++ ['"'])

mutual

/-- The value on one line. -/
def compact : Json → List Char
  | .null => ['n', 'u', 'l', 'l']
  | .bool true => ['t', 'r', 'u', 'e']
  | .bool false => ['f', 'a', 'l', 's', 'e']
  | .number value => value.text.toList
  | .string value => quote value
  | .array items => '[' :: compactItems items
  | .object fields => '{' :: compactFields fields

/-- The items of a list and its end. -/
def compactItems : List Json → List Char
  | [] => [']']
  | [item] => compact item ++ [']']
  | item :: next :: items => compact item ++ ',' :: compactItems (next :: items)

/-- The fields of an object and its end. -/
def compactFields : List (String × Json) → List Char
  | [] => ['}']
  | [field] => quote field.1 ++ ':' :: compact field.2 ++ ['}']
  | field :: next :: fields =>
      quote field.1 ++ ':' :: compact field.2 ++ ',' ::
        compactFields (next :: fields)

end

/-- The text of a value on one line. -/
def text (value : Json) : String :=
  String.ofList value.compact

/-- A line break and the blanks in front of a line. -/
def lineStart (level : Nat) : List Char :=
  '\n' :: List.replicate (2 * level) ' '

mutual

/-- A syntax tree with one part a line. -/
def Syntax.prettyAt : Nat → Syntax → List Char
  | _, .null => ['n', 'u', 'l', 'l']
  | _, .bool value =>
      if value then ['t', 'r', 'u', 'e'] else ['f', 'a', 'l', 's', 'e']
  | _, .number value =>
      (value.map fun number => number.text.toList).getD ['n', 'u', 'l', 'l']
  | _, .string value => (value.map quote).getD ['n', 'u', 'l', 'l']
  | _, .array [] => ['[', ']']
  | _, .object [] => ['{', '}']
  | level, .array (item :: items) =>
      '[' :: lineStart (level + 1) ++ item.prettyAt (level + 1) ++
        Syntax.prettyItems (level + 1) items ++ lineStart level ++ [']']
  | level, .object (field :: fields) =>
      '{' :: lineStart (level + 1) ++ quote (field.1.getD "") ++ ':' :: ' ' ::
        field.2.prettyAt (level + 1) ++ Syntax.prettyFields (level + 1) fields ++
        lineStart level ++ ['}']

/-- The items after the first one, each on a line of its own. -/
def Syntax.prettyItems : Nat → List Syntax → List Char
  | _, [] => []
  | level, item :: items =>
      ',' :: lineStart level ++ item.prettyAt level ++
        Syntax.prettyItems level items

/-- The fields after the first one, each on a line of its own. -/
def Syntax.prettyFields : Nat → List (Option String × Syntax) → List Char
  | _, [] => []
  | level, field :: fields =>
      ',' :: lineStart level ++ quote (field.1.getD "") ++ ':' :: ' ' ::
        field.2.prettyAt level ++ Syntax.prettyFields level fields

end

/-- The text of a syntax tree with one part a line. -/
def Syntax.pretty (tree : Syntax) : String :=
  String.ofList (tree.prettyAt 0)

end RequestFlow.Json
