import RequestFlow.Yaml.Property

/-!
# Tokens of YAML texts

A YAML text is a sequence of tokens.  Collections in brackets are marked by their
brackets; those laid out in lines are marked by indentation, so their ends and the
beginnings of mappings have tokens without text.  That a node is the key of a
mapping shows only at the colon behind it: its place among the tokens is
remembered until then, and the tokens that make it a key are put there.
-/

namespace RequestFlow.Yaml

/-- A token. -/
inductive Token where
  | directive (directive : Directive)
  | documentStart
  | documentEnd
  /-- A sequence in lines begins. -/
  | blockSequence
  /-- A mapping in lines begins. -/
  | blockMapping
  /-- A collection in lines ends. -/
  | blockEnd
  /-- A sequence in brackets begins. -/
  | flowSequence
  | flowSequenceEnd
  /-- A mapping in braces begins. -/
  | flowMapping
  | flowMappingEnd
  /-- The mark of an item in lines. -/
  | blockEntry
  /-- The comma between items in brackets. -/
  | flowEntry
  | key
  | value
  | reference (name : String)
  | anchor (name : String)
  | tag (tag : WrittenTag)
  | scalar (style : Style) (text : String)
  deriving DecidableEq

/-- A node that can turn out to be a key. -/
structure KeyCandidate where
  /-- The number of tokens before it. -/
  place : Nat
  index : Nat
  /-- The line on which it begins. -/
  line : Nat
  /-- The column in which it begins. -/
  column : Nat
  /-- Nothing but a key can begin there. -/
  isRequired : Bool

/-- The greatest length of a key that is not marked as one. -/
def longestKey : Nat := 1024

/-- A key must end on its line and must not be too long. -/
def KeyCandidate.isStale (key : KeyCandidate) (cursor : Cursor) : Bool :=
  key.line < cursor.line || key.index + longestKey < cursor.index

/-- A text that is being read. -/
structure Lexer where
  cursor : Cursor
  /-- The tokens so far, the latest first. -/
  tokens : List Token
  count : Nat
  /-- The columns of the open collections in lines, the innermost first. -/
  columns : List Nat
  /-- The key candidate of the innermost collection in brackets, or of the
  lines. -/
  candidate : Option KeyCandidate
  /-- The key candidates around each open collection in brackets, the innermost
  first. -/
  outer : List (Option KeyCandidate)
  keyAllowed : Bool

/-- Puts items behind the first ones of a list. -/
def insertBehind {Item : Type} : Nat → List Item → List Item → List Item
  | 0, items, list => items ++ list
  | _ + 1, items, [] => items
  | depth + 1, items, first :: list => first :: insertBehind depth items list

namespace Lexer

/-- The beginning of a text. -/
def start (text : List Char) : Lexer :=
  ⟨.start text, [], 0, [], none, [], true⟩

/-- A collection in brackets is open. -/
def inFlow (lexer : Lexer) : Bool :=
  !lexer.outer.isEmpty

/-- The least column in which the text of an inner node can begin. -/
def floor (lexer : Lexer) : Nat :=
  match lexer.columns with
  | [] => 0
  | column :: _ => column + 1

/-- Adds a token and goes to the place behind it. -/
def emit (lexer : Lexer) (token : Token) (next : Cursor) : Lexer :=
  { lexer with
    tokens := token :: lexer.tokens
    count := lexer.count + 1
    cursor := next }

/-- Allows or forbids keys. -/
def allowing (lexer : Lexer) (keyAllowed : Bool) : Lexer :=
  { lexer with keyAllowed }

/-- Puts tokens behind the first `place` ones. -/
def insertAt (lexer : Lexer) (place : Nat) (tokens : List Token) : Lexer :=
  { lexer with
    tokens := insertBehind (lexer.count - place) tokens.reverse lexer.tokens
    count := lexer.count + tokens.length }

/-- Opens a collection in lines, unless one is open in this column already:
whether it is a new one. -/
def openColumn (lexer : Lexer) (column : Nat) : Bool × Lexer :=
  if !lexer.inFlow && lexer.floor ≤ column then
    (true, { lexer with columns := column :: lexer.columns })
  else (false, lexer)

/-- Opens a collection in lines with a token if it is a new one. -/
def openBlock (lexer : Lexer) (token : Token) : Lexer :=
  match lexer.openColumn lexer.cursor.column with
  | (true, opened) => opened.emit token lexer.cursor
  | (false, same) => same

/-- Closes collections in lines. -/
def close (lexer : Lexer) (columns : List Nat) (left : List Nat) : Lexer :=
  { lexer with
    columns := left
    tokens := columns.map (fun _ => Token.blockEnd) ++ lexer.tokens
    count := lexer.count + columns.length }

/-- Closes the collections in lines that lie right of a column. -/
def closeTo (lexer : Lexer) (column : Nat) : Lexer :=
  if lexer.inFlow then lexer
  else
    lexer.close (lexer.columns.takeWhile fun inner => column < inner)
      (lexer.columns.dropWhile fun inner => column < inner)

/-- Closes all collections in lines. -/
def closeAll (lexer : Lexer) : Lexer :=
  if lexer.inFlow then lexer else lexer.close lexer.columns []

/-- Gives up the key candidate, unless nothing but a key could begin there. -/
def dropCandidate (lexer : Lexer) : Option Lexer :=
  if lexer.candidate.any KeyCandidate.isRequired then none
  else some { lexer with candidate := none }

/-- Gives up a key candidate that is stale. -/
def refreshed (cursor : Cursor) (candidate : Option KeyCandidate) :
    Option (Option KeyCandidate) :=
  match candidate with
  | none => some none
  | some key =>
      if !key.isStale cursor then some (some key)
      else if key.isRequired then none else some none

/-- Gives up the key candidates that are stale. -/
def refresh (lexer : Lexer) : Option Lexer := do
  let candidate ← refreshed lexer.cursor lexer.candidate
  let outer ← lexer.outer.mapM (refreshed lexer.cursor)
  some { lexer with candidate, outer }

/-- Remembers that a key can begin here. -/
def remember (lexer : Lexer) : Option Lexer :=
  if !lexer.keyAllowed then some lexer
  else
    lexer.dropCandidate.map fun lexer =>
      { lexer with
        candidate := some
          { place := lexer.count
            index := lexer.cursor.index
            line := lexer.cursor.line
            column := lexer.cursor.column
            isRequired :=
              !lexer.inFlow && lexer.floor == lexer.cursor.column + 1 } }

/-- Moves over gaps, comments and line breaks, and over a mark of byte order at
the start of a line.  In lines a tab is a gap only where no key can begin. -/
def skipBlanks (lexer : Lexer) : Lexer :=
  let isBlank := fun character =>
    character == ' ' || (character == '\t' && (lexer.inFlow || !lexer.keyAllowed))
  let cursor := (lexer.cursor.pastOrderMark.after isBlank).pastComment
  match found : cursor.lineBreak? with
  | none => { lexer with cursor }
  | some (_, next) =>
      have : next.rest.length < lexer.cursor.rest.length := by
        exact Nat.lt_of_lt_of_le (Cursor.length_lineBreak found)
          (Nat.le_trans (Cursor.length_pastComment_le _)
            (Nat.le_trans (Cursor.length_after_le _ _)
              (Cursor.length_pastOrderMark_le _)))
      skipBlanks
        { lexer with
          cursor := next
          keyAllowed := lexer.keyAllowed || !lexer.inFlow }
termination_by lexer.cursor.rest.length

/-- Reads a mark between documents. -/
def documentMark (lexer : Lexer) (token : Token) : Option Lexer :=
  lexer.closeAll.dropCandidate.map fun lexer =>
    (lexer.emit token (lexer.cursor.skip 3)).allowing false

/-- Reads a directive. -/
def directive (lexer : Lexer) : Option Lexer := do
  let lexer ← lexer.closeAll.dropCandidate
  let (directive, next) ← Directive.read? lexer.cursor
  some ((lexer.emit (.directive directive) next).allowing false)

/-- Reads an opening bracket. -/
def openFlow (lexer : Lexer) (token : Token) : Option Lexer :=
  lexer.remember.map fun lexer =>
    { (lexer.emit token (lexer.cursor.skip 1)).allowing true with
      candidate := none
      outer := lexer.candidate :: lexer.outer }

/-- Reads a closing bracket. -/
def closeFlow (lexer : Lexer) (token : Token) : Option Lexer :=
  lexer.dropCandidate.map fun lexer =>
    let closed := (lexer.emit token (lexer.cursor.skip 1)).allowing false
    match lexer.outer with
    | [] => closed
    | candidate :: outer => { closed with candidate, outer }

/-- Reads a comma in brackets. -/
def flowEntry (lexer : Lexer) : Option Lexer :=
  lexer.dropCandidate.map fun lexer =>
    (lexer.emit .flowEntry (lexer.cursor.skip 1)).allowing true

/-- Reads the mark of an item. -/
def blockEntry (lexer : Lexer) : Option Lexer :=
  if !lexer.inFlow && !lexer.keyAllowed then none
  else
    (lexer.openBlock .blockSequence).dropCandidate.map fun lexer =>
      (lexer.emit .blockEntry (lexer.cursor.skip 1)).allowing true

/-- Reads the mark of a key. -/
def key (lexer : Lexer) : Option Lexer :=
  if !lexer.inFlow && !lexer.keyAllowed then none
  else
    (lexer.openBlock .blockMapping).dropCandidate.map fun lexer =>
      (lexer.emit .key (lexer.cursor.skip 1)).allowing !lexer.inFlow

/-- Reads the colon behind a key: the candidate's, or one that was marked. -/
def value (lexer : Lexer) : Option Lexer :=
  match lexer.candidate with
  | some candidate =>
      let opened := lexer.openColumn candidate.column
      let tokens :=
        if opened.1 then [Token.blockMapping, Token.key] else [Token.key]
      let keyed :=
        { opened.2.insertAt candidate.place tokens with candidate := none }
      some ((keyed.emit .value (lexer.cursor.skip 1)).allowing false)
  | none =>
      if !lexer.inFlow && !lexer.keyAllowed then none
      else
        some (((lexer.openBlock .blockMapping).emit .value
          (lexer.cursor.skip 1)).allowing !lexer.inFlow)

/-- Reads an anchor or a reference to one. -/
def anchor (lexer : Lexer) (token : String → Token) : Option Lexer := do
  let lexer ← lexer.remember
  let (name, next) ← Anchor.read? lexer.cursor
  some ((lexer.emit (token name) next).allowing false)

/-- Reads a tag. -/
def tag (lexer : Lexer) : Option Lexer := do
  let lexer ← lexer.remember
  let (tag, next) ← WrittenTag.read? lexer.inFlow lexer.cursor
  some ((lexer.emit (.tag tag) next).allowing false)

/-- Adds a scalar. -/
def emitScalar (lexer : Lexer) (style : Style) (scalar : ScalarText) : Lexer :=
  lexer.emit (.scalar style (String.ofList scalar.text)) scalar.next

/-- Reads a block. -/
def block (lexer : Lexer) (style : Style) : Option Lexer := do
  let lexer ← lexer.dropCandidate
  let scalar ← Block.read? (style = .folded) lexer.floor lexer.cursor
  some ((lexer.emitScalar style scalar).allowing true)

/-- Reads a text in quotes. -/
def quoted (lexer : Lexer) (style : Style) : Option Lexer := do
  let lexer ← lexer.remember
  let scalar ← Quoted.read? (style = .doubleQuoted) lexer.cursor
  some ((lexer.emitScalar style scalar).allowing false)

/-- Reads a plain text. -/
def plain (lexer : Lexer) : Option Lexer := do
  let lexer ← lexer.remember
  let scalar ← Plain.read? lexer.inFlow lexer.floor lexer.cursor
  some ((lexer.emitScalar .plain scalar).allowing scalar.crosses)

/-- Reads the token that begins with a character. -/
def next (lexer : Lexer) (character : Char) (rest : List Char) : Option Lexer :=
  if lexer.cursor.column == 0 && character == '%' then lexer.directive
  else if lexer.cursor.atMark '-' then lexer.documentMark .documentStart
  else if lexer.cursor.atMark '.' then lexer.documentMark .documentEnd
  else if character == '[' then lexer.openFlow .flowSequence
  else if character == '\x7b' then lexer.openFlow .flowMapping
  else if character == ']' then lexer.closeFlow .flowSequenceEnd
  else if character == '\x7d' then lexer.closeFlow .flowMappingEnd
  else if character == ',' then lexer.flowEntry
  else if character == '-' && endsWord rest then lexer.blockEntry
  else if character == '?' && (lexer.inFlow || endsWord rest) then lexer.key
  else if character == ':' && (lexer.inFlow || endsWord rest) then lexer.value
  else if character == '*' then lexer.anchor .reference
  else if character == '&' then lexer.anchor .anchor
  else if character == '!' then lexer.tag
  else if character == '|' && !lexer.inFlow then lexer.block .literal
  else if character == '>' && !lexer.inFlow then lexer.block .folded
  else if character == '\'' then lexer.quoted .singleQuoted
  else if character == '"' then lexer.quoted .doubleQuoted
  else if Plain.beginsAt lexer.inFlow character rest then lexer.plain
  else none

/-- Reads up to the end of the text. -/
def readAll : Nat → Lexer → Option (List Token)
  | 0, _ => none
  | fuel + 1, lexer => do
      let lexer ← lexer.skipBlanks.refresh
      let lexer := lexer.closeTo lexer.cursor.column
      match lexer.cursor.rest with
      | [] => lexer.closeAll.dropCandidate.map fun lexer => lexer.tokens.reverse
      | character :: rest => readAll fuel (← lexer.next character rest)

end Lexer

/-- A character that a text may contain. -/
def isPermitted (character : Char) : Bool :=
  let code := character.toNat
  character == '\t' || character == '\n' || character == '\r' ||
    (0x20 ≤ code && code ≤ 0x7E) || code == 0x85 ||
    (0xA0 ≤ code && code ≤ 0xD7FF) || (0xE000 ≤ code && code ≤ 0xFFFD) ||
    0x10000 ≤ code

/-- The tokens of a text, if it is well formed. -/
def Token.scan (text : List Char) : Option (List Token) :=
  if text.all isPermitted then Lexer.readAll (text.length + 1) (.start text)
  else none

end RequestFlow.Yaml
