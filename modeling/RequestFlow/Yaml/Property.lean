import RequestFlow.Text.Digits
import RequestFlow.Text.Utf8
import RequestFlow.Yaml.Scalar

/-!
# Anchors, tags and directives

A node can carry an anchor, by which it is referred to, and a tag, which names its
type.  A tag is written with a handle that stands for the beginning of its name,
or as a whole.  Directives in front of a document state a version or give the
meaning of a handle.  Reading yields nothing where one is faulty.
-/

namespace RequestFlow.Yaml

/-- A character of a name. -/
def isNameChar (character : Char) : Bool :=
  character.isAlphanum || character == '_' || character == '-'

namespace Anchor

/-- What may follow an anchor directly. -/
def endsBefore (cursor : Cursor) : Bool :=
  endsWord cursor.rest || cursor.peek?.any fun character =>
    "?:,]\x7d%@`".toList.contains character

/-- Reads the name behind the mark of an anchor or of a reference to one. -/
def read? (cursor : Cursor) : Option (String × Cursor) :=
  let cursor := cursor.skip 1
  let name := cursor.run isNameChar
  let next := cursor.skip name.length
  if name.isEmpty || !endsBefore next then none
  else some (String.ofList name, next)

end Anchor

/-- A tag as written. -/
structure WrittenTag where
  /-- The handle, empty if the name is given as a whole. -/
  handle : String
  suffix : String
  deriving DecidableEq

namespace WrittenTag

/-- The text of bytes.  What is no text becomes a name that no type has. -/
def ofBytes (bytes : List UInt8) : String :=
  (Text.Utf8.decode? bytes).getD "\uFFFD"

/-- A character of a tag's name. -/
def isUriChar (verbatim : Bool) (character : Char) : Bool :=
  isNameChar character || ";/?:@&=+$.%!~*'()".toList.contains character ||
    (verbatim && ",[]".toList.contains character)

/-- The number of bytes of a character whose first byte is given. -/
def width? (byte : Nat) : Option Nat :=
  if byte < 0x80 then some 1
  else if byte / 0x20 = 6 then some 2
  else if byte / 0x10 = 14 then some 3
  else if byte / 0x08 = 30 then some 4
  else none

/-- A byte written as two digits behind a percent sign. -/
def escapedByte? : List Char → Option (Nat × List Char)
  | '%' :: high :: low :: rest => do
      let high ← Text.digit? 16 high
      let low ← Text.digit? 16 low
      some (high * 16 + low, rest)
  | _ => none

/-- Reads the characters of a tag's name as bytes; `due` further bytes of a
character must follow. -/
def bytes? (verbatim : Bool) :
    Nat → Nat → List Char → Option (List UInt8 × List Char)
  | 0, _, _ => none
  | fuel + 1, due, text =>
      if 0 < due then
        match escapedByte? text with
        | none => none
        | some (byte, rest) =>
            if byte / 0x40 ≠ 2 then none
            else
              (bytes? verbatim fuel (due - 1) rest).map fun result =>
                (UInt8.ofNat byte :: result.1, result.2)
      else
        match text with
        | [] => some ([], [])
        | character :: rest =>
            if !isUriChar verbatim character then some ([], text)
            else if character == '%' then
              match escapedByte? text with
              | none => none
              | some (byte, rest) =>
                  match width? byte with
                  | none => none
                  | some width =>
                      (bytes? verbatim fuel (width - 1) rest).map fun result =>
                        (UInt8.ofNat byte :: result.1, result.2)
            else
              (bytes? verbatim fuel 0 rest).map fun result =>
                (UInt8.ofNat character.toNat :: result.1, result.2)

/-- Reads the characters of a tag's name. -/
def name? (verbatim : Bool) (cursor : Cursor) : Option (List UInt8 × Cursor) :=
  (bytes? verbatim (cursor.rest.length + 1) 0 cursor.rest).map fun result =>
    (result.1, cursor.skipTo result.2)

/-- The handle that begins here: a mark, a name and, if it is there, a second
mark. -/
def handleAt (cursor : Cursor) : List Char × Cursor :=
  let name := (cursor.skip 1).run isNameChar
  let next := cursor.skip (1 + name.length)
  if next.isAt '!' then ('!' :: name ++ ['!'], next.skip 1)
  else ('!' :: name, next)

/-- Reads a tag whose name is given as a whole. -/
def verbatim? (cursor : Cursor) : Option (WrittenTag × Cursor) := do
  let (name, next) ← name? true (cursor.skip 2)
  if name.isEmpty || !next.isAt '>' then none
  else some (⟨"", ofBytes name⟩, next.skip 1)

/-- Reads a tag with a handle; a name that has no second mark belongs to the first
handle. -/
def shorthand? (cursor : Cursor) : Option (WrittenTag × Cursor) := do
  let (handle, next) := handleAt cursor
  let (name, next) ← name? false next
  if 1 < handle.length && handle.getLast? == some '!' then
    if name.isEmpty then none
    else some (⟨String.ofList handle, ofBytes name⟩, next)
  else
    let whole :=
      (handle.drop 1).map (fun character => UInt8.ofNat character.toNat) ++ name
    some (if whole.isEmpty then ⟨"", "!"⟩ else ⟨"!", ofBytes whole⟩, next)

/-- Reads a tag. -/
def read? (inFlow : Bool) (cursor : Cursor) : Option (WrittenTag × Cursor) := do
  let (tag, next) ←
    if (cursor.skip 1).isAt '<' then verbatim? cursor else shorthand? cursor
  if endsWord next.rest || (inFlow && next.isAt ',') then some (tag, next)
  else none

end WrittenTag

/-- A directive. -/
inductive Directive where
  | version (major minor : Nat)
  | handle (written meaning : String)
  deriving DecidableEq

namespace Directive

/-- The greatest number of digits of a version's part. -/
def longestNumber : Nat := 9

/-- Reads a part of a version. -/
def number? (cursor : Cursor) : Option (Nat × Cursor) := do
  let digits := cursor.run Char.isDigit
  if longestNumber < digits.length then none
  else some (← Text.natural? 10 digits, cursor.skip digits.length)

/-- Reads a version. -/
def version? (cursor : Cursor) : Option (Directive × Cursor) := do
  let (major, next) ← number? (cursor.after isGap)
  if !next.isAt '.' then none
  else
    let (minor, next) ← number? (next.skip 1)
    some (.version major minor, next)

/-- Reads a handle and what it stands for. -/
def handle? (cursor : Cursor) : Option (Directive × Cursor) := do
  let cursor := cursor.after isGap
  if !cursor.isAt '!' then none
  else
    let (written, next) := WrittenTag.handleAt cursor
    if (1 < written.length && written.getLast? != some '!') || !next.atGap then
      none
    else
      let (meaning, next) ← WrittenTag.name? true (next.after isGap)
      if meaning.isEmpty || !endsWord next.rest then none
      else
        some (.handle (String.ofList written) (WrittenTag.ofBytes meaning), next)

/-- Reads a directive and the rest of its line. -/
def read? (cursor : Cursor) : Option (Directive × Cursor) := do
  let cursor := cursor.skip 1
  let name := cursor.run isNameChar
  let next := cursor.skip name.length
  if !endsWord next.rest then none
  else
    let (directive, next) ←
      match String.ofList name with
      | "YAML" => version? next
      | "TAG" => handle? next
      | _ => none
    some (directive, ← next.pastLine?)

end Directive

end RequestFlow.Yaml
