import RequestFlow.Document.Reading
import RequestFlow.Yaml.Node
import RequestFlow.Yaml.PlainType

/-!
# Documents as YAML texts

A document is written as one mapping, and an empty text is a document without any
part.  What a plain scalar stands for depends on what is looked for: any scalar is
a text, and only plain ones are numbers, truth values or nothing.  An empty plain
scalar is a collection without items, too.
-/

namespace RequestFlow.Document.Yaml

open RequestFlow.Yaml

/-- The start of the names of the standard types. -/
def standardType (name : String) : String :=
  "tag:yaml.org,2002:" ++ name

/-- The text of a scalar that can stand for a value of a standard type: a plain
one, or a literal block with the tag of the type. -/
def typedText? (type : String) (properties : Properties) (style : Style)
    (text : String) : Option String :=
  match style with
  | .plain => some text
  | .literal =>
      if properties.tag = some (standardType type) then some text else none
  | _ => none

/-- A scalar that stands for an empty collection. -/
def isVoid (style : Style) (text : String) : Bool :=
  style = .plain && text.isEmpty

/-- The node that a node stands for: itself, or what it refers to in the tree of a
root. -/
def target? (root : Node) : Node → Option Node
  | .reference anchor => root.anchored? anchor
  | other => some other

/-- A text. -/
def text? : Node → Option String
  | .scalar _ _ text => some text
  | _ => none

/-- A truth value. -/
def flag? : Node → Option Bool
  | .scalar properties style text =>
      (typedText? "bool" properties style text).bind PlainType.flag?
  | _ => none

/-- A natural number. -/
def natural? : Node → Option Nat
  | .scalar properties style text =>
      ((typedText? "int" properties style text).bind PlainType.natural?).filter
        fun value =>
        value < Text.naturalBound
  | _ => none

/-- The name that a tag of the document's own gives. -/
def localName? (properties : Properties) : Option String :=
  properties.tag.bind fun tag =>
    (Text.dropStart? "!".toList tag.toList).map String.ofList

/-- One of several names: a text, or a tag on nothing. -/
def choice? : Node → Option String
  | .scalar properties style text =>
      match localName? properties with
      | none => some text
      | some name =>
          if style = .plain && (text.isEmpty || PlainType.nulls.contains text) then
            some name
          else none
  | _ => none

/-- A part that may be absent. -/
def optional? : Node → Option (Option Node)
  | .scalar properties .plain text =>
      match properties.tag with
      | none =>
          if text.isEmpty || PlainType.nulls.contains text then some none
          else some (some (.scalar properties .plain text))
      | some tag =>
          if tag ≠ standardType "null" then
            some (some (.scalar properties .plain text))
          else if PlainType.nulls.contains text then some none
          else none
  | other => some (some other)

/-- The items of a list. -/
def items? : Node → Option (List Node)
  | .sequence _ items => some items
  | .scalar _ style text => if isVoid style text then some [] else none
  | _ => none

/-- The entries of a dictionary; the keys must be texts. -/
def entries? (root : Node) : Node → Option (List (String × Node))
  | .mapping _ entries =>
      entries.mapM fun entry =>
        ((target? root entry.1).bind text?).map fun key => (key, entry.2)
  | .scalar _ style text => if isVoid style text then some [] else none
  | _ => none

/-- The format of the tree of a root. -/
def format (root : Node) : Format Node :=
  { text? := fun node => (target? root node).bind text?
    flag? := fun node => (target? root node).bind flag?
    natural? := fun node => (target? root node).bind natural?
    choice? := fun node => (target? root node).bind choice?
    optional? := fun node => (target? root node).bind optional?
    items? := fun node => (target? root node).bind items?
    entries? := fun node => (target? root node).bind (entries? root)
    record? := fun _ node => (target? root node).bind (entries? root) }

/-- Reads a document. -/
def read? (text : List Char) : Option Document :=
  match Node.read text with
  | none => none
  | some none => some .blank
  | some (some root) => Reader.document (format root) root

/-- Reads a dictionary of texts. -/
def readDictionary? (text : List Char) : Option (Dictionary String) :=
  match Node.read text with
  | none => none
  | some none => some .empty
  | some (some root) => Reader.dictionary (format root) root

end RequestFlow.Document.Yaml
