import RequestFlow.Dictionary
import RequestFlow.Yaml.Token

/-!
# Nodes of YAML texts

A YAML text holds one document: a node, which is a scalar, a sequence, a mapping
or a reference.  A node with an anchor gets a number, one less than the number of
names that anchors then have; a reference stands for the last node with the number
of its name.  So a name that is used again, for a later node, can share its number
with another name.
-/

namespace RequestFlow.Yaml

/-- What a node carries beside its content. -/
structure Properties where
  anchor : Option Nat
  /-- The full name of its type. -/
  tag : Option String
  deriving DecidableEq

namespace Properties

/-- Neither an anchor nor a tag. -/
def none : Properties := ⟨.none, .none⟩

/-- There is neither an anchor nor a tag. -/
def isEmpty (properties : Properties) : Bool :=
  properties.anchor.isNone && properties.tag.isNone

end Properties

/-- A node. -/
inductive Node where
  /-- A reference to the nodes of a number. -/
  | reference (anchor : Nat)
  | scalar (properties : Properties) (style : Style) (text : String)
  | sequence (properties : Properties) (items : List Node)
  | mapping (properties : Properties) (entries : List (Node × Node))

namespace Node

/-- The empty text that stands where nothing is written. -/
def blank : Node := scalar .none .plain ""

instance : Inhabited Node := ⟨blank⟩

/-- The number of a node's anchor. -/
def anchor? : Node → Option Nat
  | reference _ => none
  | scalar properties _ _ => properties.anchor
  | sequence properties _ => properties.anchor
  | mapping properties _ => properties.anchor

mutual

/-- The last node in a tree whose anchor has a number. -/
def anchored? (anchor : Nat) : Node → Option Node
  | .reference _ => none
  | .scalar properties style text =>
      if properties.anchor = some anchor then some (.scalar properties style text)
      else none
  | .sequence properties items =>
      (anchoredItem? anchor items).or
        (if properties.anchor = some anchor then some (.sequence properties items)
        else none)
  | .mapping properties entries =>
      (anchoredPair? anchor entries).or
        (if properties.anchor = some anchor then some (.mapping properties entries)
        else none)

/-- The last node in a list of trees whose anchor has a number. -/
def anchoredItem? (anchor : Nat) : List Node → Option Node
  | [] => none
  | item :: items => (anchoredItem? anchor items).or (anchored? anchor item)

/-- The last node in a list of pairs whose anchor has a number. -/
def anchoredPair? (anchor : Nat) : List (Node × Node) → Option Node
  | [] => none
  | entry :: entries =>
      (anchoredPair? anchor entries).or
        ((anchored? anchor entry.2).or (anchored? anchor entry.1))

end

end Node

/-- Tokens that are being read. -/
structure TokenSource where
  tokens : List Token
  /-- The numbers of the anchors' names. -/
  anchors : Dictionary Nat
  /-- The meanings of the handles of tags. -/
  handles : List (String × String)

/-- Reads from tokens, or finds them faulty. -/
abbrev TokenReading := StateT TokenSource Option

namespace TokenReading

/-- The token ahead. -/
def peek : TokenReading (Option Token) := do
  return (← get).tokens.head?

/-- Moves over a token. -/
def skip : TokenReading Unit :=
  modify fun source => { source with tokens := source.tokens.drop 1 }

/-- The token ahead is one of the given ones. -/
def isAt (tokens : List Token) : TokenReading Bool := do
  return (← peek).any tokens.contains

/-- Moves over a token if it is the given one. -/
def skipIf (token : Token) : TokenReading Bool := do
  if (← peek) = some token then
    skip
    return true
  else return false

/-- Moves over the comma that must stand in front of each item in brackets but the
first one; whether it is lacking. -/
def lacksComma (first : Bool) : TokenReading Bool := do
  if first then return false else return !(← skipIf .flowEntry)

/-- Gives a name the number of a new anchor. -/
def declare (name : String) : TokenReading Nat := do
  let source ← get
  let number := source.anchors.size
  set { source with anchors := source.anchors.insert name number }
  return number

/-- The number of a name that is referred to. -/
def refer (name : String) : TokenReading Nat := do
  match (← get).anchors.get? name with
  | some number => return number
  | none => failure

/-- The full name of a tag. -/
def fullTag (tag : WrittenTag) : TokenReading String := do
  if tag.handle.isEmpty then return tag.suffix
  else
    match (← get).handles.lookup tag.handle with
    | some start => return start ++ tag.suffix
    | none => failure

/-- Reads an anchor. -/
def anchor : TokenReading (Option String) := do
  match ← peek with
  | some (.anchor name) =>
      skip
      return some name
  | _ => return none

/-- Reads a tag. -/
def tag : TokenReading (Option WrittenTag) := do
  match ← peek with
  | some (.tag tag) =>
      skip
      return some tag
  | _ => return none

/-- Reads an anchor and a tag in either order. -/
def properties : TokenReading Properties := do
  let before ← anchor
  let written ← tag
  let name :=
    before.or (← if before.isNone && written.isSome then anchor else pure none)
  let tag ← written.mapM fullTag
  return ⟨← name.mapM declare, tag⟩

mutual

/-- Reads a node.  Nodes in lines begin only where `block` says so, and items
without indentation only where `indentless` says so. -/
def node (block indentless : Bool) : Nat → TokenReading Node
  | 0 => failure
  | fuel + 1 => do
      match ← peek with
      | some (.reference name) =>
          skip
          return .reference (← refer name)
      | _ =>
          let properties ← properties
          match ← peek with
          | some (.scalar style text) =>
              skip
              return .scalar properties style text
          | some .blockEntry =>
              if indentless then
                return .sequence properties (← indentlessItems fuel)
              else if properties.isEmpty then failure
              else return .scalar properties .plain ""
          | some .flowSequence =>
              skip
              return .sequence properties (← flowItems true fuel)
          | some .flowMapping =>
              skip
              return .mapping properties (← flowEntries true fuel)
          | some .blockSequence =>
              if block then
                skip
                return .sequence properties (← blockItems fuel)
              else if properties.isEmpty then failure
              else return .scalar properties .plain ""
          | some .blockMapping =>
              if block then
                skip
                return .mapping properties (← blockEntries fuel)
              else if properties.isEmpty then failure
              else return .scalar properties .plain ""
          | _ =>
              if properties.isEmpty then failure
              else return .scalar properties .plain ""

/-- Reads a node, or nothing before one of the given tokens. -/
def nodeUnless (tokens : List Token) (block indentless : Bool) :
    Nat → TokenReading Node
  | 0 => failure
  | fuel + 1 => do
      if ← isAt tokens then return .blank else node block indentless fuel

/-- Reads the items of a sequence in lines. -/
def blockItems : Nat → TokenReading (List Node)
  | 0 => failure
  | fuel + 1 => do
      if ← skipIf .blockEntry then
        let item ← nodeUnless [.blockEntry, .blockEnd] true false fuel
        return item :: (← blockItems fuel)
      else if ← skipIf .blockEnd then return []
      else failure

/-- Reads the items of a sequence without indentation of its own. -/
def indentlessItems : Nat → TokenReading (List Node)
  | 0 => failure
  | fuel + 1 => do
      if ← skipIf .blockEntry then
        let item ← nodeUnless [.blockEntry, .key, .value, .blockEnd] true false
            fuel
        return item :: (← indentlessItems fuel)
      else return []

/-- Reads the value of a key in lines. -/
def blockValue : Nat → TokenReading Node
  | 0 => failure
  | fuel + 1 => do
      if ← skipIf .value then nodeUnless [.key, .value, .blockEnd] true true fuel
      else return .blank

/-- Reads the entries of a mapping in lines. -/
def blockEntries : Nat → TokenReading (List (Node × Node))
  | 0 => failure
  | fuel + 1 => do
      if ← skipIf .key then
        let key ← nodeUnless [.key, .value, .blockEnd] true true fuel
        let value ← blockValue fuel
        return (key, value) :: (← blockEntries fuel)
      else if ← skipIf .blockEnd then return []
      else failure

/-- Reads the value of a key in brackets that `closing` ends. -/
def flowValue (closing : Token) : Nat → TokenReading Node
  | 0 => failure
  | fuel + 1 => do
      if ← skipIf .value then nodeUnless [.flowEntry, closing] false false fuel
      else return .blank

/-- Reads the only entry of a mapping without braces.  Where its key is missing,
so is its colon. -/
def singleEntry : Nat → TokenReading (Node × Node)
  | 0 => failure
  | fuel + 1 => do
      if ← isAt [.value, .flowEntry, .flowSequenceEnd] then
        skip
        return (.blank, ← flowValue .flowSequenceEnd fuel)
      else
        let key ← node false false fuel
        return (key, ← flowValue .flowSequenceEnd fuel)

/-- Reads the items of a sequence in brackets. -/
def flowItems (first : Bool) : Nat → TokenReading (List Node)
  | 0 => failure
  | fuel + 1 => do
      if ← skipIf .flowSequenceEnd then return []
      else if ← lacksComma first then failure
      else if ← skipIf .key then
        let entry ← singleEntry fuel
        return .mapping .none [entry] :: (← flowItems false fuel)
      else if ← skipIf .flowSequenceEnd then return []
      else
        let item ← node false false fuel
        return item :: (← flowItems false fuel)

/-- Reads the entries of a mapping in braces. -/
def flowEntries (first : Bool) : Nat → TokenReading (List (Node × Node))
  | 0 => failure
  | fuel + 1 => do
      if ← skipIf .flowMappingEnd then return []
      else if ← lacksComma first then failure
      else if ← skipIf .key then
        let key ← nodeUnless [.value, .flowEntry, .flowMappingEnd] false false fuel
        let value ← flowValue .flowMappingEnd fuel
        return (key, value) :: (← flowEntries false fuel)
      else if ← skipIf .flowMappingEnd then return []
      else
        let key ← node false false fuel
        return (key, .blank) :: (← flowEntries false fuel)

end

/-- The meanings that handles have without a directive. -/
def standardHandles : List (String × String) :=
  [("!", "!"), ("!!", "tag:yaml.org,2002:")]

/-- Reads the directives of a document: at most one version, which must be a known
one, and one meaning for each handle. -/
def directives : Bool → List Token → List (String × String) → TokenReading Unit
  | versioned, .directive (.version major minor) :: tokens, handles =>
      if versioned || major ≠ 1 || (minor ≠ 1 && minor ≠ 2) then failure
      else do
        skip
        directives true tokens handles
  | versioned, .directive (.handle handle meaning) :: tokens, handles =>
      if (handles.lookup handle).isSome then failure
      else do
        skip
        directives versioned tokens (handles ++ [(handle, meaning)])
  | _, _, handles =>
      modify fun source => { source with handles := handles ++ standardHandles }

/-- A directive or a mark between documents is ahead, or the end. -/
def atBoundary : TokenReading Bool := do
  return match ← peek with
  | none | some (.directive _) | some .documentStart | some .documentEnd => true
  | _ => false

/-- Reads the document that begins with directives or a mark. -/
def markedDocument (fuel : Nat) : TokenReading Node := do
  directives false (← get).tokens []
  if !(← skipIf .documentStart) then failure
  else if ← atBoundary then return .blank
  else node true false fuel

/-- Reads the only document. -/
def document (fuel : Nat) : TokenReading Node := do
  let root ←
    match ← peek with
    | some (.directive _) | some .documentStart => markedDocument fuel
    | _ =>
        modify fun source => { source with handles := standardHandles }
        node true false fuel
  modify fun source =>
    { source with
      tokens := source.tokens.dropWhile fun token => token == .documentEnd }
  if (← get).tokens.isEmpty then return root else failure

end TokenReading

/-- The node that a text holds; nothing inside if the text holds no document. -/
def Node.read (text : List Char) : Option (Option Node) := do
  let tokens ← Token.scan text
  if tokens.isEmpty then some none
  else
    let (root, _) ← (TokenReading.document (4 * tokens.length + 4)).run
        ⟨tokens, .empty, []⟩
    some (some root)

end RequestFlow.Yaml
