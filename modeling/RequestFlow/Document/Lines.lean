import RequestFlow.Document.Definition
import RequestFlow.Text.Lines
import RequestFlow.Text.Search
import RequestFlow.Text.Utf8

/-!
# Lines of declarations

Where the parts of a document are declared is found out from the layout of its
text: which line has which key, what is indented below a key, and which lines
begin the items of a list.  Nothing else of the text is understood, so a part that
is laid out otherwise is not found.  Only lines that are not known yet are filled
in.
-/

namespace RequestFlow.Document

/-- A line of a text. -/
structure NumberedLine where
  /-- Its number, from one. -/
  number : Nat
  text : List Char
  deriving DecidableEq

namespace NumberedLine

/-- The lines of a text with their numbers. -/
def ofText (text : List Char) : List NumberedLine :=
  (Text.lines text).mapIdx fun index line => ⟨index + 1, line⟩

/-- The text behind the indentation. -/
def content (line : NumberedLine) : List Char :=
  Text.trimStart line.text

/-- The number of bytes of the indentation. -/
def indentation (line : NumberedLine) : Nat :=
  Text.byteCount (line.text.takeWhile Text.isBlank)

/-- The line is empty or a comment. -/
def isIdle (line : NumberedLine) : Bool :=
  match line.content with
  | [] => true
  | character :: _ => character == '#'

/-- The line begins an item of a list. -/
def beginsItem (line : NumberedLine) : Bool :=
  match line.content with
  | ['-'] => true
  | '-' :: ' ' :: _ => true
  | character :: _ => character == '\x7b'
  | [] => false

/-- A line of the block below a key in a column; items of a list may begin in the
key's column. -/
def isBelow (column : Nat) (line : NumberedLine) : Bool :=
  line.isIdle || column < line.indentation ||
    (column == line.indentation && line.content.head? == some '-')

/-- Moves over blanks, item marks and opening braces: the column in bytes and the
text from there. -/
def skipMarks (column : Nat) : List Char → Nat × List Char
  | [] => (column, [])
  | character :: rest =>
      if Text.isBlank character then skipMarks (column + character.utf8Size) rest
      else if character == '\x7b' ||
          (character == '-' && rest.head?.all Text.isBlank) then
        skipMarks (column + 1) rest
      else (column, character :: rest)

/-- The name in front of a colon and the text from the colon on; a name in quotes
ends with them. -/
def nameAndRest? (text : List Char) : Option (List Char × List Char) :=
  let plain :=
    (Text.cut [':'] text).map fun parts => (Text.trimEnd parts.1, ':' :: parts.2)
  match text with
  | [] => none
  | first :: inner =>
      if first == '"' || first == '\'' then Text.cut [first] inner else plain

/-- A text can be the name of a key. -/
def isKeyName (name : List Char) : Bool :=
  !name.isEmpty && !name.any Text.isBlank && name.head? != some '#'

/-- The first key on a line, with its column. -/
def key? (line : NumberedLine) : Option (Nat × List Char) :=
  let marked := skipMarks 0 line.text
  (nameAndRest? marked.2).bind fun parts =>
    match Text.trimStart parts.2 with
    | ':' :: rest =>
        if rest.head?.all Text.isBlank && isKeyName parts.1 then
          some (marked.1, parts.1)
        else none
    | _ => none

/-- The line gives a name to what it declares. -/
def givesName (name : String) (line : NumberedLine) : Bool :=
  let text := Text.trim (line.content.dropWhile fun character => character == '-')
  let value :=
    (Text.dropStart? "name:".toList text).or
      (Text.dropStart? "\"name\":".toList text)
  value.any fun value =>
    let bare :=
      (Text.trim value).reverse.dropWhile fun character => character == ','
    let isQuote := fun character => character == '"' || character == '\''
    (((bare.dropWhile isQuote).reverse).dropWhile isQuote) == name.toList

end NumberedLine

/-- Lines one after the other. -/
abbrev Region := List NumberedLine

/-- A key that was found, and what is below it. -/
structure Declaration where
  line : Nat
  /-- The lines below it. -/
  body : Region

namespace Region

/-- Looks for a key in the column of the first key of all, which may be known
already. -/
def findKey? (key : String) : Option Nat → Region → Option Declaration
  | _, [] => none
  | level, line :: region =>
      match line.key? with
      | none => findKey? key level region
      | some (column, name) =>
          if level.getD column = column ∧ name = key.toList then
            some ⟨line.number, region.takeWhile (NumberedLine.isBelow column)⟩
          else findKey? key (some (level.getD column)) region

/-- A key on the level of the region's first key. -/
def declaration? (region : Region) (key : String) : Option Declaration :=
  region.findKey? key none

/-- The line begins an item in a column, which is that of the first item of all. -/
def beginsItemIn (column : Nat) (line : NumberedLine) : Bool :=
  line.beginsItem && line.indentation == column

/-- The regions from each line that satisfies a test up to the next one. -/
def splitBefore (test : NumberedLine → Bool) : Region → List Region
  | [] => []
  | line :: region =>
      if test line then
        (line :: region.takeWhile fun line => !test line) ::
          splitBefore test region
      else splitBefore test region

/-- The regions of the items of a list. -/
def items (region : Region) : List Region :=
  match region.find? NumberedLine.beginsItem with
  | none => []
  | some first => region.splitBefore (beginsItemIn first.indentation)

/-- The regions of the items of the list below a key. -/
def itemsOf (region : Region) (key : String) : List Region :=
  ((region.declaration? key).map fun declaration => items declaration.body).getD []

/-- The number of the first line. -/
def firstLine (region : Region) : Nat :=
  (region.head?.map NumberedLine.number).getD 0

/-- The line of a key, or another line where the key is not found. -/
def lineOf (region : Region) (key : String) (other : Nat) : Nat :=
  ((region.declaration? key).map Declaration.line).getD other

/-- The line that gives a name, or 0. -/
def nameLine (region : Region) (name : String) : Nat :=
  ((region.find? (NumberedLine.givesName name)).map NumberedLine.number).getD 0

end Region

/-- A line that is known, or else the one that was found. -/
def known (line found : Nat) : Nat :=
  if line = 0 then found else line

/-- Places each part in its region, if there are as many regions as parts. -/
def placeAll {Part : Type} (place : Region → Part → Part) (regions : List Region)
    (parts : List Part) : List Part :=
  if regions.length = parts.length then List.zipWith place regions parts else parts

/-- Places a loop of what is declared in a region. -/
def placeLoop (region : Region) (loop : LoopDefinition) : LoopDefinition :=
  match region.declaration? "for_each" with
  | none => loop
  | some declaration =>
      { loop with
        line := known loop.line (declaration.body.lineOf "expr" declaration.line) }

/-- Places a branch at its condition, or else at a line of its own. -/
def placeBranchAt (line : Nat) (region : Region) (branch : Branch) : Branch :=
  { branch with line := known branch.line (region.lineOf "when" line) }

/-- Places a branch that is an item of a list. -/
def placeBranch (region : Region) (branch : Branch) : Branch :=
  placeBranchAt region.firstLine region branch

/-- Places a branch below a key. -/
def placeKeyedBranch (key : String) (region : Region) (branch : Branch) : Branch :=
  match region.declaration? key with
  | none => branch
  | some declaration => placeBranchAt declaration.line declaration.body branch

/-- Places the branches of a choice by conditions in a step's region. -/
def placeConditional (region : Region) (block : ConditionalBlock) :
    ConditionalBlock :=
  match region.declaration? "if" with
  | none => block
  | some declaration =>
      let body := declaration.body
      { first := placeKeyedBranch "then" body block.first
        others := placeAll placeBranch (body.itemsOf "elif") block.others
        otherwise := block.otherwise.map (placeKeyedBranch "else" body) }

/-- Places the subject and the cases of a choice by a value in a step's region. -/
def placeSwitch (region : Region) (block : SwitchBlock) : SwitchBlock :=
  match region.declaration? "switch" with
  | none => block
  | some declaration =>
      let body := declaration.body
      { block with
        cases := placeAll placeBranch (body.itemsOf "cases") block.cases
        otherwise := block.otherwise.map (placeKeyedBranch "default" body)
        line := known block.line (body.lineOf "expr" declaration.line) }

/-- Places a step. -/
def placeStep (region : Region) (step : StepDefinition) : StepDefinition :=
  { step with
    line := known step.line region.firstLine
    guardLine := known step.guardLine (region.lineOf "when" 0)
    loop := step.loop.map (placeLoop region)
    conditional := step.conditional.map (placeConditional region)
    switch := step.switch.map (placeSwitch region) }

/-- Places a request. -/
def placeRequest (region : Region) (request : Request) : Request :=
  { request with
    line := known request.line region.firstLine
    loop := request.loop.map (placeLoop region) }

/-- Places a workflow. -/
def placeWorkflow (region : Region) (workflow : WorkflowDefinition) :
    WorkflowDefinition :=
  { workflow with
    line := known workflow.line region.firstLine
    steps := placeAll placeStep (region.itemsOf "steps") workflow.steps }

/-- Fills in the lines of a document that are not known.  Requests that are not
found as items of their list are looked for by name, and so are workflows. -/
def annotate (document : Document) (text : String) : Document :=
  let region := NumberedLine.ofText text.toList
  let requestItems := Region.itemsOf region "requests"
  let workflowItems := Region.itemsOf region "workflows"
  { document with
    requests :=
      if requestItems.length = document.requests.length then
        List.zipWith placeRequest requestItems document.requests
      else
        document.requests.map fun request =>
          { request with
            line := known request.line (Region.nameLine region request.name) }
    workflows :=
      if workflowItems.length = document.workflows.length then
        List.zipWith placeWorkflow workflowItems document.workflows
      else
        document.workflows.map fun workflow =>
          { workflow with
            line := known workflow.line (Region.nameLine region workflow.name) } }

end RequestFlow.Document
