import RequestFlow.Json.Token

/-!
# Reading data texts

The tokens of a data text are read one by one; what has been opened and not yet
closed waits on a stack.  Each token either fits what is expected, or is a fault
at its place.  Strict reading allows fewer than 128 levels of lists and objects;
lenient reading sets no limit.
-/

namespace RequestFlow.Json

/-- A list or an object that is not closed yet, its parts so far in reverse. -/
inductive Frame where
  | items (done : List Syntax)
  /-- An object whose next part has a name. -/
  | fields (done : List (Option String × Syntax)) (name : Option String)

/-- What must come next. -/
inductive Expected where
  | value
  /-- A value, or the end of a list that has none. -/
  | item
  /-- A name, or the end of an object that has none. -/
  | name
  | anotherName
  | colon
  | afterValue (value : Syntax)

/-- The state of reading: what is open, innermost first, and what must come
next. -/
structure Reader where
  stack : List Frame
  expected : Expected

namespace Reader

/-- Strict reading stops at this many levels. -/
def levelLimit : Nat := 128

/-- A fault that is seen at the first byte of a token. -/
def refuse {Result : Type} (fault : Fault) (token : Token) :
    Except Failure Result :=
  .error ⟨fault, token.rest, 1⟩

/-- Opens a list or an object. -/
def openFrame (strictness : Strictness) (reader : Reader) (frame : Frame)
    (expected : Expected) (token : Token) : Except Failure Reader :=
  if strictness = .strict ∧ levelLimit ≤ reader.stack.length + 1 then
    refuse .tooDeep token
  else .ok ⟨frame :: reader.stack, expected⟩

/-- Takes the beginning of a value. -/
def takeValue (strictness : Strictness) (reader : Reader) (token : Token) :
    Except Failure Reader :=
  match token.kind with
  | .leaf value => .ok ⟨reader.stack, .afterValue value⟩
  | .broken failure => .error failure
  | .mark symbol =>
      if symbol = '[' then openFrame strictness reader (.items []) .item token
      else if symbol = '{' then
        openFrame strictness reader (.fields [] none) .name token
      else refuse .expectedValue token

/-- Takes a name. -/
def takeName (reader : Reader) (token : Token) : Except Failure Reader :=
  match token.kind, reader.stack with
  | .leaf (.string name), .fields done _ :: stack =>
      .ok ⟨.fields done name :: stack, .colon⟩
  | .broken failure, _ =>
      if token.rest.head? = some '"' then .error failure
      else refuse .nameNotText token
  | _, _ => refuse .nameNotText token

/-- Takes what follows a value: the end of the list or object it is in, or a
comma. -/
def takeAfter (reader : Reader) (value : Syntax) (token : Token) :
    Except Failure Reader :=
  match reader.stack, token.kind with
  | [], _ => refuse .trailingCharacters token
  | .items done :: stack, .mark symbol =>
      if symbol = ',' then .ok ⟨.items (value :: done) :: stack, .value⟩
      else if symbol = ']' then
        .ok ⟨stack, .afterValue (.array (value :: done).reverse)⟩
      else refuse .expectedListEnd token
  | .items _ :: _, _ => refuse .expectedListEnd token
  | .fields done name :: stack, .mark symbol =>
      if symbol = ',' then
        .ok ⟨.fields ((name, value) :: done) none :: stack, .anotherName⟩
      else if symbol = '}' then
        .ok ⟨stack, .afterValue (.object ((name, value) :: done).reverse)⟩
      else refuse .expectedObjectEnd token
  | .fields _ _ :: _, _ => refuse .expectedObjectEnd token

/-- A token is the given mark. -/
def isMarkOf (symbol : Char) (token : Token) : Bool :=
  match token.kind with
  | .mark other => other == symbol
  | _ => false

/-- Reads one token. -/
def step (strictness : Strictness) (reader : Reader) (token : Token) :
    Except Failure Reader :=
  match reader.expected with
  | .value =>
      match reader.stack with
      | .items (_ :: _) :: _ =>
          if isMarkOf ']' token then refuse .trailingComma token
          else takeValue strictness reader token
      | _ => takeValue strictness reader token
  | .item =>
      if isMarkOf ']' token then .ok ⟨reader.stack.drop 1, .afterValue (.array [])⟩
      else takeValue strictness reader token
  | .name =>
      if isMarkOf '}' token then
        .ok ⟨reader.stack.drop 1, .afterValue (.object [])⟩
      else takeName reader token
  | .anotherName =>
      if isMarkOf '}' token then refuse .trailingComma token
      else takeName reader token
  | .colon =>
      if isMarkOf ':' token then .ok { reader with expected := .value }
      else refuse .expectedColon token
  | .afterValue value => takeAfter reader value token

/-- Reads tokens one after the other. -/
def run (strictness : Strictness) : Reader → List Token → Except Failure Reader
  | reader, [] => .ok reader
  | reader, token :: tokens =>
      match reader.step strictness token with
      | .error failure => .error failure
      | .ok next => run strictness next tokens

/-- What the end of the text means. -/
def finish (reader : Reader) : Except Failure Syntax :=
  match reader.expected, reader.stack with
  | .afterValue value, [] => .ok value
  | .afterValue _, .items _ :: _ => .error ⟨.endInList, [], 0⟩
  | .afterValue _, .fields _ _ :: _ => .error ⟨.endInObject, [], 0⟩
  | .item, _ => .error ⟨.endInList, [], 0⟩
  | .name, _ => .error ⟨.endInObject, [], 0⟩
  | .colon, _ => .error ⟨.endInObject, [], 0⟩
  | .value, _ => .error ⟨.endInValue, [], 0⟩
  | .anotherName, _ => .error ⟨.endInValue, [], 0⟩

/-- Reading begins with a value. -/
def start : Reader := ⟨[], .value⟩

end Reader

/-- The syntax tree of a data text. -/
def Syntax.read (strictness : Strictness) (text : List Char) :
    Except Failure Syntax :=
  match Reader.start.run strictness (tokens strictness text) with
  | .error failure => .error failure
  | .ok reader => reader.finish

/-- The value of a data text, read strictly. -/
def read (text : List Char) : Except Failure Json :=
  match Syntax.read .strict text with
  | .error failure => .error failure
  | .ok tree => .ok tree.toJson

end RequestFlow.Json
