import RequestFlow.Command.Arguments
import RequestFlow.Text.Blank
import RequestFlow.Text.Digits

/-!
# Invocations

What the program is asked to do: to tell its version, to help, to run, to check or
to list what a document declares, or to show the history.  The first argument
names the command, and the others are read by its grammar.
-/

namespace RequestFlow.Command

/-- What is run. -/
inductive Target where
  /-- The first workflow of the document. -/
  | firstWorkflow
  | workflow (name : String)
  /-- The request of a name, in its own loop. -/
  | request (name : String)
  deriving DecidableEq

/-- The wish to run something. -/
structure RunWish where
  document : String
  target : Target
  /-- The path of a file of variables. -/
  variablesFile : Option String
  assignments : List (String × String)
  /-- The report is wanted as data. -/
  asData : Bool
  deriving DecidableEq

/-- The wish to see the history. -/
structure HistoryWish where
  limit : Nat
  /-- The runs are wanted as data. -/
  asData : Bool
  deriving DecidableEq

/-- What the program is asked to do. -/
inductive Invocation where
  | version
  | run (wish : RunWish)
  /-- To check the workflows of a document. -/
  | validate (document : String)
  /-- To list what a document declares. -/
  | list (document : String)
  | history (wish : HistoryWish)
  deriving DecidableEq

/-- The commands. -/
inductive Verb where
  | run
  | validate
  | list
  | history
  deriving DecidableEq

namespace Verb

/-- All commands. -/
def all : List Verb := [run, validate, list, history]

/-- The name of a command. -/
def text : Verb → String
  | run => "run"
  | validate => "validate"
  | list => "list"
  | history => "history"

/-- The command of a name. -/
def named? (name : String) : Option Verb :=
  all.find? fun verb => verb.text = name

@[simp] theorem named?_text (verb : Verb) : named? verb.text = some verb := by
  cases verb <;> decide +kernel

end Verb

/-- A variable and its value around the first equals sign; blanks around the name
do not count, and the name must not be empty. -/
def assignment? (text : String) : Option (String × String) :=
  (Text.cut ['='] text.toList).bind fun parts =>
    let name := Text.trimmed (String.ofList parts.1)
    if name.isEmpty then none else some (name, String.ofList parts.2)

/-- The number that a limit writes; a plus sign in front does not count. -/
def limit? (text : String) : Option Nat :=
  let digits := (Text.dropStart? ['+'] text.toList).getD text.toList
  (Text.natural? 10 digits).filter fun value => value < Text.naturalBound

/-- The limit if none is given. -/
def usualLimit : Nat := 20

/-- An option that can be given once, with any value. -/
def single (name : String) (letter : Option Char) : OptionRule :=
  ⟨name, letter, some fun _ => true, false⟩

/-- The option that asks for data. -/
def dataRule : OptionRule :=
  ⟨"json", none, none, false⟩

/-- The grammar of a command. -/
def Verb.grammar : Verb → Grammar
  | run =>
      ⟨1,
        [single "workflow" (some 'w'),
          single "request" (some 'r'),
          ⟨"env", some 'e', some fun text => (assignment? text).isSome, true⟩,
          ⟨"env-file", none, some fun path => !path.isEmpty, false⟩,
          dataRule]⟩
  | validate | list => ⟨1, []⟩
  | history =>
      ⟨0,
        [⟨"limit", some 'n', some fun text => (limit? text).isSome, false⟩,
          dataRule]⟩

/-- What is run; a workflow and a request exclude each other. -/
def Arguments.target? (arguments : Arguments) : Option Target :=
  match arguments.value? "workflow", arguments.value? "request" with
  | none, none => some .firstWorkflow
  | some name, none => some (.workflow name)
  | none, some name => some (.request name)
  | some _, some _ => none

/-- The invocation that arguments make for a command. -/
def Verb.invocation? (verb : Verb) (arguments : Arguments) : Option Invocation :=
  match verb, arguments.operands with
  | run, [document] =>
      arguments.target?.map fun target =>
        .run
          { document := document
            target := target
            variablesFile := arguments.value? "env-file"
            assignments := (arguments.values "env").filterMap assignment?
            asData := arguments.has dataRule.name }
  | validate, [document] => some (.validate document)
  | list, [document] => some (.list document)
  | history, [] =>
      some (.history
        { limit := ((arguments.value? "limit").bind limit?).getD usualLimit
          asData := arguments.has dataRule.name })
  | _, _ => none

/-- The command that is to help with another one. -/
def helpName : String := "help"

/-- The stop for a command that is to help. -/
def helpStop : List String → Stop
  | [] => .help
  | [name] =>
      if name = helpName || (Verb.named? name).isSome then .help else .misuse
  | _ => .misuse

/-- Reads a command from its name and its arguments. -/
def readVerb (name : String) (arguments : List String) : Except Stop Invocation :=
  match Verb.named? name with
  | none => .error (if name = helpName then helpStop arguments else .misuse)
  | some verb =>
      match verb.grammar.read arguments with
      | .error stop => .error stop
      | .ok arguments =>
          match verb.invocation? arguments with
          | some invocation => .ok invocation
          | none => .error .misuse

/-- Reads an invocation. -/
def Invocation.read : List String → Except Stop Invocation
  | [] => .error .misuse
  | first :: arguments =>
      match Shape.of first with
      | .plain => readVerb first arguments
      | .named "version" none => .ok .version
      | .named "help" none => .error .help
      | .letters ('V' :: _) => .ok .version
      | .letters ('h' :: _) => .error .help
      | _ => .error .misuse

end RequestFlow.Command
