import RequestFlow.Command.Declarations
import RequestFlow.Command.Recall
import RequestFlow.Command.Running

/-!
# The program

The program reads an invocation from its arguments and answers it.  Arguments that
are no command change nothing on the disk.
-/

namespace RequestFlow.Command

/-- The name of the program. -/
def programName : String := "weft"

/-- The version of the program. -/
def version : String := "0.1.0"

/-- How the program is used. -/
def usage : List String :=
  [s!"Usage: {programName} run DOCUMENT [-w WORKFLOW | -r REQUEST] " ++
      "[-e KEY=VALUE]... [--env-file FILE] [--json]",
    s!"       {programName} validate DOCUMENT",
    s!"       {programName} list DOCUMENT",
    s!"       {programName} history [-n LIMIT] [--json]",
    s!"       {programName} --version"]

/-- Answers an invocation. -/
def Invocation.answer (surroundings : Surroundings) : Invocation → Response
  | version =>
      .plain surroundings.disk successCode [s!"{programName} {Command.version}"]
  | run wish => Command.run surroundings wish
  | validate document => Command.validate surroundings document
  | list document => Command.list surroundings document
  | history wish => Command.history surroundings wish

/-- The files that an invocation needs. -/
def Invocation.files (bindings : List (String × String)) : Invocation → List String
  | version => []
  | run wish =>
      wish.document :: History.usualPath bindings :: wish.variablesFile.toList
  | validate document | list document => [document]
  | history _ => [History.usualPath bindings]

/-- Answers where arguments are no command. -/
def Stop.answer (surroundings : Surroundings) : Stop → Response
  | help => .plain surroundings.disk successCode usage
  | misuse => ⟨misuseCode, "", ofLines usage, surroundings.disk⟩

/-- Answers arguments. -/
def answer (surroundings : Surroundings) (arguments : List String) : Response :=
  match Invocation.read arguments with
  | .ok invocation => invocation.answer surroundings
  | .error stop => stop.answer surroundings

end RequestFlow.Command
