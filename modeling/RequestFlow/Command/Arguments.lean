import RequestFlow.Text.Search

/-!
# Arguments

The arguments of a command are operands and options.  An option is written by its
name or by its letter, several letters can stand behind one dash, and a value
follows the option or is attached to it.  Behind two dashes all arguments are
operands.  The main statement says when an option is taken: where it does not ask
for help, its rule accepts the value, and the option is new or repeatable.
-/

namespace RequestFlow.Command

/-- Why arguments are not a command. -/
inductive Stop where
  | help
  /-- The grammar does not allow them. -/
  | misuse
  deriving DecidableEq

/-- A rule for an option. -/
structure OptionRule where
  name : String
  letter : Option Char
  /-- The values that are accepted; where there is no such condition the option
  has no value. -/
  accepts : Option (String → Bool)
  /-- The option can be given several times. -/
  isRepeatable : Bool

/-- The rule for the option that asks for help. -/
def helpRule : OptionRule :=
  ⟨"help", some 'h', none, true⟩

/-- What the arguments of a command can be. -/
structure Grammar where
  /-- The number of operands; they are not empty. -/
  operands : Nat
  rules : List OptionRule

/-- The arguments of a command. -/
structure Arguments where
  operands : List String
  /-- The options that were given, with their values; an option without a value
  has an empty one. -/
  options : List (String × String)

namespace Arguments

/-- No arguments. -/
def blank : Arguments := ⟨[], []⟩

/-- An option was given. -/
def has (arguments : Arguments) (name : String) : Bool :=
  arguments.options.any fun option => option.1 = name

/-- The value of an option. -/
def value? (arguments : Arguments) (name : String) : Option String :=
  arguments.options.lookup name

/-- The values of an option. -/
def values (arguments : Arguments) (name : String) : List String :=
  (arguments.options.filter fun option => option.1 = name).map Prod.snd

/-- Adds an option with its value. -/
def give (arguments : Arguments) (rule : OptionRule) (value : String) :
    Except Stop Arguments :=
  if rule.name = helpRule.name then .error .help
  else if !rule.isRepeatable && arguments.has rule.name then .error .misuse
  else if rule.accepts.all fun accepts => accepts value then
    .ok { arguments with options := arguments.options ++ [(rule.name, value)] }
  else .error .misuse

theorem give_eq_ok_iff {arguments given : Arguments} {rule : OptionRule}
    {value : String} :
    arguments.give rule value = .ok given ↔
      (rule.name ≠ helpRule.name ∧ (rule.isRepeatable ∨ ¬arguments.has rule.name) ∧
        (rule.accepts.all fun accepts => accepts value) ∧
        given =
          { arguments with
            options := arguments.options ++ [(rule.name, value)] }) := by
  rw [give]
  cases rule.isRepeatable <;> cases arguments.has rule.name <;>
    by_cases isHelp : rule.name = helpRule.name <;>
    cases (rule.accepts.all fun accepts => accepts value) <;>
    simp [isHelp, eq_comm]

/-- Adds an operand. -/
def addOperand (arguments : Arguments) (grammar : Grammar) (operand : String) :
    Except Stop Arguments :=
  if operand.isEmpty || grammar.operands ≤ arguments.operands.length then
    .error .misuse
  else .ok { arguments with operands := arguments.operands ++ [operand] }

end Arguments

/-- What an argument looks like. -/
inductive Shape where
  /-- Two dashes, which end the options. -/
  | twoDashes
  /-- The name of an option, and the value attached to it. -/
  | named (name : String) (value : Option String)
  | letters (letters : List Char)
  /-- An operand or the value of an option. -/
  | plain
  deriving DecidableEq

/-- The shape of an argument; a single dash is plain. -/
def Shape.of (argument : String) : Shape :=
  match argument.toList with
  | ['-', '-'] => .twoDashes
  | '-' :: '-' :: text =>
      match Text.cut ['='] text with
      | some (name, value) =>
          .named (String.ofList name) (some (String.ofList value))
      | none => .named (String.ofList text) none
  | '-' :: first :: others => .letters (first :: others)
  | _ => .plain

/-- Arguments that are being read. -/
structure Scan where
  given : Arguments
  /-- The option whose value is the next argument. -/
  awaiting : Option OptionRule
  isPlain : Bool

/-- The value that is attached to a letter. -/
def attached? : List Char → Option String
  | [] => none
  | '=' :: text => some (String.ofList text)
  | text => some (String.ofList text)

namespace Grammar

/-- The rule for the option of a name. -/
def named? (grammar : Grammar) (name : String) : Option OptionRule :=
  (helpRule :: grammar.rules).find? fun rule => rule.name = name

/-- The rule for the option of a letter. -/
def lettered? (grammar : Grammar) (letter : Char) : Option OptionRule :=
  (helpRule :: grammar.rules).find? fun rule => rule.letter = some letter

/-- Takes an option with the value attached to it; without one its value is
awaited. -/
def takeOption (scan : Scan) (rule : OptionRule) (value : Option String) :
    Except Stop Scan :=
  match rule.accepts, value with
  | none, none =>
      (scan.given.give rule "").map fun given => { scan with given := given }
  | none, some _ => .error .misuse
  | some _, none => .ok { scan with awaiting := some rule }
  | some _, some value =>
      (scan.given.give rule value).map fun given => { scan with given := given }

/-- Takes letters; behind the letter of an option with a value stands the value. -/
def takeLetters (grammar : Grammar) (scan : Scan) : List Char → Except Stop Scan
  | [] => .ok scan
  | letter :: letters =>
      match grammar.lettered? letter with
      | none => .error .misuse
      | some rule =>
          if rule.accepts.isSome then takeOption scan rule (attached? letters)
          else
            match takeOption scan rule none with
            | .error stop => .error stop
            | .ok scan => grammar.takeLetters scan letters

/-- Takes an operand. -/
def takeOperand (grammar : Grammar) (scan : Scan) (operand : String) :
    Except Stop Scan :=
  (scan.given.addOperand grammar operand).map fun given =>
    { scan with given := given }

/-- Takes an argument. -/
def take (grammar : Grammar) (scan : Scan) (argument : String) :
    Except Stop Scan :=
  if scan.isPlain then grammar.takeOperand scan argument
  else
    match scan.awaiting, Shape.of argument with
    | some rule, .plain =>
        takeOption { scan with awaiting := none } rule (some argument)
    | some _, _ => .error .misuse
    | none, .plain => grammar.takeOperand scan argument
    | none, .twoDashes => .ok { scan with isPlain := true }
    | none, .letters letters => grammar.takeLetters scan letters
    | none, .named name value =>
        match grammar.named? name with
        | none => .error .misuse
        | some rule => takeOption scan rule value

/-- Reads the arguments of a command. -/
def read (grammar : Grammar) (arguments : List String) : Except Stop Arguments :=
  match arguments.foldlM grammar.take ⟨.blank, none, false⟩ with
  | .error stop => .error stop
  | .ok scan =>
      if scan.awaiting.isNone && scan.given.operands.length = grammar.operands then
        .ok scan.given
      else .error .misuse

end Grammar

end RequestFlow.Command
