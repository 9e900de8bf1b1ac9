import RequestFlow.Dictionary
import RequestFlow.Text.Blank
import RequestFlow.Text.Caseless

/-!
# Documents

A document declares requests and the workflows that sequence them.  A step of a
workflow sends a request once or once per item of a loop, or chooses by conditions
or by a value which request to send. All of it is as authored: names are looked
up, and steps checked, when a workflow is resolved.  Line numbers count from one,
and 0 stands for an unknown line.
-/

namespace RequestFlow

/-- The protocol that a request speaks. -/
inductive Protocol where
  | http
  | grpc
  | webSocket
  | sse
  deriving DecidableEq, Inhabited

/-- The name of a protocol. -/
def Protocol.text : Protocol → String
  | http => "http"
  | grpc => "grpc"
  | webSocket => "websocket"
  | sse => "sse"

/-- The protocol of a name; `ws` is short for `websocket`. -/
def Protocol.named? : String → Option Protocol
  | "http" => some http
  | "grpc" => some grpc
  | "websocket" => some webSocket
  | "ws" => some webSocket
  | "sse" => some sse
  | _ => none

/-- Options of an exchange; an absent one is taken from the layer below. -/
structure Options where
  /-- The time limit in milliseconds. -/
  timeout : Option Nat
  followRedirects : Option Bool
  deriving DecidableEq

namespace Options

/-- Every option is taken from below. -/
def inherit : Options := ⟨none, none⟩

instance : Inhabited Options := ⟨inherit⟩

/-- The options of `upper` where they are present, else those of `lower`. -/
def overlay (lower upper : Options) : Options :=
  ⟨upper.timeout.or lower.timeout, upper.followRedirects.or lower.followRedirects⟩

end Options

/-- A loop: the condition that yields its items, and the name that each item is
bound to. -/
structure LoopDefinition where
  /-- The condition that yields the items. -/
  source : String
  name : String
  line : Nat
  deriving DecidableEq

/-- A request as authored; its method, address, header values and body are
templates. -/
structure Request where
  /-- The name that steps refer to. -/
  name : String
  protocol : Protocol
  method : String
  url : String
  headers : Dictionary String
  body : Option String
  /-- The condition under which the request is sent. -/
  guard : Option String
  loop : Option LoopDefinition
  options : Options
  line : Nat
  deriving DecidableEq

/-- What a failure does to the run. -/
inductive Policy where
  | stop
  | goOn
  deriving DecidableEq, Inhabited

/-- The name of a policy. -/
def Policy.text : Policy → String
  | stop => "stop"
  | goOn => "continue"

/-- The policy of a name. -/
def Policy.named? : String → Option Policy
  | "stop" => some stop
  | "continue" => some goOn
  | _ => none

/-- A failure under this policy ends the run. -/
def Policy.halts : Policy → Bool
  | stop => true
  | goOn => false

/-- The kind of a step. -/
inductive StepKind where
  | request
  /-- Sends a request for each item of a loop. -/
  | forEach
  | conditional
  /-- Chooses a case by a value. -/
  | switch
  deriving DecidableEq, Inhabited

namespace StepKind

/-- The name of a kind in a document. -/
def text : StepKind → String
  | request => "request"
  | forEach => "for_each"
  | conditional => "if"
  | switch => "switch"

/-- The kind of a name. -/
def named? : String → Option StepKind
  | "request" => some request
  | "for_each" => some forEach
  | "if" => some conditional
  | "switch" => some switch
  | _ => none

/-- The label of a kind in messages. -/
def label : StepKind → String
  | request => "request"
  | forEach => "for-each"
  | conditional => "@if"
  | switch => "@switch"

end StepKind

/-- One way a choice can go: sends a request or fails with a message. -/
structure Branch where
  /-- The condition, or the value of a case. -/
  condition : Option String
  /-- The name of the request to send. -/
  run : Option String
  fail : Option String
  /-- What a failure of the request does. -/
  policy : Option Policy
  line : Nat
  deriving DecidableEq, Inhabited

/-- A choice by conditions. -/
structure ConditionalBlock where
  first : Branch
  others : List Branch
  otherwise : Option Branch
  deriving DecidableEq

/-- A choice by the value of a subject. -/
structure SwitchBlock where
  /-- The condition whose value is compared. -/
  subject : String
  cases : List Branch
  otherwise : Option Branch
  line : Nat
  deriving DecidableEq

/-- A step as authored. -/
structure StepDefinition where
  name : Option String
  kind : StepKind
  using_ : Option String
  /-- What a failure does, if the step says so. -/
  policy : Option Policy
  /-- The condition under which the step takes place. -/
  guard : Option String
  guardLine : Nat
  loop : Option LoopDefinition
  /-- What the response is expected to be. -/
  expect : Dictionary String
  /-- The step's variables; their values are templates. -/
  bindings : Dictionary String
  options : Options
  /-- The branches of a choice by conditions. -/
  conditional : Option ConditionalBlock
  /-- The cases of a choice by a value. -/
  switch : Option SwitchBlock
  line : Nat
  deriving DecidableEq

/-- The step of a kind that says nothing else. -/
def StepDefinition.ofKind (kind : StepKind) : StepDefinition :=
  ⟨none, kind, none, none, none, 0, none, .empty, .empty, .inherit, none, none, 0⟩

/-- A workflow as authored. -/
structure WorkflowDefinition where
  name : String
  description : Option String
  tags : List String
  /-- What a failure does in steps that do not say so. -/
  policy : Policy
  options : Options
  bindings : Dictionary String
  /-- The steps in order. -/
  steps : List StepDefinition
  line : Nat
  deriving DecidableEq

/-- A document as authored. -/
structure Document where
  title : Option String
  bindings : Dictionary String
  options : Options
  /-- The requests in order. -/
  requests : List Request
  /-- The workflows in order. -/
  workflows : List WorkflowDefinition
  deriving DecidableEq

namespace Document

/-- The first request whose name is the given one up to the case of its letters;
blanks around the given name do not count. -/
def findRequest? (document : Document) (name : String) : Option Request :=
  document.requests.find? fun request =>
    Text.sameLetters request.name (Text.trimmed name)

/-- The first workflow whose name is the given one up to the case of its letters;
blanks around the given name do not count. -/
def findWorkflow? (document : Document) (name : String) :
    Option WorkflowDefinition :=
  document.workflows.find? fun workflow =>
    Text.sameLetters workflow.name (Text.trimmed name)

end Document

end RequestFlow
