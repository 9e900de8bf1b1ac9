import RequestFlow.Document.Definition
import RequestFlow.Yaml.Printer

/-!
# Writing definitions

The text of a workflow's definition, as the history keeps it: every field in its
place, also those that are absent or empty.
-/

namespace RequestFlow

open Yaml

/-- Nothing. -/
def Yaml.Tree.null : Tree := .plain "null"

/-- A number. -/
def Yaml.Tree.ofNat (value : Nat) : Tree := .plain (toString value)

/-- A part that may be absent. -/
def Yaml.Tree.optional {Part : Type} (write : Part → Tree) (part : Option Part) :
    Tree :=
  (part.map write).getD .null

/-- A dictionary of texts. -/
def Yaml.Tree.ofDictionary (dictionary : Dictionary String) : Tree :=
  .mapping (dictionary.entries.map fun entry => (entry.1, .text entry.2))

/-- The written form of options. -/
def Options.tree (options : Options) : Tree :=
  .mapping [("timeout_ms", .optional .ofNat options.timeout),
    ("follow_redirects",
      .optional (fun flag => .plain (toString flag)) options.followRedirects)]

/-- The written form of a loop. -/
def LoopDefinition.tree (loop : LoopDefinition) : Tree :=
  .mapping [("expr", .text loop.source), ("as", .text loop.name),
    ("line", .ofNat loop.line)]

/-- The written form of a policy. -/
def Policy.tree (policy : Policy) : Tree :=
  .text policy.text

/-- The written form of a branch. -/
def Branch.tree (branch : Branch) : Tree :=
  .mapping
    [("when", .optional .text branch.condition),
      ("run", .optional .text branch.run),
      ("fail", .optional .text branch.fail),
      ("on_failure", .optional Policy.tree branch.policy),
      ("line", .ofNat branch.line)]

/-- The written form of a choice by conditions. -/
def ConditionalBlock.tree (block : ConditionalBlock) : Tree :=
  .mapping
    [("then", block.first.tree),
      ("elif", .sequence (block.others.map Branch.tree)),
      ("else", .optional Branch.tree block.otherwise)]

/-- The written form of a choice by a value. -/
def SwitchBlock.tree (block : SwitchBlock) : Tree :=
  .mapping
    [("expr", .text block.subject),
      ("cases", .sequence (block.cases.map Branch.tree)),
      ("default", .optional Branch.tree block.otherwise),
      ("line", .ofNat block.line)]

/-- The written form of a step. -/
def StepDefinition.tree (step : StepDefinition) : Tree :=
  .mapping
    [("name", .optional .text step.name),
      ("kind", .text step.kind.text),
      ("using", .optional .text step.using_),
      ("on_failure", .optional Policy.tree step.policy),
      ("when", .optional .text step.guard),
      ("when_line", .ofNat step.guardLine),
      ("for_each", .optional LoopDefinition.tree step.loop),
      ("expect", .ofDictionary step.expect),
      ("vars", .ofDictionary step.bindings),
      ("options", step.options.tree),
      ("if", .optional ConditionalBlock.tree step.conditional),
      ("switch", .optional SwitchBlock.tree step.switch),
      ("line", .ofNat step.line)]

/-- The text of a workflow's definition. -/
def WorkflowDefinition.text (workflow : WorkflowDefinition) : String :=
  Tree.writeMapping
    [("name", .text workflow.name),
      ("description", .optional .text workflow.description),
      ("tags", .sequence (workflow.tags.map .text)),
      ("on_failure", workflow.policy.tree),
      ("options", workflow.options.tree),
      ("vars", .ofDictionary workflow.bindings),
      ("steps", .sequence (workflow.steps.map StepDefinition.tree)),
      ("line", .ofNat workflow.line)]

end RequestFlow
