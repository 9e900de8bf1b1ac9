import RequestFlow.Document.Definition
import RequestFlow.Document.Format

/-!
# Reading documents

The records of a document, with the names of their fields in the order in which a
format without names lists them, and what a field is where it is not written.
-/

namespace RequestFlow.Document

variable {Node : Type}

namespace Reader

/-- A dictionary of texts; of a repeated key the last value counts. -/
def dictionary : Reader Node (Dictionary String) :=
  fun format node => do
    let entries ← format.entries? node
    let values ← entries.mapM fun entry =>
        (format.text? entry.2).map fun value => (entry.1, value)
    some (.ofList values)

/-- The options of an exchange. -/
def options : Reader Node Options :=
  fun format node => do
    let fields ← format.fields? ["timeout_ms", "follow_redirects"] node
    some
      { timeout := ← fields.optional? "timeout_ms" natural
        followRedirects := ← fields.optional? "follow_redirects" flag }

/-- The name of a loop's items where none is written. -/
def usualLoopName : String := "item"

/-- A loop. -/
def loop : Reader Node LoopDefinition :=
  fun format node => do
    let fields ← format.fields? ["expr", "as", "line"] node
    some
      { source := ← fields.required? "expr" text
        name := ← fields.given? "as" usualLoopName text
        line := ← fields.given? "line" 0 natural }

/-- The method of a request where none is written. -/
def usualMethod : String := "GET"

/-- A request. -/
def request : Reader Node Request :=
  fun format node => do
    let fields ← format.fields?
        ["name", "protocol", "method", "url", "headers", "body", "when",
          "for_each", "options", "line"] node
    some
      { name := ← fields.required? "name" text
        protocol := ← fields.given? "protocol" .http (named Protocol.named?)
        method := ← fields.given? "method" usualMethod text
        url := ← fields.required? "url" text
        headers := ← fields.given? "headers" .empty dictionary
        body := ← fields.optional? "body" text
        guard := ← fields.optional? "when" text
        loop := ← fields.optional? "for_each" loop
        options := ← fields.given? "options" .inherit options
        line := ← fields.given? "line" 0 natural }

/-- What a failure does. -/
def policy : Reader Node Policy := named Policy.named?

/-- A branch. -/
def branch : Reader Node Branch :=
  fun format node => do
    let fields ← format.fields? ["when", "run", "fail", "on_failure", "line"] node
    some
      { condition := ← fields.optional? "when" text
        run := ← fields.optional? "run" text
        fail := ← fields.optional? "fail" text
        policy := ← fields.optional? "on_failure" policy
        line := ← fields.given? "line" 0 natural }

/-- A choice by conditions. -/
def conditionalBlock : Reader Node ConditionalBlock :=
  fun format node => do
    let fields ← format.fields? ["then", "elif", "else"] node
    some
      { first := ← fields.required? "then" branch
        others := ← fields.given? "elif" [] (list branch)
        otherwise := ← fields.optional? "else" branch }

/-- A choice by the value of a subject. -/
def switchBlock : Reader Node SwitchBlock :=
  fun format node => do
    let fields ← format.fields? ["expr", "cases", "default", "line"] node
    some
      { subject := ← fields.required? "expr" text
        cases := ← fields.given? "cases" [] (list branch)
        otherwise := ← fields.optional? "default" branch
        line := ← fields.given? "line" 0 natural }

/-- A step. -/
def step : Reader Node StepDefinition :=
  fun format node => do
    let fields ← format.fields?
        ["name", "kind", "using", "on_failure", "when", "when_line", "for_each",
          "expect", "vars", "options", "if", "switch", "line"] node
    some
      { name := ← fields.optional? "name" text
        kind := ← fields.given? "kind" .request (named StepKind.named?)
        using_ := ← fields.optional? "using" text
        policy := ← fields.optional? "on_failure" policy
        guard := ← fields.optional? "when" text
        guardLine := ← fields.given? "when_line" 0 natural
        loop := ← fields.optional? "for_each" loop
        expect := ← fields.given? "expect" .empty dictionary
        bindings := ← fields.given? "vars" .empty dictionary
        options := ← fields.given? "options" .inherit options
        conditional := ← fields.optional? "if" conditionalBlock
        switch := ← fields.optional? "switch" switchBlock
        line := ← fields.given? "line" 0 natural }

/-- A workflow. -/
def workflow : Reader Node WorkflowDefinition :=
  fun format node => do
    let fields ← format.fields?
        ["name", "description", "tags", "on_failure", "options", "vars", "steps",
          "line"] node
    some
      { name := ← fields.required? "name" text
        description := ← fields.optional? "description" text
        tags := ← fields.given? "tags" [] (list text)
        policy := ← fields.given? "on_failure" .stop policy
        options := ← fields.given? "options" .inherit options
        bindings := ← fields.given? "vars" .empty dictionary
        steps := ← fields.given? "steps" [] (list step)
        line := ← fields.given? "line" 0 natural }

/-- A document. -/
def document : Reader Node Document :=
  fun format node => do
    let fields ← format.fields?
        ["title", "variables", "options", "requests", "workflows"] node
    some
      { title := ← fields.optional? "title" text
        bindings := ← fields.given? "variables" .empty dictionary
        options := ← fields.given? "options" .inherit options
        requests := ← fields.given? "requests" [] (list request)
        workflows := ← fields.given? "workflows" [] (list workflow) }

end Reader

/-- The document without any part. -/
def blank : Document := ⟨none, .empty, .inherit, [], []⟩

end RequestFlow.Document
