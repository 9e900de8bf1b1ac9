import RequestFlow.Calendar
import RequestFlow.Client.Network
import RequestFlow.Client.Scripted
import RequestFlow.Client.Status
import RequestFlow.Command.Arguments
import RequestFlow.Command.Declarations
import RequestFlow.Command.Invocation
import RequestFlow.Command.Program
import RequestFlow.Command.Recall
import RequestFlow.Command.Response
import RequestFlow.Command.Running
import RequestFlow.Condition.Evaluation
import RequestFlow.Condition.Expression
import RequestFlow.Condition.Path
import RequestFlow.Condition.Reading
import RequestFlow.Decimal.Binary64
import RequestFlow.Decimal.Shortest
import RequestFlow.Dictionary
import RequestFlow.Disk
import RequestFlow.Document.Definition
import RequestFlow.Document.File
import RequestFlow.Document.Format
import RequestFlow.Document.Json
import RequestFlow.Document.Lines
import RequestFlow.Document.Reading
import RequestFlow.Document.Text
import RequestFlow.Document.Writing
import RequestFlow.Document.Yaml
import RequestFlow.Drive
import RequestFlow.History.Entry
import RequestFlow.History.File
import RequestFlow.History.Log
import RequestFlow.History.Store
import RequestFlow.Json.Number
import RequestFlow.Json.Printer
import RequestFlow.Json.Reading
import RequestFlow.Json.Syntax
import RequestFlow.Json.Token
import RequestFlow.Json.Value
import RequestFlow.Main
import RequestFlow.Path
import RequestFlow.Redaction
import RequestFlow.Run.Dispatch
import RequestFlow.Run.Engine
import RequestFlow.Run.Judgement
import RequestFlow.Run.Loop
import RequestFlow.Run.Prepared
import RequestFlow.Run.Report
import RequestFlow.Run.Result
import RequestFlow.Run.Step
import RequestFlow.Run.Trace
import RequestFlow.Run.Work
import RequestFlow.Run.Writing
import RequestFlow.Scope
import RequestFlow.Scope.Layers
import RequestFlow.Template
import RequestFlow.Text.Blank
import RequestFlow.Text.Caseless
import RequestFlow.Text.Column
import RequestFlow.Text.Digits
import RequestFlow.Text.Lines
import RequestFlow.Text.Search
import RequestFlow.Text.Utf8
import RequestFlow.Text.Word
import RequestFlow.Value
import RequestFlow.Workflow.Resolution
import RequestFlow.Workflow.Resolved
import RequestFlow.Yaml.Cursor
import RequestFlow.Yaml.Node
import RequestFlow.Yaml.PlainType
import RequestFlow.Yaml.Printer
import RequestFlow.Yaml.Property
import RequestFlow.Yaml.Scalar
import RequestFlow.Yaml.Token
import RequestFlow.Proofs.Course
import RequestFlow.Proofs.Simulation
import RequestFlow.Proofs.Session
import RequestFlow.Proofs.Ways
import RequestFlow.Proofs.Decision
import RequestFlow.Proofs.Position
import RequestFlow.Proofs.Resolution
import RequestFlow.Proofs.Blocks
import RequestFlow.Proofs.Waiting
import RequestFlow.Proofs.Tokens
import RequestFlow.Proofs.Governing
import RequestFlow.Proofs.Stopping
import RequestFlow.Proofs.Persistence
import RequestFlow.Proofs.Canceling
import RequestFlow.Proofs.Sending
import RequestFlow.Proofs.Guarding
import RequestFlow.Proofs.Phrases
import RequestFlow.Proofs.Scanning
import RequestFlow.Proofs.Literals
import RequestFlow.Proofs.Operands
import RequestFlow.Proofs.Surface
import RequestFlow.Proofs.Parsing
import RequestFlow.Proofs.Meaning
import RequestFlow.Proofs.Names
import RequestFlow.Proofs.Repeating
import RequestFlow.Proofs.References
import RequestFlow.Proofs.Dispatching
import RequestFlow.Proofs.Driving
import RequestFlow.Proofs.Faults
import RequestFlow.Proofs.Telling
import RequestFlow.Proofs.Reporting
import RequestFlow.Proofs.Preempting
import RequestFlow.Proofs.Serving
import RequestFlow.Proofs.Draining
import RequestFlow.Proofs.Judging
import RequestFlow.Proofs.Layering
import RequestFlow.Proofs.Isolation
import RequestFlow.Proofs.Precedence
import RequestFlow.Proofs.Items
import RequestFlow.Proofs.Checking
import RequestFlow.Proofs.Placement
import RequestFlow.Proofs.Spans
import RequestFlow.Proofs.Nesting
import RequestFlow.Proofs.Choosing
import RequestFlow.Proofs.Bytes
import RequestFlow.Proofs.Leaves
import RequestFlow.Proofs.Rereading
import RequestFlow.Proofs.Records
import RequestFlow.Proofs.Folders
import RequestFlow.Proofs.Keeping
import RequestFlow.Proofs.Handles
import RequestFlow.Proofs.Occurrences
import RequestFlow.Proofs.Markers
import RequestFlow.Proofs.Verdicts
import RequestFlow.Proofs.Navigation
import RequestFlow.Proofs.Decoding
import RequestFlow.Proofs.Agreement
import RequestFlow.Proofs.Walking
import RequestFlow.Proofs.Exposure
import RequestFlow.Proofs.Dividing
import RequestFlow.Proofs.Encodings
import RequestFlow.Proofs.TextLiterals
import RequestFlow.Proofs.Wrapping
import RequestFlow.Proofs.Endings
import RequestFlow.Proofs.Dangling
import RequestFlow.Proofs.Rounding
import RequestFlow.Proofs.Equality
import RequestFlow.Proofs.Matching
import RequestFlow.Proofs.Compact
import RequestFlow.Proofs.Binding
import RequestFlow.Proofs.Refusing
import RequestFlow.Proofs.Concealing
import RequestFlow.Proofs.Rendering
import RequestFlow.Proofs.Selecting
import RequestFlow.Proofs.Replaying
import RequestFlow.Proofs.Openings
import RequestFlow.Proofs.Settling
