import RequestFlow.Run.Result
import RequestFlow.Template
import RequestFlow.Text.Caseless
import RequestFlow.Text.Digits

/-!
# Judging responses

A response passes when nothing is wrong with it, and otherwise fails with the
first thing that is: the transport, an assertion, the response script, an
expectation in the order of declaration, the status code.
-/

namespace RequestFlow

/-- The judgement of a response. -/
structure Verdict where
  status : StepStatus
  message : Option String
  error : Option String
  deriving DecidableEq

/-- What an expectation is about. -/
inductive Expectation where
  | status
  | statusCode
  deriving DecidableEq

/-- The smallest status code of a failure. -/
def failureFloor : Nat := 400

/-- The expectation that a key stands for: letters of either case, `_` and `-`
left out. -/
def Expectation.ofKey? (key : String) : Option Expectation :=
  let letters :=
    key.toList.filter fun character => character != '_' && character != '-'
  let name := Text.lower (String.ofList letters)
  if name = "status" then some .status
  else if name = "statuscode" then some .statusCode
  else none

/-- A natural number below a bound in decimal digits, a plus sign allowed. -/
def naturalBelow? (bound : Nat) (text : List Char) : Option Nat :=
  let digits := if text.head? == some '+' then text.drop 1 else text
  (Text.natural? 10 digits).filter fun value => value < bound

/-- What is wrong with a response in view of one expectation. -/
def Expectation.mismatch? (snapshot : Snapshot) (expected : String) :
    Expectation → Option String
  | status =>
      let actual := Text.trimmed snapshot.status
      if Text.sameLetters actual expected then none
      else some s!"expected status '{expected}', got '{actual}'"
  | statusCode =>
      match naturalBelow? 65536 expected.toList with
      | none => some s!"invalid status code expectation '{expected}'"
      | some code =>
          if snapshot.statusCode = some code then none
          else
            let actual := (snapshot.statusCode.map toString).getD "none"
            some s!"expected status code {code}, got {actual}"

/-- What is wrong with a response in view of a declared expectation; its value is
a template, and a key that stands for none is passed over. -/
def declaredMismatch? (snapshot : Snapshot) (scope : Scope)
    (declared : String × String) : Option String :=
  (Expectation.ofKey? declared.1).bind fun expectation =>
    expectation.mismatch? snapshot (Text.trimmed (Template.fill scope declared.2))

/-- What a failed assertion says, or that it failed. -/
def TestResult.complaint (test : TestResult) : String :=
  match test.message with
  | some message =>
      if Text.isAllBlank message then s!"test '{test.name}' failed" else message
  | none => s!"test '{test.name}' failed"

/-- The status code of a failure. -/
def failureCode? (snapshot : Snapshot) : Option String :=
  snapshot.statusCode.bind fun code =>
    if failureFloor ≤ code then some s!"unexpected status code {code}" else none

/-- What is wrong with a response that came. -/
def complaint? (snapshot : Snapshot) (expect : Dictionary String) (scope : Scope) :
    Option String :=
  (snapshot.firstFailedTest?.map TestResult.complaint).or
    ((snapshot.scriptError.map fun error => s!"script error: {error}").or
      ((expect.entries.findSome? (declaredMismatch? snapshot scope)).or
        (failureCode? snapshot)))

/-- Judges a response. -/
def judge (snapshot : Snapshot) (expect : Dictionary String) (scope : Scope) :
    Verdict :=
  match snapshot.transportError with
  | some error => ⟨.failed, some error, some error⟩
  | none =>
      match complaint? snapshot expect scope with
      | some message => ⟨.failed, some message, none⟩
      | none => ⟨.succeeded, none, none⟩

end RequestFlow
