import RequestFlow.Condition.Evaluation
import RequestFlow.Run.Dispatch
import RequestFlow.Run.Result

/-!
# Traced computations

What a run does on the way to its next dispatch can be observed: the conditions
that it puts to the evaluator, the errors that it raises, the results that it
records and the request that it sends.  A traced computation carries these acts in
order beside its value, so that statements about their order and number can be
made.
-/

namespace RequestFlow

open Condition

/-- An observable note of a run. -/
inductive Note where
  /-- A condition was put to the evaluator. -/
  | asked (query : Query)
  | raised (message : String)

/-- An act of a run. -/
inductive Act where
  | noted (note : Note)
  | recorded (result : StepResult)
  | sent (dispatch : Dispatch)

/-- The acts of a run in order. -/
abbrev Log := List Act

namespace Log

/-- The notes among the acts. -/
def notes (log : Log) : List Note :=
  log.filterMap fun act =>
    match act with
    | .noted note => some note
    | _ => none

/-- The conditions put to the evaluator. -/
def queries (log : Log) : List Query :=
  log.filterMap fun act =>
    match act with
    | .noted (.asked query) => some query
    | _ => none

/-- The errors raised. -/
def errors (log : Log) : List String :=
  log.filterMap fun act =>
    match act with
    | .noted (.raised message) => some message
    | _ => none

/-- The results recorded. -/
def results (log : Log) : List StepResult :=
  log.filterMap fun act =>
    match act with
    | .recorded result => some result
    | _ => none

/-- The requests sent. -/
def dispatches (log : Log) : List Dispatch :=
  log.filterMap fun act =>
    match act with
    | .sent dispatch => some dispatch
    | _ => none

@[simp] theorem notes_append (first second : Log) :
    (first ++ second).notes = first.notes ++ second.notes :=
  List.filterMap_append

@[simp] theorem queries_append (first second : Log) :
    (first ++ second).queries = first.queries ++ second.queries :=
  List.filterMap_append

@[simp] theorem errors_append (first second : Log) :
    (first ++ second).errors = first.errors ++ second.errors :=
  List.filterMap_append

@[simp] theorem results_append (first second : Log) :
    (first ++ second).results = first.results ++ second.results :=
  List.filterMap_append

@[simp] theorem dispatches_append (first second : Log) :
    (first ++ second).dispatches = first.dispatches ++ second.dispatches :=
  List.filterMap_append

@[simp]
theorem queries_recorded (result : StepResult) : queries [.recorded result] = [] :=
  rfl

@[simp]
theorem results_recorded (result : StepResult) :
    results [.recorded result] = [result] :=
  rfl

@[simp]
theorem dispatches_recorded (result : StepResult) :
    dispatches [.recorded result] = [] :=
  rfl

@[simp]
theorem queries_sent (dispatch : Dispatch) : queries [.sent dispatch] = [] :=
  rfl

@[simp]
theorem results_sent (dispatch : Dispatch) : results [.sent dispatch] = [] :=
  rfl

@[simp]
theorem dispatches_sent (dispatch : Dispatch) :
    dispatches [.sent dispatch] = [dispatch] :=
  rfl

end Log

/-- A value with the acts of its computation. -/
structure Traced (Result : Type) where
  /-- The acts in order. -/
  log : Log
  value : Result

namespace Traced

/-- A value without acts. -/
def of {Result : Type} (value : Result) : Traced Result := ⟨[], value⟩

/-- One computation after the other. -/
def andThen {First Second : Type} (first : Traced First)
    (second : First → Traced Second) : Traced Second :=
  ⟨first.log ++ (second first.value).log, (second first.value).value⟩

instance : Monad Traced where
  pure := of
  bind := andThen

/-- Puts a condition to the evaluator. -/
def ask (evaluator : Evaluator) (query : Query) :
    Traced (Except ValueError Value) :=
  ⟨[.noted (.asked query)], evaluator query⟩

/-- Raises an error. -/
def raise (message : String) : Traced Unit :=
  ⟨[.noted (.raised message)], ()⟩

/-- Records a result. -/
def record (result : StepResult) : Traced Unit :=
  ⟨[.recorded result], ()⟩

/-- Sends a request. -/
def send (dispatch : Dispatch) : Traced Unit :=
  ⟨[.sent dispatch], ()⟩

/-- The notes in order. -/
def notes {Result : Type} (traced : Traced Result) : List Note :=
  traced.log.notes

/-- The conditions put to the evaluator, in order. -/
def queries {Result : Type} (traced : Traced Result) : List Query :=
  traced.log.queries

/-- The errors raised, in order. -/
def errors {Result : Type} (traced : Traced Result) : List String :=
  traced.log.errors

@[simp] theorem log_pure {Result : Type} (value : Result) :
    (pure value : Traced Result).log = [] := rfl

@[simp] theorem value_pure {Result : Type} (value : Result) :
    (pure value : Traced Result).value = value := rfl

@[simp] theorem log_bind {First Second : Type} (first : Traced First)
    (second : First → Traced Second) :
    (first >>= second).log = first.log ++ (second first.value).log := rfl

@[simp] theorem value_bind {First Second : Type} (first : Traced First)
    (second : First → Traced Second) :
    (first >>= second).value = (second first.value).value := rfl

theorem bind_assoc {First Second Third : Type} (first : Traced First)
    (second : First → Traced Second) (third : Second → Traced Third) :
    first >>= second >>= third = first >>= fun value => second value >>= third :=
  congrArg (Traced.mk · _) (List.append_assoc _ _ _)

@[simp] theorem log_ask (evaluator : Evaluator) (query : Query) :
    (ask evaluator query).log = [.noted (.asked query)] := rfl

@[simp] theorem value_ask (evaluator : Evaluator) (query : Query) :
    (ask evaluator query).value = evaluator query := rfl

@[simp] theorem log_raise (message : String) :
    (raise message).log = [.noted (.raised message)] := rfl

@[simp]
theorem log_record (result : StepResult) :
    (record result).log = [.recorded result] :=
  rfl

@[simp]
theorem log_send (dispatch : Dispatch) : (send dispatch).log = [.sent dispatch] :=
  rfl

end Traced

end RequestFlow
