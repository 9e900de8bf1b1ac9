import RequestFlow.Drive
import RequestFlow.Proofs.Dispatching

/-!
# The course of a drive

A drive hands one request after the other to the client.  Of each exchange the
answer is taken, or a command ends the run, or nothing comes any more.  This
module says once how a drive goes on from each request, and keeps a record of the
requests that were handed out, each with its exchange.  Main statement: a drive
takes this course, and keeping the record changes nothing else about it.
-/

namespace RequestFlow.Drive

open Condition

variable {Client : Type}

/-! ## Exchanges -/

/-- A request that was handed to the client, with the exchange about it. -/
abbrev Handed (Client : Type) := Dispatch × Exchange Client

/-- The answer of an exchange, if it is taken: no command has arrived, or the
answer comes first. -/
def Exchange.taken? (exchange : Exchange Client) : Option (Outcome × Client) :=
  if exchange.answerFirst || exchange.arriving.isEmpty then exchange.answer
  else none

/-- An answer is taken if the client gives it, and it is looked at first or no
command has arrived. -/
theorem Exchange.taken?_eq_some {exchange : Exchange Client}
    {answer : Outcome × Client} :
    exchange.taken? = some answer ↔
      exchange.answer = some answer ∧
        (exchange.answerFirst = true ∨ exchange.arriving = []) := by
  rw [taken?, Option.ite_none_right_eq_some, Bool.or_eq_true, List.isEmpty_iff,
    and_comm]

/-- No answer is taken where the client gives none, or where a command has arrived
and is looked at first. -/
theorem Exchange.taken?_eq_none {exchange : Exchange Client} :
    exchange.taken? = none ↔
      exchange.answer = none ∨
        exchange.answerFirst = false ∧ exchange.arriving ≠ [] := by
  rw [taken?]
  split
  · next first =>
      rw [Bool.or_eq_true, List.isEmpty_iff] at first
      grind
  · next late =>
      rw [Bool.or_eq_true, List.isEmpty_iff] at late
      grind

/-- The client with a record of what it was handed. -/
def Exchanging.recorded (exchanging : Exchanging Client) :
    Exchanging (Client × List (Handed Client)) :=
  fun recording dispatch =>
    let exchange := exchanging recording.1 dispatch
    let handed := recording.2 ++ [(dispatch, exchange)]
    { arriving := exchange.arriving
      interrupted := (exchange.interrupted, handed)
      answer := exchange.answer.map fun answer => (answer.1, answer.2, handed)
      answerFirst := exchange.answerFirst }

/-- The answers that are taken, all at one time. -/
def answersOf (now : Int) (handed : List (Handed Client)) : List (Outcome × Int) :=
  handed.filterMap fun entry => entry.2.taken?.map fun answer => (answer.1, now)

/-- The commands that are waiting or arrive, in order. -/
def commandsOf (waiting : List Command) (handed : List (Handed Client)) :
    List Command :=
  waiting ++ handed.flatMap fun entry => entry.2.arriving

theorem answersOf_append (now : Int) (first second : List (Handed Client)) :
    answersOf now (first ++ second) =
      answersOf now first ++ answersOf now second :=
  List.filterMap_append

/-- An exchange whose answer is taken adds this answer. -/
theorem answersOf_taken {exchange : Exchange Client} {outcome : Outcome}
    {client : Client} (takes : exchange.taken? = some (outcome, client))
    (now : Int) (dispatch : Dispatch) (handed : List (Handed Client)) :
    answersOf now ((dispatch, exchange) :: handed) =
      (outcome, now) :: answersOf now handed := by
  rw [answersOf, List.filterMap_cons, takes]
  rfl

/-- A last exchange whose answer is not taken adds none. -/
theorem answersOf_untaken {exchange : Exchange Client}
    (untaken : exchange.taken? = none) (now : Int) (dispatch : Dispatch) :
    answersOf now [(dispatch, exchange)] = [] := by
  rw [answersOf, List.filterMap_cons, untaken]
  rfl

namespace Driving

/-- What is told before the next request is handed out. -/
def news (driving : Driving Client) : List Event :=
  (driving.announce driving.engine.results).1

/-- The drive after this was told. -/
def informed (driving : Driving Client) : Driving Client :=
  (driving.announce driving.engine.results).2

/-- What is told up to the next request, which is handed out. -/
def newsOf (driving : Driving Client) (dispatch : Dispatch) : List Event :=
  driving.news ++ [.stepStarted dispatch.token dispatch.statusLine]

/-- What the engine makes of an answer. -/
def respond (driving : Driving Client) (evaluator : Evaluator)
    (dispatch : Dispatch) (outcome : Outcome) (now : Int) :
    Traced (Directive × Engine) :=
  driving.informed.engine.respond evaluator dispatch.token outcome now

/-- The drive of an engine after an answer was taken. -/
def proceed (driving : Driving Client) (engine : Engine) (client : Client)
    (exchange : Exchange Client) : Driving Client :=
  ⟨engine, client, exchange.arriving, driving.informed.told⟩

/-- The drive with a client that was interrupted. -/
def leave (driving : Driving Client) (client : Client) : Driving Client :=
  { driving.informed with client := client }

end Driving

/-! ## From one request to the next -/

section Equations

variable {evaluator : Evaluator} {exchanging : Exchanging Client} {now : Int}
  {driving : Driving Client} {dispatch : Dispatch}

/-- A command that is waiting ends the run before its request is handed to the
client. -/
theorem loop_of_waiting {command : Command} {others : List Command}
    (waits : driving.waiting = command :: others) :
    loop evaluator exchanging now driving dispatch =
      (driving.informed.interrupt command now).after driving.news [] := by
  rw [loop.eq_def]
  dsimp only
  split
  · next first rest equal =>
      rcases List.cons.inj (equal.symm.trans waits) with ⟨rfl, rfl⟩
      rfl
  · next equal => cases equal.symm.trans waits

/-- A command that arrives while the client has the request ends the run, unless
the answer is taken first. -/
theorem loop_of_arriving {command : Command} {others : List Command}
    (free : driving.waiting = [])
    (untaken : (exchanging driving.client dispatch).taken? = none)
    (arrives : (exchanging driving.client dispatch).arriving = command :: others) :
    loop evaluator exchanging now driving dispatch =
      ((driving.leave (exchanging driving.client dispatch).interrupted).interrupt
        command now).after (driving.newsOf dispatch) [] := by
  rw [loop.eq_def]
  dsimp only
  split
  · next first rest equal => cases equal.symm.trans free
  · split
    · next none silent => cases silent.symm.trans arrives
    · next first rest none equal =>
        rcases List.cons.inj (equal.symm.trans arrives) with ⟨rfl, rfl⟩
        rfl
    · next outcome client given =>
        have late : (exchanging driving.client dispatch).answerFirst = false := by
          rcases Exchange.taken?_eq_none.mp untaken with silent | ⟨late, rest⟩
          · cases silent.symm.trans given
          · exact late
        have interrupts :
            (if (exchanging driving.client dispatch).answerFirst = true then none
            else
              (exchanging driving.client dispatch).arriving.head?) =
                some command := by
          rw [late, arrives]
          rfl
        split
        · next first equal =>
            rcases Option.some.inj (equal.symm.trans interrupts) with rfl
            rfl
        · next equal => cases equal.symm.trans interrupts

/-- Where the client never answers and no command arrives, the drive fails. -/
theorem loop_of_silence (free : driving.waiting = [])
    (untaken : (exchanging driving.client dispatch).taken? = none)
    (silent : (exchanging driving.client dispatch).arriving = []) :
    loop evaluator exchanging now driving dispatch =
      (Driven.failed (exchanging driving.client dispatch).interrupted
        .unanswered).after (driving.newsOf dispatch) [] := by
  rw [loop.eq_def]
  dsimp only
  split
  · next first rest equal => cases equal.symm.trans free
  · split
    · rfl
    · next first rest none equal => cases equal.symm.trans silent
    · next outcome client given =>
        rcases Exchange.taken?_eq_none.mp untaken with unanswered | ⟨late, some⟩
        · cases unanswered.symm.trans given
        · exact (some silent).elim

/-- An answer that is taken goes to the engine, whose directive says how the drive
goes on. -/
theorem loop_of_taken {outcome : Outcome} {client : Client}
    (free : driving.waiting = [])
    (takes :
      (exchanging driving.client dispatch).taken? = some (outcome, client)) :
    loop evaluator exchanging now driving dispatch =
      let answered := driving.respond evaluator dispatch outcome now
      let next :=
        driving.proceed answered.value.2 client
          (exchanging driving.client dispatch)
      (match answered.value.1 with
        | .dispatch following => loop evaluator exchanging now next following
        | .finished report => next.conclude report
        | .stale =>
            .failed client .stalled).after (driving.newsOf dispatch)
              answered.notes := by
  rcases Exchange.taken?_eq_some.mp takes with ⟨given, first⟩
  rw [loop.eq_def]
  dsimp only
  split
  · next first rest equal => cases equal.symm.trans free
  · split
    · next none silent => cases none.symm.trans given
    · next first rest none equal => cases none.symm.trans given
    · next other later same =>
        cases same.symm.trans given
        have passes :
            (if (exchanging driving.client dispatch).answerFirst = true then none
            else (exchanging driving.client dispatch).arriving.head?) = none := by
          rcases first with first | silent
          · rw [if_pos first]
          · rw [silent]
            split <;> rfl
        split
        · next command equal => cases equal.symm.trans passes
        · split
          · next following equal =>
              have came :
                  (driving.respond evaluator dispatch outcome now).value.1 =
                    .dispatch following :=
                equal
              rw [came]
              rfl
          · next report equal =>
              have came :
                  (driving.respond evaluator dispatch outcome now).value.1 =
                    .finished report :=
                equal
              rw [came]
              rfl
          · next equal =>
              have came :
                  (driving.respond evaluator dispatch outcome now).value.1 =
                    .stale :=
                equal
              rw [came]
              rfl

end Equations

/-- How a drive goes on from a request, with the requests that are handed out from
there. -/
inductive Drives (evaluator : Evaluator) (exchanging : Exchanging Client)
    (now : Int) :
    Driving Client → Dispatch → List (Handed Client) → Driven Client → Prop where
  /-- A command is waiting, and the request is not handed out. -/
  | preempted {driving : Driving Client} {dispatch : Dispatch} {command : Command}
      {others : List Command} (waits : driving.waiting = command :: others) :
      Drives evaluator exchanging now driving dispatch []
        ((driving.informed.interrupt command now).after driving.news [])
  /-- A command arrives, and no answer is taken. -/
  | interrupted {driving : Driving Client} {dispatch : Dispatch}
      {command : Command} {others : List Command} (free : driving.waiting = [])
      (untaken : (exchanging driving.client dispatch).taken? = none)
      (arrives :
        (exchanging driving.client dispatch).arriving = command :: others) :
      Drives evaluator exchanging now driving dispatch
        [(dispatch, exchanging driving.client dispatch)]
        (((driving.leave
          (exchanging driving.client dispatch).interrupted).interrupt command
          now).after (driving.newsOf dispatch) [])
  /-- Nothing comes. -/
  | unanswered {driving : Driving Client} {dispatch : Dispatch}
      (free : driving.waiting = [])
      (untaken : (exchanging driving.client dispatch).taken? = none)
      (silent : (exchanging driving.client dispatch).arriving = []) :
      Drives evaluator exchanging now driving dispatch
        [(dispatch, exchanging driving.client dispatch)]
        ((Driven.failed (exchanging driving.client dispatch).interrupted
          .unanswered).after (driving.newsOf dispatch) [])
  /-- The engine does not know the answer. -/
  | lost {driving : Driving Client} {dispatch : Dispatch} {outcome : Outcome}
      {client : Client} (free : driving.waiting = [])
      (takes :
        (exchanging driving.client dispatch).taken? = some (outcome, client))
      (answered :
        (driving.respond evaluator dispatch outcome now).value.1 = .stale) :
      Drives evaluator exchanging now driving dispatch
        [(dispatch, exchanging driving.client dispatch)]
        ((Driven.failed client .stalled).after (driving.newsOf dispatch)
          (driving.respond evaluator dispatch outcome now).notes)
  /-- The answer ends the run. -/
  | concluded {driving : Driving Client} {dispatch : Dispatch} {outcome : Outcome}
      {client : Client} {report : Report} (free : driving.waiting = [])
      (takes :
        (exchanging driving.client dispatch).taken? = some (outcome, client))
      (answered :
        (driving.respond evaluator dispatch outcome now).value.1 =
          .finished report) :
      Drives evaluator exchanging now driving dispatch
        [(dispatch, exchanging driving.client dispatch)]
        (((driving.proceed (driving.respond evaluator dispatch outcome now).value.2
          client (exchanging driving.client dispatch)).conclude report).after
          (driving.newsOf dispatch)
          (driving.respond evaluator dispatch outcome now).notes)
  /-- The answer leads to the next request. -/
  | goesOn {driving : Driving Client} {dispatch following : Dispatch}
      {outcome : Outcome} {client : Client} {handed : List (Handed Client)}
      {driven : Driven Client} (free : driving.waiting = [])
      (takes :
        (exchanging driving.client dispatch).taken? = some (outcome, client))
      (answered :
        (driving.respond evaluator dispatch outcome now).value.1 =
          .dispatch following)
      (later :
        Drives evaluator exchanging now
          (driving.proceed (driving.respond evaluator dispatch outcome now).value.2
            client (exchanging driving.client dispatch)) following handed driven) :
      Drives evaluator exchanging now driving dispatch
        ((dispatch, exchanging driving.client dispatch) :: handed)
        (driven.after (driving.newsOf dispatch)
          (driving.respond evaluator dispatch outcome now).notes)

/-! ## Keeping a record -/

/-- The drive of a client that has kept this record. -/
def Driving.keeping (driving : Driving Client) (handed : List (Handed Client)) :
    Driving (Client × List (Handed Client)) :=
  ⟨driving.engine, (driving.client, handed), driving.waiting, driving.told⟩

/-- What has come of a drive of a client that has kept this record. -/
def Driven.keeping (driven : Driven Client) (handed : List (Handed Client)) :
    Driven (Client × List (Handed Client)) :=
  ⟨driven.report, driven.events, (driven.client, handed), driven.offered,
    driven.notes⟩

/-- A drive is interrupted alike whatever was handed to the client before. -/
theorem Driving.interrupt_keeping (driving : Driving Client)
    (handed : List (Handed Client)) (command : Command) (now : Int) :
    (driving.keeping handed).interrupt command now =
      (driving.interrupt command now).keeping handed := by
  have same : (driving.keeping handed).engine = driving.engine := rfl
  rw [interrupt, interrupt, same]
  split <;> rfl

/-- A client that keeps what it was handed gives the same answers. -/
theorem Exchange.taken?_recorded (exchanging : Exchanging Client) (client : Client)
    (handed : List (Handed Client)) (dispatch : Dispatch) :
    (exchanging.recorded (client, handed) dispatch).taken? =
      (exchanging client dispatch).taken?.map fun answer =>
        (answer.1, answer.2,
          handed ++ [(dispatch, exchanging client dispatch)]) := by
  rw [taken?, taken?]
  show (if (exchanging client dispatch).answerFirst ||
    (exchanging client dispatch).arriving.isEmpty
    then (exchanging client dispatch).answer.map _ else none) = _
  split <;> rfl

/-- A drive takes its course. -/
theorem exists_drives (evaluator : Evaluator) (exchanging : Exchanging Client)
    (now : Int) (driving : Driving Client) (dispatch : Dispatch) :
    ∃ handed,
      Drives evaluator exchanging now driving dispatch handed
        (loop evaluator exchanging now driving dispatch) := by
  cases waits : driving.waiting with
  | cons command others =>
      rw [loop_of_waiting waits]
      exact ⟨[], .preempted waits⟩
  | nil =>
      cases takes : (exchanging driving.client dispatch).taken? with
      | none =>
          cases arrives : (exchanging driving.client dispatch).arriving with
          | nil =>
              rw [loop_of_silence waits takes arrives]
              exact ⟨_, .unanswered waits takes arrives⟩
          | cons command others =>
              rw [loop_of_arriving waits takes arrives]
              exact ⟨_, .interrupted waits takes arrives⟩
      | some answer =>
          rcases answer with ⟨outcome, client⟩
          rw [loop_of_taken waits takes]
          dsimp only
          cases answered :
              (driving.respond evaluator dispatch outcome now).value.1 with
          | stale => exact ⟨_, .lost waits takes answered⟩
          | finished report => exact ⟨_, .concluded waits takes answered⟩
          | dispatch following =>
              rcases exists_drives evaluator exchanging now
                  (driving.proceed
                    (driving.respond evaluator dispatch outcome now).value.2 client
                    (exchanging driving.client dispatch)) following with
                ⟨handed, drives⟩
              exact ⟨_, .goesOn waits takes answered drives⟩
termination_by driving.engine.work
decreasing_by exact Engine.work_of_respond answered

section Recorded

variable {exchanging : Exchanging Client} {client : Client} {dispatch : Dispatch}

/-- With a record an answer is taken exactly where it is taken without one, and
the exchange about it is recorded. -/
theorem taken?_recorded_of_taken {outcome : Outcome} {later : Client}
    (takes : (exchanging client dispatch).taken? = some (outcome, later))
    (before : List (Handed Client)) :
    (exchanging.recorded (client, before) dispatch).taken? =
      some
        (outcome, later, before ++ [(dispatch, exchanging client dispatch)]) := by
  rw [Exchange.taken?_recorded, takes]
  rfl

theorem taken?_recorded_of_untaken
    (untaken : (exchanging client dispatch).taken? = none)
    (before : List (Handed Client)) :
    (exchanging.recorded (client, before) dispatch).taken? = none := by
  rw [Exchange.taken?_recorded, untaken]
  rfl

end Recorded

/-- With a record a drive takes the same course, and the record is of the requests
that are handed out. -/
theorem Drives.loop_recorded {evaluator : Evaluator}
    {exchanging : Exchanging Client} {now : Int} {driving : Driving Client}
    {dispatch : Dispatch} {handed : List (Handed Client)} {driven : Driven Client}
    (drives : Drives evaluator exchanging now driving dispatch handed driven)
    (before : List (Handed Client)) :
    loop evaluator exchanging.recorded now (driving.keeping before) dispatch =
      driven.keeping (before ++ handed) := by
  -- The engine and the commands are the same at each request, and the record has
  -- grown by the exchanges before it.
  have free {driving : Driving Client} (waits : driving.waiting = [])
      (before : List (Handed Client)) : (driving.keeping before).waiting = [] :=
    waits
  have same (driving : Driving Client) (before : List (Handed Client))
      (dispatch : Dispatch) (outcome : Outcome) :
      (driving.keeping before).respond evaluator dispatch outcome now =
        driving.respond evaluator dispatch outcome now := rfl
  induction drives generalizing before with
  | @preempted driving dispatch command others waits =>
      have waitsToo : (driving.keeping before).waiting = command :: others := waits
      rw [loop_of_waiting waitsToo, List.append_nil]
      show ((driving.informed.keeping before).interrupt command now).after _ _ = _
      rw [Driving.interrupt_keeping]
      rfl
  | @interrupted driving dispatch command others waits untaken arrives =>
      rw [loop_of_arriving (free waits before)
        (taken?_recorded_of_untaken untaken before) arrives]
      let exchange := exchanging driving.client dispatch
      show
        (((driving.leave exchange.interrupted).keeping
          (before ++ [(dispatch, exchange)])).interrupt command now).after _ _ = _
      rw [Driving.interrupt_keeping]
      rfl
  | unanswered waits untaken silent =>
      rw [loop_of_silence (free waits before)
        (taken?_recorded_of_untaken untaken before) silent]
      rfl
  | lost waits takes answered =>
      rw [loop_of_taken (free waits before)
        (taken?_recorded_of_taken takes before)]
      simp only [same, answered]
      rfl
  | concluded waits takes answered =>
      rw [loop_of_taken (free waits before)
        (taken?_recorded_of_taken takes before)]
      simp only [same, answered]
      rfl
  | @goesOn driving dispatch following outcome client handed driven waits takes
      answered drives hypothesis =>
      have later := hypothesis
        (before ++ [(dispatch, exchanging driving.client dispatch)])
      rw [List.append_assoc, List.singleton_append] at later
      rw [loop_of_taken (free waits before)
        (taken?_recorded_of_taken takes before)]
      simp only [same, answered]
      exact congrArg
        (fun driven =>
          Driven.after (driving.newsOf dispatch)
            (driving.respond evaluator dispatch outcome now).notes driven)
        later

end RequestFlow.Drive
