import RequestFlow.Proofs.Reporting

/-!
# Commands against answers

A command that arrives while the client has a request ends the run there: no other
request is handed out.  Its answer may be taken first.  Then it is evaluated, and
the command cancels the run only if it has not come to its end.  Main statement:
this is how a drive ends, whatever the client does and whenever commands arrive.
-/

namespace RequestFlow.Drive

open Condition

variable {Client : Type}

/-- The report of a run that a command is to cancel: that of the engine, if the
run has come to its end before. -/
def Settles (command : Command) (report : Report) : Directive → Prop
  | .finished own => report = own
  | _ => CanceledBy command report

/-- A drive to which a command comes ends with a report. -/
theorem Ends.settles {results : List StepResult} {origin : RunOrigin}
    {command : Command} {others : List Command} {handed : List (Handed Client)}
    {directive : Directive} {outcome : Except DriveError Report}
    (ends : Ends results origin (command :: others) handed directive outcome) :
    ∃ report, outcome = .ok report ∧ report.results = results ∧
      Settles command report directive := by
  cases outcome with
  | error error =>
      rcases ends with ⟨unanswered, none, rest⟩
      cases none
  | ok report =>
      rcases ends with ⟨recorded, started, closes⟩
      refine ⟨report, rfl, recorded, ?_⟩
      cases directive with
      | finished own => exact closes
      | dispatch dispatch =>
          rcases closes with ⟨first, earliest, canceled⟩
          rcases Option.some.inj earliest with rfl
          exact canceled
      | stale =>
          rcases closes with ⟨first, earliest, canceled⟩
          rcases Option.some.inj earliest with rfl
          exact canceled

theorem only_of_split {entry other : Handed Client}
    {before after : List (Handed Client)}
    (split : [other] = before ++ entry :: after) :
    before = [] ∧ entry = other ∧ after = [] := by
  rcases List.singleton_eq_append_iff.mp split with ⟨rfl, same⟩ | ⟨rest, none⟩
  · rcases List.cons.inj same with ⟨rfl, rfl⟩
    exact ⟨rfl, rfl, rfl⟩
  · cases none

section Course

variable {evaluator : Evaluator} {exchanging : Exchanging Client} {now : Int}
  {request : RunRequest} {first run : Run} {driving : Driving Client}
  {dispatch : Dispatch} {past pending : Log}
  {handed before after : List (Handed Client)} {entry : Handed Client}
  {driven : Driven Client}

/-- While a command is waiting, no request is handed out. -/
theorem Drives.handed_eq_nil
    (drives : Drives evaluator exchanging now driving dispatch handed driven)
    (busy : driving.waiting ≠ []) : handed = [] := by
  cases drives with
  | preempted waits => rfl
  | interrupted free => exact (busy free).elim
  | unanswered free => exact (busy free).elim
  | lost free => exact (busy free).elim
  | concluded free => exact (busy free).elim
  | goesOn free => exact (busy free).elim

/-- The request during which a command arrives is the last one, and no command has
come before. -/
theorem Drives.last
    (drives : Drives evaluator exchanging now driving dispatch handed driven)
    (split : handed = before ++ entry :: after) (arrives : entry.2.arriving ≠ []) :
    after = [] ∧ commandsOf driving.waiting handed = entry.2.arriving := by
  have alone {driving : Driving Client} (free : driving.waiting = [])
      (entry : Handed Client) :
      commandsOf driving.waiting [entry] = entry.2.arriving := by
    simp [commandsOf, free]
  induction drives generalizing before with
  | preempted waits => simp at split
  | interrupted free =>
      rcases only_of_split split with ⟨rfl, rfl, rfl⟩
      exact ⟨rfl, alone free _⟩
  | unanswered free =>
      rcases only_of_split split with ⟨rfl, rfl, rfl⟩
      exact ⟨rfl, alone free _⟩
  | lost free =>
      rcases only_of_split split with ⟨rfl, rfl, rfl⟩
      exact ⟨rfl, alone free _⟩
  | concluded free =>
      rcases only_of_split split with ⟨rfl, rfl, rfl⟩
      exact ⟨rfl, alone free _⟩
  | goesOn free takes answered later hypothesis =>
      cases before with
      | nil =>
          -- What has arrived here waits at the next request, which is not handed
          -- out.
          rcases List.cons.inj split with ⟨rfl, rfl⟩
          rcases later.handed_eq_nil arrives with rfl
          exact ⟨rfl, alone free _⟩
      | cons head before =>
          rcases hypothesis (List.cons.inj split).2 with ⟨rfl, commands⟩
          rw [free]
          exact ⟨rfl, commands⟩

/-- Every request that is handed out is what the answers before it lead to. -/
theorem Drives.asks (begins : Run.Begins request first)
    (drives : Drives evaluator exchanging now driving dispatch handed driven)
    (underway : Underway evaluator first driving dispatch past pending run)
    (split : handed = before ++ entry :: after) :
    (Engine.feed evaluator (answersOf now before)
        (.dispatch dispatch, driving.engine)).value.1 = .dispatch entry.1 := by
  induction drives generalizing past pending run before with
  | preempted waits => simp at split
  | interrupted free untaken arrives =>
      rcases only_of_split split with ⟨rfl, rfl, rfl⟩
      rfl
  | unanswered free untaken silent =>
      rcases only_of_split split with ⟨rfl, rfl, rfl⟩
      rfl
  | lost free takes answered =>
      rcases only_of_split split with ⟨rfl, rfl, rfl⟩
      rfl
  | concluded free takes answered =>
      rcases only_of_split split with ⟨rfl, rfl, rfl⟩
      rfl
  | @goesOn driving dispatch following outcome client handed driven free takes
      answered later hypothesis =>
      cases before with
      | nil =>
          rcases List.cons.inj split with ⟨rfl, rfl⟩
          rfl
      | cons head before =>
          rcases List.cons.inj split with ⟨rfl, rest⟩
          let exchange := exchanging driving.client dispatch
          rcases (underway.leg begins outcome now).goesOn answered with
            ⟨quiet, next, acts, further⟩
          rw [answersOf_taken takes,
            (log_feed evaluator driving dispatch (answersOf now before) outcome now
              client exchange).2, answered]
          exact hypothesis (further client exchange.arriving) rest

end Course

/-- A command that arrives while the client has a request ends the run there: no
other request is handed out.  If the answer is not taken, the run is canceled
after what it had recorded before the request.  If it is taken, it is evaluated
first, and the run is canceled only if this does not end it. -/
theorem run_settles {evaluator : Evaluator} {exchanging : Exchanging Client}
    {client : Client} {waiting : List Command} {request : RunRequest}
    {definition : String} {now : Int} {before after : List (Handed Client)}
    {dispatch : Dispatch} {exchange : Exchange Client} {command : Command}
    {others : List Command}
    (handed :
      (run evaluator exchanging.recorded (client, []) waiting request definition
          now).client.2 =
        before ++ (dispatch, exchange) :: after)
    (arrives : exchange.arriving = command :: others) :
    let asked := Engine.idle.play evaluator request now (answersOf now before)
    asked.value.1 = .ok (.dispatch dispatch) ∧ after = [] ∧
      ∃ report,
        (run evaluator exchanging client waiting request definition now).report =
          .ok report ∧
          match exchange.taken? with
          | none => report.results = asked.log.results ∧ CanceledBy command report
          | some (outcome, _) =>
              let answered := Engine.idle.play evaluator request now
                (answersOf now before ++ [(outcome, now)])
              ∃ directive, answered.value.1 = .ok directive ∧
                report.results = answered.log.results ∧
                Settles command report directive := by
  intro asked
  cases resolved : request.workflow.resolve request.document with
  | error error =>
      rw [run_of_unresolved resolved] at handed
      simp at handed
  | ok workflow =>
      rcases opens_run resolved evaluator exchanging client waiting definition
          now with
        ⟨traced, given, core, started, equal, kept, opens⟩
      have begins :
          Run.Begins request (Engine.idle.beginRun request workflow now) :=
        .beginRun resolved now
      have split : given = before ++ (dispatch, exchange) :: after :=
        (congrArg (fun driven => driven.client.2) kept).symm.trans handed
      rcases opens.spoken begins started with
        ⟨told, left, directive, acts, led, spoken⟩
      rw [equal, Driven.report_complete]
      cases opens with
      | atOnce => simp at split
      | @asking earliest quiet next given driven asks sent underway drives =>
          have reached : asked.value.1 = .ok (.dispatch dispatch) := by
            have value : traced.value = (.dispatch earliest, traced.value.2) :=
              Prod.ext asks rfl
            show (Engine.idle.play _ _ _ _).value.1 = _
            rw [play_of_started started, value]
            exact congrArg Except.ok (drives.asks begins underway split)
          have busy : exchange.arriving ≠ [] := by
            rw [arrives]
            exact List.cons_ne_nil _ _
          rcases drives.last split busy with ⟨rfl, commands⟩
          have ends := spoken.ends
          rw [(commands.trans arrives : commandsOf waiting given = _)] at ends
          rcases ends.settles with ⟨report, reported, results, settles⟩
          have recorded :
              report.results =
                (Engine.idle.play evaluator request now
                  (answersOf now given)).log.results := by
            rw [acts]
            exact results
          rw [split, answersOf_append] at recorded led
          refine ⟨reached, rfl, report, reported, ?_⟩
          cases takes : exchange.taken? with
          | none =>
              rw [answersOf_untaken takes, List.append_nil] at recorded led
              rcases Except.ok.inj (led.symm.trans reached) with rfl
              exact ⟨recorded, settles⟩
          | some answer =>
              rcases answer with ⟨outcome, client⟩
              have one : answersOf now [(dispatch, exchange)] = [(outcome, now)] :=
                answersOf_taken takes now dispatch []
              rw [one] at recorded led
              exact ⟨directive, led, recorded, settles⟩

/-! ### An answer and a command at once -/

/-- The client answers, and a command is waiting when it does; which of the two is
taken first is open. -/
def answering (first : Bool) : Exchanging Unit :=
  fun _ _ => ⟨[⟨some "user"⟩], (), some (.completed .blank, ()), first⟩

/-- The request is sent once. -/
def visitOnce : RunRequest :=
  userWorkflow [{ StepDefinition.ofKind .request with using_ := some "user" }]

theorem run_settles_visitOnce :
    ∃ dispatch report,
      (run twoUsers (answering false).recorded ((), []) [] visitOnce ""
            0).client.2 =
          [] ++ (dispatch, answering false () dispatch) :: [] ∧
        (run twoUsers (answering false) () [] visitOnce "" 0).report = .ok report ∧
        report.results = [] ∧ CanceledBy ⟨some "user"⟩ report := by
  have handed :
      ∃ dispatch,
        (run twoUsers (answering false).recorded ((), []) [] visitOnce ""
            0).client.2 =
          [] ++ (dispatch, answering false () dispatch) :: [] := by
    have started :
        Engine.idle.start twoUsers visitOnce 0 = ⟨_, .ok (.dispatch _), _⟩ :=
      rfl
    rw [run_of_dispatch rfl started, loop_of_arriving rfl rfl rfl]
    exact ⟨_, rfl⟩
  rcases handed with ⟨dispatch, handed⟩
  rcases run_settles handed rfl with ⟨asked, alone, report, reported, cancels⟩
  exact ⟨dispatch, report, handed, reported, cancels⟩

/-- The command is waiting when the answer comes, but the answer is evaluated and
the run succeeds. -/
theorem run_succeeds_visitOnce :
    ∃ dispatch report,
      (run twoUsers (answering true).recorded ((), []) [] visitOnce ""
            0).client.2 =
          [(dispatch, answering true () dispatch)] ∧
        (answering true () dispatch).arriving = [⟨some "user"⟩] ∧
        (run twoUsers (answering true) () [] visitOnce "" 0).report = .ok report ∧
        report.status = .succeeded ∧ report.canceledReason = none ∧
        report.results.length = 1 := by
  have started :
      Engine.idle.start twoUsers visitOnce 0 = ⟨_, .ok (.dispatch _), _⟩ :=
    rfl
  rw [run_of_dispatch rfl started, run_of_dispatch rfl started,
    loop_of_taken rfl rfl, loop_of_taken rfl rfl]
  refine ⟨_, _, rfl, rfl, rfl, ?_⟩
  decide +kernel

end RequestFlow.Drive
