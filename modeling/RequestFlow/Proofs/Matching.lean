import Mathlib.Data.List.Nodup
import RequestFlow.Proofs.Judging

/-!
# The result of a dispatch

The line that shows a dispatch is made when the request is sent, the label of its
result when the answer comes, and in a loop the step has moved on in between.
Main statement: an answer that is taken is recorded before anything else, as a
result of the step and the request of the dispatch that is shown with the line of
the dispatch; and of all results of the run, whatever calls come later, it is the
only one that is shown so.
-/

namespace RequestFlow

open Condition

/-! ## Lines -/

/-- The line that shows a result, made as that of a dispatch is. -/
def StepResult.statusLine (totalSteps : Nat) (result : StepResult) : String :=
  RequestFlow.statusLine result.stepIndex totalSteps result.displayLabel

theorem not_mem_toDigits {mark : Char} (other : mark.isDigit = false)
    (number : Nat) : mark ∉ Nat.toDigits 10 number := by
  intro member
  have digit := Nat.isDigit_of_mem_toDigits (by decide) (by decide) member
  cases other.symm.trans digit

theorem eq_of_toDigits {left right : Nat}
    (equal : Nat.toDigits 10 left = Nat.toDigits 10 right) : left = right := by
  have read := congrArg (Nat.ofDigitChars 10 · 0) equal
  simp only [Nat.ofDigitChars_ten_toDigits] at read
  exact read

theorem toList_statusLine (stepIndex totalSteps : Nat) (label : String) :
    (statusLine stepIndex totalSteps label).toList =
      "step ".toList ++
        (Nat.toDigits 10 (stepIndex + 1) ++ '/' ::
          ((toString totalSteps).toList ++ (": ".toList ++ label.toList))) := by
  simp [statusLine, toString]

/-- A line tells the step and the label. -/
theorem statusLine_inj {left right totalSteps : Nat} {first second : String} :
    statusLine left totalSteps first = statusLine right totalSteps second ↔
      left = right ∧ first = second := by
  constructor
  · intro equal
    have same := congrArg String.toList equal
    rw [toList_statusLine, toList_statusLine, List.append_cancel_left_eq] at same
    rcases Text.eq_of_append_cons (not_mem_toDigits rfl _) (not_mem_toDigits rfl _)
        same with
      ⟨digits, rest⟩
    rw [List.append_cancel_left_eq, List.append_cancel_left_eq, String.toList_inj]
      at rest
    exact ⟨Nat.succ.inj (eq_of_toDigits digits), rest⟩
  · rintro ⟨rfl, rfl⟩
    rfl

/-- A label ends with the place in the loop. -/
theorem toList_fullLabel (label : String) (branch : Option String)
    (index total : Nat) :
    ∃ front,
      (fullLabel label branch (some ⟨index, total⟩)).toList =
        front ++ '(' ::
          (Nat.toDigits 10 index ++ '/' :: (Nat.toDigits 10 total ++ [')'])) := by
  refine ⟨(label ++ (branch.map (" → " ++ ·)).getD "").toList ++ [' '], ?_⟩
  simp [fullLabel, Iteration.text, toString]

/-- The place in the loop is read back from a label, whatever stands before it. -/
theorem eq_of_fullLabel {label other : String} {branch branch' : Option String}
    {left right total : Nat}
    (equal : fullLabel label branch (some ⟨left, total⟩) =
      fullLabel other branch' (some ⟨right, total⟩)) : left = right := by
  rcases toList_fullLabel label branch left total with ⟨front, first⟩
  rcases toList_fullLabel other branch' right total with ⟨front', second⟩
  have same := first.symm.trans ((congrArg String.toList equal).trans second)
  -- From the end on the first bracket is the one of the place.
  have turned := congrArg List.reverse same
  simp only [List.reverse_append, List.reverse_cons, List.append_assoc,
    List.append_cancel_left_eq, List.nil_append, List.cons_append, List.cons.injEq,
    true_and, List.reverse_nil] at turned
  have digits := (Text.eq_of_append_cons (by simpa using not_mem_toDigits rfl left)
    (by simpa using not_mem_toDigits rfl right) turned).1
  exact eq_of_toDigits (List.reverse_inj.mp digits)

/-! ## Results of one run -/

/-- Of items that differ in what is read from them, one is found by it. -/
theorem filter_eq_singleton {Item Mark : Type} [DecidableEq Mark]
    {mark : Item → Mark} {items : List Item} (distinct : (items.map mark).Nodup)
    {item : Item} (member : item ∈ items) :
    items.filter (fun other => mark other = mark item) = [item] := by
  induction items with
  | nil => exact (List.not_mem_nil member).elim
  | cons head items hypothesis =>
      rcases List.nodup_cons.mp distinct with ⟨apart, distinct⟩
      rcases List.mem_cons.mp member with rfl | member
      · have none : items.filter (fun other => mark other = mark item) = [] := by
          refine List.filter_eq_nil_iff.mpr ?_
          intro other behind equal
          exact apart (of_decide_eq_true equal ▸ List.mem_map_of_mem behind)
        rw [List.filter_cons_of_pos (by simp), none]
      · have differ : mark head ≠ mark item := by
          intro equal
          exact apart (equal ▸ List.mem_map_of_mem member)
        rw [List.filter_cons_of_neg (by simpa using differ),
          hypothesis distinct member]

theorem Shape.nodup_block (index : Nat) (shape : Shape) :
    (shape.block index).Nodup := by
  cases shape with
  | single => exact List.nodup_singleton _
  | looped size =>
      refine List.Nodup.map ?_ List.nodup_range
      intro first second equal
      exact Nat.succ.inj
        (congrArg Iteration.index (Option.some.inj (Prod.mk.inj equal).2))

/-- No place stands twice. -/
theorem nodup_layout (first : Nat) (shapes : List Shape) :
    (layout first shapes).Nodup := by
  induction shapes generalizing first with
  | nil => exact List.nodup_nil
  | cons shape shapes hypothesis =>
      refine List.nodup_append.mpr
        ⟨shape.nodup_block first, hypothesis (first + 1), ?_⟩
      rintro place inside other later rfl
      have behind := le_of_mem_layout later
      rw [Shape.fst_of_mem_block inside] at behind
      exact Nat.not_succ_le_self first behind

/-- The block that a place stands in. -/
theorem exists_block_of_mem_layout {first : Nat} {shapes : List Shape}
    {place : Nat × Option Iteration} (member : place ∈ layout first shapes) :
    ∃ index shape, place.1 = first + index ∧ shapes[index]? = some shape ∧
      place ∈ shape.block (first + index) := by
  induction shapes generalizing first with
  | nil => exact (List.not_mem_nil member).elim
  | cons shape shapes hypothesis =>
      rcases List.mem_append.mp member with inside | later
      · exact ⟨0, shape, Shape.fst_of_mem_block inside, rfl, inside⟩
      · rcases hypothesis later with ⟨index, other, place, present, inside⟩
        rw [Nat.add_right_comm] at place inside
        exact ⟨index + 1, other, place, present, inside⟩

/-- Results whose places are of one layout have one place if they are shown with
one line. -/
theorem StepResult.place_eq_of_statusLine {totalSteps : Nat} {shapes : List Shape}
    {left right : StepResult} (there : left.place ∈ layout 0 shapes)
    (there' : right.place ∈ layout 0 shapes)
    (equal : left.statusLine totalSteps = right.statusLine totalSteps) :
    left.place = right.place := by
  rcases statusLine_inj.mp equal with ⟨step, label⟩
  rcases exists_block_of_mem_layout there with
    ⟨index, shape, place, present, inside⟩
  rcases exists_block_of_mem_layout there' with
    ⟨index', shape', place', present', inside'⟩
  have same : index = index' := by
    rw [Nat.zero_add] at place place'
    exact place.symm.trans (step.trans place')
  subst same
  rcases Option.some.inj (present.symm.trans present') with rfl
  cases shape with
  | single =>
      exact (List.mem_singleton.mp inside).trans
        (List.mem_singleton.mp inside').symm
  | looped size =>
      rcases List.mem_map.mp inside with ⟨done, within, taken⟩
      rcases List.mem_map.mp inside' with ⟨done', within', taken'⟩
      have iteration := (congrArg Prod.snd taken).symm
      have iteration' := (congrArg Prod.snd taken').symm
      simp only [StepResult.place] at iteration iteration'
      rw [displayLabel, displayLabel, iteration, iteration'] at label
      rw [← taken, ← taken', eq_of_fullLabel label]

namespace Run

variable {request : RunRequest} {evaluator : Evaluator} {first run : Run}
  {stage : Stage} {log : Log}

/-- Whatever the answers are, the results recorded are in blocks. -/
theorem Reaches.inBlocks (begins : Begins request first)
    (reached : Reaches evaluator first .working log run stage) :
    ∃ shapes, InBlocks evaluator run.workflow.totalSteps log shapes := by
  have accounted := reached.accounted begins
  rcases stage with _ | dispatch | ending
  · rcases accounted with ⟨shapes, laid⟩
    exact laid.inBlocks (reached.placed begins)
  · rcases accounted with ⟨shapes, laid⟩
    exact laid.inBlocks (reached.placed begins)
  · rcases accounted with ⟨results, shapes, blocks, full⟩
    exact ⟨shapes, blocks⟩

/-- No two results of a run are shown with one line. -/
theorem Reaches.nodup_statusLines (begins : Begins request first)
    (reached : Reaches evaluator first .working log run stage) (totalSteps : Nat) :
    (log.results.map (StepResult.statusLine totalSteps)).Nodup := by
  rcases reached.inBlocks begins with ⟨shapes, blocks⟩
  have there : ∀ result ∈ log.results, result.place ∈ layout 0 shapes := by
    intro result member
    exact blocks.inside.subset (List.mem_map_of_mem member)
  have places := (nodup_layout 0 shapes).sublist blocks.inside.sublist
  rw [List.Nodup, List.pairwise_map] at places ⊢
  refine places.imp_of_mem ?_
  intro left right member member' apart equal
  exact apart (StepResult.place_eq_of_statusLine (there left member)
    (there right member') equal)

/-- A run that waits has just sent the dispatch, as its active step shows it. -/
theorem Reaches.sent {dispatch : Dispatch} {active : ActiveStep}
    {inFlight : InFlight}
    (reached : Reaches evaluator first .working log run (.waiting dispatch))
    (flying : run.inFlight = some inFlight) (present : run.active = some active) :
    (∃ earlier, log = earlier ++ [.sent dispatch]) ∧
      dispatch.stepIndex = active.stepIndex ∧
      dispatch.request = active.request.prepare dispatch.bindings ∧
      dispatch.bindings = inFlight.bindings ∧
      dispatch.statusLine =
        statusLine active.stepIndex run.workflow.totalSteps
          (active.displayLabel inFlight.iteration) := by
  cases reached with
  | move reached moved =>
      cases moved with
      | sends sending ready =>
          rcases Option.some.inj flying with rfl
          rcases Option.some.inj present with rfl
          exact ⟨⟨_, (List.append_assoc _ _ _).symm⟩, rfl, rfl, rfl, rfl⟩

end Run

/-! ## The answer to a dispatch -/

/-- A result is that of a dispatch: it is of the same step and request and is
shown with its line. -/
structure StepResult.Matches (totalSteps : Nat) (dispatch : Dispatch)
    (result : StepResult) : Prop where
  stepIndex : result.stepIndex = dispatch.stepIndex
  request : result.request = some dispatch.request.name
  line : result.statusLine totalSteps = dispatch.statusLine

/-- What a result tells of an outcome: how the response was judged, or why the
request was skipped. -/
def StepResult.Tells (expect : Dictionary String) (bindings : Scope)
    (result : StepResult) : Outcome → Prop
  | .completed snapshot =>
      ⟨result.status, result.message, result.error⟩ =
          judge snapshot expect bindings ∧ result.response = some snapshot
  | .skipped reason =>
      result.status = .skipped ∧ result.message = some reason ∧
        result.error = none ∧ result.response = none
  | .canceled => False

theorem Run.tells_of_answerOf? {active : ActiveStep} {inFlight : InFlight}
    {outcome : Outcome} {result : StepResult}
    (answer : answerOf? active inFlight outcome = some result) :
    result.Tells active.expect inFlight.bindings outcome := by
  cases outcome with
  | completed snapshot =>
      rcases Option.some.inj answer with rfl
      exact ⟨rfl, rfl⟩
  | skipped reason =>
      rcases Option.some.inj answer with rfl
      exact ⟨rfl, rfl, rfl, rfl⟩
  | canceled => cases answer

/-- The result of an answer has the request and the label of the step that has
sent it. -/
theorem Run.shown_of_answerOf? {active : ActiveStep} {inFlight : InFlight}
    {outcome : Outcome} {result : StepResult}
    (answer : answerOf? active inFlight outcome = some result) :
    result.request = some active.request.name ∧
      result.displayLabel = active.displayLabel inFlight.iteration := by
  cases outcome with
  | completed snapshot =>
      rcases Option.some.inj answer with rfl
      exact ⟨rfl, rfl⟩
  | skipped reason =>
      rcases Option.some.inj answer with rfl
      exact ⟨rfl, rfl⟩
  | canceled => cases answer

namespace Engine

theorem log_accept (engine : Engine) (evaluator : Evaluator) (run : Run)
    (active : ActiveStep) (result : StepResult) (now : Int) :
    ∃ since,
      (engine.accept evaluator run active result now).log =
        .recorded result :: since := by
  rw [accept, Traced.log_bind, Run.log_record]
  exact ⟨_, rfl⟩

/-- The awaited answer is recorded before anything else. -/
theorem log_respond {engine : Engine} {run : Run} {dispatch : Dispatch}
    {inFlight : InFlight} {active : ActiveStep} (running : engine.run = some run)
    (awaits : run.Awaits dispatch inFlight active) (evaluator : Evaluator)
    {outcome : Outcome} (lasting : outcome ≠ .canceled) (now : Int) :
    ∃ result since, Run.answerOf? active inFlight outcome = some result ∧
      (engine.respond evaluator dispatch.token outcome now).log =
        .recorded result :: since := by
  rw [respond]
  simp only [running, awaits.flying, awaits.present, awaits.token, ne_eq, not_true,
    if_false]
  cases outcome with
  | completed snapshot =>
      rcases log_accept engine evaluator
          { run with inFlight := none, active := none } active
          (Run.resultOf active inFlight snapshot) now with
        ⟨since, log⟩
      exact ⟨_, since, rfl, log⟩
  | skipped reason =>
      rcases log_accept engine evaluator
          { run with inFlight := none, active := none } active
          (active.result .skipped inFlight.iteration (some reason)) now with
        ⟨since, log⟩
      exact ⟨_, since, rfl, log⟩
  | canceled => exact (lasting rfl).elim

/-- What later calls bring comes behind. -/
theorem serve_append (evaluator : Evaluator) (engine : Engine)
    (calls more : List Call) :
    (∃ since,
        (engine.serve evaluator (calls ++ more)).log =
          (engine.serve evaluator calls).log ++ since) ∧
      ∃ entries,
        (engine.serve evaluator (calls ++ more)).past =
          (engine.serve evaluator calls).past ++ entries := by
  induction more using List.reverseRecOn with
  | nil =>
      rw [List.append_nil]
      exact ⟨⟨[], (List.append_nil _).symm⟩, ⟨[], (List.append_nil _).symm⟩⟩
  | append_singleton more call hypothesis =>
      rcases hypothesis with ⟨⟨since, log⟩, ⟨entries, past⟩⟩
      rw [← List.append_assoc, serve_concat]
      simp only [Service.take, log, past, List.append_assoc]
      exact ⟨⟨_, rfl⟩, ⟨_, rfl⟩⟩

/-- Calls that serve one run do so from the first on. -/
theorem alone_of_append {evaluator : Evaluator} {engine : Engine} {call : Call}
    {calls more : List Call}
    (alone :
      (engine.serve evaluator (call :: (calls ++ more))).past.tail.any launches =
        false) :
    (engine.serve evaluator (call :: calls)).past.tail.any launches = false := by
  rcases (serve_append evaluator engine (call :: calls) more).2 with
    ⟨entries, past⟩
  have there : (engine.serve evaluator (call :: calls)).past ≠ [] := by
    intro empty
    have called := calls_of_serve evaluator engine (call :: calls)
    rw [empty] at called
    cases called
  rw [← List.cons_append, past, List.tail_append_of_ne_nil there, List.any_append,
    Bool.or_eq_false_iff] at alone
  exact alone.1

/-- An answer that is taken is that to the last act, the dispatch of a step, and
is recorded before anything else. -/
theorem log_of_accepted {engine : Engine} {request : RunRequest}
    {workflow : ResolvedWorkflow} (free : engine.run = none)
    (resolved : request.workflow.resolve request.document = .ok workflow)
    (evaluator : Evaluator) (startedAt : Int) {calls : List Call} {token : Token}
    {outcome : Outcome} {now : Int}
    (alone :
      (engine.serve evaluator (.start request startedAt :: calls)).past.tail.any
          launches = false)
    (accepted :
      ((engine.serve evaluator (.start request startedAt :: calls)).engine.respond
          evaluator token outcome now).value.1 ≠ .stale)
    (lasting : outcome ≠ .canceled) :
    ∃ earlier dispatch definition result since,
      (engine.serve evaluator (.start request startedAt :: calls)).log =
          earlier ++ [.sent dispatch] ∧ dispatch.token = token ∧
        ((engine.serve evaluator
            (.start request startedAt :: calls)).engine.respond evaluator token
            outcome now).log =
          .recorded result :: since ∧
        request.workflow.steps[dispatch.stepIndex]? = some definition ∧
        result.Matches workflow.totalSteps dispatch ∧
        result.Tells definition.expect dispatch.bindings outcome := by
  have begins : Run.Begins request (engine.beginRun request workflow startedAt) :=
    .beginRun resolved startedAt
  cases serves_run free resolved evaluator startedAt alone with
  | finished idle reported reached =>
      rw [respond_of_free idle] at accepted
      exact (accepted rfl).elim
  | @waiting run dispatch running unreported reached =>
      rcases reached.awaits with ⟨inFlight, active, awaits⟩
      rcases (reached.upholds begins).equipped active awaits.present with
        ⟨definition, equipped⟩
      rcases reached.sent awaits.flying awaits.present with
        ⟨⟨earlier, last⟩, place, prepared, bindings, line⟩
      have same : run.workflow = workflow := reached.workflow_eq
      have known : dispatch.token = token := by
        by_contra other
        rw [respond_of_other running awaits other] at accepted
        exact accepted rfl
      subst known
      rcases log_respond running awaits evaluator lasting now with
        ⟨result, since, answer, log⟩
      rcases Run.place_of_answerOf? answer with ⟨step, iteration⟩
      rcases Run.shown_of_answerOf? answer with ⟨named, label⟩
      refine ⟨earlier, dispatch, definition, result, since, last, rfl, log, ?_,
        ⟨?_, ?_, ?_⟩, ?_⟩
      · rw [place]
        exact equipped.declared
      · exact step.trans place.symm
      · rw [named, prepared]
        rfl
      · rw [StepResult.statusLine, step, label, line, same]
      · rw [← equipped.expect, bindings]
        exact Run.tells_of_answerOf? answer

/-- Whatever the calls are that serve a run: an answer that is taken, and does not
cancel the run, is recorded before anything else.  Its result matches the
dispatch, tells how the response was judged by what the step expects over the
variables of the dispatch, or why it was skipped, and is the only result of the
run with the line of the dispatch. -/
theorem answer_recorded_once {engine : Engine} {request : RunRequest}
    {workflow : ResolvedWorkflow} (free : engine.run = none)
    (resolved : request.workflow.resolve request.document = .ok workflow)
    (evaluator : Evaluator) (startedAt : Int) {calls later : List Call}
    {token : Token} {outcome : Outcome} {now : Int}
    (alone :
      (engine.serve evaluator
          (.start request startedAt ::
            (calls ++ .respond token outcome now :: later))).past.tail.any
          launches = false)
    (accepted :
      ((engine.serve evaluator (.start request startedAt :: calls)).engine.respond
          evaluator token outcome now).value.1 ≠ .stale)
    (lasting : outcome ≠ .canceled) :
    let before := (engine.serve evaluator (.start request startedAt :: calls)).log
    let whole := (engine.serve evaluator (.start request startedAt ::
      (calls ++ .respond token outcome now :: later))).log
    ∃ earlier dispatch definition result since,
      before = earlier ++ [.sent dispatch] ∧ dispatch.token = token ∧
        whole = before ++ .recorded result :: since ∧
          request.workflow.steps[dispatch.stepIndex]? = some definition ∧
            result.Matches workflow.totalSteps dispatch ∧
              result.Tells definition.expect dispatch.bindings outcome ∧
                whole.results.filter (fun other =>
                  other.statusLine workflow.totalSteps = dispatch.statusLine) =
                    [result] := by
  intro before whole
  rcases log_of_accepted free resolved evaluator startedAt (alone_of_append alone)
      accepted lasting with
    ⟨earlier, dispatch, definition, result, since, last, known, log, declared,
      matched, tells⟩
  have split :
      Call.start request startedAt ::
          (calls ++ .respond token outcome now :: later) =
        ((.start request startedAt :: calls) ++ [.respond token outcome now]) ++
          later := by
    simp
  rcases (serve_append evaluator engine
      ((.start request startedAt :: calls) ++ [.respond token outcome now])
      later).1 with
    ⟨more, further⟩
  have recorded : whole = before ++ .recorded result :: (since ++ more) := by
    simp only [whole, split, further, serve_concat, Service.take, acts, log]
    simp only [before, List.append_assoc, List.cons_append]
  refine ⟨earlier, dispatch, definition, result, since ++ more, last, known,
    recorded, declared, matched, tells, ?_⟩
  rcases (serves_run free resolved evaluator startedAt alone).reached with
    ⟨run, stage, reached⟩
  have distinct :=
    reached.nodup_statusLines (.beginRun resolved startedAt) workflow.totalSteps
  have member : result ∈ whole.results := by
    rw [recorded, Log.results_append]
    exact List.mem_append_right _ List.mem_cons_self
  rw [← matched.line]
  exact filter_eq_singleton distinct member

end Engine

/-! ### An answer in a loop -/

theorem answer_recorded_once_askByName :
    let calls : List Call := [.respond ⟨1, 1⟩ (.completed .blank) 1]
    let later : List Call := [.respond ⟨1, 3⟩ (.skipped "enough") 3]
    let taken : Outcome := .completed { Snapshot.blank with status := "TRUE" }
    let log := (Engine.idle.serve twoUsers (.start askByName 0 ::
      (calls ++ .respond ⟨1, 2⟩ taken 2 :: later))).log
    (∃ dispatch result, dispatch.token = ⟨1, 2⟩ ∧ result.Matches 2 dispatch ∧
      log.results.filter (fun other => other.statusLine 2 = dispatch.statusLine) =
        [result]) ∧
    log.results.map (fun result => (result.statusLine 2, result.status)) =
      [("step 1/2: user", .succeeded), ("step 2/2: user (1/2)", .succeeded),
        ("step 2/2: user (2/2)", .skipped)] := by
  intro calls later taken log
  rcases Engine.answer_recorded_once (rfl : Engine.idle.run = none)
      (rfl : askByName.workflow.resolve askByName.document = .ok _) twoUsers 0
      (show
        (Engine.idle.serve twoUsers
          (.start askByName 0 ::
            (calls ++ .respond ⟨1, 2⟩ taken 2 :: later))).past.tail.any launches =
        false by
        decide +kernel) (by decide +kernel) nofun with
    ⟨earlier, dispatch, definition, result, since, last, token, recorded, declared,
      matched, tells, single⟩
  exact ⟨⟨dispatch, result, token, matched, single⟩, by decide +kernel⟩

end RequestFlow
