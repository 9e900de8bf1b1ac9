import RequestFlow.Proofs.Waiting

/-!
# Tokens of dispatches

Over all runs of an engine no token is given out twice.  An answer is taken
exactly if its token is that of the latest dispatch, and if no answer was taken
and no run was canceled since.  Every other answer, and every start that fails,
leaves the engine as it was.
-/

namespace RequestFlow

open Condition

/-! ## Tokens given out -/

/-- The token that an answer of the engine gives out. -/
def Answer.token? : Answer → Option Token
  | directive (.dispatch dispatch) => some dispatch.token
  | _ => none

/-- After this call and its answer no dispatch that was given out before is
awaited: a new one was given out, an answer was taken, or the run was canceled. -/
def Closes : Call × Answer → Prop
  | (_, .directive (.dispatch _)) => True
  | (.respond _ _ _, .directive directive) => directive ≠ .stale
  | (.cancel _ _, _) => True
  | _ => False

/-- The dispatch of a token is the latest one, and is still to be answered. -/
def Open (past : List (Call × Answer)) (token : Token) : Prop :=
  ∃ before call answer since, past = before ++ (call, answer) :: since ∧
    answer.token? = some token ∧ ∀ entry ∈ since, ¬ Closes entry

theorem open_concat {past : List (Call × Answer)} {call : Call} {answer : Answer}
    {token : Token} :
    Open (past ++ [(call, answer)]) token ↔
      answer.token? = some token ∨ ¬ Closes (call, answer) ∧ Open past token := by
  constructor
  · rintro ⟨before, earlier, given, since, equal, issues, quiet⟩
    rcases List.eq_nil_or_concat since with rfl | ⟨others, last, rfl⟩
    · rcases List.append_inj' equal rfl with ⟨_, same⟩
      rcases Prod.mk.inj (List.cons.inj same).1 with ⟨rfl, rfl⟩
      exact .inl issues
    · rw [List.concat_eq_append] at equal quiet
      have split :
          past ++ [(call, answer)] =
            (before ++ (earlier, given) :: others) ++ [last] := by
        rw [equal, List.append_assoc, List.cons_append]
      rcases List.append_inj' split rfl with ⟨rfl, same⟩
      rcases (List.cons.inj same).1 with rfl
      refine .inr
        ⟨quiet _ (List.mem_append_right _ (List.mem_singleton_self _)), ?_⟩
      exact ⟨before, earlier, given, others, rfl, issues,
        fun entry member => quiet entry (List.mem_append_left _ member)⟩
  · rintro (issues | ⟨quiet, before, earlier, given, since, rfl, issues, silent⟩)
    · exact ⟨past, call, answer, [], rfl, issues,
        fun entry member => (List.not_mem_nil member).elim⟩
    · refine ⟨before, earlier, given, since ++ [(call, answer)], ?_, issues, ?_⟩
      · rw [List.append_assoc, List.cons_append]
      · intro entry member
        rcases List.mem_append.mp member with member | member
        · exact silent entry member
        · rcases List.mem_singleton.mp member with rfl
          exact quiet

/-! ## Sequence numbers -/

namespace Run

/-- The number of dispatches of a run does not fall, and rises with each
dispatch. -/
theorem Move.sequence_le {evaluator : Evaluator} {run next : Run}
    {stage later : Stage} {acts : Log}
    (moved : Move evaluator run stage acts next later) :
    run.sequence ≤ next.sequence := by
  cases moved with
  | goesOn yields lasting => cases yields <;> exact Nat.le_refl _
  | sends present ready => exact Nat.le_succ _
  | _ => exact Nat.le_refl _

theorem Reaches.sequence_le {evaluator : Evaluator} {first run : Run}
    {start stage : Stage} {log : Log}
    (reached : Reaches evaluator first start log run stage) :
    first.sequence ≤ run.sequence := by
  induction reached with
  | refl => exact Nat.le_refl _
  | move reached moved hypothesis =>
      exact Nat.le_trans hypothesis moved.sequence_le

/-- A run that comes to wait again has made one more dispatch. -/
theorem Reaches.sequence_lt {evaluator : Evaluator} {first run : Run}
    {start : Stage} {log : Log} {dispatch : Dispatch}
    (reached : Reaches evaluator first start log run (.waiting dispatch)) :
    run = first ∨ first.sequence < run.sequence := by
  cases reached with
  | refl => exact .inl rfl
  | move reached moved =>
      cases moved with
      | sends present ready => exact .inr (Nat.lt_succ_of_le reached.sequence_le)

end Run

namespace Engine

/-! ## What a call does to the engine -/

/-- What a call does: nothing to the run, or it gives out the next token, or it
ends the run. -/
inductive Does (engine : Engine) (call : Call) : Answer → Engine → Prop where
  /-- The run stays as it is. -/
  | keeps {answer : Answer} {after : Engine} (run : after.run = engine.run)
      (lastRunId : after.lastRunId = engine.lastRunId)
      (silent : answer.token? = none) (quiet : ¬ Closes (call, answer)) :
      Does engine call answer after
  /-- A new run gives out its first token. -/
  | begins {dispatch : Dispatch} {after : Engine} {next : Run}
      {inFlight : InFlight} {active : ActiveStep} (free : engine.run = none)
      (running : after.run = some next)
      (awaits : next.Awaits dispatch inFlight active)
      (number : next.id = after.lastRunId)
      (lastRunId : after.lastRunId = engine.lastRunId + 1) :
      Does engine call (.directive (.dispatch dispatch)) after
  /-- The run gives out its next token. -/
  | goesOn {dispatch : Dispatch} {after : Engine} {run next : Run}
      {inFlight : InFlight} {active : ActiveStep} (before : engine.run = some run)
      (running : after.run = some next)
      (awaits : next.Awaits dispatch inFlight active) (number : next.id = run.id)
      (sequence : run.sequence < next.sequence)
      (lastRunId : after.lastRunId = engine.lastRunId) :
      Does engine call (.directive (.dispatch dispatch)) after
  /-- No run is left. -/
  | ends {answer : Answer} {after : Engine} (gone : after.run = none)
      (lastRunId : engine.lastRunId ≤ after.lastRunId)
      (silent : answer.token? = none)
      (closes : engine.run = none ∨ Closes (call, answer)) :
      Does engine call answer after

theorem does_start {evaluator : Evaluator} (engine : Engine) (request : RunRequest)
    (now : Int) :
    Does engine (.start request now)
      (engine.perform evaluator (.start request now)).1
      (engine.perform evaluator (.start request now)).2 := by
  cases running : engine.run with
  | some run =>
      simp only [perform, start_of_running running, Traced.value_pure]
      exact .keeps rfl rfl rfl id
  | none =>
      cases resolved : request.workflow.resolve request.document with
      | error error =>
          simp only [perform, start_of_unresolved running resolved,
            Traced.value_pure]
          exact .keeps rfl rfl rfl id
      | ok workflow =>
          rcases brings_start running resolved evaluator now with
            ⟨traced, equal, brings⟩
          simp only [perform, equal]
          rcases brings with ⟨next, dispatch, errors, value, reached⟩ |
              ⟨next, ending, reason, later, errors, value, canceled, reached⟩
          · rcases reached.awaits with ⟨inFlight, active, awaits⟩
            rw [value]
            exact .begins running rfl awaits reached.id_eq rfl
          · rw [value]
            exact .ends rfl (Nat.le_succ _) rfl (.inl running)

theorem does_respond {evaluator : Evaluator} {engine : Engine}
    (standing : Standing evaluator engine) (token : Token) (outcome : Outcome)
    (now : Int) :
    Does engine (.respond token outcome now)
      (engine.perform evaluator (.respond token outcome now)).1
      (engine.perform evaluator (.respond token outcome now)).2 := by
  cases running : engine.run with
  | none =>
      simp only [perform, respond_of_free running, Traced.value_pure]
      exact .keeps rfl rfl rfl fun closes => closes rfl
  | some run =>
      rcases standing run running with
        ⟨number, request, first, log, dispatch, begins, reached⟩
      rcases reached.waits begins with ⟨inFlight, active, waits, awaits⟩
      by_cases known : dispatch.token = token
      · subst known
        have less :=
          lessWork_of_respond running awaits waits.within evaluator outcome now
        simp only [perform]
        rcases brings_respond running awaits evaluator outcome now with
            ⟨next, following, errors, value, further⟩ |
            ⟨next, ending, reason, later, errors, value, canceled, further⟩
        · rcases (reached.trans further).awaits with ⟨flown, sender, awaitsNext⟩
          rw [value] at less ⊢
          refine .goesOn running rfl awaitsNext further.id_eq ?_ rfl
          rcases further.sequence_lt with rfl | more
          · -- a run that has not moved has as much work as before
            have same : engine.work = next.work := by
              rw [work, running]
              rfl
            rw [same] at less
            exact (not_lessWork_self _ less).elim
          · exact more
        · rw [value]
          refine .ends rfl (Nat.le_refl _) rfl (.inr ?_)
          rintro ⟨⟩
      · simp only [perform, respond_of_other running awaits known,
          Traced.value_pure]
        exact .keeps rfl rfl rfl fun closes => closes rfl

theorem does_perform {evaluator : Evaluator} {engine : Engine}
    (standing : Standing evaluator engine) (call : Call) :
    Does engine call (engine.perform evaluator call).1
      (engine.perform evaluator call).2 := by
  cases call with
  | start request now => exact does_start engine request now
  | respond token outcome now => exact does_respond standing token outcome now
  | cancel reason now =>
      cases running : engine.run with
      | none =>
          simp only [perform, cancel, running]
          exact .ends running (Nat.le_refl _) rfl (.inl running)
      | some run =>
          simp only [perform, cancel, running]
          exact .ends rfl (Nat.le_refl _) rfl (.inr trivial)
  | drain => exact .keeps rfl rfl rfl id

/-! ## Along a session -/

/-- The tokens given out, in order. -/
def givenOut (past : List (Call × Answer)) : List Token :=
  past.filterMap fun entry => entry.2.token?

/-- All tokens given out are behind the engine, so that the next one is new. -/
def Behind (engine : Engine) (token : Token) : Prop :=
  token.runId ≤ engine.lastRunId ∧
    ∀ run,
      engine.run = some run → token.runId = run.id → token.sequence ≤ run.sequence

/-- What is behind the engine stays there. -/
theorem Does.behind {engine after : Engine} {call : Call} {answer : Answer}
    {token : Token} (does : Does engine call answer after)
    (behind : Behind engine token) : Behind after token := by
  rcases behind with ⟨number, sequence⟩
  cases does with
  | keeps run lastRunId silent quiet =>
      refine ⟨lastRunId.symm ▸ number, ?_⟩
      rw [run]
      exact sequence
  | begins free running awaits identity lastRunId =>
      rw [lastRunId] at identity
      constructor
      · rw [lastRunId]
        exact Nat.le_succ_of_le number
      · intro run present same
        rcases Option.some.inj (running.symm.trans present) with rfl
        rw [same, identity] at number
        exact (Nat.not_succ_le_self _ number).elim
  | goesOn before running awaits identity more lastRunId =>
      refine ⟨lastRunId.symm ▸ number, ?_⟩
      intro run present same
      rcases Option.some.inj (running.symm.trans present) with rfl
      exact Nat.le_trans (sequence _ before (same.trans identity))
        (Nat.le_of_lt more)
  | ends gone lastRunId silent closes =>
      refine ⟨Nat.le_trans number lastRunId, ?_⟩
      intro run present
      rw [gone] at present
      cases present

/-- A token that is given out was not behind the engine, and is behind it from
then on. -/
theorem Does.new {engine after : Engine} {call : Call} {answer : Answer}
    {token : Token}
    (numbered : ∀ run, engine.run = some run → run.id = engine.lastRunId)
    (does : Does engine call answer after) (gives : answer.token? = some token) :
    ¬ Behind engine token ∧ Behind after token := by
  cases does with
  | keeps run lastRunId silent quiet =>
      rw [silent] at gives
      cases gives
  | begins free running awaits identity lastRunId =>
      rcases Option.some.inj gives with rfl
      rw [awaits.latest]
      refine ⟨?_, Nat.le_of_eq identity, ?_⟩
      · rintro ⟨number, sequence⟩
        rw [identity, lastRunId] at number
        exact Nat.not_succ_le_self _ number
      · intro run present same
        rcases Option.some.inj (running.symm.trans present) with rfl
        exact Nat.le_refl _
  | goesOn before running awaits identity more lastRunId =>
      rcases Option.some.inj gives with rfl
      rw [awaits.latest]
      refine ⟨?_, ?_, ?_⟩
      · rintro ⟨number, sequence⟩
        exact Nat.not_le_of_lt more (sequence _ before identity)
      · rw [lastRunId, identity]
        exact Nat.le_of_eq (numbered _ before)
      · intro run present same
        rcases Option.some.inj (running.symm.trans present) with rfl
        exact Nat.le_refl _
  | ends gone lastRunId silent closes =>
      rw [silent] at gives
      cases gives

/-- The token that the engine awaits is the open one. -/
theorem Does.awaited {engine after : Engine} {call : Call} {answer : Answer}
    {past : List (Call × Answer)} {token : Token}
    (does : Does engine call answer after)
    (awaited :
      engine.inFlight?.map InFlight.token = some token ↔ Open past token) :
    after.inFlight?.map InFlight.token = some token ↔
      Open (past ++ [(call, answer)]) token := by
  have gave {dispatch : Dispatch} {next : Run} {inFlight : InFlight}
      {active : ActiveStep} (running : after.run = some next)
      (awaits : next.Awaits dispatch inFlight active) :
      after.inFlight?.map InFlight.token = some dispatch.token := by
    rw [inFlight?, running, Option.bind_some, awaits.flying, Option.map_some,
      awaits.token]
  rw [open_concat]
  cases does with
  | keeps run lastRunId silent quiet =>
      have same : after.inFlight? = engine.inFlight? := by
        rw [inFlight?, run, inFlight?]
      rw [same, silent, awaited]
      simp only [quiet, not_false_eq_true, true_and, reduceCtorEq, false_or]
  | begins free running awaits identity lastRunId =>
      rw [gave running awaits]
      simp only [Answer.token?, Closes, not_true, false_and, or_false]
  | goesOn before running awaits identity more lastRunId =>
      rw [gave running awaits]
      simp only [Answer.token?, Closes, not_true, false_and, or_false]
  | ends gone lastRunId silent closes =>
      have none : after.inFlight? = none := by
        rw [inFlight?, gone, Option.bind_none]
      rw [none, silent, Option.map_none]
      simp only [reduceCtorEq, false_or, false_iff, not_and]
      intro unclosed
      rcases closes with free | closes
      · rw [← awaited, inFlight?, free]
        rintro ⟨⟩
      · exact (unclosed closes).elim

/-- What a session keeps: the tokens given out are behind the engine and distinct,
and the open one is awaited. -/
structure Keeps (past : List (Call × Answer)) (engine : Engine) : Prop where
  behind : ∀ token ∈ givenOut past, Behind engine token
  distinct : (givenOut past).Nodup
  awaited :
    ∀ token, engine.inFlight?.map InFlight.token = some token ↔ Open past token

theorem Keeps.concat {past : List (Call × Answer)} {engine after : Engine}
    {call : Call} {answer : Answer}
    (numbered : ∀ run, engine.run = some run → run.id = engine.lastRunId)
    (keeps : Keeps past engine) (does : Does engine call answer after) :
    Keeps (past ++ [(call, answer)]) after := by
  have given :
      givenOut (past ++ [(call, answer)]) =
        givenOut past ++ answer.token?.toList := by
    unfold givenOut
    rw [List.filterMap_append]
    cases gives : answer.token? <;> simp [gives]
  refine ⟨?_, ?_, fun token => does.awaited (keeps.awaited token)⟩
  · intro token member
    rw [given] at member
    rcases List.mem_append.mp member with member | member
    · exact does.behind (keeps.behind token member)
    · exact (does.new numbered (Option.mem_toList.mp member)).2
  · rw [given, List.nodup_append]
    refine ⟨keeps.distinct, ?_, ?_⟩
    · cases answer.token? with
      | none => exact List.nodup_nil
      | some token => exact List.pairwise_singleton _ token
    · rintro token member other gives rfl
      exact (does.new numbered (Option.mem_toList.mp gives)).1
        (keeps.behind token member)

theorem keeps_session (evaluator : Evaluator) (calls : List Call) :
    Keeps (session evaluator calls).1 (session evaluator calls).2 := by
  induction calls using List.reverseRecOn with
  | nil =>
      refine ⟨fun token member => (List.not_mem_nil member).elim, List.nodup_nil,
        ?_⟩
      intro token
      constructor
      · rintro ⟨⟩
      · rintro ⟨before, call, answer, since, equal, rest⟩
        exact (List.append_ne_nil_of_right_ne_nil before (List.cons_ne_nil _ _)
          equal.symm).elim
  | append_singleton calls call hypothesis =>
      have standing := standing_session evaluator calls
      rw [session_concat]
      exact hypothesis.concat (fun run running => (standing run running).1)
        (does_perform standing call)

/-! ## Answers that are not awaited, starts that fail -/

/-- An answer is taken exactly if its token is the awaited one; otherwise nothing
changes. -/
theorem respond_of_standing {evaluator : Evaluator} {engine : Engine}
    (standing : Standing evaluator engine) (token : Token) (outcome : Outcome)
    (now : Int) :
    engine.inFlight?.map InFlight.token = some token ∧
        (engine.respond evaluator token outcome now).value.1 ≠ .stale ∨
      engine.inFlight?.map InFlight.token ≠ some token ∧
        engine.respond evaluator token outcome now = pure (.stale, engine) := by
  cases running : engine.run with
  | none =>
      refine .inr ⟨?_, respond_of_free running evaluator token outcome now⟩
      rw [inFlight?, running]
      rintro ⟨⟩
  | some run =>
      rcases standing run running with
        ⟨number, request, first, log, dispatch, begins, reached⟩
      rcases reached.awaits with ⟨inFlight, active, awaits⟩
      have awaited :
          engine.inFlight?.map InFlight.token = some dispatch.token := by
        rw [inFlight?, running, Option.bind_some, awaits.flying, Option.map_some,
          awaits.token]
      rw [awaited]
      by_cases known : dispatch.token = token
      · subst known
        exact .inl
          ⟨rfl, (brings_respond running awaits evaluator outcome now).ne_stale⟩
      · exact .inr ⟨fun same => known (Option.some.inj same),
          respond_of_other running awaits known evaluator outcome now⟩

/-- A start that fails changes nothing. -/
theorem start_of_error {engine : Engine} {evaluator : Evaluator}
    {request : RunRequest} {now : Int} {error : StartError}
    (failed : (engine.start evaluator request now).value.1 = .error error) :
    engine.start evaluator request now = pure (.error error, engine) := by
  cases running : engine.run with
  | some run =>
      rw [start_of_running running] at failed ⊢
      cases failed
      rfl
  | none =>
      cases resolved : request.workflow.resolve request.document with
      | error fault =>
          rw [start_of_unresolved running resolved] at failed ⊢
          cases failed
          rfl
      | ok workflow =>
          rcases brings_start running resolved evaluator now with
            ⟨traced, equal, brings⟩
          rw [equal] at failed
          cases failed

/-- What a history of calls says about the engine after it. -/
structure Answerable (evaluator : Evaluator) (past : List (Call × Answer))
    (engine : Engine) : Prop where
  /-- No token was given out twice. -/
  distinct : (givenOut past).Nodup
  /-- An answer is taken exactly if its token is the open one. -/
  taken : ∀ token outcome now,
    (engine.respond evaluator token outcome now).value.1 ≠ .stale ↔ Open past token
  /-- Any other answer changes nothing. -/
  stale :
    ∀ token outcome now,
      (engine.respond evaluator token outcome now).value.1 = .stale →
        engine.respond evaluator token outcome now = pure (.stale, engine)
  /-- A start that fails changes nothing. -/
  failed :
    ∀ request now error,
      (engine.start evaluator request now).value.1 = .error error →
        engine.start evaluator request now = pure (.error error, engine)

/-- Whatever the calls are, no token is given out twice, only the answer to the
latest dispatch is taken, and only once, and what is refused changes nothing. -/
theorem answerable_session (evaluator : Evaluator) (calls : List Call) :
    Answerable evaluator (session evaluator calls).1
      (session evaluator calls).2 := by
  have standing := standing_session evaluator calls
  have keeps := keeps_session evaluator calls
  refine ⟨keeps.distinct, ?_, ?_, fun request now error => start_of_error⟩
  · intro token outcome now
    rw [← keeps.awaited token]
    rcases respond_of_standing standing token outcome now with
      ⟨known, taken⟩ | ⟨other, stale⟩
    · exact ⟨fun _ => known, fun _ => taken⟩
    · rw [stale]
      exact ⟨fun taken => (taken rfl).elim, fun known => (other known).elim⟩
  · intro token outcome now unanswered
    rcases respond_of_standing standing token outcome now with
      ⟨known, taken⟩ | ⟨other, stale⟩
    · exact (taken unanswered).elim
    · exact stale

end Engine

end RequestFlow
