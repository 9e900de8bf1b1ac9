import RequestFlow.Client.Scripted
import RequestFlow.Proofs.Names

/-!
# Scripted answers in turn

A scripted client is told which outcomes to answer with, request by request,
before it is used.  Outcomes are queued for a name whatever the case of its
letters and the blanks around it, but the queue of a request is looked for by its
name as it is.  Main statement: of the calls by names without blanks around them
each is answered with the next outcome that is queued for its name, whatever calls
come between, and with the fallback once there is none left; a call by another
name is answered with the fallback and takes nothing from a queue.
-/

namespace RequestFlow.Client

open Text

/-- What a client is told before it is used. -/
inductive Setting where
  /-- An outcome for a request. -/
  | respond (name : String) (outcome : Outcome)
  /-- The outcome once a queue is empty. -/
  | fallback (outcome : Outcome)

namespace Setting

/-- The outcome that is queued under a key. -/
def queued? (key : String) : Setting → Option Outcome
  | respond name outcome =>
      if Scripted.queueKey name = key then some outcome else none
  | fallback _ => none

/-- The fallback that is set. -/
def fallback? : Setting → Option Outcome
  | respond _ _ => none
  | fallback outcome => some outcome

end Setting

/-- The name of a request has no blanks around it. -/
def Call.isTrimmed (call : Call) : Bool :=
  trimmed call.request.name == call.request.name

namespace Scripted

/-- Tells a client one thing. -/
def configure (client : Scripted) : Setting → Scripted
  | .respond name outcome => client.respond name outcome
  | .fallback outcome => client.withFallback outcome

/-- The client that is told some things, one after the other. -/
def ofSettings (settings : List Setting) : Scripted :=
  settings.foldl configure new

/-- Answers calls one after the other. -/
def executeAll (client : Scripted) : List Call → List (Option Outcome) × Scripted
  | [] => ([], client)
  | call :: calls =>
      let answer := client.execute call
      let answers := answer.2.executeAll calls
      (answer.1 :: answers.1, answers.2)

/-! ## What is queued -/

section Queues

variable (client : Scripted) (settings : List Setting) (key : String)

/-- The outcomes that wait under a key. -/
def waiting : List Outcome :=
  (client.queues.get? key).getD []

/-- The outcomes that were queued under a key, in order. -/
def queuedUnder : List Outcome :=
  settings.filterMap (Setting.queued? key)

/-- The fallback that was set last, else a response with status 200. -/
def fallbackOf : Outcome :=
  (settings.filterMap Setting.fallback?).getLast?.getD (statusOutcome 200)

theorem waiting_configure (setting : Setting) :
    (client.configure setting).waiting key =
      client.waiting key ++ (setting.queued? key).toList := by
  cases setting with
  | fallback outcome => exact (List.append_nil _).symm
  | respond name outcome =>
      simp only [configure, respond, waiting, Dictionary.get?_insert,
        Setting.queued?]
      by_cases same : queueKey name = key
      · subst same
        simp
      · simp [same, Ne.symm same]

theorem waiting_foldl :
    (settings.foldl configure client).waiting key =
      client.waiting key ++ queuedUnder settings key := by
  induction settings generalizing client with
  | nil => exact (List.append_nil _).symm
  | cons setting settings hypothesis =>
      rw [List.foldl_cons, hypothesis, waiting_configure, List.append_assoc,
        queuedUnder, queuedUnder, List.filterMap_cons]
      cases setting.queued? key <;> rfl

theorem fallback_foldl :
    (settings.foldl configure client).fallback =
      (settings.filterMap Setting.fallback?).getLast?.getD client.fallback := by
  induction settings generalizing client with
  | nil => rfl
  | cons setting settings hypothesis =>
      rw [List.foldl_cons, hypothesis]
      cases setting with
      | respond name outcome => rfl
      | fallback outcome =>
          show
            _ =
              (outcome :: settings.filterMap Setting.fallback?).getLast?.getD
                client.fallback
          rw [List.getLast?_cons]
          rfl

theorem hanging_foldl :
    (settings.foldl configure client).hanging = client.hanging := by
  induction settings generalizing client with
  | nil => rfl
  | cons setting settings hypothesis =>
      rw [List.foldl_cons, hypothesis]
      cases setting <;> rfl

theorem calls_foldl : (settings.foldl configure client).calls = client.calls := by
  induction settings generalizing client with
  | nil => rfl
  | cons setting settings hypothesis =>
      rw [List.foldl_cons, hypothesis]
      cases setting <;> rfl

end Queues

/-! ## One call -/

section Step

variable (client : Scripted) (name key : String)

theorem outcome_nextOutcome :
    (client.nextOutcome name).1 =
      (client.waiting (lower name)).head?.getD client.fallback := by
  rw [nextOutcome, waiting]
  rcases client.queues.get? (lower name) with _ | _ | ⟨outcome, outcomes⟩ <;> rfl

/-- Under the name itself, in small letters, one outcome less waits. -/
theorem waiting_nextOutcome :
    (client.nextOutcome name).2.waiting key =
      if key = lower name then (client.waiting key).tail
      else client.waiting key := by
  rw [nextOutcome]
  split
  · next outcome outcomes queue =>
      simp only [waiting, Dictionary.get?_insert]
      by_cases same : key = lower name
      · rw [if_pos same, if_pos same, same, queue]
        rfl
      · rw [if_neg same, if_neg same]
  · next other =>
      have empty : client.waiting (lower name) = [] := by
        rw [waiting]
        cases queue : client.queues.get? (lower name) with
        | none => rfl
        | some outcomes =>
            cases outcomes with
            | nil => rfl
            | cons outcome outcomes => exact (other outcome outcomes queue).elim
      by_cases same : key = lower name
      · rw [if_pos same, same, empty]
        rfl
      · rw [if_neg same]

/-- Nothing else of the client changes. -/
theorem nextOutcome_eq :
    (client.nextOutcome name).2 =
      { client with queues := (client.nextOutcome name).2.queues } := by
  rw [nextOutcome]
  rcases client.queues.get? (lower name) with _ | _ | ⟨outcome, outcomes⟩ <;> rfl

end Step

/-! ## All calls -/

variable (settings : List Setting) (earlier : List Call) (call : Call)

/-- The outcome that a call comes to behind earlier ones. -/
def answerTo : Outcome :=
  let key := lower call.request.name
  ((queuedUnder settings
    key)[earlier.countP fun other => lower other.request.name = key]?).getD
    (fallbackOf settings)

/-- A client that was told some things has answered calls. -/
structure Replays (client : Scripted) : Prop where
  hanging : client.hanging = []
  fallback : client.fallback = fallbackOf settings
  calls : client.calls = earlier
  waiting :
    ∀ key,
      client.waiting key =
        (queuedUnder settings key).drop
          (earlier.countP fun other => lower other.request.name = key)

variable {settings earlier call}

theorem replays_ofSettings : Replays settings [] (ofSettings settings) where
  hanging := hanging_foldl new settings
  fallback := fallback_foldl new settings
  calls := calls_foldl new settings
  waiting key := waiting_foldl new settings key

theorem Replays.execute {client : Scripted}
    (replays : Replays settings earlier client) (call : Call) :
    (client.execute call).1 = some (answerTo settings earlier call) ∧
      Replays settings (earlier ++ [call]) (client.execute call).2 := by
  have answers : client.execute call =
      (some ((client.receive call).nextOutcome call.request.name).1,
        ((client.receive call).nextOutcome call.request.name).2) := by
    have free : (client.receive call).hangs call.request.name = false := by
      rw [hangs, receive, replays.hanging]
      rfl
    rw [Scripted.execute, free]
    rfl
  have waits (key : String) : (client.receive call).waiting key = _ :=
    replays.waiting key
  rw [answers]
  constructor
  · rw [outcome_nextOutcome, waits, List.head?_drop]
    show some (Option.getD _ client.fallback) = _
    rw [replays.fallback]
    rfl
  · rw [nextOutcome_eq]
    refine ⟨replays.hanging, replays.fallback,
      congrArg (· ++ [call]) replays.calls, fun key => ?_⟩
    show ((client.receive call).nextOutcome call.request.name).2.waiting key = _
    rw [waiting_nextOutcome, waits, List.countP_append, List.countP_singleton]
    by_cases same : key = lower call.request.name
    · rw [if_pos same, List.tail_drop, if_pos (decide_eq_true same.symm)]
    · rw [if_neg same, if_neg (fun equal => same (of_decide_eq_true equal).symm)]
      rfl

/-- Calls are answered in turn, whatever was called before them. -/
theorem Replays.executeAll {client : Scripted}
    (replays : Replays settings earlier client) (calls : List Call) :
    (∀ index call, calls[index]? = some call →
        (client.executeAll calls).1[index]? =
          some (some (answerTo settings (earlier ++ calls.take index) call))) ∧
      (client.executeAll calls).1.length = calls.length ∧
      Replays settings (earlier ++ calls) (client.executeAll calls).2 := by
  induction calls generalizing client earlier with
  | nil =>
      refine ⟨fun index call found => (by cases found), rfl, ?_⟩
      rw [List.append_nil]
      exact replays
  | cons first calls hypothesis =>
      rcases replays.execute first with ⟨answer, after⟩
      rcases hypothesis after with ⟨answers, length, last⟩
      rw [List.append_assoc] at last
      refine ⟨?_, congrArg Nat.succ length, last⟩
      intro index call found
      cases index with
      | zero =>
          cases found
          rw [List.take_zero, List.append_nil]
          exact congrArg some answer
      | succ index =>
          rw [List.getElem?_cons_succ] at found
          have later := answers index call found
          rw [List.append_assoc] at later
          exact later

/-! ## Names with and without blanks -/

variable (settings earlier call)

/-- The outcome whose turn it is: of those queued for the name of the call, blanks
around it and the case of letters aside, the one behind as many as there are
earlier calls by this name. -/
def inTurn : Outcome :=
  let key := queueKey call.request.name
  ((queuedUnder settings
    key)[earlier.countP fun other => queueKey other.request.name = key]?).getD
    (fallbackOf settings)

variable {settings earlier call}

/-- A name in small letters is the key of a queue exactly if it has no blanks
around it. -/
theorem lower_eq_queueKey_iff {own name : String} :
    lower own = queueKey name ↔ queueKey own = queueKey name ∧ trimmed own = own :=
  sameLetters_iff.symm.trans (sameLetters_trimmed_iff own name)

/-- A call by a name without blanks around it is answered in turn, as far as such
calls go. -/
theorem answerTo_of_isTrimmed (trim : call.isTrimmed = true) :
    answerTo settings earlier call =
      inTurn settings (earlier.filter Call.isTrimmed) call := by
  have key : lower call.request.name = queueKey call.request.name :=
    lower_eq_queueKey_iff.mpr ⟨rfl, beq_iff_eq.mp trim⟩
  have same (other : Call) :
      decide (lower other.request.name = queueKey call.request.name) =
        (decide (queueKey other.request.name = queueKey call.request.name) &&
          other.isTrimmed) := by
    rw [Bool.eq_iff_iff, Bool.and_eq_true, decide_eq_true_eq, decide_eq_true_eq,
      Call.isTrimmed, beq_iff_eq]
    exact lower_eq_queueKey_iff
  simp only [answerTo, inTurn, key, List.countP_filter, same]

/-- Nothing is queued for a call by a name with blanks around it. -/
theorem answerTo_of_padded (padded : call.isTrimmed = false) :
    answerTo settings earlier call = fallbackOf settings := by
  have none : queuedUnder settings (lower call.request.name) = [] := by
    rw [queuedUnder, List.filterMap_eq_nil_iff]
    intro setting _
    cases setting with
    | fallback outcome => rfl
    | respond name outcome =>
        have other : queueKey name ≠ lower call.request.name := by
          intro same
          have trim := (lower_eq_queueKey_iff.mp same.symm).2
          rw [Call.isTrimmed, trim, beq_self_eq_true] at padded
          cases padded
        rw [Setting.queued?, if_neg other]
  rw [answerTo, none]
  rfl

/-- A client that was told any outcomes keeps all calls in order and answers each
of them.  Calls by names without blanks around them are answered in turn, queue by
queue, and the others with the fallback, so that all calls are answered in turn if
none of their names has blanks around it. -/
theorem answers_in_turn (settings : List Setting) (calls : List Call) :
    let replay := (ofSettings settings).executeAll calls
    replay.2.calls = calls ∧ replay.1.length = calls.length ∧
    (∀ index call, calls[index]? = some call →
      replay.1[index]? =
        some (some (if call.isTrimmed then inTurn settings
          ((calls.take index).filter Call.isTrimmed) call
      else fallbackOf settings))) ∧
    ((∀ call ∈ calls, call.isTrimmed = true) →
      ∀ index call, calls[index]? = some call →
        replay.1[index]? =
          some (some (inTurn settings (calls.take index) call))) := by
  intro replay
  rcases replays_ofSettings.executeAll calls with ⟨answers, length, last⟩
  have answered :
      ∀ index call, calls[index]? = some call →
        replay.1[index]? =
          some (some (if call.isTrimmed then inTurn settings
            ((calls.take index).filter Call.isTrimmed) call
      else fallbackOf settings)) := by
    intro index call found
    have answer := answers index call found
    rw [List.nil_append] at answer
    rw [answer]
    cases trim : call.isTrimmed with
    | true => rw [answerTo_of_isTrimmed trim, if_pos rfl]
    | false => rw [answerTo_of_padded trim, if_neg Bool.false_ne_true]
  refine ⟨last.calls, length, answered, ?_⟩
  intro trim index call found
  rw [answered index call found, if_pos (trim call (List.mem_of_getElem? found)),
    List.filter_eq_self.mpr fun other member =>
      trim other (List.mem_of_mem_take member)]

/-- A call by a name. -/
def callBy (name : String) : Call :=
  ⟨⟨name, .http, "GET", "/visit", .empty, none⟩, .inherit, .empty⟩

/-- What is queued for a name with blanks around it does not come when the request
of this very name is called. -/
theorem unanswered_paddedVisit :
    let settings := [.respond " visit " (statusOutcome 500)]
    let call := callBy " visit "
    inTurn settings [] call = statusOutcome 500 ∧
      ((ofSettings settings).executeAll [call]).1 = [some (statusOutcome 200)] ∧
      statusOutcome 200 ≠ statusOutcome 500 := by
  decide +kernel

end Scripted

end RequestFlow.Client
