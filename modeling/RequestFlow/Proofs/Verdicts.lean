import RequestFlow.Json.Number
import RequestFlow.Run.Judgement

/-!
# What a response passes and fails by

A response passes if the transport, the assertions, the script, the expectations
and the status code are all right, and it fails by the first of these that is not.
Main statement: the judgement of a response is exactly that, with the message and
the error that belong to what went wrong; it does not depend on the order of the
expectations, and with more to go wrong a response that failed does not pass.
-/

namespace RequestFlow

/-! ## Numbers of the status code -/

/-- A text writes a natural number: its digits, with a plus sign in front or
without. -/
def WritesNumber (text : List Char) (value : Nat) : Prop :=
  ∃ digits, (text = digits ∨ text = '+' :: digits) ∧ digits ≠ [] ∧
    (∀ digit ∈ digits, digit.isDigit = true) ∧ Json.digitsValue digits = value

/-- A decimal digit is read as its value. -/
theorem digit?_of_isDigit {digit : Char} (decimal : digit.isDigit = true) :
    Text.digit? 10 digit = some (Json.digitValue digit) := by
  have low : Json.digitValue digit < 10 := by
    have bounds : '0'.val.toNat = 48 ∧ '9'.val.toNat = 57 := ⟨rfl, rfl⟩
    have zero : '0'.toNat = 48 := rfl
    have code : digit.toNat = digit.val.toNat := rfl
    rcases Bool.and_eq_true_iff.mp decimal with ⟨least, most⟩
    rw [decide_eq_true_eq, ge_iff_le, UInt32.le_iff_toNat_le] at least
    rw [decide_eq_true_eq, UInt32.le_iff_toNat_le] at most
    rw [Json.digitValue]
    omega
  rw [Text.digit?]
  simp only [decimal, if_true]
  exact Option.filter_eq_some_iff.mpr ⟨rfl, decide_eq_true low⟩

theorem isDigit_of_digit? {digit : Char} {value : Nat}
    (read : Text.digit? 10 digit = some value) : digit.isDigit = true := by
  -- A letter is a digit of ten and more, which the base does not have.
  cases decimal : digit.isDigit with
  | true => rfl
  | false =>
      rw [Text.digit?] at read
      simp only [decimal, Bool.false_eq_true, if_false] at read
      rcases Option.filter_eq_some_iff.mp read with ⟨letter, small⟩
      have least := of_decide_eq_true small
      split at letter
      · cases letter
        omega
      · split at letter <;> cases letter
        omega

/-- A number is read from digits, at least one, and from nothing else. -/
theorem natural?_eq_some_iff {digits : List Char} {value : Nat} :
    Text.natural? 10 digits = some value ↔
      digits ≠ [] ∧ (∀ digit ∈ digits, digit.isDigit = true) ∧
        Json.digitsValue digits = value := by
  have reads (digits : List Char) (start : Nat) :
      digits.foldlM
            (fun value digit => (Text.digit? 10 digit).map (value * 10 + ·))
            start = some value ↔
        (∀ digit ∈ digits, digit.isDigit = true) ∧
          digits.foldl (fun value digit => value * 10 + Json.digitValue digit)
              start = value := by
    induction digits generalizing start with
    | nil => simp
    | cons digit digits hypothesis =>
        rw [List.foldlM_cons, List.foldl_cons, List.forall_mem_cons]
        cases decimal : digit.isDigit with
        | true =>
            rw [digit?_of_isDigit decimal]
            simpa using hypothesis _
        | false =>
            cases read : Text.digit? 10 digit with
            | some value => cases (isDigit_of_digit? read).symm.trans decimal
            | none => simp
  rw [Text.natural?]
  cases digits with
  | nil => simp
  | cons digit digits =>
      rw [if_neg (by simp), reads]
      simp only [ne_eq, reduceCtorEq, not_false_eq_true, true_and]
      rfl

/-- A bounded number is read exactly from a writing of it, if it is below the
bound. -/
theorem naturalBelow?_eq_some_iff {bound value : Nat} {text : List Char} :
    naturalBelow? bound text = some value ↔
      WritesNumber text value ∧ value < bound := by
  rw [naturalBelow?, Option.filter_eq_some_iff, natural?_eq_some_iff,
    decide_eq_true_eq]
  refine and_congr_left fun _ => ?_
  constructor
  · intro written
    refine ⟨_, ?_, written⟩
    split
    · next sign =>
        cases text with
        | nil => cases sign
        | cons first text =>
            rcases Option.some.inj (eq_of_beq sign) with rfl
            exact .inr rfl
    · exact .inl rfl
  · rintro ⟨digits, rfl | rfl, nonempty, decimal, rfl⟩
    · have unsigned : ¬ (text.head? == some '+') = true := by
        intro sign
        cases decimal '+' (List.mem_of_mem_head? (eq_of_beq sign))
      rw [if_neg unsigned]
      exact ⟨nonempty, decimal, rfl⟩
    · exact ⟨nonempty, decimal, rfl⟩

/-! ## Expectations -/

/-- What counts of the key of an expectation: all but `_` and `-`, without regard
to case. -/
def keyLetters (key : String) : String :=
  Text.lower (String.ofList (key.toList.filter fun character =>
    character != '_' && character != '-'))

/-- The expected text: the value of the declaration, filled, without blanks at its
ends. -/
def expectedText (scope : Scope) (declared : String × String) : String :=
  Text.trimmed (Template.fill scope declared.2)

/-- The status code of a response as messages name it. -/
def codeName (snapshot : Snapshot) : String :=
  (snapshot.statusCode.map toString).getD "none"

/-- A declared expectation holds of a response: an expected status is its status
up to the case of letters, an expected status code is a number of 16 bits and its
status code, and any other key expects nothing. -/
structure Met (snapshot : Snapshot) (scope : Scope) (declared : String × String) :
    Prop where
  status :
    keyLetters declared.1 = "status" →
      Text.sameLetters (Text.trimmed snapshot.status)
          (expectedText scope declared) = true
  statusCode : keyLetters declared.1 = "statuscode" →
    ∃ code, WritesNumber (expectedText scope declared).toList code ∧ code < 65536 ∧
      snapshot.statusCode = some code

/-- What is said of a declared expectation that does not hold of a response. -/
inductive Missed (snapshot : Snapshot) (scope : Scope)
    (declared : String × String) : String → Prop where
  | status (recognized : keyLetters declared.1 = "status")
      (differs :
        Text.sameLetters (Text.trimmed snapshot.status)
            (expectedText scope declared) = false) :
      Missed snapshot scope declared
        s!"expected status '{expectedText scope declared}', got '{
          Text.trimmed snapshot.status}'"
  | statusCode {code : Nat} (recognized : keyLetters declared.1 = "statuscode")
      (written : WritesNumber (expectedText scope declared).toList code)
      (within : code < 65536) (differs : snapshot.statusCode ≠ some code) :
      Missed snapshot scope declared
        s!"expected status code {code}, got {codeName snapshot}"
  | noNumber (recognized : keyLetters declared.1 = "statuscode")
      (unwritten :
        ∀ code < 65536, ¬ WritesNumber (expectedText scope declared).toList code) :
      Missed snapshot scope declared
        s!"invalid status code expectation '{expectedText scope declared}'"

section Expectations

variable {snapshot : Snapshot} {scope : Scope} {declared : String × String}
  {key message : String}

/-- An expectation is recognised by the letters of its key; there are two of
them. -/
theorem ofKey?_eq (key : String) :
    Expectation.ofKey? key =
      if keyLetters key = "status" then some .status
      else if keyLetters key = "statuscode" then some .statusCode
      else none :=
  rfl

/-- An expected status is compared with that of the response. -/
theorem declaredMismatch?_status (recognized : keyLetters declared.1 = "status") :
    declaredMismatch? snapshot scope declared =
      Expectation.mismatch? snapshot (expectedText scope declared) .status := by
  rw [declaredMismatch?, ofKey?_eq, if_pos recognized, Option.bind_some]
  rfl

/-- An expected status code is compared with that of the response. -/
theorem declaredMismatch?_statusCode
    (recognized : keyLetters declared.1 = "statuscode") :
    declaredMismatch? snapshot scope declared =
      Expectation.mismatch? snapshot (expectedText scope declared)
        .statusCode := by
  rw [declaredMismatch?, ofKey?_eq, recognized, if_neg (by decide), if_pos rfl,
    Option.bind_some]
  rfl

/-- An expectation that is met brings no complaint. -/
theorem Met.declaredMismatch? (met : Met snapshot scope declared) :
    declaredMismatch? snapshot scope declared = none := by
  by_cases status : keyLetters declared.1 = "status"
  · rw [declaredMismatch?_status status, Expectation.mismatch?]
    exact if_pos (met.status status)
  · by_cases statusCode : keyLetters declared.1 = "statuscode"
    · rcases met.statusCode statusCode with ⟨code, written, within, same⟩
      rw [declaredMismatch?_statusCode statusCode, Expectation.mismatch?,
        naturalBelow?_eq_some_iff.mpr ⟨written, within⟩]
      exact if_pos same
    · rw [RequestFlow.declaredMismatch?, ofKey?_eq, if_neg status,
        if_neg statusCode, Option.bind_none]

/-- An expectation that is missed brings its message. -/
theorem Missed.declaredMismatch?
    (missed : Missed snapshot scope declared message) :
    declaredMismatch? snapshot scope declared = some message := by
  cases missed with
  | status recognized differs =>
      rw [declaredMismatch?_status recognized, Expectation.mismatch?]
      exact if_neg (by rw [differs]; exact Bool.false_ne_true)
  | statusCode recognized written within differs =>
      rw [declaredMismatch?_statusCode recognized, Expectation.mismatch?,
        naturalBelow?_eq_some_iff.mpr ⟨written, within⟩]
      exact if_neg differs
  | noNumber recognized unwritten =>
      have unread :
          naturalBelow? 65536 (expectedText scope declared).toList = none := by
        rw [Option.eq_none_iff_forall_not_mem]
        intro code read
        rcases naturalBelow?_eq_some_iff.mp read with ⟨written, within⟩
        exact unwritten code within written
      rw [declaredMismatch?_statusCode recognized, Expectation.mismatch?, unread]

/-- Every expectation is met or missed, whatever its key and its text are. -/
theorem met_or_missed (snapshot : Snapshot) (scope : Scope)
    (declared : String × String) :
    Met snapshot scope declared ∨
      ∃ message, Missed snapshot scope declared message := by
  by_cases status : keyLetters declared.1 = "status"
  · have other : keyLetters declared.1 ≠ "statuscode" := by
      rw [status]
      decide
    cases same : Text.sameLetters (Text.trimmed snapshot.status)
        (expectedText scope declared) with
    | true => exact .inl ⟨fun _ => same, fun recognized => (other recognized).elim⟩
    | false => exact .inr ⟨_, .status status same⟩
  · by_cases statusCode : keyLetters declared.1 = "statuscode"
    · by_cases written :
          ∃ code,
            WritesNumber (expectedText scope declared).toList code ∧ code < 65536
      · rcases written with ⟨code, written, within⟩
        by_cases same : snapshot.statusCode = some code
        · exact .inl ⟨fun recognized => (status recognized).elim,
            fun _ => ⟨code, written, within, same⟩⟩
        · exact .inr ⟨_, .statusCode statusCode written within same⟩
      · exact .inr ⟨_,
          .noNumber statusCode fun code within number =>
            written ⟨code, number, within⟩⟩
    · exact .inl ⟨fun recognized => (status recognized).elim,
        fun recognized => (statusCode recognized).elim⟩

end Expectations

/-! ## Responses -/

/-- What a failed assertion is reported with: what it says itself, unless that is
blank, or its name. -/
def TestResult.Reports (test : TestResult) (message : String) : Prop :=
  (test.message = some message ∧ Text.isAllBlank message = false) ∨
    ((∀ own, test.message = some own → Text.isAllBlank own = true) ∧
      message = s!"test '{test.name}' failed")

/-- What a failed test reports is its own message, or else that it failed. -/
theorem TestResult.reports_iff {test : TestResult} {message : String} :
    test.Reports message ↔ test.complaint = message := by
  rw [Reports, complaint]
  cases test.message with
  | none =>
      constructor
      · rintro (⟨own, -⟩ | ⟨-, rfl⟩)
        · cases own
        · rfl
      · rintro rfl
        exact .inr ⟨nofun, rfl⟩
  | some own =>
      dsimp only
      cases blank : Text.isAllBlank own with
      | true =>
          rw [if_pos rfl]
          constructor
          · rintro (⟨⟨⟩, visible⟩ | ⟨-, same⟩)
            · cases blank.symm.trans visible
            · exact same.symm
          · rintro same
            refine .inr ⟨?_, same.symm⟩
            rintro _ ⟨⟩
            exact blank
      | false =>
          rw [if_neg Bool.false_ne_true]
          constructor
          · rintro (⟨⟨⟩, -⟩ | ⟨silent, -⟩)
            · rfl
            · cases blank.symm.trans (silent own rfl)
          · rintro rfl
            exact .inl ⟨rfl, blank⟩

/-- Nothing is wrong with a response. -/
structure Passes (snapshot : Snapshot) (expect : Dictionary String)
    (scope : Scope) : Prop where
  came : snapshot.transportError = none
  tested : ∀ test ∈ snapshot.tests, test.passed = true
  ran : snapshot.scriptError = none
  met : ∀ declared ∈ expect.entries, Met snapshot scope declared
  low : ∀ code, snapshot.statusCode = some code → code < 400

/-- The first thing that is wrong with a response, by its message; the error is
that of the transport. -/
inductive Fails (snapshot : Snapshot) (expect : Dictionary String)
    (scope : Scope) : String → Option String → Prop where
  | transport {error : String} (missing : snapshot.transportError = some error) :
      Fails snapshot expect scope error (some error)
  | test {passed later : List TestResult} {test : TestResult} {message : String}
      (came : snapshot.transportError = none)
      (tests : snapshot.tests = passed ++ test :: later)
      (before : ∀ earlier ∈ passed, earlier.passed = true)
      (fails : test.passed = false) (reports : test.Reports message) :
      Fails snapshot expect scope message none
  | script {error : String} (came : snapshot.transportError = none)
      (tested : ∀ test ∈ snapshot.tests, test.passed = true)
      (raised : snapshot.scriptError = some error) :
      Fails snapshot expect scope s!"script error: {error}" none
  | expectation {held later : List (String × String)} {declared : String × String}
      {message : String} (came : snapshot.transportError = none)
      (tested : ∀ test ∈ snapshot.tests, test.passed = true)
      (ran : snapshot.scriptError = none)
      (entries : expect.entries = held ++ declared :: later)
      (before : ∀ earlier ∈ held, Met snapshot scope earlier)
      (missed : Missed snapshot scope declared message) :
      Fails snapshot expect scope message none
  | statusCode {code : Nat} (came : snapshot.transportError = none)
      (tested : ∀ test ∈ snapshot.tests, test.passed = true)
      (ran : snapshot.scriptError = none)
      (met : ∀ declared ∈ expect.entries, Met snapshot scope declared)
      (coded : snapshot.statusCode = some code) (high : 400 ≤ code) :
      Fails snapshot expect scope s!"unexpected status code {code}" none

section Responses

variable {snapshot : Snapshot} {expect : Dictionary String} {scope : Scope}
  {message : String} {error : Option String}

theorem firstFailedTest?_of_passed
    (tested : ∀ test ∈ snapshot.tests, test.passed = true) :
    snapshot.firstFailedTest? = none := by
  rw [Snapshot.firstFailedTest?, List.find?_eq_none]
  intro test member
  rw [tested test member]
  exact Bool.false_ne_true

theorem mismatch_of_met
    (met : ∀ declared ∈ expect.entries, Met snapshot scope declared) :
    expect.entries.findSome? (declaredMismatch? snapshot scope) = none :=
  List.findSome?_eq_none_iff.mpr fun declared member =>
    (met declared member).declaredMismatch?

/-- A response that came is judged by its first complaint and raises no error. -/
theorem judge_of_complaint (came : snapshot.transportError = none)
    (found : complaint? snapshot expect scope = some message) :
    judge snapshot expect scope = ⟨.failed, some message, none⟩ := by
  rw [judge, came, found]

/-- A response that passes is judged to have succeeded, without a message. -/
theorem Passes.judge (passes : Passes snapshot expect scope) :
    judge snapshot expect scope = ⟨.succeeded, none, none⟩ := by
  have low : failureCode? snapshot = none := by
    rw [failureCode?, Option.bind_eq_none_iff]
    intro code coded
    exact if_neg (Nat.not_le.mpr (passes.low code coded))
  have complaint : complaint? snapshot expect scope = none := by
    rw [complaint?, firstFailedTest?_of_passed passes.tested, passes.ran,
      mismatch_of_met passes.met, low]
    rfl
  rw [RequestFlow.judge, passes.came, complaint]

/-- A response that fails is judged by its first fault and the message of this
fault. -/
theorem Fails.judge (fails : Fails snapshot expect scope message error) :
    judge snapshot expect scope = ⟨.failed, some message, error⟩ := by
  cases fails with
  | transport missing => rw [RequestFlow.judge, missing]
  | @test passed later test _ came tests before fails reports =>
      have first : snapshot.firstFailedTest? = some test := by
        rw [Snapshot.firstFailedTest?, List.find?_eq_some_iff_append]
        refine ⟨by rw [fails]; rfl, passed, later, tests, ?_⟩
        intro earlier member
        rw [before earlier member]
        rfl
      apply judge_of_complaint came
      rw [complaint?, first, Option.map_some, TestResult.reports_iff.mp reports,
        Option.some_or]
  | script came tested raised =>
      apply judge_of_complaint came
      rw [complaint?, firstFailedTest?_of_passed tested, raised]
      rfl
  | @expectation held later declared _ came tested ran entries before missed =>
      have first :
          expect.entries.findSome? (declaredMismatch? snapshot scope) =
            some message := by
        rw [List.findSome?_eq_some_iff]
        exact ⟨held, declared, later, entries, missed.declaredMismatch?,
          fun earlier member => (before earlier member).declaredMismatch?⟩
      apply judge_of_complaint came
      rw [complaint?, firstFailedTest?_of_passed tested, ran, first]
      rfl
  | @statusCode code came tested ran met coded high =>
      have failure :
          failureCode? snapshot = some s!"unexpected status code {code}" := by
        rw [failureCode?, coded, Option.bind_some]
        exact if_pos high
      apply judge_of_complaint came
      rw [complaint?, firstFailedTest?_of_passed tested, ran, mismatch_of_met met,
        failure]
      rfl

/-- The first member of a list that a test does not hold of, unless it holds of
all. -/
theorem all_or_first {Item : Type} (test : Item → Prop) (items : List Item) :
    (∀ item ∈ items, test item) ∨
      ∃ before item after, items = before ++ item :: after ∧
        (∀ earlier ∈ before, test earlier) ∧ ¬ test item := by
  induction items with
  | nil => exact .inl fun _ member => (List.not_mem_nil member).elim
  | cons item items hypothesis =>
      by_cases first : test item
      · rcases hypothesis with all | ⟨before, other, after, rfl, earlier, fails⟩
        · exact .inl (List.forall_mem_cons.mpr ⟨first, all⟩)
        · exact .inr ⟨item :: before, other, after, rfl,
            List.forall_mem_cons.mpr ⟨first, earlier⟩, fails⟩
      · exact .inr ⟨[], item, items, rfl,
          fun _ member => (List.not_mem_nil member).elim, first⟩

/-- Nothing is wrong with a response, or there is a first thing that is. -/
theorem passes_or_fails (snapshot : Snapshot) (expect : Dictionary String)
    (scope : Scope) :
    Passes snapshot expect scope ∨
      ∃ message error, Fails snapshot expect scope message error := by
  cases came : snapshot.transportError with
  | some error => exact .inr ⟨error, _, .transport came⟩
  | none =>
      rcases all_or_first (fun test => test.passed = true) snapshot.tests with
        tested | ⟨passed, test, later, tests, before, fails⟩
      · cases ran : snapshot.scriptError with
        | some error => exact .inr ⟨_, _, .script came tested ran⟩
        | none =>
            rcases all_or_first (Met snapshot scope) expect.entries with
              met | ⟨held, declared, later, entries, before, unmet⟩
            · by_cases high : ∃ code, snapshot.statusCode = some code ∧ 400 ≤ code
              · rcases high with ⟨code, coded, high⟩
                exact .inr ⟨_, _, .statusCode came tested ran met coded high⟩
              · refine .inl ⟨came, tested, ran, met, fun code coded => ?_⟩
                exact Nat.not_le.mp fun reached => high ⟨code, coded, reached⟩
            · rcases met_or_missed snapshot scope declared with
                met | ⟨message, missed⟩
              · exact (unmet met).elim
              · exact .inr
                  ⟨message, _, .expectation came tested ran entries before missed⟩
      · exact .inr ⟨_, _, .test came tests before (Bool.eq_false_iff.mpr fails)
          (TestResult.reports_iff.mpr rfl)⟩

/-- The judgement is a success exactly where nothing is wrong. -/
theorem succeeded_iff_passes :
    (judge snapshot expect scope).status = .succeeded ↔
      Passes snapshot expect scope := by
  constructor
  · intro succeeded
    rcases passes_or_fails snapshot expect scope with
      passes | ⟨message, error, fails⟩
    · exact passes
    · rw [fails.judge] at succeeded
      cases succeeded
  · intro passes
    rw [passes.judge]

/-- The judgement is a failure with a message exactly where this is the message of
the first fault. -/
theorem judge_eq_failed_iff :
    judge snapshot expect scope = ⟨.failed, some message, error⟩ ↔
      Fails snapshot expect scope message error := by
  constructor
  · intro failed
    rcases passes_or_fails snapshot expect scope with
      passes | ⟨other, found, fails⟩
    · cases passes.judge.symm.trans failed
    · cases fails.judge.symm.trans failed
      exact fails
  · exact Fails.judge

/-- There is no third judgement, and no failure without a message. -/
theorem succeeded_or_failed (snapshot : Snapshot) (expect : Dictionary String)
    (scope : Scope) :
    (judge snapshot expect scope).status = .succeeded ∨
      ∃ message error,
        judge snapshot expect scope = ⟨.failed, some message, error⟩ := by
  rcases passes_or_fails snapshot expect scope with
    passes | ⟨message, error, fails⟩
  · exact .inl (succeeded_iff_passes.mpr passes)
  · exact .inr ⟨message, error, fails.judge⟩

/-- An error is raised by the transport alone, never by a test or an
expectation. -/
theorem error_judge (snapshot : Snapshot) (expect : Dictionary String)
    (scope : Scope) :
    (judge snapshot expect scope).error = snapshot.transportError := by
  rw [judge]
  cases snapshot.transportError with
  | some error => rfl
  | none => cases complaint? snapshot expect scope <;> rfl

end Responses

/-! ## More that can go wrong -/

/-- A response with more assertions and errors and of which more is expected, but
with the same status. -/
structure AsksMore (snapshot : Snapshot) (expect : Dictionary String)
    (other : Snapshot) (wider : Dictionary String) : Prop where
  status : other.status = snapshot.status
  statusCode : other.statusCode = snapshot.statusCode
  tests : snapshot.tests ⊆ other.tests
  scriptError : other.scriptError = none → snapshot.scriptError = none
  transportError : other.transportError = none → snapshot.transportError = none
  expectations : expect.entries ⊆ wider.entries

theorem Met.congr {snapshot other : Snapshot} {scope : Scope}
    {declared : String × String} (status : other.status = snapshot.status)
    (statusCode : other.statusCode = snapshot.statusCode)
    (met : Met other scope declared) : Met snapshot scope declared := by
  rcases met with ⟨text, code⟩
  rw [status] at text
  rw [statusCode] at code
  exact ⟨text, code⟩

/-- What passes where more is asked passes where less is asked. -/
theorem AsksMore.passes {snapshot other : Snapshot}
    {expect wider : Dictionary String} {scope : Scope}
    (more : AsksMore snapshot expect other wider)
    (passes : Passes other wider scope) : Passes snapshot expect scope where
  came := more.transportError passes.came
  tested := fun test member => passes.tested test (more.tests member)
  ran := more.scriptError passes.ran
  met := fun declared member =>
    (passes.met declared (more.expectations member)).congr more.status
      more.statusCode
  low := fun code coded => passes.low code (more.statusCode.trans coded)

/-- What fails where less is asked fails where more is asked. -/
theorem AsksMore.failed {snapshot other : Snapshot}
    {expect wider : Dictionary String} {scope : Scope}
    (more : AsksMore snapshot expect other wider)
    (failed : (judge snapshot expect scope).status = .failed) :
    (judge other wider scope).status = .failed := by
  rcases succeeded_or_failed other wider scope with
    succeeded | ⟨message, error, fails⟩
  · have passes := more.passes (succeeded_iff_passes.mp succeeded)
    cases failed.symm.trans (succeeded_iff_passes.mpr passes)
  · rw [fails]

/-- More is asked of a response by more expectations. -/
theorem asksMore_of_subset {snapshot : Snapshot} {expect wider : Dictionary String}
    (expectations : expect.entries ⊆ wider.entries) :
    AsksMore snapshot expect snapshot wider :=
  ⟨rfl, rfl, fun _ => id, id, id, expectations⟩

/-- A response succeeds exactly if nothing is wrong with it, and fails with the
message of the first thing that is; the error is that of the transport.  Its
success does not depend on the order of the expectations, and more expectations,
assertions and errors do not bring it about. -/
theorem judge_by_first_fault (snapshot : Snapshot) (expect : Dictionary String)
    (scope : Scope) :
    ((judge snapshot expect scope).status = .succeeded ↔
        Passes snapshot expect scope) ∧
      (∀ message error,
        judge snapshot expect scope = ⟨.failed, some message, error⟩ ↔
          Fails snapshot expect scope message error) ∧
      ((judge snapshot expect scope).status = .succeeded ∨
        ∃ message error,
          judge snapshot expect scope = ⟨.failed, some message, error⟩) ∧
      (judge snapshot expect scope).error = snapshot.transportError ∧
      (∀ permuted : Dictionary String, permuted.entries.Perm expect.entries →
        (judge snapshot permuted scope).status =
          (judge snapshot expect scope).status) ∧
      (∀ other wider, AsksMore snapshot expect other wider →
        (judge snapshot expect scope).status = .failed →
        (judge other wider scope).status = .failed) := by
  refine ⟨succeeded_iff_passes, fun message error => judge_eq_failed_iff,
    succeeded_or_failed snapshot expect scope, error_judge snapshot expect scope,
    ?_, fun other wider => AsksMore.failed⟩
  intro permuted order
  rcases succeeded_or_failed snapshot expect scope with
    succeeded | ⟨message, error, fails⟩
  · have passes := succeeded_iff_passes.mp succeeded
    rw [succeeded, succeeded_iff_passes]
    exact (asksMore_of_subset order.subset).passes passes
  · have failed : (judge snapshot expect scope).status = .failed := by rw [fails]
    rw [failed, (asksMore_of_subset order.symm.subset).failed failed]

end RequestFlow
