import RequestFlow.Proofs.Choosing
import RequestFlow.Proofs.Leaves
import RequestFlow.Proofs.Meaning
import RequestFlow.Proofs.Rounding

/-!
# When integers are equal

Integers are compared by the binary64 numbers that stand for them.  Main
statement: two integers of 64 bits are equal exactly if the nearest number is the
same for both, which is so for the same integer and up to 2^53 for no other one;
and comparisons, membership tests and switches tell integers apart no better.
-/

namespace RequestFlow

open Condition Decimal Json

/-- An integer as a value. -/
def Value.ofInt (value : Int) : Value :=
  .data (.number (.integer value))

theorem natAbs_lt_of_inRange {value : Int} (fits : Number.InRange value) :
    value.natAbs < twoTo 64 := by
  have room : twoTo 63 < twoTo 64 := by decide
  rcases fits with ⟨least, bound⟩
  omega

theorem equals_ofInt {left right : Int} (fits : Number.InRange left)
    (bounded : Number.InRange right) :
    (Value.ofInt left).equals (.ofInt right) = true ↔ Alike left right :=
  Binary64.sameValue_ofInt (natAbs_lt_of_inRange fits)
    (natAbs_lt_of_inRange bounded)

/-! ## Conditions -/

section Conditions

variable {setting : Setting} {first second : Expression} {right : Int}

theorem evaluate_comparison_ofInt {left : Int} (fits : Number.InRange left)
    (bounded : Number.InRange right) (equal : Bool)
    (evaluated : evaluate setting first = .ok (.ofInt left))
    (other : evaluate setting second = .ok (.ofInt right)) :
    ∃ truth,
      evaluate setting (.comparison equal first second) = .ok (.ofBool truth) ∧
        (truth = equal ↔ Alike left right) := by
  refine ⟨(Value.ofInt left).equals (.ofInt right) == equal, ?_, ?_⟩
  · rw [evaluate_comparison, evaluated, other]
    rfl
  · rw [← equals_ofInt fits bounded]
    cases (Value.ofInt left).equals (.ofInt right) <;> cases equal <;> decide

theorem includes_of_items {collection item : Value} {items : List Value}
    (listed : collection.items = .ok items) :
    includes collection item =
      .ok (.ofBool (items.any fun member => member.equals item)) := by
  rcases collection with (_ | _ | _ | _ | _ | _) | _ | _ <;> cases listed <;> rfl

theorem evaluate_membership_ofInt {collection : Value} {items : List Int}
    (fits : ∀ item ∈ items, Number.InRange item) (bounded : Number.InRange right)
    (evaluated : evaluate setting first = .ok collection)
    (listed : collection.items = .ok (items.map .ofInt))
    (other : evaluate setting second = .ok (.ofInt right)) :
    ∃ truth, evaluate setting (.membership first second) = .ok (.ofBool truth) ∧
      (truth = true ↔ ∃ item ∈ items, Alike item right) := by
  refine ⟨(items.map Value.ofInt).any fun member => member.equals (.ofInt right),
    ?_, ?_⟩
  · rw [evaluate_membership, evaluated, other]
    exact includes_of_items listed
  · rw [List.any_map, List.any_eq_true]
    exact exists_congr fun item =>
      and_congr_right fun member => equals_ofInt (fits item member) bounded

end Conditions

/-! ## Switches -/

/-- The condition of a case has a value. -/
def ResolvedBranch.Presents (context : StepContext) (core : StepCore)
    (branch : ResolvedBranch) (value : Value) : Prop :=
  ∃ condition, branch.condition = some condition ∧
    context.evaluator (context.queryFor core .alternative condition) = .ok value

section Switches

variable {context : StepContext} {core : StepCore} {cases : List ResolvedBranch}

theorem value_bind {First Second : Type} (first : Traced First)
    (later : First → Traced Second) :
    (first >>= later).value = (later first.value).value :=
  rfl

/-- Among cases with values the first one is found that is accepted. -/
theorem firstAccepted_eq_find? {value : ResolvedBranch → Value}
    (accepts : Value → Bool)
    (presented : ∀ branch ∈ cases, branch.Presents context core (value branch)) :
    (firstAccepted context core (fun _ => .alternative) accepts cases).value =
      .ok (cases.find? fun branch => accepts (value branch)) := by
  induction cases with
  | nil => rfl
  | cons branch cases hypothesis =>
      rcases List.forall_mem_cons.mp presented with
        ⟨⟨condition, conditioned, evaluated⟩, others⟩
      have answered :
          (context.ask core .alternative condition).value = .ok (value branch) :=
        evaluated
      rw [firstAccepted, conditioned]
      dsimp only
      rw [value_bind, answered, List.find?_cons]
      cases accepted : accepts (value branch) with
      | true => simp only [accepted, if_true]; rfl
      | false =>
          simpa only [accepted, Bool.false_eq_true, if_false]
            using hypothesis others

/-- The step has no condition of its own, or one that is true. -/
def StepCore.Admits (core : StepCore) (context : StepContext) : Prop :=
  ∀ guard ∈ core.guard, ∃ value,
    context.evaluator (context.queryFor core .guard guard) = .ok value ∧
      value.isTruthy = true

theorem gated_of_admits (admits : core.Admits context) (go : Traced NextAction) :
    (gated context core go).value = go.value := by
  rw [gated]
  cases guarded : core.guard with
  | none => rfl
  | some guard =>
      rcases admits guard guarded with ⟨value, evaluated, truth⟩
      have answered : (context.ask core .guard guard).value = .ok value :=
        evaluated
      dsimp only
      rw [value_bind, answered]
      simp only [truth, if_true]

/-- A switch takes its first case with a value that is equal to that of its
subject. -/
theorem next_switch {value : ResolvedBranch → Value} {subject : SourceCondition}
    {compared : Value} (otherwise : Option ResolvedBranch)
    (admits : core.Admits context)
    (asked :
      context.evaluator (context.queryFor core .subject subject) = .ok compared)
    (presented : ∀ branch ∈ cases, branch.Presents context core (value branch)) :
    ((ResolvedStep.switch core subject cases otherwise).next context).value =
      (choose context core otherwise "no @switch case matched"
        (.ok
          (cases.find? fun branch => (value branch).equals compared))).value := by
  have answered : (context.ask core .subject subject).value = .ok compared := asked
  rw [ResolvedStep.next, gated_of_admits admits, value_bind, answered]
  dsimp only
  rw [value_bind,
    firstAccepted_eq_find? (fun case => case.equals compared) presented]

end Switches

/-! ## Integers -/

/-- Two integers are equal exactly if the same binary64 number is nearest to both,
which below 2^53 makes them the same integer.  A comparison of integers is one of
these numbers, a list includes an integer if it has one that is equal in this
sense, and a switch takes its first case that is. -/
theorem integers_equal {left right : Int} (fits : Number.InRange left)
    (bounded : Number.InRange right) :
    ((Value.ofInt left).equals (.ofInt right) = true ↔ Alike left right) ∧
      (left.natAbs < twoTo 53 → (Alike left right ↔ left = right)) ∧
      (∀ setting equal first second, evaluate setting first = .ok (.ofInt left) →
        evaluate setting second = .ok (.ofInt right) →
        ∃ truth,
          evaluate setting (.comparison equal first second) = .ok (.ofBool truth) ∧
            (truth = equal ↔ Alike left right)) ∧
      (∀ setting first second collection (items : List Int),
        evaluate setting first = .ok collection →
          collection.items = .ok (items.map .ofInt) →
          (∀ item ∈ items, Number.InRange item) →
          evaluate setting second = .ok (.ofInt right) →
          ∃ truth,
            evaluate setting (.membership first second) = .ok (.ofBool truth) ∧
              (truth = true ↔ ∃ item ∈ items, Alike item right)) ∧
      (∀ context core subject cases otherwise (number : ResolvedBranch → Int),
        core.Admits context →
          context.evaluator (context.queryFor core .subject subject) =
            .ok (.ofInt right) →
          (∀ branch ∈ cases,
            branch.Presents context core (.ofInt (number branch)) ∧
              Number.InRange (number branch)) →
      let decision :=
        ((ResolvedStep.switch core subject cases otherwise).next context).value
      (∀ before branch after,
        cases = before ++ branch :: after → Alike (number branch) right →
          (∀ other ∈ before, ¬ Alike (number other) right) →
          decision = (branch.take context core).value) ∧
      ((∀ branch ∈ cases, ¬ Alike (number branch) right) →
        decision =
          (choose context core otherwise "no @switch case matched"
            (.ok none)).value)) := by
  refine ⟨equals_ofInt fits bounded, alike_iff_eq, ?_, ?_, ?_⟩
  · intro setting equal first second evaluated other
    exact evaluate_comparison_ofInt fits bounded equal evaluated other
  · intro setting first second collection items evaluated listed within other
    exact evaluate_membership_ofInt within bounded evaluated listed other
  · intro context core subject cases otherwise number admits asked presented
      decision
    have chosen : decision = _ :=
      next_switch otherwise admits asked fun branch member =>
        (presented branch member).1
    have equal (branch : ResolvedBranch) (member : branch ∈ cases) :
        (Value.ofInt (number branch)).equals (.ofInt right) = true ↔
          Alike (number branch) right :=
      equals_ofInt (presented branch member).2 bounded
    constructor
    · rintro before branch after rfl same others
      have found : (before ++ branch :: after).find? (fun branch =>
          (Value.ofInt (number branch)).equals (.ofInt right)) = some branch := by
        refine List.find?_eq_some_iff_append.mpr
          ⟨(equal branch (by simp)).mpr same, before, after, rfl, ?_⟩
        intro other member
        rw [Bool.not_eq_true', ← Bool.not_eq_true,
          equal other (List.mem_append_left _ member)]
        exact others other member
      rw [chosen, found]
      rfl
    · intro none
      have unfound : cases.find? (fun branch =>
          (Value.ofInt (number branch)).equals (.ofInt right)) = .none :=
        List.find?_eq_none.mpr fun branch member =>
          mt (equal branch member).mp (none branch member)
      rw [chosen, unfound]

/-- A case on a line, which its message tells. -/
def caseAt (line : Nat) : ResolvedBranch :=
  ⟨.alternative, some ⟨"count", line⟩, .fail (toString line)⟩

/-- A step without a condition of its own. -/
def countingStep : StepCore :=
  ⟨0, "count", .stop, none, .empty, .empty, .inherit, 1⟩

/-- What is counted is eight on the third line, and seven elsewhere. -/
def countingContext : StepContext :=
  { routingContext with
    evaluator := fun query => .ok (.ofInt (if query.line = 3 then 8 else 7)) }

/-- Seven is equal to itself and not to eight, is in a list with it, and is chosen
by its case; and the first integer that binary64 does not have is equal to the one
before it. -/
theorem integers_equal_seven :
    let equal (left right : Int) := (Value.ofInt left).equals (.ofInt right)
    let number (value : Int) : Expression := .literal (.number (.integer value))
    let list : Expression :=
      .literal (.array [.number (.integer 8), .number (.integer 7)])
    let setting : Setting := ⟨0, .empty, .empty⟩
    let switch : ResolvedStep :=
      .switch countingStep ⟨"count", 2⟩ [caseAt 3, caseAt 4] none
    (equal 7 7 = true ∧ equal 7 8 ≠ true ∧
        equal 9007199254740993 9007199254740992 = true) ∧
      evaluate setting (.comparison true (number 7) (number 7)) =
        .ok (.ofBool true) ∧
      evaluate setting (.membership list (number 7)) = .ok (.ofBool true) ∧
      (switch.next countingContext).value =
        ((caseAt 4).take countingContext countingStep).value := by
  intro equal number list setting switch
  have range {value : Int} (low : -9223372036854775808 ≤ value)
      (high : value < 18446744073709551616) :
      Number.InRange value :=
    ⟨low, high⟩
  have seven : Number.InRange 7 := range (by decide) (by decide)
  have eight : Number.InRange 8 := range (by decide) (by decide)
  rcases integers_equal seven seven with ⟨same, exact, compared, listed, chosen⟩
  rcases integers_equal seven eight with ⟨other, differs, -⟩
  rcases integers_equal
      (range (by decide) (by decide) : Number.InRange 9007199254740993)
      (range (by decide) (by decide) : Number.InRange 9007199254740992) with
    ⟨beyond, -⟩
  have alike : Alike 7 7 := (exact (by decide)).mpr rfl
  have unlike : ¬ Alike 7 8 := by
    rw [differs (by decide)]
    decide
  have rounded : Alike 9007199254740993 9007199254740992 :=
    alike_iff.mpr (by decide +kernel)
  refine ⟨⟨same.mpr alike, mt other.mp unlike, beyond.mpr rounded⟩, ?_, ?_, ?_⟩
  · rcases compared setting true (number 7) (number 7) rfl rfl with
      ⟨truth, evaluated, meant⟩
    rw [evaluated, meant.mpr alike]
  · rcases listed setting list (number 7) _ [8, 7] rfl rfl
        (List.forall_mem_cons.mpr ⟨eight, List.forall_mem_singleton.mpr seven⟩)
        rfl with
      ⟨truth, evaluated, meant⟩
    rw [evaluated, meant.mpr ⟨7, by decide, alike⟩]
  · let numberOf (branch : ResolvedBranch) : Int :=
      if branch.condition = some ⟨"count", 3⟩ then 8 else 7
    have presented : ∀ branch ∈ [caseAt 3, caseAt 4],
        branch.Presents countingContext countingStep (.ofInt (numberOf branch)) ∧
          Number.InRange (numberOf branch) := by
      intro branch member
      rcases List.mem_pair.mp member with rfl | rfl
      · exact ⟨⟨_, rfl, rfl⟩, eight⟩
      · exact ⟨⟨_, rfl, rfl⟩, seven⟩
    rcases chosen countingContext countingStep ⟨"count", 2⟩ [caseAt 3, caseAt 4]
        none numberOf nofun rfl presented with
      ⟨taken, -⟩
    have earlier : numberOf (caseAt 3) = 8 := rfl
    refine taken [caseAt 3] (caseAt 4) [] rfl alike
      (List.forall_mem_singleton.mpr ?_)
    rw [earlier, alike_iff_eq (by decide)]
    decide

/-- Two integers of 64 bits are equal and not the same. -/
theorem integer_unlike_equal :
    Number.InRange 9007199254740993 ∧ Number.InRange 9007199254740992 ∧
      (Value.ofInt 9007199254740993).equals (.ofInt 9007199254740992) = true ∧
      (9007199254740993 : Int) ≠ 9007199254740992 := by
  refine ⟨⟨by decide, by decide⟩, ⟨by decide, by decide⟩, ?_, by decide⟩
  decide +kernel

end RequestFlow
