import RequestFlow.Proofs.Phrases

/-!
# Scanning for operators

A scan goes through a text and keeps account of the open quotes and brackets.  It
gets stuck where a bracket is closed that was not open, and at characters outside
quotes and brackets that it is not to meet.  Main statements: a search for an
operator passes over every text that a scan gets through without meeting the
operator's first character, and finds the operator behind it.
-/

namespace RequestFlow.Condition

open RequestFlow.Text

/-! ## Characters -/

/-- The brackets that open. -/
def openers : List Char := ['(', '[', '{']

/-- The brackets that close. -/
def closers : List Char := [')', ']', '}']

/-- The quotes. -/
def quotes : List Char := ['\'', '"']

/-- A character that is neither a quote nor a bracket. -/
def isNeutral (character : Char) : Bool :=
  !(quotes ++ openers ++ closers).contains character

/-- A character that is neutral and no part of an operator between operands. -/
def isOrdinary (character : Char) : Bool :=
  isNeutral character && !(['|', '&', '=', '!'].contains character)

theorem isNeutral_of_isOrdinary {character : Char}
    (ordinary : isOrdinary character = true) : isNeutral character = true :=
  (Bool.and_eq_true_iff.mp ordinary).1

/-- What holds of none of the special characters makes a character ordinary. -/
theorem isOrdinary_of {test : Char → Bool} {character : Char}
    (excludes : (quotes ++ openers ++ closers ++ ['|', '&', '=', '!']).all
      (fun special => !test special) = true)
    (passes : test character = true) : isOrdinary character = true := by
  have absent :
      character ∉ quotes ++ openers ++ closers ++ ['|', '&', '=', '!'] := by
    intro special
    have excluded := List.all_eq_true.mp excludes character special
    rw [passes] at excluded
    cases excluded
  rw [List.mem_append, not_or] at absent
  simp only [isOrdinary, isNeutral, List.contains_eq_mem, absent, decide_false,
    Bool.not_false, Bool.and_self]

/-- Blanks are ordinary. -/
theorem isOrdinary_of_isBlank {character : Char}
    (blank : isBlank character = true) : isOrdinary character = true :=
  isOrdinary_of (by decide) blank

/-- A neutral character is no quote and no bracket. -/
theorem not_mem_of_isNeutral {character : Char}
    (neutral : isNeutral character = true) :
    character ∉ quotes ∧ character ∉ openers ∧ character ∉ closers := by
  simp only [isNeutral, List.contains_eq_mem, Bool.not_eq_true',
    decide_eq_false_iff_not, List.mem_append, not_or] at neutral
  exact ⟨neutral.1.1, neutral.1.2, neutral.2⟩

@[simp]
theorem depthAfter_opener {character : Char} (opener : character ∈ openers)
    (depth : Nat) : depthAfter depth character = depth + 1 := by
  simp only [openers, List.mem_cons, List.not_mem_nil, or_false] at opener
  rcases opener with rfl | rfl | rfl <;> rfl

@[simp]
theorem depthAfter_closer {character : Char} (closer : character ∈ closers)
    (depth : Nat) : depthAfter depth character = depth - 1 := by
  simp only [closers, List.mem_cons, List.not_mem_nil, or_false] at closer
  rcases closer with rfl | rfl | rfl <;> rfl

/-- A neutral character leaves the depth as it is. -/
theorem depthAfter_neutral {character : Char}
    (neutral : isNeutral character = true) (depth : Nat) :
    depthAfter depth character = depth := by
  rcases not_mem_of_isNeutral neutral with ⟨-, opener, closer⟩
  simp only [openers, closers, List.mem_cons, List.not_mem_nil, or_false, not_or]
    at opener closer
  simp [depthAfter, opener, closer]

/-! ## Scans -/

/-- One character of a scan: the open quotes and the depth before and after it. -/
inductive Steps (visible : Char → Bool) :
    Quoting → Nat → Char → Quoting → Nat → Prop where
  | inSingle {character : Char} {depth : Nat} (other : character ≠ '\'') :
      Steps visible .single depth character .single depth
  | endSingle {depth : Nat} : Steps visible .single depth '\'' .none depth
  | inDouble {character : Char} {depth : Nat} (other : character ≠ '"') :
      Steps visible .double depth character .double depth
  | endDouble {depth : Nat} : Steps visible .double depth '"' .none depth
  | beginSingle {depth : Nat} : Steps visible .none depth '\'' .single depth
  | beginDouble {depth : Nat} : Steps visible .none depth '"' .double depth
  | opens {character : Char} {depth : Nat} (opener : character ∈ openers) :
      Steps visible .none depth character .none (depth + 1)
  | closes {character : Char} {depth : Nat} (closer : character ∈ closers) :
      Steps visible .none (depth + 1) character .none depth
  /-- Outside brackets the scan meets visible characters only. -/
  | passes {character : Char} {depth : Nat} (neutral : isNeutral character = true)
      (seen : depth = 0 → visible character = true) :
      Steps visible .none depth character .none depth

/-- A scan of a text: the open quotes and the depth before and after it. -/
inductive Scans (visible : Char → Bool) :
    Quoting → Nat → List Char → Quoting → Nat → Prop where
  | done {quoting : Quoting} {depth : Nat} :
      Scans visible quoting depth [] quoting depth
  | step {quoting between after : Quoting} {depth middle deeper : Nat}
      {character : Char} {text : List Char}
      (steps : Steps visible quoting depth character between middle)
      (rest : Scans visible between middle text after deeper) :
      Scans visible quoting depth (character :: text) after deeper

section Scans

variable {visible wider : Char → Bool} {quoting between after : Quoting}
  {depth middle deeper : Nat} {character : Char} {text first second : List Char}

theorem Steps.scans (steps : Steps visible quoting depth character after deeper) :
    Scans visible quoting depth [character] after deeper :=
  .step steps .done

/-- A scan of two texts is a scan of one after the other. -/
theorem Scans.append (left : Scans visible quoting depth first between middle)
    (right : Scans visible between middle second after deeper) :
    Scans visible quoting depth (first ++ second) after deeper := by
  induction left with
  | done => exact right
  | step steps rest hypothesis => exact .step steps (hypothesis right)

/-- A scan gets as far where more characters may be met. -/
theorem Scans.weaken (weaker : ∀ other, visible other = true → wider other = true)
    (scans : Scans visible quoting depth text after deeper) :
    Scans wider quoting depth text after deeper := by
  induction scans with
  | done => exact .done
  | step steps rest hypothesis =>
      refine .step ?_ hypothesis
      cases steps with
      | inSingle other => exact .inSingle other
      | endSingle => exact .endSingle
      | inDouble other => exact .inDouble other
      | endDouble => exact .endDouble
      | beginSingle => exact .beginSingle
      | beginDouble => exact .beginDouble
      | opens opener => exact .opens opener
      | closes closer => exact .closes closer
      | passes neutral seen =>
          exact .passes neutral fun level => weaker _ (seen level)

/-- Within brackets a scan meets anything. -/
theorem Scans.deepen (scans : Scans visible quoting depth text after deeper) :
    Scans wider quoting (depth + 1) text after (deeper + 1) := by
  induction scans with
  | done => exact .done
  | step steps rest hypothesis =>
      refine .step ?_ hypothesis
      cases steps with
      | inSingle other => exact .inSingle other
      | endSingle => exact .endSingle
      | inDouble other => exact .inDouble other
      | endDouble => exact .endDouble
      | beginSingle => exact .beginSingle
      | beginDouble => exact .beginDouble
      | opens opener => exact .opens opener
      | closes closer => exact .closes closer
      | passes neutral seen => exact .passes neutral nofun

/-- A scan gets through neutral characters without a change, if those that it
meets outside of brackets may be met. -/
theorem Scans.of_neutral (neutral : ∀ character ∈ text, isNeutral character = true)
    (seen : depth = 0 → ∀ character ∈ text, visible character = true) :
    Scans visible .none depth text .none depth := by
  induction text with
  | nil => exact .done
  | cons character text hypothesis =>
      refine .step (.passes (neutral character List.mem_cons_self) fun level => ?_)
        ?_
      · exact seen level character List.mem_cons_self
      · exact hypothesis
          (fun other member => neutral other (List.mem_cons_of_mem _ member))
          fun level other member =>
            seen level other (List.mem_cons_of_mem _ member)

/-- Between single quotes a scan passes over everything but the quote. -/
theorem Scans.inSingle (other : ∀ character ∈ text, character ≠ '\'') :
    Scans visible .single depth text .single depth := by
  induction text with
  | nil => exact .done
  | cons character text hypothesis =>
      exact .step (.inSingle (other character List.mem_cons_self))
        (hypothesis fun later member =>
          other later (List.mem_cons_of_mem _ member))

/-- Between double quotes a scan passes over everything but the quote. -/
theorem Scans.inDouble (other : ∀ character ∈ text, character ≠ '"') :
    Scans visible .double depth text .double depth := by
  induction text with
  | nil => exact .done
  | cons character text hypothesis =>
      exact .step (.inDouble (other character List.mem_cons_self))
        (hypothesis fun later member =>
          other later (List.mem_cons_of_mem _ member))

end Scans

/-- A scan gets through a text, and nothing is open at its end. -/
def Closes (visible : Char → Bool) (text : List Char) : Prop :=
  Scans visible .none 0 text .none 0

/-- What is met between parentheses does not matter outside of them. -/
theorem Closes.wrap {visible wider : Char → Bool} {text : List Char}
    (closes : Closes visible text) : Closes wider (['('] ++ text ++ [')']) := by
  have inside : Scans wider .none 1 text .none 1 := Scans.deepen closes
  have opening : Scans wider .none 0 ['('] .none 1 :=
    Steps.scans (.opens (by decide))
  have closing : Scans wider .none 1 [')'] .none 0 :=
    Steps.scans (.closes (by decide))
  exact (opening.append inside).append closing

/-! ## Searches -/

/-- An operator begins with a neutral character that a scan is not to meet. -/
def Hides (visible : Char → Bool) : List Char → Prop
  | [] => False
  | first :: _ => isNeutral first = true ∧ visible first = false

section Searches

variable {visible : Char → Bool} {quoting after : Quoting} {depth deeper : Nat}
  {operator text rest : List Char}

/-- A search passes over a character at which the operator does not begin. -/
theorem cutTopLevel_pass {character : Char}
    (steps : Steps visible quoting depth character after deeper)
    (missed :
      quoting = .none → depth = 0 →
        dropStart? operator (character :: rest) = none) :
    cutTopLevel operator quoting depth (character :: rest) =
      (cutTopLevel operator after deeper rest).map fun parts =>
        (character :: parts.1, parts.2) := by
  have unfound (unquoted : quoting = .none) :
      (if depth = 0 then dropStart? operator (character :: rest) else none) =
        none := by
    split
    · next level => exact missed unquoted level
    · rfl
  cases steps with
  | inSingle other => simp only [cutTopLevel, other, if_false]
  | endSingle => simp only [cutTopLevel, if_true]
  | inDouble other => simp only [cutTopLevel, other, if_false]
  | endDouble => simp only [cutTopLevel, if_true]
  | beginSingle => simp only [cutTopLevel, if_true]
  | beginDouble => simp [cutTopLevel]
  | opens opener =>
      simp only [cutTopLevel, unfound rfl, depthAfter_opener opener]
      have unquoted : character ≠ '\'' ∧ character ≠ '"' := by
        constructor <;> (rintro rfl; exact absurd opener (by decide))
      simp only [unquoted, if_false]
  | closes closer =>
      simp only [cutTopLevel, unfound rfl, depthAfter_closer closer,
        Nat.add_sub_cancel]
      have unquoted : character ≠ '\'' ∧ character ≠ '"' := by
        constructor <;> (rintro rfl; exact absurd closer (by decide))
      simp only [unquoted, if_false]
  | passes neutral seen =>
      simp only [cutTopLevel, unfound rfl, depthAfter_neutral neutral]
      have unquoted : character ≠ '\'' ∧ character ≠ '"' := by
        constructor <;> (rintro rfl; exact absurd neutral (by decide))
      simp only [unquoted, if_false]

/-- A search passes over a text of which a scan meets no character that the
operator begins with. -/
theorem Scans.cutTopLevel_append
    (scans : Scans visible quoting depth text after deeper)
    (hides : Hides visible operator) :
    cutTopLevel operator quoting depth (text ++ rest) =
      (cutTopLevel operator after deeper rest).map fun parts =>
        (text ++ parts.1, parts.2) := by
  induction scans with
  | done => simp
  | @step quoting between after depth middle deeper character text steps later
      hypothesis =>
      rw [List.cons_append, cutTopLevel_pass steps, hypothesis, Option.map_map]
      · rfl
      · rintro rfl rfl
        cases operator with
        | nil => exact hides.elim
        | cons begin operator =>
            -- Outside quotes and brackets a scan meets brackets, quotes and what
            -- is visible only.
            rcases hides with ⟨neutral, hidden⟩
            have differs : begin ≠ character := by
              rintro rfl
              cases steps with
              | beginSingle => exact absurd neutral (by decide)
              | beginDouble => exact absurd neutral (by decide)
              | opens opener => exact (not_mem_of_isNeutral neutral).2.1 opener
              | passes neutral seen =>
                  rw [seen rfl] at hidden
                  cases hidden
            rw [dropStart?, if_neg differs]

/-- A search passes over a text in which the operator begins nowhere. -/
theorem Scans.cutTopLevel_append_of_missed
    (scans : Scans visible quoting depth text after deeper)
    (missed : ∀ later,
        later <:+ text → later ≠ [] → dropStart? operator (later ++ rest) = none) :
    cutTopLevel operator quoting depth (text ++ rest) =
      (cutTopLevel operator after deeper rest).map fun parts =>
        (text ++ parts.1, parts.2) := by
  induction scans with
  | done => simp
  | step steps later hypothesis =>
      have further := hypothesis fun remaining within nonempty =>
        missed remaining (within.trans (List.suffix_cons _ _)) nonempty
      rw [List.cons_append, cutTopLevel_pass steps, further, Option.map_map]
      · rfl
      · intro unquoted level
        exact missed _ (List.suffix_refl _) (List.cons_ne_nil _ _)

/-- An operator in front is found there. -/
theorem Hides.cutAt_operator (hides : Hides visible operator) (rest : List Char) :
    cutAt operator (operator ++ rest) = some ([], rest) := by
  cases operator with
  | nil => exact hides.elim
  | cons begin operator =>
      have unquoted : begin ≠ '\'' ∧ begin ≠ '"' := by
        constructor <;> (rintro rfl; exact absurd hides.1 (by decide))
      rw [cutAt, List.cons_append, cutTopLevel]
      simp only [unquoted, if_false, if_true, ← List.cons_append,
        dropStart?_append]

/-- Behind a text in which it cannot be met, an operator is found at once. -/
theorem Hides.cutAt_eq_some (hides : Hides visible operator)
    (closes : Closes visible text) (rest : List Char) :
    cutAt operator (text ++ operator ++ rest) = some (text, rest) := by
  rw [List.append_assoc, cutAt, Scans.cutTopLevel_append closes hides, ← cutAt,
    hides.cutAt_operator]
  simp

/-- In a text in which it cannot be met, an operator is not found. -/
theorem Hides.cutAt_eq_none (hides : Hides visible operator)
    (closes : Closes visible text) : cutAt operator text = none := by
  rw [cutAt, ← List.append_nil text, Scans.cutTopLevel_append closes hides]
  rfl

end Searches

end RequestFlow.Condition
