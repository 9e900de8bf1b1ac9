import RequestFlow.Condition.Expression
import RequestFlow.Json.Reading
import RequestFlow.Text.Search

/-!
# Reading conditions

An operator counts where it is neither in quotes nor in brackets.  A text is
divided at `||` first, then at `&&`; then come leading negations, the first `!=`,
the first `==`, the first `.includes(`, and what is left is an operand: a
condition in parentheses, a literal, a text in single quotes or a variable.
-/

namespace RequestFlow.Condition

open RequestFlow.Text

/-- Which quotes are open. -/
inductive Quoting where
  | none
  | single
  | double
  deriving DecidableEq

/-- What an opening or closing bracket does to the depth. -/
def depthAfter (depth : Nat) (character : Char) : Nat :=
  if character == '(' || character == '[' || character == '{' then depth + 1
  else if character == ')' || character == ']' || character == '}' then depth - 1
  else depth

/-- The text before and after the first `operator` that is neither in quotes nor
in brackets. -/
def cutTopLevel (operator : List Char) :
    Quoting → Nat → List Char → Option (List Char × List Char)
  | _, _, [] => none
  | quoting, depth, character :: text =>
      let keep (parts : List Char × List Char) := (character :: parts.1, parts.2)
      match quoting with
      | .single =>
          (cutTopLevel operator (if character = '\'' then .none else .single) depth
            text).map keep
      | .double =>
          (cutTopLevel operator (if character = '"' then .none else .double) depth
            text).map keep
      | .none =>
          if character = '\'' then
            (cutTopLevel operator .single depth text).map keep
          else if character = '"' then
            (cutTopLevel operator .double depth text).map keep
          else
            match
              if depth = 0 then dropStart? operator (character :: text) else none
            with
            | some rest => some ([], rest)
            | none =>
                (cutTopLevel operator .none (depthAfter depth character) text).map
                  keep

/-- A cut takes nothing but the operator out of the text. -/
theorem eq_append_of_cutTopLevel {operator : List Char} {quoting : Quoting}
    {depth : Nat} {text before rest : List Char}
    (found : cutTopLevel operator quoting depth text = some (before, rest)) :
    text = before ++ operator ++ rest := by
  induction text generalizing quoting depth before with
  | nil => simp [cutTopLevel] at found
  | cons character text hypothesis =>
      have carry {quoting : Quoting} {depth : Nat}
          (inner : (cutTopLevel operator quoting depth text).map
            (fun parts => (character :: parts.1, parts.2)) = some (before, rest)) :
          character :: text = before ++ operator ++ rest := by
        obtain ⟨⟨first, second⟩, cutting, equal⟩ := Option.map_eq_some_iff.1 inner
        simp only [Prod.mk.injEq] at equal
        obtain ⟨rfl, rfl⟩ := equal
        simp [hypothesis cutting]
      unfold cutTopLevel at found
      cases quoting with
      | single => exact carry found
      | double => exact carry found
      | none =>
          simp only at found
          split at found
          · exact carry found
          · split at found
            · exact carry found
            · split at found
              · next start =>
                  simp only [Option.some.injEq, Prod.mk.injEq] at found
                  obtain ⟨rfl, rfl⟩ := found
                  split at start
                  · simpa using eq_append_of_dropStart? start
                  · simp at start
              · exact carry found

/-- The first top-level occurrence of an operator in a text. -/
def cutAt (operator text : List Char) : Option (List Char × List Char) :=
  cutTopLevel operator .none 0 text

/-- The parts of a text between top-level operators; nothing follows an operator
at the very end. -/
def partsAt (operator : List Char) : Nat → List Char → List (List Char)
  | 0, _ => []
  | _ + 1, [] => []
  | steps + 1, text =>
      match cutAt operator text with
      | none => [trim text]
      | some (before, rest) => trim before :: partsAt operator steps rest

/-- The lengths of all that a text is divided into, by which the reader of
conditions comes to an end. -/
theorem length_le_of_mem_partsAt {operator : List Char} {steps : Nat}
    {text part : List Char} (member : part ∈ partsAt operator steps text) :
    part.length ≤ text.length := by
  induction steps generalizing text with
  | zero => simp [partsAt] at member
  | succ steps hypothesis =>
      cases text with
      | nil => simp [partsAt] at member
      | cons character text =>
          simp only [partsAt] at member
          split at member
          · simp only [List.mem_singleton] at member
            subst member
            exact trim_length_le _
          · next before rest found =>
              have whole := congrArg List.length (eq_append_of_cutTopLevel found)
              simp only [List.length_append] at whole
              rcases List.mem_cons.1 member with equal | member
              · subst equal
                have := trim_length_le before
                omega
              · have := hypothesis member
                omega

theorem length_lt_of_mem_partsAt {operator : List Char} {steps : Nat}
    {text part : List Char} (nonempty : operator ≠ [])
    (several : 2 ≤ (partsAt operator steps text).length)
    (member : part ∈ partsAt operator steps text) : part.length < text.length := by
  cases steps with
  | zero => simp [partsAt] at member
  | succ steps =>
      cases text with
      | nil => simp [partsAt] at member
      | cons character text =>
          simp only [partsAt] at member several
          split at member
          · next absent => simp [absent] at several
          · next before rest found =>
              have whole := congrArg List.length (eq_append_of_cutTopLevel found)
              have positive := List.length_pos_iff.2 nonempty
              simp only [List.length_append] at whole
              rcases List.mem_cons.1 member with equal | member
              · subst equal
                have := trim_length_le before
                omega
              · have := length_le_of_mem_partsAt member
                omega

/-- The operands of an operator, if it has more than one. -/
def operands? (operator : List Char) (nonempty : operator ≠ [])
    (text : List Char) :
    Option (List { part : List Char // part.length < text.length }) :=
  let parts := partsAt operator (text.length + 1) text
  if several : 2 ≤ parts.length then
    some (parts.attach.map fun part =>
      ⟨part.1, length_lt_of_mem_partsAt nonempty several part.2⟩)
  else none

/-- Counts leading negations, blanks between them allowed; the `!` of `!=` is
none. -/
def dropNegations : Nat → List Char → Nat × List Char
  | 0, text => (0, trimStart text)
  | steps + 1, text =>
      match trimStart text with
      | '!' :: rest =>
          if rest.head? == some '=' then (0, '!' :: rest)
          else
            let inner := dropNegations steps rest
            (inner.1 + 1, inner.2)
      | visible => (0, visible)

theorem dropNegations_length (steps : Nat) (text : List Char) :
    (dropNegations steps text).2.length + (dropNegations steps text).1 ≤
      text.length := by
  induction steps generalizing text with
  | zero => simpa [dropNegations] using trimStart_length_le text
  | succ steps hypothesis =>
      have shorter := trimStart_length_le text
      simp only [dropNegations]
      split
      · next rest equal =>
          rw [equal, List.length_cons] at shorter
          split
          · simpa using shorter
          · have := hypothesis rest
            simp only
            omega
      · simpa using shorter

/-- The content of a text in parentheses, if the first one is closed by the last
one. -/
def unwrap? (text : List Char) : Option (List Char) :=
  match dropStart? ['('] text with
  | none => none
  | some rest =>
      match dropEnd? [')'] rest with
      | none => none
      | some inner => if balanced 0 inner then some inner else none
where
  /-- No parenthesis is closed that is not open. -/
  balanced : Nat → List Char → Bool
    | _, [] => true
    | depth, '(' :: text => balanced (depth + 1) text
    | 0, ')' :: _ => false
    | depth + 1, ')' :: text => balanced depth text
    | depth, _ :: text => balanced depth text

/-- What stands within parentheses is shorter than the whole. -/
theorem unwrap?_length {text inner : List Char}
    (found : unwrap? text = some inner) : inner.length < text.length := by
  rw [unwrap?] at found
  split at found
  · simp at found
  · next rest opened =>
      split at found
      · simp at found
      · next middle closed =>
          split at found
          · simp only [Option.some.injEq] at found
            subst found
            have first := congrArg List.length (eq_append_of_dropStart? opened)
            have second := congrArg List.length (eq_append_of_dropEnd? closed)
            simp at first second
            omega
          · simp at found

/-- A text that is read as data. -/
def looksLikeLiteral (text : List Char) : Bool :=
  match text.head? with
  | none => false
  | some first =>
      first == '[' || first == '{' || first == '"' || first == '-' ||
        first.isDigit || text == ['n', 'u', 'l', 'l'] ||
        text == ['t', 'r', 'u', 'e'] || text == ['f', 'a', 'l', 's', 'e']

/-- A text in single quotes, without them. -/
def unquote? (text : List Char) : Option (List Char) :=
  (dropStart? ['\''] text).bind (dropEnd? ['\''])

/-- An operand that is no condition in parentheses. -/
def readLeaf (text : List Char) : Expression :=
  if looksLikeLiteral text then
    match Json.read text with
    | .ok value => .literal value
    | .error failure =>
        .malformed (.invalidLiteral (String.ofList text) (failure.message text))
  else
    match unquote? text with
    | some inner => .literal (.string (String.ofList inner))
    | none =>
        match Path.ofText? text with
        | some path => .variableAt text path
        | none => .malformed (.unsupported (String.ofList text))

/-- The operator of alternatives. -/
def orOperator : List Char := ['|', '|']

/-- The operator of conjunctions. -/
def andOperator : List Char := ['&', '&']

/-- The operator of equality. -/
def equalOperator : List Char := ['=', '=']

/-- The operator of difference. -/
def differentOperator : List Char := ['!', '=']

/-- What opens the argument of a membership test. -/
def membershipOperator : List Char :=
  ['.', 'i', 'n', 'c', 'l', 'u', 'd', 'e', 's', '(']

/-- A text without the membership operators at its front. -/
def dropMembership : Nat → List Char → List Char
  | 0, text => text
  | steps + 1, text =>
      match dropStart? membershipOperator text with
      | some rest => dropMembership steps rest
      | none => text

theorem dropMembership_length_le (steps : Nat) (text : List Char) :
    (dropMembership steps text).length ≤ text.length := by
  induction steps generalizing text with
  | zero => simp [dropMembership]
  | succ steps hypothesis =>
      simp only [dropMembership]
      split
      · next rest found =>
          have whole := congrArg List.length (eq_append_of_dropStart? found)
          have := hypothesis rest
          simp only [List.length_append] at whole
          omega
      · exact Nat.le_refl _

/-- The sides of a comparison: the first `!=`, else the first `==`. -/
def comparison? (text : List Char) : Option (Bool × List Char × List Char) :=
  match cutAt differentOperator text with
  | some (left, right) => some (false, trim left, trim right)
  | none =>
      (cutAt equalOperator text).map fun sides =>
        (true, trim sides.1, trim sides.2)

/-- So are the two sides of a comparison. -/
theorem comparison?_length {text left right : List Char} {equal : Bool}
    (found : comparison? text = some (equal, left, right)) :
    left.length < text.length ∧ right.length < text.length := by
  have bound {operator before rest : List Char} (two : operator.length = 2)
      (cutting : cutAt operator text = some (before, rest)) :
      (trim before).length < text.length ∧ (trim rest).length < text.length := by
    have whole := congrArg List.length (eq_append_of_cutTopLevel cutting)
    have := trim_length_le before
    have := trim_length_le rest
    simp only [List.length_append] at whole
    omega
  rw [comparison?] at found
  split at found
  · next before rest cutting =>
      simp only [Option.some.injEq, Prod.mk.injEq] at found
      obtain ⟨-, rfl, rfl⟩ := found
      exact bound rfl cutting
  · obtain ⟨⟨before, rest⟩, cutting, pair⟩ := Option.map_eq_some_iff.1 found
    simp only [Prod.mk.injEq] at pair
    obtain ⟨-, rfl, rfl⟩ := pair
    exact bound rfl cutting

/-- The collection of a membership test and what stands behind the operator up to
the closing parenthesis, if that is there. -/
def membership? (text : List Char) : Option (List Char × Option (List Char)) :=
  (cutAt membershipOperator text).map fun parts =>
    (parts.1, dropEnd? [')'] (trim (dropMembership text.length parts.2)))

/-- And the two sides of a membership test. -/
theorem membership?_length {text collection : List Char}
    {item : Option (List Char)}
    (found : membership? text = some (collection, item)) :
    collection.length < text.length ∧
      ∀ inner ∈ item, inner.length < text.length := by
  obtain ⟨⟨before, rest⟩, cutting, pair⟩ := Option.map_eq_some_iff.1 found
  simp only [Prod.mk.injEq] at pair
  obtain ⟨rfl, rfl⟩ := pair
  have whole := congrArg List.length (eq_append_of_cutTopLevel cutting)
  simp only [List.length_append, membershipOperator, List.length_cons,
    List.length_nil] at whole
  refine ⟨by omega, fun inner member => ?_⟩
  have closed := congrArg List.length (eq_append_of_dropEnd? member)
  have := trim_length_le (dropMembership text.length rest)
  have := dropMembership_length_le text.length rest
  simp only [List.length_append, List.length_cons, List.length_nil] at closed
  omega

/-- The tree of a text. -/
def Expression.ofText (source : List Char) : Expression :=
  let text := trim source
  have : text.length ≤ source.length := trim_length_le source
  if text.isEmpty then .malformed .emptyOperand
  else
    match operands? orOperator (by simp [orOperator]) text with
    | some parts => .disjunction (parts.map fun part => ofText part.1)
    | none =>
        match operands? andOperator (by simp [andOperator]) text with
        | some parts => .conjunction (parts.map fun part => ofText part.1)
        | none =>
            match counted : dropNegations text.length text with
            | (count + 1, inner) =>
                have : inner.length + (count + 1) ≤ text.length := by
                  simpa [counted] using dropNegations_length text.length text
                if (trim inner).isEmpty then .malformed .danglingNegation
                else .negation (count + 1) (ofText inner)
            | (0, inner) =>
                have : inner.length ≤ text.length := by
                  simpa [counted] using dropNegations_length text.length text
                match compared : comparison? inner with
                | some (equal, left, right) =>
                    have := comparison?_length compared
                    if left.isEmpty || right.isEmpty then .malformed .missingSide
                    else .comparison equal (ofText left) (ofText right)
                | none =>
                    match tested : membership? inner with
                    | some (_, none) => .malformed .unclosedMembership
                    | some (collection, some item) =>
                        have := membership?_length tested
                        have := this.2 item rfl
                        if (trim item).isEmpty then .malformed .missingArgument
                        else .membership (ofText collection) (ofText item)
                    | none =>
                        match wrapped : unwrap? inner with
                        | some content =>
                            have := unwrap?_length wrapped
                            ofText content
                        | none => readLeaf inner
termination_by source.length
decreasing_by
  · have := part.2
    omega
  · have := part.2
    omega
  all_goals omega

/-- What opens a wrapper around a whole condition. -/
def wrapperStart : List Char := ['{', '{']

/-- What closes a wrapper around a whole condition. -/
def wrapperEnd : List Char := ['}', '}']

/-- The condition without blanks at its ends and without a wrapper of double
braces. -/
def normalize (source : List Char) : List Char :=
  let text := trim source
  match (dropStart? wrapperStart text).bind (dropEnd? wrapperEnd) with
  | some inner => trim inner
  | none => text

/-- Reads a whole condition. -/
def read (source : String) : Expression :=
  let text := normalize source.toList
  if text.isEmpty then .malformed .empty else .ofText text

end RequestFlow.Condition
