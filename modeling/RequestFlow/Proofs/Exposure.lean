import RequestFlow.Proofs.Occurrences
import RequestFlow.Proofs.Scanning

/-!
# Exposed operators

A search for an operator keeps account of quotes and brackets.  A quote counts
whatever stands in front of it, and a bracket that closes nothing does not count.
Main statements: the search finds the operator exactly if it stands somewhere
where nothing is open, and it passes over a text in which it does not.
-/

namespace RequestFlow.Condition

open RequestFlow.Text

/-! ## What is open -/

/-- What is open at a place of a text: the quotes, and so many brackets outside
quotes. -/
structure Place where
  quoting : Quoting
  depth : Nat
  deriving DecidableEq

namespace Place

/-- Nothing is open. -/
def outside : Place := ⟨.none, 0⟩

/-- Double quotes are open. -/
def inDouble : Place := ⟨.double, 0⟩

/-- The place behind a character. -/
def next (place : Place) (character : Char) : Place :=
  match place.quoting with
  | .single => ⟨if character = '\'' then .none else .single, place.depth⟩
  | .double => ⟨if character = '"' then .none else .double, place.depth⟩
  | .none =>
      if character = '\'' then ⟨.single, place.depth⟩
      else if character = '"' then ⟨.double, place.depth⟩
      else ⟨.none, depthAfter place.depth character⟩

/-- The place behind a text. -/
def after (place : Place) (text : List Char) : Place :=
  text.foldl next place

@[simp] theorem after_nil (place : Place) : place.after [] = place := rfl

@[simp] theorem after_cons (place : Place) (character : Char) (text : List Char) :
    place.after (character :: text) = (place.next character).after text := rfl

@[simp] theorem after_append (place : Place) (first second : List Char) :
    place.after (first ++ second) = (place.after first).after second :=
  List.foldl_append

/-- Only quotes and brackets change the place. -/
theorem next_of_isNeutral {character : Char} (neutral : isNeutral character = true)
    (place : Place) : place.next character = place := by
  have unquoted := (not_mem_of_isNeutral neutral).1
  simp only [quotes, List.mem_cons, List.not_mem_nil, or_false, not_or] at unquoted
  rcases place with ⟨_ | _ | _, depth⟩
  · simp only [next, unquoted, if_false, depthAfter_neutral neutral]
  · simp only [next, unquoted, if_false]
  · simp only [next, unquoted, if_false]

theorem after_of_isNeutral {text : List Char}
    (neutral : ∀ character ∈ text, isNeutral character = true) (place : Place) :
    place.after text = place := by
  induction text with
  | nil => rfl
  | cons character text hypothesis =>
      rcases List.forall_mem_cons.mp neutral with ⟨first, others⟩
      rw [after_cons, next_of_isNeutral first, hypothesis others]

/-- Blanks are neutral. -/
theorem after_blanks (place : Place) (blanks : Blanks) :
    place.after blanks.text = place :=
  place.after_of_isNeutral fun character member =>
    isNeutral_of_isOrdinary (isOrdinary_of_isBlank (blanks.blank character member))

/-- A double quote leads outside exactly from where double quotes alone are
open. -/
theorem next_quote_eq_outside_iff {place : Place} :
    place.next '"' = outside ↔ place = inDouble := by
  rcases place with ⟨_ | _ | _, depth⟩ <;> simp [next, outside, inDouble]

end Place

/-! ## Exposure -/

/-- The operators that a condition is searched for. -/
def operators : List (List Char) :=
  [orOperator, andOperator, differentOperator, equalOperator, membershipOperator]

/-- The operator stands in the text where nothing is open. -/
def Exposes (place : Place) (operator text : List Char) : Prop :=
  ∃ before rest, text = before ++ operator ++ rest ∧ place.after before = .outside

/-- The first exposed operator is looked for from a place on. -/
def Place.cut (place : Place) (operator text : List Char) :
    Option (List Char × List Char) :=
  cutTopLevel operator place.quoting place.depth text

/-- Cutting a text begins outside, so what is proved of cuts from any place holds
of it. -/
theorem cutAt_eq (operator text : List Char) :
    cutAt operator text = Place.outside.cut operator text :=
  rfl

section Operators

variable {operator text : List Char}

theorem ne_nil_of_mem_operators (member : operator ∈ operators) :
    operator ≠ [] := by
  revert operator
  decide

theorem not_mem_quotes_of_mem_operators (member : operator ∈ operators) :
    ∀ character ∈ operator, character ∉ quotes := by
  revert operator
  simp [operators, orOperator, andOperator, differentOperator, equalOperator,
    membershipOperator, quotes]

/-- An operator has a first character, which is no quote. -/
theorem exists_cons_of_mem_operators (member : operator ∈ operators) :
    ∃ first others, operator = first :: others ∧ first ∉ quotes := by
  cases operator with
  | nil => exact (ne_nil_of_mem_operators member rfl).elim
  | cons first others =>
      exact ⟨first, others, rfl,
        not_mem_quotes_of_mem_operators member first List.mem_cons_self⟩

theorem not_exposes_nil (member : operator ∈ operators) (place : Place) :
    ¬ Exposes place operator [] := by
  rintro ⟨before, rest, empty, -⟩
  rw [List.append_assoc, eq_comm, List.append_eq_nil_iff, List.append_eq_nil_iff]
    at empty
  exact ne_nil_of_mem_operators member empty.2.1

/-- An exposed operator stands at the front, or is exposed behind the first
character. -/
theorem exposes_cons_iff {place : Place} {character : Char} :
    Exposes place operator (character :: text) ↔
      (place = .outside ∧ operator <+: character :: text) ∨
        Exposes (place.next character) operator text := by
  constructor
  · rintro ⟨before, rest, whole, bare⟩
    cases before with
    | nil => exact .inl ⟨bare, rest, whole.symm⟩
    | cons first before =>
        rcases List.cons.inj whole with ⟨rfl, inner⟩
        exact .inr ⟨before, rest, inner, bare⟩
  · rintro (⟨rfl, rest, whole⟩ | ⟨before, rest, rfl, bare⟩)
    · exact ⟨[], rest, whole.symm, rfl⟩
    · exact ⟨character :: before, rest, rfl, bare⟩

/-- What follows holds no character of the operator. -/
theorem exposes_append_of_apart {more : List Char} (member : operator ∈ operators)
    (apart : ∀ character ∈ more, character ∉ operator) {place : Place} :
    Exposes place operator (text ++ more) ↔ Exposes place operator text := by
  constructor
  · rintro ⟨before, rest, whole, bare⟩
    rcases List.append_eq_append_iff.mp whole with
      ⟨excess, same, rfl⟩ | ⟨inner, same, -⟩
    · rcases List.eq_nil_or_concat excess with rfl | ⟨front, last, rfl⟩
      · exact ⟨before, [], by rw [List.append_nil, same, List.append_nil], bare⟩
      · -- The operator would end with a character of what follows.
        rcases List.eq_nil_or_concat operator with none | ⟨begin, final, rfl⟩
        · exact (ne_nil_of_mem_operators member none).elim
        · rw [List.concat_eq_append, List.concat_eq_append, ← List.append_assoc,
            ← List.append_assoc] at same
          rcases List.append_inj' same rfl with ⟨-, last⟩
          rcases List.singleton_inj.mp last with rfl
          exact (apart final (by simp) (by simp)).elim
    · exact ⟨before, inner, same, bare⟩
  · rintro ⟨before, rest, rfl, bare⟩
    exact ⟨before, rest ++ more, by simp only [List.append_assoc], bare⟩

/-! ## Searches -/

/-- The search in the same two steps: an operator at the front is found there, if
nothing is open, and any other one behind the first character. -/
theorem cut_cons (member : operator ∈ operators) (place : Place) (character : Char)
    (text : List Char) :
    place.cut operator (character :: text) =
      match if place = .outside then dropStart? operator (character :: text)
        else none with
      | some rest => some ([], rest)
      | none => ((place.next character).cut operator text).map fun parts =>
          (character :: parts.1, parts.2) := by
  rcases exists_cons_of_mem_operators member with ⟨first, others, rfl, unquoted⟩
  simp only [quotes, List.mem_cons, List.not_mem_nil, or_false, not_or] at unquoted
  rcases place with ⟨_ | _ | _, depth⟩
  · rw [Place.cut, cutTopLevel]
    simp only [Place.outside, Place.next, Place.mk.injEq, true_and]
    split
    · next single =>
        subst single
        simp [dropStart?, unquoted.1, Place.cut]
    · split
      · next double =>
          subst double
          simp [dropStart?, unquoted.2, Place.cut]
      · rfl
  · rw [Place.cut, cutTopLevel]
    simp [Place.outside, Place.next, Place.cut]
  · rw [Place.cut, cutTopLevel]
    simp [Place.outside, Place.next, Place.cut]

/-- The first step finds nothing exactly if no exposed operator stands at the
front. -/
theorem passed_iff {place : Place} :
    (if place = .outside then dropStart? operator text else none) = none ↔
      ¬ (place = .outside ∧ operator <+: text) := by
  split
  · next bare =>
      rw [← Option.not_isSome_iff_eq_none, isSome_dropStart?_iff]
      exact not_congr (and_iff_right bare).symm
  · next inside => exact iff_of_true rfl fun both => inside both.1

/-- A search finds an operator exactly if it is exposed. -/
theorem cut_eq_none_iff_exposes (member : operator ∈ operators) {place : Place} :
    place.cut operator text = none ↔ ¬ Exposes place operator text := by
  induction text generalizing place with
  | nil => exact iff_of_true rfl (not_exposes_nil member place)
  | cons character text hypothesis =>
      rw [exposes_cons_iff, not_or, ← hypothesis, cut_cons member]
      by_cases bare : place = .outside
      · rw [if_pos bare, ← isSome_dropStart?_iff]
        cases dropStart? operator (character :: text) <;> simp [bare]
      · simp [bare]

/-- A text is cut nowhere exactly if the operator is exposed nowhere in it. -/
theorem cutAt_eq_none_iff (member : operator ∈ operators) :
    cutAt operator text = none ↔ ¬ Exposes .outside operator text := by
  rw [cutAt_eq, cut_eq_none_iff_exposes member]

/-- Nothing is open in front of the operator that a search finds. -/
theorem after_of_cut {place : Place} {before rest : List Char}
    (member : operator ∈ operators)
    (found : place.cut operator text = some (before, rest)) :
    place.after before = .outside := by
  induction text generalizing place before with
  | nil => cases found
  | cons character text hypothesis =>
      rw [cut_cons member] at found
      split at found
      · next start =>
          cases found
          split at start
          · next bare => exact bare
          · cases start
      · rcases Option.map_eq_some_iff.mp found with ⟨⟨first, second⟩, inner, equal⟩
        cases equal
        have bare : (place.next character).after first = .outside :=
          hypothesis inner
        exact bare

/-- A search finds the operator where it is exposed first. -/
theorem length_le_of_cut {place : Place} {before rest other later : List Char}
    (member : operator ∈ operators)
    (found : place.cut operator text = some (before, rest))
    (whole : text = other ++ operator ++ later)
    (bare : place.after other = .outside) : before.length ≤ other.length := by
  induction text generalizing place before other with
  | nil => cases found
  | cons character text hypothesis =>
      rw [cut_cons member] at found
      split at found
      · cases found
        exact Nat.zero_le _
      · next missed =>
          rcases Option.map_eq_some_iff.mp found with
            ⟨⟨first, second⟩, inner, equal⟩
          cases equal
          cases other with
          | nil => exact (passed_iff.mp missed ⟨bare, later, whole.symm⟩).elim
          | cons head other =>
              rcases List.cons.inj whole with ⟨rfl, behind⟩
              exact Nat.succ_le_succ (hypothesis inner behind bare)

/-- What is found in a text is found in it whatever follows. -/
theorem cut_append_of_found {place : Place} {before rest : List Char}
    (member : operator ∈ operators)
    (found : place.cut operator text = some (before, rest)) (more : List Char) :
    place.cut operator (text ++ more) = some (before, rest ++ more) := by
  induction text generalizing place before with
  | nil => cases found
  | cons character text hypothesis =>
      rw [List.cons_append, cut_cons member]
      rw [cut_cons member] at found
      split at found
      · next start =>
          cases found
          split at start
          · next bare =>
              have begun :
                  character :: (text ++ more) = operator ++ (rest ++ more) := by
                rw [← List.append_assoc, ← eq_append_of_dropStart? start,
                  List.cons_append]
              rw [if_pos bare, begun, dropStart?_append]
          · cases start
      · next missed =>
          rcases Option.map_eq_some_iff.mp found with
            ⟨⟨first, second⟩, inner, equal⟩
          cases equal
          have passed :
              (if place = .outside then dropStart? operator
                (character :: (text ++ more))
              else none) = none := by
            rw [passed_iff] at missed ⊢
            rintro ⟨bare, begins⟩
            -- The operator is found further on, so there is room for it here.
            have room : operator.length ≤ (character :: text).length := by
              rw [eq_append_of_cutTopLevel inner]
              simp only [List.length_cons, List.length_append]
              omega
            exact missed ⟨bare, List.prefix_of_prefix_length_le begins
              (List.prefix_append (character :: text) more) room⟩
          rw [passed, hypothesis inner]
          rfl

/-- An operator is not found at the end of a text whose last character is no part
of it. -/
theorem rest_ne_nil_of_cutAt {before rest : List Char}
    (member : operator ∈ operators)
    (fenced : ∀ last ∈ text.getLast?, last ∉ operator)
    (found : cutAt operator text = some (before, rest)) : rest ≠ [] := by
  rintro rfl
  have whole : text = before ++ operator ++ [] := eq_append_of_cutTopLevel found
  rcases List.eq_nil_or_concat operator with none | ⟨front, last, rfl⟩
  · exact ne_nil_of_mem_operators member none
  · refine fenced last ?_ (by simp)
    rw [whole, List.append_nil, List.concat_eq_append, ← List.append_assoc,
      List.getLast?_concat]
    rfl

/-- A search passes over a text in which the operator is not exposed and whose
last character is no part of the operator. -/
theorem cut_append (member : operator ∈ operators) {place : Place}
    (hidden : ¬ Exposes place operator text)
    (fenced : ∀ last ∈ text.getLast?, last ∉ operator) (rest : List Char) :
    place.cut operator (text ++ rest) =
      ((place.after text).cut operator rest).map fun parts =>
        (text ++ parts.1, parts.2) := by
  induction text generalizing place with
  | nil => exact Option.map_id'.symm
  | cons character text hypothesis =>
      rw [exposes_cons_iff, not_or] at hidden
      rcases hidden with ⟨missed, later⟩
      have passed :
          (if place = .outside then dropStart? operator
            (character :: (text ++ rest))
          else none) = none := by
        rw [passed_iff]
        rintro ⟨bare, begins⟩
        -- An operator that begins here would end within the text or reach over
        -- its last character.
        rcases List.prefix_or_prefix_of_prefix begins
            (List.prefix_append (character :: text) rest) with
          inside | beyond
        · exact missed ⟨bare, inside⟩
        · have last := List.getLast_mem (List.cons_ne_nil character text)
          exact fenced _ (List.getLast?_eq_some_getLast _) (beyond.mem last)
      have further : ∀ last ∈ text.getLast?, last ∉ operator := by
        intro last final
        refine fenced last ?_
        rw [List.getLast?_cons, Option.mem_def.mp final]
        rfl
      rw [List.cons_append, cut_cons member, passed, hypothesis later further,
        Option.map_map]
      rfl

end Operators

end RequestFlow.Condition
