import RequestFlow.Proofs.Occurrences
import RequestFlow.Proofs.Precedence

/-!
# Markers and what replaces them

A template is divided into literals and markers by its braces alone.  Main
statement: there is exactly one such division, whatever the variables are, and the
filled template is the division with each marker replaced by the value of its
name, or left as it is.  A value is not read again where it was put in, and if no
value has an opening brace then filling once more changes nothing.
-/

namespace RequestFlow.Template

open RequestFlow.Text

/-! ## Divisions -/

/-- A division of a text: a marker goes from the next opening to the first closing
behind it; what stands between markers is literal, and so is all the rest from an
opening that is not closed. -/
inductive Divides : List Char → List Segment → Prop where
  | unopened {text : List Char} (absent : ¬ opening <:+: text) :
      Divides text [.literal text]
  | unclosed {text before after : List Char}
      (opens : FirstCut opening text before after)
      (absent : ¬ closing <:+: after) : Divides text [.literal text]
  | marked {text before after inner rest : List Char} {parts : List Segment}
      (opens : FirstCut opening text before after)
      (closes : FirstCut closing after inner rest) (others : Divides rest parts) :
      Divides text (.literal before :: .marker inner :: parts)

section Segments

variable {text before after inner rest : List Char}

/-- The three equations of the division, one for each way a text goes on. -/
theorem segments_of_unopened (unopened : cut opening text = none) :
    segments text = [.literal text] := by
  rw [segments]
  split
  · rfl
  · next opened => cases opened.symm.trans unopened

theorem segments_of_unclosed (opened : cut opening text = some (before, after))
    (unclosed : cut closing after = none) : segments text = [.literal text] := by
  rw [segments]
  split
  · rfl
  · next found =>
      cases found.symm.trans opened
      split
      · rfl
      · next closed => cases closed.symm.trans unclosed

theorem segments_of_marked (opened : cut opening text = some (before, after))
    (closed : cut closing after = some (inner, rest)) :
    segments text = .literal before :: .marker inner :: segments rest := by
  rw [segments]
  split
  · next unopened => cases unopened.symm.trans opened
  · next found =>
      cases found.symm.trans opened
      split
      · next unclosed => cases unclosed.symm.trans closed
      · next found =>
          cases found.symm.trans closed
          rfl

end Segments

/-- What the program divides a text into is a division of it. -/
theorem divides_segments (text : List Char) : Divides text (segments text) := by
  fun_induction segments text with
  | case1 text unopened => exact .unopened (cut_eq_none_iff.mp unopened)
  | case2 text before after opened unclosed =>
      exact .unclosed (cut_eq_some_iff.mp opened) (cut_eq_none_iff.mp unclosed)
  | case3 text before after opened inner rest closed _ hypothesis =>
      exact .marked (cut_eq_some_iff.mp opened) (cut_eq_some_iff.mp closed)
        hypothesis

/-- A text has one division. -/
theorem divides_iff {text : List Char} {parts : List Segment} :
    Divides text parts ↔ parts = segments text := by
  constructor
  · intro divides
    induction divides with
    | unopened absent =>
        exact (segments_of_unopened (cut_eq_none_iff.mpr absent)).symm
    | unclosed opens absent =>
        exact (segments_of_unclosed (cut_eq_some_iff.mpr opens)
          (cut_eq_none_iff.mpr absent)).symm
    | marked opens closes others hypothesis =>
        rw [segments_of_marked (cut_eq_some_iff.mpr opens)
            (cut_eq_some_iff.mpr closes), hypothesis]
  · rintro rfl
    exact divides_segments text

/-! ## Replacing -/

/-- What stands for a segment in the filled template: a literal as it is, a marker
as the value of the name in it, blanks around the name left out, and as it is if
the name has no value. -/
def Segment.put (scope : Scope) : Segment → List Char
  | literal text => text
  | marker inner =>
      ((scope.lookup (trimmed (String.ofList inner))).map String.toList).getD
        (opening ++ inner ++ closing)

theorem Segment.put_of_named {scope : Scope} {inner : List Char} {value : String}
    (named : scope.lookup (trimmed (String.ofList inner)) = some value) :
    (marker inner).put scope = value.toList := by
  rw [put, named, Option.map_some, Option.getD_some]

/-- A marker without a value is written back as it stood, blanks included. -/
theorem Segment.put_of_unnamed {scope : Scope} {inner : List Char}
    (unnamed : scope.lookup (trimmed (String.ofList inner)) = none) :
    (marker inner).put scope = opening ++ inner ++ closing := by
  rw [put, unnamed, Option.map_none, Option.getD_none]

theorem Segment.fill_eq_put (scope : Scope) :
    Segment.fill scope = Segment.put scope := by
  funext segment
  cases segment with
  | literal text => rfl
  | marker inner =>
      rw [fill, put, Scope.lookup_trimmed]
      cases scope.lookup (String.ofList inner) <;> rfl

/-- The text with its markers replaced. -/
def replaced (scope : Scope) (text : List Char) : List Char :=
  (segments text).flatMap (Segment.put scope)

/-- Filling a template puts its segments in their places. -/
theorem toList_fill (scope : Scope) (template : String) :
    (fill scope template).toList = replaced scope template.toList := by
  rw [fill, String.toList_ofList, Segment.fill_eq_put, replaced]

section Replaced

variable {scope : Scope} {text before after inner rest : List Char}

/-- Replacing follows the division, with the same three equations. -/
theorem replaced_of_unopened (unopened : cut opening text = none) :
    replaced scope text = text := by
  rw [replaced, segments_of_unopened unopened, List.flatMap_singleton, Segment.put]

theorem replaced_of_unclosed (opened : cut opening text = some (before, after))
    (unclosed : cut closing after = none) : replaced scope text = text := by
  rw [replaced, segments_of_unclosed opened unclosed, List.flatMap_singleton,
    Segment.put]

theorem replaced_of_marked (opened : cut opening text = some (before, after))
    (closed : cut closing after = some (inner, rest)) :
    replaced scope text =
      before ++ ((Segment.marker inner).put scope ++ replaced scope rest) := by
  rw [replaced, segments_of_marked opened closed, List.flatMap_cons,
    List.flatMap_cons, replaced, Segment.put]

end Replaced

/-- Goes through what remains of a template once, from left to right, and writes
what comes of it behind what is already written. -/
def pass (scope : Scope) (written remaining : List Char) : List Char :=
  match opened : cut opening remaining with
  | none => written ++ remaining
  | some (before, after) =>
      match closed : cut closing after with
      | none => written ++ before ++ (opening ++ after)
      | some (inner, rest) =>
          have := length_lt_of_cut opened closed
          pass scope (written ++ before ++ (Segment.marker inner).put scope) rest
termination_by remaining.length

/-- One pass over a template writes the text with its markers replaced. -/
theorem pass_eq (scope : Scope) (written remaining : List Char) :
    pass scope written remaining = written ++ replaced scope remaining := by
  fun_induction pass scope written remaining with
  | case1 written remaining unopened => rw [replaced_of_unopened unopened]
  | case2 written remaining before after opened unclosed =>
      rw [replaced_of_unclosed opened unclosed, eq_append_of_cut opened]
      simp only [List.append_assoc]
  | case3 written remaining before after opened inner rest closed _ hypothesis =>
      rw [hypothesis, replaced_of_marked opened closed]
      simp only [List.append_assoc]

/-! ## Filling once more -/

/-- The values that markers of the text are replaced by have no opening brace. -/
def Unbraced (scope : Scope) (text : List Char) : Prop :=
  ∀ inner, .marker inner ∈ segments text →
    ∀ value, scope.lookup (trimmed (String.ofList inner)) = some value →
      '{' ∉ value.toList

section Again

variable {scope : Scope} {text before after inner rest front : List Char}

/-- The value of the first marker of an unbraced text brings no opening brace. -/
theorem Unbraced.value (unbraced : Unbraced scope text)
    (opened : cut opening text = some (before, after))
    (closed : cut closing after = some (inner, rest)) {value : String}
    (named : scope.lookup (trimmed (String.ofList inner)) = some value) :
    '{' ∉ value.toList := by
  refine unbraced inner ?_ value named
  rw [segments_of_marked opened closed]
  exact List.mem_cons_of_mem _ List.mem_cons_self

/-- What is behind the first marker is unbraced too. -/
theorem Unbraced.later (unbraced : Unbraced scope text)
    (opened : cut opening text = some (before, after))
    (closed : cut closing after = some (inner, rest)) : Unbraced scope rest := by
  intro other member
  refine unbraced other ?_
  rw [segments_of_marked opened closed]
  exact List.mem_cons_of_mem _ (List.mem_cons_of_mem _ member)

/-- A marker whose name has no value is found again and left as it is. -/
theorem replaced_of_unnamed (passed : PassedBy '{' front)
    (closed : cut closing after = some (inner, rest))
    (unnamed : scope.lookup (trimmed (String.ofList inner)) = none)
    (more : List Char) :
    replaced scope (front ++ (opening ++ inner ++ closing ++ more)) =
      front ++ (opening ++ inner ++ closing ++ replaced scope more) := by
  have opens : cut opening (front ++ opening ++ (inner ++ closing ++ more)) =
      some (front, inner ++ closing ++ more) :=
    passed.cut_append _
  have closes : cut closing (inner ++ closing ++ more) = some (inner, more) :=
    (PassedBy.of_cut closed).cut_append _
  have again : replaced scope _ = _ := replaced_of_marked opens closes
  rw [Segment.put_of_unnamed unnamed] at again
  simpa only [List.append_assoc] using again

/-- Replacing once more changes nothing, whatever stands in front that a search
for an opening passes over. -/
theorem replaced_replaced (unbraced : Unbraced scope text)
    (passed : PassedBy '{' front) :
    replaced scope (front ++ replaced scope text) =
      front ++ replaced scope text := by
  -- A value that was put in joins the literals around it, so they are in front of
  -- what is left.
  induction text using segments.induct generalizing front with
  | case1 text unopened =>
      have still : cut opening (front ++ text) = none := by
        rw [opening] at unopened ⊢
        rw [passed, unopened, Option.map_none]
      rw [replaced_of_unopened unopened, replaced_of_unopened still]
  | case2 text before after opened unclosed =>
      have still :
          cut opening (front ++ text) = some (front ++ before, after) := by
        rw [opening] at opened ⊢
        rw [passed, opened, Option.map_some]
      rw [replaced_of_unclosed opened unclosed,
        replaced_of_unclosed still unclosed]
  | case3 text before after opened inner rest closed _ hypothesis =>
      have later := unbraced.later opened closed
      have ahead : PassedBy '{' (front ++ before) := passed.append (.of_cut opened)
      rw [replaced_of_marked opened closed, ← List.append_assoc]
      cases named : scope.lookup (trimmed (String.ofList inner)) with
      | some value =>
          have plain := unbraced.value opened closed named
          rw [Segment.put_of_named named, ← List.append_assoc]
          exact hypothesis later (ahead.append (.of_not_mem plain))
      | none =>
          have others :
              replaced scope (replaced scope rest) = replaced scope rest :=
            hypothesis later .nil
          rw [Segment.put_of_unnamed named, replaced_of_unnamed ahead closed named,
            others]

end Again

/-- A template has one division into literals and markers, whatever the variables
are.  Under any variables one pass from left to right writes the division with
each marker replaced by the value of its name, if it has one; and if the values
that are put in have no opening brace, then the filled template is left as it is
when it is filled again. -/
theorem fill_by_division (template : String) :
    ∃ parts, (∀ others, Divides template.toList others ↔ others = parts) ∧
      ∀ scope : Scope,
        (fill scope template).toList = pass scope [] template.toList ∧
        (fill scope template).toList = parts.flatMap (Segment.put scope) ∧
        (Unbraced scope template.toList →
          fill scope (fill scope template) = fill scope template) := by
  refine ⟨segments template.toList, fun others => divides_iff, ?_⟩
  intro scope
  refine ⟨(toList_fill scope template).trans (pass_eq scope [] _).symm,
    toList_fill scope template, ?_⟩
  intro unbraced
  apply String.toList_injective
  rw [toList_fill, toList_fill]
  exact replaced_replaced unbraced PassedBy.nil

/-- A value with an opening brace can open a marker together with what follows
it. -/
example :
    let scope : Scope := .ofList [("a", "\x7b"), ("b", "value")]
    fill scope "\x7b\x7ba\x7d\x7d\x7bb\x7d\x7d" = "\x7b\x7bb\x7d\x7d" ∧
      fill scope (fill scope "\x7b\x7ba\x7d\x7d\x7bb\x7d\x7d") = "value" := by
  decide +kernel

end RequestFlow.Template
