import RequestFlow.Scope

/-!
# Templates

A template is a text with markers: a name between double braces.  `segments`
divides a text into literals and markers without knowledge of any scope, and
`fill` replaces each marker by the value of its name.  A marker without a value
and an opening without an end stay as they are, and a value that is put in is not
read again.
-/

namespace RequestFlow.Template

/-- What opens a marker. -/
def opening : List Char := ['{', '{']

/-- What closes a marker. -/
def closing : List Char := ['}', '}']

/-- A part of a template. -/
inductive Segment where
  | literal (text : List Char)
  /-- What stands between an opening and the next closing. -/
  | marker (inner : List Char)
  deriving DecidableEq

/-- The text of a segment. -/
def Segment.source : Segment → List Char
  | literal text => text
  | marker inner => opening ++ inner ++ closing

/-- The text of a segment once its name is looked up. -/
def Segment.fill (scope : Scope) : Segment → List Char
  | literal text => text
  | marker inner =>
      match scope.lookup (String.ofList inner) with
      | some value => value.toList
      | none => opening ++ inner ++ closing

theorem length_lt_of_cut {text before after inner rest : List Char}
    (opened : Text.cut opening text = some (before, after))
    (closed : Text.cut closing after = some (inner, rest)) :
    rest.length < text.length := by
  have first := Text.eq_append_of_cut opened
  have second := Text.eq_append_of_cut closed
  subst first second
  simp only [List.length_append, opening, closing, List.length_cons,
    List.length_nil]
  omega

/-- The segments of a template, from left to right. -/
def segments (text : List Char) : List Segment :=
  match opened : Text.cut opening text with
  | none => [.literal text]
  | some (before, after) =>
      match closed : Text.cut closing after with
      | none => [.literal text]
      | some (inner, rest) =>
          have := length_lt_of_cut opened closed
          .literal before :: .marker inner :: segments rest
termination_by text.length

/-- The template with its markers replaced. -/
def fill (scope : Scope) (template : String) : String :=
  String.ofList ((segments template.toList).flatMap (Segment.fill scope))

/-- The segments put together are the template. -/
theorem flatMap_source_segments (text : List Char) :
    (segments text).flatMap Segment.source = text := by
  fun_induction segments text with
  | case1 text => simp [Segment.source]
  | case2 text => simp [Segment.source]
  | case3 text before after opened inner rest closed _ hypothesis =>
      rw [List.flatMap_cons, List.flatMap_cons, hypothesis]
      simp [Segment.source, Text.eq_append_of_cut opened,
        Text.eq_append_of_cut closed]

end RequestFlow.Template
