/-!
# Searching in a text

`dropStart?` takes a given beginning off a text, `cut` divides a text at the first
place where a pattern occurs.  The main statements say that both only take the
text apart: what they return is the text again when it is put together.
-/

namespace RequestFlow.Text

/-- What follows `start`, if the text begins with it. -/
def dropStart? : List Char → List Char → Option (List Char)
  | [], text => some text
  | _ :: _, [] => none
  | wanted :: start, character :: text =>
      if wanted = character then dropStart? start text else none

/-- What precedes `ending`, if the text ends with it. -/
def dropEnd? (ending text : List Char) : Option (List Char) :=
  (dropStart? ending.reverse text.reverse).map List.reverse

/-- The text begins with `start`. -/
def startsWith (start text : List Char) : Bool :=
  (dropStart? start text).isSome

theorem eq_append_of_dropStart? {start text rest : List Char}
    (found : dropStart? start text = some rest) : text = start ++ rest := by
  fun_induction dropStart? start text with
  | case1 text => simpa using found
  | case2 => simp at found
  | case3 wanted start text hypothesis => simp [hypothesis found]
  | case4 => simp at found

@[simp] theorem dropStart?_append (start rest : List Char) :
    dropStart? start (start ++ rest) = some rest := by
  induction start with
  | nil => simp [dropStart?]
  | cons wanted start hypothesis => simp [dropStart?, hypothesis]

theorem eq_append_of_dropEnd? {ending text rest : List Char}
    (found : dropEnd? ending text = some rest) : text = rest ++ ending := by
  obtain ⟨reversed, start, rfl⟩ := Option.map_eq_some_iff.1 found
  have whole := congrArg List.reverse (eq_append_of_dropStart? start)
  simpa using whole

@[simp] theorem dropEnd?_append (text ending : List Char) :
    dropEnd? ending (text ++ ending) = some text := by
  simp [dropEnd?]

/-- What stands before the first mark, and what stands behind it. -/
theorem eq_of_append_cons {Item : Type} {left right first second : List Item}
    {mark : Item} (outside : mark ∉ left) (outside' : mark ∉ right)
    (equal : left ++ mark :: first = right ++ mark :: second) :
    left = right ∧ first = second := by
  rcases List.append_eq_append_iff.mp equal with
    ⟨middle, rfl, rest⟩ | ⟨middle, rfl, rest⟩
  · cases middle with
    | nil =>
        rw [List.nil_append] at rest
        exact ⟨(List.append_nil _).symm, (List.cons.inj rest).2⟩
    | cons item middle =>
        rcases (List.cons.inj rest).1 with rfl
        exact (outside' (List.mem_append_right _ List.mem_cons_self)).elim
  · cases middle with
    | nil =>
        rw [List.nil_append] at rest
        exact ⟨List.append_nil _, (List.cons.inj rest).2.symm⟩
    | cons item middle =>
        rcases (List.cons.inj rest).1 with rfl
        exact (outside (List.mem_append_right _ List.mem_cons_self)).elim

/-- The text before and after the first occurrence of `pattern`. -/
def cut (pattern : List Char) : List Char → Option (List Char × List Char)
  | [] => if pattern.isEmpty then some ([], []) else none
  | character :: text =>
      match dropStart? pattern (character :: text) with
      | some rest => some ([], rest)
      | none => (cut pattern text).map fun parts => (character :: parts.1, parts.2)

theorem eq_append_of_cut {pattern text before rest : List Char}
    (found : cut pattern text = some (before, rest)) :
    text = before ++ pattern ++ rest := by
  induction text generalizing before with
  | nil =>
      simp only [cut] at found
      split at found
      · simp_all [List.isEmpty_iff]
      · simp at found
  | cons character text hypothesis =>
      simp only [cut] at found
      split at found
      · next start =>
          simp only [Option.some.injEq, Prod.mk.injEq] at found
          obtain ⟨rfl, rfl⟩ := found
          simpa using eq_append_of_dropStart? start
      · obtain ⟨parts, inner, equal⟩ := Option.map_eq_some_iff.1 found
        obtain ⟨first, second⟩ := parts
        simp only [Prod.mk.injEq] at equal
        obtain ⟨rfl, rfl⟩ := equal
        simp [hypothesis inner]

/-- The pattern occurs in the text. -/
def contains (text pattern : List Char) : Bool :=
  (cut pattern text).isSome

/-- The pieces of a text between the characters that satisfy `separator`. -/
def splitAt (separator : Char → Bool) : List Char → List (List Char)
  | [] => [[]]
  | character :: text =>
      match splitAt separator text with
      | [] => [[character]]
      | piece :: pieces =>
          if separator character then [] :: piece :: pieces
          else (character :: piece) :: pieces

theorem splitAt_ne_nil (separator : Char → Bool) (text : List Char) :
    splitAt separator text ≠ [] := by
  cases text with
  | nil => simp [splitAt]
  | cons character text =>
      simp only [splitAt]
      split
      · simp
      · split <;> simp

/-- The first piece ends with the text, or at a separator behind which the other
pieces begin. -/
theorem eq_append_of_splitAt {separator : Char → Bool} {text piece : List Char}
    {pieces : List (List Char)}
    (split : splitAt separator text = piece :: pieces) :
    (pieces = [] ∧ text = piece) ∨
      ∃ character later, separator character = true ∧
        text = piece ++ character :: later ∧ splitAt separator later = pieces := by
  induction text generalizing piece pieces with
  | nil =>
      cases split
      exact .inl ⟨rfl, rfl⟩
  | cons character text hypothesis =>
      cases inner : splitAt separator text with
      | nil => exact (splitAt_ne_nil _ _ inner).elim
      | cons first others =>
          simp only [splitAt, inner] at split
          split at split
          · next separates =>
              cases split
              exact .inr ⟨character, text, separates, rfl, inner⟩
          · cases split
            rcases hypothesis inner with
              ⟨rfl, rfl⟩ | ⟨other, later, separates, rfl, rest⟩
            · exact .inl ⟨rfl, rfl⟩
            · exact .inr ⟨other, later, separates, rfl, rest⟩

/-- A text with a separator in it falls into the pieces in front of it and those
behind it. -/
theorem splitAt_append_cons {separator : Char → Bool} {mark : Char}
    (separates : separator mark = true) (front rest : List Char) :
    splitAt separator (front ++ mark :: rest) =
      splitAt separator front ++ splitAt separator rest := by
  induction front with
  | nil =>
      cases pieces : splitAt separator rest with
      | nil => exact (splitAt_ne_nil _ _ pieces).elim
      | cons piece others => simp [splitAt, pieces, separates]
  | cons character front hypothesis =>
      cases pieces : splitAt separator front with
      | nil => exact (splitAt_ne_nil _ _ pieces).elim
      | cons piece others =>
          simp only [List.cons_append, splitAt, hypothesis, pieces]
          split <;> rfl

/-- A text without separators is one piece. -/
theorem splitAt_eq_singleton {separator : Char → Bool} {text : List Char}
    (whole : ∀ character ∈ text, separator character = false) :
    splitAt separator text = [text] := by
  cases pieces : splitAt separator text with
  | nil => exact (splitAt_ne_nil _ _ pieces).elim
  | cons piece others =>
      rcases eq_append_of_splitAt pieces with
        ⟨rfl, rfl⟩ | ⟨mark, later, separates, rfl, -⟩
      · rfl
      · have kept := whole mark (List.mem_append_right _ List.mem_cons_self)
        exact (Bool.false_ne_true (kept.symm.trans separates)).elim

/-- No separator is left in a piece. -/
theorem not_separator_of_mem_splitAt {separator : Char → Bool}
    {text piece : List Char} (member : piece ∈ splitAt separator text) :
    ∀ character ∈ piece, separator character = false := by
  induction text generalizing piece with
  | nil =>
      rcases List.mem_singleton.mp member with rfl
      exact fun _ inside => (List.not_mem_nil inside).elim
  | cons first text hypothesis =>
      cases pieces : splitAt separator text with
      | nil => exact (splitAt_ne_nil _ _ pieces).elim
      | cons head others =>
          rw [pieces] at hypothesis
          simp only [splitAt, pieces] at member
          split at member
          · rcases List.mem_cons.mp member with rfl | member
            · exact fun _ inside => (List.not_mem_nil inside).elim
            · exact hypothesis member
          · next whole =>
              rcases List.mem_cons.mp member with rfl | member
              · rw [List.forall_mem_cons]
                exact ⟨Bool.eq_false_iff.mpr whole, hypothesis List.mem_cons_self⟩
              · exact hypothesis (List.mem_cons_of_mem _ member)

end RequestFlow.Text
