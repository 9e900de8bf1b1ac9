import RequestFlow.Proofs.Matching

/-!
# The lines of a report

A report is written with a line for each result, those of a step behind those of
the steps before it. What documents, scripts and transports say is shown as it is.
Main statement: the lines of the text are those of the results in the order of the
steps, where the results of a step keep their order, and none is lost or written
twice; but a line is broken wherever something that it shows has a line feed, so
that there are as many lines as results exactly if nothing that is shown has one.
-/

namespace RequestFlow

/-! ## Pieces between line feeds -/

namespace Text

section Pieces

variable {separator : Char → Bool} {mark : Char}

/-- A text has one piece more than separators. -/
theorem length_splitAt (text : List Char) :
    (splitAt separator text).length = text.countP separator + 1 := by
  induction text with
  | nil => rfl
  | cons character text hypothesis =>
      cases pieces : splitAt separator text with
      | nil => exact (splitAt_ne_nil _ _ pieces).elim
      | cons piece others =>
          rw [pieces] at hypothesis
          simp only [splitAt, pieces, List.countP_cons]
          split <;> simpa using hypothesis

/-- What is written with a mark behind each line falls into the pieces of the
lines, and nothing is left behind the last mark. -/
theorem splitAt_flatMap (separates : separator mark = true)
    (lines : List (List Char)) :
    splitAt separator (lines.flatMap (· ++ [mark])) =
      lines.flatMap (splitAt separator) ++ [[]] := by
  induction lines with
  | nil => rfl
  | cons line lines hypothesis =>
      rw [List.flatMap_cons, List.append_assoc, List.singleton_append,
        splitAt_append_cons separates, hypothesis, List.flatMap_cons,
        List.append_assoc]

/-- Each line falls into one piece more than it has marks. -/
theorem length_flatMap_splitAt (lines : List (List Char)) :
    (lines.flatMap (splitAt separator)).length =
      lines.length + lines.flatten.countP separator := by
  induction lines with
  | nil => rfl
  | cons line lines hypothesis =>
      rw [List.flatMap_cons, List.length_append, hypothesis, length_splitAt,
        List.length_cons, List.flatten_cons, List.countP_append]
      omega

/-- Lines are their own pieces exactly if no mark stands in them. -/
theorem flatMap_splitAt_eq_self_iff {lines : List (List Char)} :
    lines.flatMap (splitAt separator) = lines ↔
      ∀ line ∈ lines, line.countP separator = 0 := by
  constructor
  · intro same line member
    have length := congrArg List.length same
    rw [length_flatMap_splitAt, Nat.add_eq_left, List.countP_eq_zero] at length
    exact List.countP_eq_zero.mpr fun character inside =>
      length character (List.mem_flatten_of_mem member inside)
  · intro none
    induction lines with
    | nil => rfl
    | cons line lines hypothesis =>
        rw [List.forall_mem_cons, List.countP_eq_zero] at none
        have whole : ∀ character ∈ line, separator character = false :=
          fun character inside => Bool.eq_false_iff.mpr (none.1 character inside)
        rw [List.flatMap_cons, splitAt_eq_singleton whole, hypothesis none.2]
        rfl

end Pieces

/-- A line feed. -/
def isLineFeed (character : Char) : Bool :=
  character == '\n'

/-- The number of line feeds in a text. -/
def lineFeeds (text : String) : Nat :=
  text.toList.countP isLineFeed

/-- A text is on one line exactly if it has no line feed. -/
theorem lineFeeds_eq_zero_iff {text : String} :
    lineFeeds text = 0 ↔ '\n' ∉ text.toList := by
  rw [lineFeeds, List.countP_eq_zero]
  constructor
  · exact fun none member => none '\n' member rfl
  · intro none character member feed
    rw [isLineFeed, beq_iff_eq] at feed
    exact none (feed ▸ member)

@[simp] theorem lineFeeds_append (left right : String) :
    lineFeeds (left ++ right) = lineFeeds left + lineFeeds right := by
  simp [lineFeeds]

@[simp] theorem lineFeeds_repr (number : Nat) : lineFeeds number.repr = 0 := by
  rw [lineFeeds_eq_zero_iff, Nat.toList_repr]
  exact not_mem_toDigits rfl number

end Text

open Text

/-! ## What a line shows -/

/-- The free texts that the line of a result shows. -/
def StepResult.freeText (result : StepResult) : String :=
  result.stepLabel ++ result.branch.getD "" ++ result.statusText ++
    result.message.getD ""

/-- The label of a result has the line feeds of its step and of its branch; an
iteration is numbers only. -/
theorem lineFeeds_fullLabel (label : String) (branch : Option String)
    (iteration : Option Iteration) :
    lineFeeds (fullLabel label branch iteration) =
      lineFeeds label + lineFeeds (branch.getD "") := by
  have arrow : lineFeeds " → " = 0 := by decide
  have shown :
      lineFeeds ((branch.map (" → " ++ ·)).getD "") =
        lineFeeds (branch.getD "") := by
    cases branch with
    | none => rfl
    | some branch => simp [arrow]
  have place :
      lineFeeds ((iteration.map fun place => s!" ({place.text})").getD "") =
        0 := by
    cases iteration with
    | none => rfl
    | some place =>
        simp [Iteration.text, toString]
        decide
  rw [fullLabel, lineFeeds_append, lineFeeds_append, shown, place, Nat.add_zero]

namespace Report

theorem lineFeeds_barred (text : String) :
    lineFeeds (barred text) = lineFeeds text := by
  have bar : lineFeeds " | " = 0 := by decide
  simp [barred, toString, bar]

/-- The line of a result has the line feeds of what it shows and no other ones. -/
theorem lineFeeds_line (totalSteps : Nat) (result : StepResult) :
    lineFeeds (line totalSteps result) = lineFeeds result.freeText := by
  have marked : lineFeeds result.status.mark = 0 := by
    cases result.status <;> decide
  have place :
      lineFeeds s!"[{result.status.mark}] {result.stepIndex + 1}/{totalSteps} " =
        0 := by
    simp [toString, marked]
    decide
  have status :
      lineFeeds
          (if result.statusText.isEmpty then "" else barred result.statusText) =
        lineFeeds result.statusText := by
    split
    · next empty => rw [String.isEmpty_iff.mp empty]
    · exact lineFeeds_barred _
  have duration :
      lineFeeds
          (if 0 < result.duration then barred s!"{result.duration}ms" else "") =
        0 := by
    split
    · simp [lineFeeds_barred, toString]
      decide
    · rfl
  have message :
      lineFeeds ((result.message.map barred).getD "") =
        lineFeeds (result.message.getD "") := by
    cases result.message with
    | none => rfl
    | some message => exact lineFeeds_barred message
  have begins :
      line totalSteps result =
        s!"[{result.status.mark}] {result.stepIndex + 1}/{totalSteps} " ++
          result.displayLabel ++
          (if result.statusText.isEmpty then "" else barred result.statusText) ++
          (if 0 < result.duration then barred s!"{result.duration}ms" else "") ++
          (result.message.map barred).getD "" :=
    rfl
  rw [begins, lineFeeds_append, lineFeeds_append, lineFeeds_append,
    lineFeeds_append, place, status, duration, message, StepResult.displayLabel,
    lineFeeds_fullLabel]
  simp only [StepResult.freeText, lineFeeds_append]
  omega

/-! ## The order of the lines -/

variable (report : Report)

/-- Ordering a report loses no result and adds none. -/
theorem ordered_perm : report.ordered.Perm report.results :=
  List.mergeSort_perm _ _

theorem inOrder_trans (first second third : StepResult)
    (before : decide (first.stepIndex ≤ second.stepIndex) = true)
    (after : decide (second.stepIndex ≤ third.stepIndex) = true) :
    decide (first.stepIndex ≤ third.stepIndex) = true :=
  decide_eq_true
    (Nat.le_trans (of_decide_eq_true before) (of_decide_eq_true after))

theorem inOrder_total (left right : StepResult) :
    (decide (left.stepIndex ≤ right.stepIndex) ||
        decide (right.stepIndex ≤ left.stepIndex)) = true := by
  simpa using Nat.le_total left.stepIndex right.stepIndex

/-- Its results come in the order of their steps. -/
theorem ordered_pairwise :
    report.ordered.Pairwise fun left right => left.stepIndex ≤ right.stepIndex :=
  (List.pairwise_mergeSort inOrder_trans inOrder_total report.results).imp
    of_decide_eq_true

/-- The results of a step keep the order in which they were recorded. -/
theorem filter_ordered (step : Nat) :
    report.ordered.filter (·.stepIndex = step) =
      report.results.filter (·.stepIndex = step) := by
  have level :
      (report.results.filter (·.stepIndex = step)).Pairwise fun left right =>
      decide (left.stepIndex ≤ right.stepIndex) = true := by
    refine List.pairwise_of_forall_mem_list fun left member right member' => ?_
    rw [of_decide_eq_true (List.mem_filter.mp member).2,
      of_decide_eq_true (List.mem_filter.mp member').2]
    exact decide_eq_true (Nat.le_refl step)
  have kept :
      (report.results.filter (·.stepIndex = step)).Sublist report.ordered :=
    List.sublist_mergeSort inOrder_trans inOrder_total level List.filter_sublist
  have within := kept.filter (·.stepIndex = step)
  rw [List.filter_filter, funext fun result => Bool.and_self _] at within
  exact (within.eq_of_length (report.ordered_perm.filter _).length_eq.symm).symm

/-! ## The text -/

/-- The text of a report is the line of each result with a line feed behind it. -/
theorem toList_text :
    report.text.toList =
      (report.ordered.map fun result =>
        (line report.totalSteps result).toList).flatMap (· ++ ['\n']) := by
  simp [text, List.flatMap_map]

/-- The text has the lines of the results by step, those of a step in order of
recording, with nothing behind the last of them.  A line is broken at the line
feeds of what it shows, so that there are as many more lines than results as there
are such line feeds, and each result has its one line exactly if there are
none. -/
theorem lines_of_text :
    let shown (result : StepResult) : List Char :=
      (line report.totalSteps result).toList
    let pieces := splitAt isLineFeed report.text.toList
    (report.ordered.Perm report.results ∧
      (report.ordered.Pairwise fun left right =>
        left.stepIndex ≤ right.stepIndex) ∧
      ∀ step,
        report.ordered.filter (·.stepIndex = step) =
          report.results.filter (·.stepIndex = step)) ∧
    pieces =
      report.ordered.flatMap (fun result => splitAt isLineFeed (shown result)) ++
        [[]] ∧
    pieces.length =
      report.results.length +
        (report.results.flatMap fun result => result.freeText.toList).countP
          isLineFeed + 1 ∧
    (pieces = report.ordered.map shown ++ [[]] ↔
      ∀ result ∈ report.results, '\n' ∉ result.freeText.toList) := by
  intro shown pieces
  have broken :
      pieces =
        (report.ordered.map shown).flatMap (splitAt isLineFeed) ++ [[]] := by
    rw [← splitAt_flatMap (show isLineFeed '\n' = true from rfl), ← toList_text]
  have count (result : StepResult) :
      (shown result).countP isLineFeed =
        result.freeText.toList.countP isLineFeed :=
    lineFeeds_line report.totalSteps result
  refine ⟨⟨report.ordered_perm, report.ordered_pairwise, report.filter_ordered⟩,
    ?_, ?_, ?_⟩
  · rw [broken, List.flatMap_map]
  · have feeds :
        (report.ordered.map shown).flatten.countP isLineFeed =
          (report.ordered.flatMap fun result => result.freeText.toList).countP
            isLineFeed := by
      rw [← List.flatMap_def, List.countP_flatMap, List.countP_flatMap]
      simp only [Function.comp_def, count]
    rw [broken, List.length_append, length_flatMap_splitAt, feeds, List.length_map,
      List.length_singleton, report.ordered_perm.length_eq,
      (report.ordered_perm.flatMap_right _).countP_eq]
  · rw [broken, List.append_cancel_right_eq, flatMap_splitAt_eq_self_iff,
      List.forall_mem_map]
    simp only [count, report.ordered_perm.mem_iff]
    exact forall₂_congr fun _ _ => lineFeeds_eq_zero_iff

/-- A report of one failure with a message. -/
def failureReport (message : String) : Report where
  runId := 1
  workflow := "daily"
  origin := .workflow
  status := .failed
  summary := ""
  results :=
    [⟨0, "visit", none, none, .failed, "", 0, some message, none, none, none⟩]
  totalSteps := 1
  stopped := true
  canceledReason := none
  startedAt := 0
  finishedAt := 0

/-- A message of two lines makes two lines of one result. -/
theorem lines_broken_failureReport :
    let report := failureReport "no route\nto host"
    report.results.length = 1 ∧
      splitAt isLineFeed report.text.toList =
        ["[FAIL] 1/1 visit | no route".toList, "to host".toList, []] := by
  decide +kernel

end Report

end RequestFlow
