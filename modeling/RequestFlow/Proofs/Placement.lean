import Mathlib.Data.List.Forall2
import Mathlib.Data.List.TakeWhile
import RequestFlow.Document.Lines

/-!
# Lines without a declaration

Where a declaration stands is found out by several scans that call each other,
each of which reads some lines and leaves out others.  A blank line and a comment
are left out by all of them.  Main statement: if one more such line stands
anywhere in a text, the same declarations are found, and those behind it one line
further down.
-/

namespace RequestFlow

namespace Text

/-! ## Lines of a longer text -/

theorem lines_carriageReturn (text : List Char) :
    lines ('\r' :: '\n' :: text) = [] :: lines text := by
  rw [lines]

/-- A line that has begun goes on. -/
theorem lines_cons {character : Char} {text : List Char}
    (visible : character ≠ '\n')
    (lone : character = '\r' → text.head? ≠ some '\n') :
    lines (character :: text) =
      match lines text with
      | [] => [[character]]
      | line :: rest => (character :: line) :: rest := by
  refine lines.eq_4 character text visible ?_
  rintro others carried rfl
  exact lone carried rfl

theorem lines_ne_nil {text : List Char} (nonempty : text ≠ []) :
    lines text ≠ [] := by
  fun_cases lines text with
  | case1 => exact (nonempty rfl).elim
  | case2 text => exact List.cons_ne_nil _ _
  | case3 text => exact List.cons_ne_nil _ _
  | case4 character text visible lone none => exact List.cons_ne_nil _ _
  | case5 character text visible lone line rest equal => exact List.cons_ne_nil _ _

/-- What is behind a line feed begins a line. -/
theorem lines_append_lineFeed (text back : List Char) :
    lines (text ++ '\n' :: back) = lines (text ++ ['\n']) ++ lines back := by
  induction text with
  | nil =>
      rw [List.nil_append, List.nil_append, lines_lineFeed, lines_lineFeed,
        lines_nil]
      rfl
  | cons character text hypothesis =>
      by_cases feed : character = '\n'
      · subst feed
        simp only [List.cons_append, lines_lineFeed, hypothesis]
      · by_cases carried : character = '\r' ∧ (text ++ ['\n']).head? = some '\n'
        · rcases carried with ⟨rfl, follows⟩
          -- The line feed belongs to the carriage return: it is the next in the
          -- text, or the one behind it.
          cases text with
          | nil =>
              simp only [List.cons_append, List.nil_append, lines_carriageReturn,
                lines_nil]
          | cons second text =>
              rcases Option.some.inj follows with rfl
              simp only [List.cons_append, lines_lineFeed, lines_carriageReturn,
                List.cons.injEq, true_and] at hypothesis ⊢
              exact hypothesis
        · have lone (rest : List Char) :
              character = '\r' → (text ++ '\n' :: rest).head? ≠ some '\n' := by
            rintro rfl follows
            refine carried ⟨rfl, ?_⟩
            cases text <;> exact follows
          have nonempty : text ++ ['\n'] ≠ [] :=
            List.append_ne_nil_of_right_ne_nil _ (List.cons_ne_nil _ _)
          rw [List.cons_append, List.cons_append, lines_cons feed (lone back),
            lines_cons feed (lone []), hypothesis]
          cases inner : lines (text ++ ['\n']) with
          | nil => exact (lines_ne_nil nonempty inner).elim
          | cons line rest => rfl

/-- A text in which no line ends is one line, once it is ended. -/
theorem lines_of_line {line : List Char} (unbroken : '\n' ∉ line)
    (uncarried : line.getLast? ≠ some '\r') : lines (line ++ ['\n']) = [line] := by
  induction line with
  | nil => rw [List.nil_append, lines_lineFeed, lines_nil]
  | cons character line hypothesis =>
      rw [List.mem_cons, not_or] at unbroken
      cases line with
      | nil =>
          rw [List.cons_append, List.nil_append, lines_cons (Ne.symm unbroken.1),
            lines_lineFeed, lines_nil]
          rintro rfl
          exact (uncarried rfl).elim
      | cons second line =>
          rw [List.cons_append, lines_cons (Ne.symm unbroken.1),
            hypothesis unbroken.2]
          · rw [List.getLast?_cons_cons] at uncarried
            exact uncarried
          · rintro _ follows
            rcases Option.some.inj follows with rfl
            exact unbroken.2 List.mem_cons_self

/-- Lines that are ended, and those behind them. -/
theorem lines_append {front : List Char}
    (ended : front = [] ∨ ∃ body, front = body ++ ['\n']) (back : List Char) :
    lines (front ++ back) = lines front ++ lines back := by
  rcases ended with rfl | ⟨body, rfl⟩
  · rfl
  · rw [List.append_assoc]
    exact lines_append_lineFeed body back

end Text

namespace Document

/-! ## Idle lines -/

/-- A line has nothing but blanks on it, or only a comment. -/
def IsSilent (line : List Char) : Prop :=
  line.all Text.isBlank = true ∨ (Text.trimStart line).head? = some '#'

namespace NumberedLine

variable {line : NumberedLine}

/-- Blanks and comments make a line idle for the annotation. -/
theorem isIdle_of_isSilent {number : Nat} {text : List Char}
    (silent : IsSilent text) : isIdle ⟨number, text⟩ = true := by
  rw [isIdle, content]
  rcases silent with blank | comment
  · have none : Text.trimStart text = [] := by
      rw [Text.trimStart, List.dropWhile_eq_nil_iff]
      exact List.all_eq_true.mp blank
    rw [none]
  · cases visible : Text.trimStart text with
    | nil => rfl
    | cons character rest =>
        rw [visible] at comment
        rcases Option.some.inj comment with rfl
        rfl

/-- The content of an idle line is nothing, or a comment. -/
theorem content_of_isIdle (idle : line.isIdle = true) :
    line.content = [] ∨ ∃ rest, line.content = '#' :: rest := by
  rw [isIdle] at idle
  cases visible : line.content with
  | nil => exact .inl rfl
  | cons character rest =>
      rw [visible] at idle
      rcases beq_iff_eq.mp idle with rfl
      exact .inr ⟨rest, rfl⟩

/-- An idle line is below whatever it follows, and begins no item. -/
theorem isBelow_of_isIdle (idle : line.isIdle = true) (column : Nat) :
    isBelow column line = true := by
  rw [isBelow, idle, Bool.true_or, Bool.true_or]

theorem beginsItem_of_isIdle (idle : line.isIdle = true) :
    line.beginsItem = false := by
  rw [beginsItem]
  rcases content_of_isIdle idle with none | ⟨rest, comment⟩
  · rw [none]
  · rw [comment]
    rfl

/-- On an idle line there is nothing to move over but blanks. -/
theorem skipMarks_of_isIdle (idle : line.isIdle = true) (column : Nat) :
    (skipMarks column line.text).2 = line.content := by
  rcases line with ⟨number, text⟩
  show (skipMarks column text).2 = _
  induction text generalizing column with
  | nil => rfl
  | cons character text hypothesis =>
      rw [skipMarks]
      by_cases blank : Text.isBlank character = true
      · have same :
            content ⟨number, character :: text⟩ = content ⟨number, text⟩ := by
          rw [content, content, Text.trimStart, List.dropWhile_cons_of_pos blank]
          rfl
        rw [if_pos blank, same]
        refine hypothesis _ ?_
        rw [isIdle, same] at idle
        exact idle
      · have whole : content ⟨number, character :: text⟩ = character :: text :=
          Text.trimStart_cons_of_not_blank text (Bool.eq_false_iff.mpr blank)
        rw [isIdle, whole] at idle
        rcases beq_iff_eq.mp idle with rfl
        rw [whole, if_neg blank]
        rfl

/-- A text that begins with a visible character still does so once its end is
trimmed. -/
theorem trimEnd_cons {character : Char} (rest : List Char)
    (visible : Text.isBlank character = false) :
    ∃ others, Text.trimEnd (character :: rest) = character :: others := by
  have front := Text.trimEnd_prefix_self (character :: rest)
  cases trimmed : Text.trimEnd (character :: rest) with
  | nil =>
      rw [Text.trimEnd, List.reverse_eq_nil_iff, List.dropWhile_eq_nil_iff]
        at trimmed
      have blank := trimmed character (List.mem_reverse.mpr List.mem_cons_self)
      rw [visible] at blank
      cases blank
  | cons first others =>
      rw [trimmed] at front
      rcases (List.cons_prefix_cons.mp front).1 with rfl
      exact ⟨others, rfl⟩

/-- An idle line has no key. -/
theorem key?_of_isIdle (idle : line.isIdle = true) : line.key? = none := by
  have marked := skipMarks_of_isIdle idle 0
  rw [key?]
  simp only [marked]
  rcases content_of_isIdle idle with none | ⟨rest, comment⟩
  · rw [none]
    rfl
  · rw [comment, nameAndRest?]
    simp only [show ('#' == '"' || '#' == '\'') = false from rfl,
      Bool.false_eq_true, if_false]
    cases colon : Text.cut [':'] ('#' :: rest) with
    | none => rfl
    | some parts =>
        rcases parts with ⟨before, after⟩
        have whole := Text.eq_append_of_cut colon
        cases before with
        | nil => cases whole
        | cons first others =>
            rcases (List.cons.inj whole).1 with rfl
            rcases trimEnd_cons others
                (show Text.isBlank '#' = false from rfl) with
              ⟨name, equal⟩
            have unnamed : isKeyName (Text.trimEnd ('#' :: others)) = false := by
              rw [equal, isKeyName]
              exact Bool.and_false _
            simp only [Option.map_some, Option.bind_some, unnamed, Bool.and_false,
              Bool.false_eq_true, if_false]
            split <;> rfl

/-- An idle line gives no name. -/
theorem givesName_of_isIdle (idle : line.isIdle = true) (name : String) :
    line.givesName name = false := by
  rw [givesName]
  rcases content_of_isIdle idle with none | ⟨rest, comment⟩
  · rw [none]
    rfl
  · have visible : Text.isBlank '#' = false := rfl
    rcases trimEnd_cons rest visible with ⟨others, equal⟩
    have trimmed :
        Text.trim
            (List.dropWhile (fun character => character == '-') ('#' :: rest)) =
          '#' :: others := by
      rw [List.dropWhile_cons_of_neg (by decide), Text.trim,
        Text.trimStart_cons_of_not_blank rest visible, equal]
    rw [comment]
    simp only [trimmed]
    rfl

end NumberedLine

/-! ## One more line -/

/-- The number of a line once there is one more behind the first `count` lines. -/
def shifted (count line : Nat) : Nat :=
  if count < line then line + 1 else line

theorem shifted_zero (count : Nat) : shifted count 0 = 0 :=
  if_neg (Nat.not_lt_zero count)

/-- The line under its new number. -/
def NumberedLine.moved (count : Nat) (line : NumberedLine) : NumberedLine :=
  ⟨shifted count line.number, line.text⟩

/-- Lines under their new numbers, with more idle lines among them. -/
inductive Region.Spaced (count : Nat) : Region → Region → Prop where
  | nil : Spaced count [] []
  | keeps {region longer : Region} (line : NumberedLine)
      (spaced : Spaced count region longer) :
      Spaced count (line :: region) (line.moved count :: longer)
  | adds {region longer : Region} {line : NumberedLine} (idle : line.isIdle = true)
      (spaced : Spaced count region longer) : Spaced count region (line :: longer)

/-- A declaration, and the same one with more idle lines below it. -/
structure Declaration.Moves (count : Nat) (declaration moved : Declaration) :
    Prop where
  line : moved.line = shifted count declaration.line
  body : declaration.body.Spaced count moved.body

namespace Region

/-- The region of an item, and that of the same item with more idle lines behind
its first one. -/
structure Moves (count : Nat) (region longer : Region) : Prop where
  spaced : region.Spaced count longer
  first : longer.firstLine = shifted count region.firstLine

variable {count : Nat} {region longer : Region}

/-- A scan that does not stop at idle lines. -/
theorem Spaced.takeWhile {test : NumberedLine → Bool}
    (passes : ∀ line : NumberedLine, line.isIdle = true → test line = true)
    (same : ∀ line : NumberedLine, test (line.moved count) = test line)
    (spaced : region.Spaced count longer) :
    Spaced count (region.takeWhile test) (longer.takeWhile test) := by
  induction spaced with
  | nil => exact .nil
  | keeps line spaced hypothesis =>
      rw [List.takeWhile_cons, List.takeWhile_cons, same]
      split
      · exact .keeps line hypothesis
      · exact .nil
  | adds idle spaced hypothesis =>
      rw [List.takeWhile_cons_of_pos (passes _ idle)]
      exact .adds idle hypothesis

/-- A search that passes over idle lines. -/
theorem Spaced.find? {test : NumberedLine → Bool}
    (passes : ∀ line : NumberedLine, line.isIdle = true → test line = false)
    (same : ∀ line : NumberedLine, test (line.moved count) = test line)
    (spaced : region.Spaced count longer) :
    longer.find? test = (region.find? test).map (NumberedLine.moved count) := by
  induction spaced with
  | nil => rfl
  | keeps line spaced hypothesis =>
      rw [List.find?_cons, List.find?_cons, same]
      split
      · rfl
      · exact hypothesis
  | adds idle spaced hypothesis =>
      rw [List.find?_cons_of_neg (by rw [passes _ idle]; exact Bool.false_ne_true)]
      exact hypothesis

/-- The same key is found. -/
theorem Spaced.findKey? (key : String) (level : Option Nat)
    (spaced : region.Spaced count longer) :
    Option.Rel (Declaration.Moves count) (region.findKey? key level)
      (longer.findKey? key level) := by
  -- The first key sets the level of the search; idle lines have no key and leave
  -- it open.
  induction spaced generalizing level with
  | nil => exact .none
  | @keeps region longer line spaced hypothesis =>
      have same : (line.moved count).key? = line.key? := rfl
      rw [Region.findKey?, Region.findKey?, same]
      cases line.key? with
      | none => exact hypothesis level
      | some found =>
          dsimp only
          split
          · refine .some ⟨rfl, spaced.takeWhile ?_ fun _ => rfl⟩
            exact fun line idle => NumberedLine.isBelow_of_isIdle idle _
          · exact hypothesis _
  | @adds region longer line idle spaced hypothesis =>
      have passed :
          Region.findKey? key level (line :: longer) =
            longer.findKey? key level := by
        rw [Region.findKey?, NumberedLine.key?_of_isIdle idle]
      rw [passed]
      exact hypothesis level

theorem Spaced.declaration? (key : String) (spaced : region.Spaced count longer) :
    Option.Rel (Declaration.Moves count) (region.declaration? key)
      (longer.declaration? key) :=
  spaced.findKey? key none

/-- The line of a key in the longer region is its old one, moved. -/
theorem Spaced.lineOf (key : String) (other : Nat)
    (spaced : region.Spaced count longer) :
    longer.lineOf key (shifted count other) =
      shifted count (region.lineOf key other) := by
  have found := spaced.declaration? key
  rw [Region.lineOf, Region.lineOf]
  generalize region.declaration? key = first, longer.declaration? key =
    second at found ⊢
  cases found with
  | none => rfl
  | some moves => exact moves.line

theorem Spaced.nameLine (name : String) (spaced : region.Spaced count longer) :
    longer.nameLine name = shifted count (region.nameLine name) := by
  rw [Region.nameLine, Region.nameLine,
    spaced.find? (fun line idle => NumberedLine.givesName_of_isIdle idle name)
      fun _ => rfl]
  cases region.find? (NumberedLine.givesName name) with
  | none => exact (shifted_zero count).symm
  | some line => rfl

/-- Idle lines divide nothing: the longer region comes apart where the region
does, if the test is about the text of a line. -/
theorem Spaced.splitBefore {test : NumberedLine → Bool}
    (passes : ∀ line : NumberedLine, line.isIdle = true → test line = false)
    (same : ∀ line : NumberedLine, test (line.moved count) = test line)
    (spaced : region.Spaced count longer) :
    List.Forall₂ (Moves count) (region.splitBefore test)
      (longer.splitBefore test) := by
  induction spaced with
  | nil => exact .nil
  | keeps line spaced hypothesis =>
      rw [Region.splitBefore, Region.splitBefore, same]
      split
      · refine .cons ⟨.keeps line (spaced.takeWhile ?_ ?_), rfl⟩ hypothesis
        · intro line idle
          rw [passes line idle]
          rfl
        · intro line
          rw [same]
      · exact hypothesis
  | adds idle spaced hypothesis =>
      rw [Region.splitBefore,
        if_neg (by rw [passes _ idle]; exact Bool.false_ne_true)]
      exact hypothesis

/-- The same items are found. -/
theorem Spaced.items (spaced : region.Spaced count longer) :
    List.Forall₂ (Moves count) region.items longer.items := by
  have first :=
    spaced.find? (fun line => NumberedLine.beginsItem_of_isIdle) fun _ => rfl
  rw [Region.items, Region.items, first]
  cases region.find? NumberedLine.beginsItem with
  | none => exact .nil
  | some first =>
      refine spaced.splitBefore ?_ fun _ => rfl
      intro line idle
      rw [beginsItemIn, NumberedLine.beginsItem_of_isIdle idle]
      rfl

/-- So it has the same items, each with its own idle lines. -/
theorem Spaced.itemsOf (key : String) (spaced : region.Spaced count longer) :
    List.Forall₂ (Moves count) (region.itemsOf key) (longer.itemsOf key) := by
  have found := spaced.declaration? key
  rw [Region.itemsOf, Region.itemsOf]
  generalize region.declaration? key = first, longer.declaration? key =
    second at found ⊢
  cases found with
  | none => exact .nil
  | some moves => exact moves.body.items

end Region

/-! ## Placed parts -/

/-- A line that was found, in the longer text; one that was known before stays. -/
def movedLine (count known line : Nat) : Nat :=
  if known = 0 then shifted count line else line

/-- An optional part in the longer text. -/
def movedOption {Part : Type} (move : Part → Part → Part) :
    Option Part → Option Part → Option Part
  | some known, some part => some (move known part)
  | _, part => part

/-- Parts in the longer text. -/
def movedAll {Part : Type} (move : Part → Part → Part) :
    List Part → List Part → List Part
  | known :: others, part :: parts => move known part :: movedAll move others parts
  | _, parts => parts

/-- A loop in the longer text. -/
def movedLoop (count : Nat) (known loop : LoopDefinition) : LoopDefinition :=
  { loop with line := movedLine count known.line loop.line }

/-- A branch in the longer text. -/
def movedBranch (count : Nat) (known branch : Branch) : Branch :=
  { branch with line := movedLine count known.line branch.line }

/-- A choice by conditions in the longer text. -/
def movedConditional (count : Nat) (known block : ConditionalBlock) :
    ConditionalBlock :=
  { first := movedBranch count known.first block.first
    others := movedAll (movedBranch count) known.others block.others
    otherwise := movedOption (movedBranch count) known.otherwise block.otherwise }

/-- A choice by a value in the longer text. -/
def movedSwitch (count : Nat) (known block : SwitchBlock) : SwitchBlock :=
  { block with
    cases := movedAll (movedBranch count) known.cases block.cases
    otherwise := movedOption (movedBranch count) known.otherwise block.otherwise
    line := movedLine count known.line block.line }

/-- A step in the longer text. -/
def movedStep (count : Nat) (known step : StepDefinition) : StepDefinition :=
  { step with
    line := movedLine count known.line step.line
    guardLine := movedLine count known.guardLine step.guardLine
    loop := movedOption (movedLoop count) known.loop step.loop
    conditional :=
      movedOption (movedConditional count) known.conditional step.conditional
    switch := movedOption (movedSwitch count) known.switch step.switch }

/-- A request in the longer text. -/
def movedRequest (count : Nat) (known request : Request) : Request :=
  { request with
    line := movedLine count known.line request.line
    loop := movedOption (movedLoop count) known.loop request.loop }

/-- A workflow in the longer text. -/
def movedWorkflow (count : Nat) (known workflow : WorkflowDefinition) :
    WorkflowDefinition :=
  { workflow with
    line := movedLine count known.line workflow.line
    steps := movedAll (movedStep count) known.steps workflow.steps }

/-- An annotated document in the longer text: of its lines those that were not
known before and are behind the new line are one further down. -/
def movedDocument (count : Nat) (known document : Document) : Document :=
  { document with
    requests := movedAll (movedRequest count) known.requests document.requests
    workflows :=
      movedAll (movedWorkflow count) known.workflows document.workflows }

section Still

variable (count : Nat)

/-- A line that is as it was known stays. -/
theorem movedLine_self (line : Nat) : movedLine count line line = line := by
  rw [movedLine]
  split
  · next unknown =>
      rw [unknown]
      exact shifted_zero count
  · rfl

/-- A part that was not found is not moved either; one lemma for each kind of
part. -/
theorem movedOption_self {Part : Type} {move : Part → Part → Part}
    (still : ∀ part, move part part = part) (part : Option Part) :
    movedOption move part part = part := by
  cases part with
  | none => rfl
  | some part => exact congrArg some (still part)

theorem movedAll_self {Part : Type} {move : Part → Part → Part}
    (still : ∀ part, move part part = part) (parts : List Part) :
    movedAll move parts parts = parts := by
  induction parts with
  | nil => rfl
  | cons part parts hypothesis => rw [movedAll, still, hypothesis]

theorem movedLoop_self (loop : LoopDefinition) :
    movedLoop count loop loop = loop := by
  rw [movedLoop, movedLine_self]

theorem movedBranch_self (branch : Branch) :
    movedBranch count branch branch = branch := by
  rw [movedBranch, movedLine_self]

theorem movedConditional_self (block : ConditionalBlock) :
    movedConditional count block block = block := by
  rw [movedConditional, movedBranch_self, movedAll_self (movedBranch_self count),
    movedOption_self (movedBranch_self count)]

theorem movedSwitch_self (block : SwitchBlock) :
    movedSwitch count block block = block := by
  rw [movedSwitch, movedLine_self, movedAll_self (movedBranch_self count),
    movedOption_self (movedBranch_self count)]

theorem movedStep_self (step : StepDefinition) :
    movedStep count step step = step := by
  rw [movedStep, movedLine_self, movedLine_self,
    movedOption_self (movedLoop_self count),
    movedOption_self (movedConditional_self count),
    movedOption_self (movedSwitch_self count)]

end Still

section Placing

variable {count : Nat} {region longer : Region}

/-- A line is found one further down, if it is behind the new one and was not
known. -/
theorem known_shifted (line found : Nat) :
    known line (shifted count found) =
      movedLine count line (known line found) := by
  rw [known, known, movedLine]
  split <;> rfl

theorem movedOption_map {Part : Type} {move : Part → Part → Part}
    {place moved : Part → Part}
    (same : ∀ part, moved part = move part (place part)) (part : Option Part) :
    part.map moved = movedOption move part (part.map place) := by
  cases part with
  | none => rfl
  | some part => exact congrArg some (same part)

theorem movedAll_map {Part : Type} {move : Part → Part → Part}
    {place moved : Part → Part}
    (same : ∀ part, moved part = move part (place part)) (parts : List Part) :
    parts.map moved = movedAll move parts (parts.map place) := by
  induction parts with
  | nil => rfl
  | cons part parts hypothesis =>
      rw [List.map_cons, List.map_cons, movedAll, same, hypothesis]

/-- Parts that are placed alike one by one are placed alike in their regions. -/
theorem movedAll_zipWith {Part : Type} {move : Part → Part → Part}
    {place : Region → Part → Part}
    (same : ∀ region longer : Region, region.Moves count longer →
        ∀ part, place longer part = move part (place region part))
    {regions longers : List Region}
    (items : List.Forall₂ (Region.Moves count) regions longers) {parts : List Part}
    (enough : regions.length = parts.length) :
    List.zipWith place longers parts =
      movedAll move parts (List.zipWith place regions parts) := by
  induction items generalizing parts with
  | nil =>
      rw [List.zipWith_nil_left]
      cases parts <;> rfl
  | cons moves items hypothesis =>
      cases parts with
      | nil => rfl
      | cons part parts =>
          rw [List.zipWith_cons_cons, List.zipWith_cons_cons, movedAll,
            same _ _ moves, hypothesis (Nat.succ.inj enough)]

/-- The same with the test that there are as many regions as parts. -/
theorem placeAll_moves {Part : Type} {move : Part → Part → Part}
    {place : Region → Part → Part} (still : ∀ part, move part part = part)
    (same : ∀ region longer : Region, region.Moves count longer →
        ∀ part, place longer part = move part (place region part))
    {regions longers : List Region}
    (items : List.Forall₂ (Region.Moves count) regions longers)
    (parts : List Part) :
    placeAll place longers parts =
      movedAll move parts (placeAll place regions parts) := by
  rw [placeAll, placeAll, ← items.length_eq]
  split
  · next enough => exact movedAll_zipWith same items enough
  · exact (movedAll_self still parts).symm

/-- Placing in the longer region is placing in the region and moving what was
found; one lemma for each kind of part, each from those of its own parts. -/
theorem placeLoop_spaced (spaced : region.Spaced count longer)
    (loop : LoopDefinition) :
    placeLoop longer loop = movedLoop count loop (placeLoop region loop) := by
  have found := spaced.declaration? "for_each"
  rw [placeLoop, placeLoop]
  generalize region.declaration? "for_each" =
    first, longer.declaration? "for_each" = second at found ⊢
  cases found with
  | none => exact (movedLoop_self count loop).symm
  | some moves =>
      dsimp only
      rw [moves.line, moves.body.lineOf, known_shifted]
      rfl

theorem placeBranchAt_spaced (line : Nat) (spaced : region.Spaced count longer)
    (branch : Branch) :
    placeBranchAt (shifted count line) longer branch =
      movedBranch count branch (placeBranchAt line region branch) := by
  rw [placeBranchAt, spaced.lineOf, known_shifted]
  rfl

theorem placeBranch_moves (moves : region.Moves count longer) (branch : Branch) :
    placeBranch longer branch =
      movedBranch count branch (placeBranch region branch) := by
  rw [placeBranch, moves.first]
  exact placeBranchAt_spaced _ moves.spaced branch

theorem placeKeyedBranch_spaced (key : String)
    (spaced : region.Spaced count longer) (branch : Branch) :
    placeKeyedBranch key longer branch =
      movedBranch count branch (placeKeyedBranch key region branch) := by
  have found := spaced.declaration? key
  rw [placeKeyedBranch, placeKeyedBranch]
  generalize region.declaration? key = first, longer.declaration? key =
    second at found ⊢
  cases found with
  | none => exact (movedBranch_self count branch).symm
  | some moves =>
      dsimp only
      rw [moves.line]
      exact placeBranchAt_spaced _ moves.body branch

theorem placeBranches_spaced (key : String) (spaced : region.Spaced count longer)
    (branches : List Branch) :
    placeAll placeBranch (longer.itemsOf key) branches =
      movedAll (movedBranch count) branches
        (placeAll placeBranch (region.itemsOf key) branches) :=
  placeAll_moves (movedBranch_self count)
    (fun _ _ moves => placeBranch_moves moves) (spaced.itemsOf key) branches

theorem placeConditional_spaced (spaced : region.Spaced count longer)
    (block : ConditionalBlock) :
    placeConditional longer block =
      movedConditional count block (placeConditional region block) := by
  have found := spaced.declaration? "if"
  rw [placeConditional, placeConditional]
  generalize region.declaration? "if" = first, longer.declaration? "if" =
    second at found ⊢
  cases found with
  | none => exact (movedConditional_self count block).symm
  | some moves =>
      dsimp only
      rw [placeKeyedBranch_spaced "then" moves.body,
        placeBranches_spaced "elif" moves.body,
        movedOption_map (placeKeyedBranch_spaced "else" moves.body)]
      rfl

theorem placeSwitch_spaced (spaced : region.Spaced count longer)
    (block : SwitchBlock) :
    placeSwitch longer block =
      movedSwitch count block (placeSwitch region block) := by
  have found := spaced.declaration? "switch"
  rw [placeSwitch, placeSwitch]
  generalize region.declaration? "switch" = first, longer.declaration? "switch" =
    second at found ⊢
  cases found with
  | none => exact (movedSwitch_self count block).symm
  | some moves =>
      dsimp only
      rw [placeBranches_spaced "cases" moves.body,
        movedOption_map (placeKeyedBranch_spaced "default" moves.body), moves.line,
        moves.body.lineOf, known_shifted]
      rfl

theorem placeStep_moves (moves : region.Moves count longer)
    (step : StepDefinition) :
    placeStep longer step = movedStep count step (placeStep region step) := by
  have guard :
      longer.lineOf "when" 0 = shifted count (region.lineOf "when" 0) := by
    have found := moves.spaced.lineOf "when" 0
    rw [shifted_zero] at found
    exact found
  rw [placeStep, moves.first, known_shifted, guard, known_shifted,
    movedOption_map (placeLoop_spaced moves.spaced),
    movedOption_map (placeConditional_spaced moves.spaced),
    movedOption_map (placeSwitch_spaced moves.spaced)]
  rfl

theorem placeRequest_moves (moves : region.Moves count longer)
    (request : Request) :
    placeRequest longer request =
      movedRequest count request (placeRequest region request) := by
  rw [placeRequest, moves.first, known_shifted,
    movedOption_map (placeLoop_spaced moves.spaced)]
  rfl

theorem placeWorkflow_moves (moves : region.Moves count longer)
    (workflow : WorkflowDefinition) :
    placeWorkflow longer workflow =
      movedWorkflow count workflow (placeWorkflow region workflow) := by
  rw [placeWorkflow, moves.first, known_shifted,
    placeAll_moves (movedStep_self count) (fun _ _ moves => placeStep_moves moves)
      (moves.spaced.itemsOf "steps")]
  rfl

/-- A request that is found by its name. -/
theorem nameRequest_spaced (spaced : region.Spaced count longer)
    (request : Request) :
    { request with line := known request.line (longer.nameLine request.name) } =
      movedRequest count request
        { request with
          line := known request.line (region.nameLine request.name) } := by
  rw [spaced.nameLine, known_shifted, movedRequest,
    movedOption_self (movedLoop_self count)]

/-- A workflow that is found by its name. -/
theorem nameWorkflow_spaced (spaced : region.Spaced count longer)
    (workflow : WorkflowDefinition) :
    { workflow with line := known workflow.line (longer.nameLine workflow.name) } =
      movedWorkflow count workflow
        { workflow with
          line := known workflow.line (region.nameLine workflow.name) } := by
  rw [spaced.nameLine, known_shifted, movedWorkflow,
    movedAll_self (movedStep_self count)]

/-- The annotation of the longer text is that of the text with the found lines
moved. -/
theorem annotate_spaced {text other : String}
    (spaced :
      Region.Spaced count (NumberedLine.ofText text.toList)
        (NumberedLine.ofText other.toList))
    (document : Document) :
    document.annotate other =
      movedDocument count document (document.annotate text) := by
  have requests := spaced.itemsOf "requests"
  have workflows := spaced.itemsOf "workflows"
  rw [annotate, annotate, movedDocument]
  dsimp only
  rw [← requests.length_eq, ← workflows.length_eq]
  congr 1
  · split
    · next enough =>
        exact movedAll_zipWith (fun _ _ moves => placeRequest_moves moves) requests
          enough
    · exact movedAll_map (nameRequest_spaced spaced) document.requests
  · split
    · next enough =>
        exact movedAll_zipWith (fun _ _ moves => placeWorkflow_moves moves)
          workflows enough
    · exact movedAll_map (nameWorkflow_spaced spaced) document.workflows

end Placing

/-! ## Texts -/

namespace NumberedLine

/-- Lines with numbers behind those of some others. -/
def numberFrom (before : Nat) (lines : List (List Char)) : Region :=
  lines.mapIdx fun index line => ⟨before + index + 1, line⟩

theorem numberFrom_cons (before : Nat) (line : List Char)
    (lines : List (List Char)) :
    numberFrom before (line :: lines) =
      ⟨before + 1, line⟩ :: numberFrom (before + 1) lines := by
  rw [numberFrom, List.mapIdx_cons, numberFrom]
  congr 2
  funext index line
  rw [Nat.add_assoc before 1 index, Nat.add_comm 1 index]

/-- Lines behind the new one have the next numbers. -/
theorem spaced_numberFrom_succ {count before : Nat} (behind : count ≤ before)
    (lines : List (List Char)) :
    Region.Spaced count (numberFrom before lines)
      (numberFrom (before + 1) lines) := by
  induction lines generalizing before with
  | nil => exact .nil
  | cons line lines hypothesis =>
      have moved :
          (⟨before + 1 + 1, line⟩ : NumberedLine) =
            moved count ⟨before + 1, line⟩ := by
        rw [moved, shifted, if_pos (Nat.lt_succ_of_le behind)]
      rw [numberFrom_cons, numberFrom_cons, moved]
      exact .keeps _ (hypothesis (Nat.le_succ_of_le behind))

/-- One more idle line among numbered lines. -/
theorem spaced_numberFrom_append {line : List Char} (silent : IsSilent line)
    (number : Nat) (before after : List (List Char)) :
    Region.Spaced (number + before.length) (numberFrom number (before ++ after))
      (numberFrom number (before ++ line :: after)) := by
  induction before generalizing number with
  | nil =>
      rw [List.nil_append, List.nil_append, numberFrom_cons]
      exact .adds (isIdle_of_isSilent silent)
        (spaced_numberFrom_succ (Nat.le_refl _) after)
  | cons first before hypothesis =>
      have still : (⟨number + 1, first⟩ : NumberedLine) =
          moved (number + (first :: before).length) ⟨number + 1, first⟩ := by
        rw [moved, shifted, if_neg]
        show ¬ number + (before.length + 1) < number + 1
        omega
      have later := hypothesis (number + 1)
      rw [Nat.add_right_comm] at later
      rw [List.cons_append, List.cons_append, numberFrom_cons, numberFrom_cons]
      nth_rewrite 2 [still]
      exact .keeps _ later

theorem ofText_eq_numberFrom (text : List Char) :
    ofText text = numberFrom 0 (Text.lines text) := by
  rw [ofText, numberFrom]
  congr 1
  funext index line
  rw [Nat.zero_add]

/-- A silent line put among the lines of a text makes a longer region of them. -/
theorem spaced_ofText {text longer line : List Char}
    {before after : List (List Char)} (silent : IsSilent line)
    (lines : Text.lines text = before ++ after)
    (more : Text.lines longer = before ++ line :: after) :
    Region.Spaced before.length (ofText text) (ofText longer) := by
  have spaced := spaced_numberFrom_append silent 0 before after
  rw [Nat.zero_add, ← lines, ← more] at spaced
  rw [ofText_eq_numberFrom, ofText_eq_numberFrom]
  exact spaced

end NumberedLine

/-- With one more line among those of a text, blank or a comment, a document is
annotated as before, save that the lines that were not known and are behind the
new one are one further down. -/
theorem annotate_more {text longer : String} {line : List Char}
    {before after : List (List Char)}
    (lines : Text.lines text.toList = before ++ after)
    (more : Text.lines longer.toList = before ++ line :: after)
    (silent : IsSilent line) (document : Document) :
    document.annotate longer =
      movedDocument before.length document (document.annotate text) :=
  annotate_spaced (NumberedLine.spaced_ofText silent lines more) document

/-- A blank line or a comment that is written between two lines of a text. -/
theorem annotate_written {front line back : String}
    (ended : front.toList = [] ∨ ∃ body, front.toList = body ++ ['\n'])
    (unbroken : '\n' ∉ line.toList) (uncarried : line.toList.getLast? ≠ some '\r')
    (silent : IsSilent line.toList) (document : Document) :
    document.annotate (front ++ (line ++ "\n" ++ back)) =
      movedDocument (Text.lines front.toList).length document
        (document.annotate (front ++ back)) := by
  have more : Text.lines (front ++ (line ++ "\n" ++ back)).toList =
      Text.lines front.toList ++ line.toList :: Text.lines back.toList := by
    have ends :
        (line ++ "\n" ++ back).toList = line.toList ++ '\n' :: back.toList := by
      simp [String.toList_append]
    rw [String.toList_append, Text.lines_append ended, ends,
      Text.lines_append_lineFeed, Text.lines_of_line unbroken uncarried]
    rfl
  have lines : Text.lines (front ++ back).toList =
      Text.lines front.toList ++ Text.lines back.toList := by
    rw [String.toList_append, Text.lines_append ended]
  exact annotate_spaced (NumberedLine.spaced_ofText silent lines more) document

/-! ### A comment in front of a loop -/

/-- One request in a loop, of which no line is known. -/
def visitDocument : Document :=
  { title := none
    bindings := .empty
    options := .inherit
    requests :=
      [{ name := "visit"
         protocol := .http
         method := "GET"
         url := "/visit"
         headers := .empty
         body := none
         guard := none
         loop := some ⟨"users", "user", 0⟩
         options := .inherit
         line := 0 }]
    workflows := [] }

theorem annotate_more_visitDocument :
    let text := "requests:\n- name: visit\n  for_each:\n    expr: users\n"
    let longer :=
      "requests:\n- name: visit\n# all:\n  for_each:\n    expr: users\n"
    let linesIn (document : Document) : List (Nat × Option Nat) :=
      document.requests.map fun request =>
        (request.line, request.loop.map LoopDefinition.line)
    visitDocument.annotate longer =
        movedDocument 2 visitDocument (visitDocument.annotate text) ∧
      linesIn (visitDocument.annotate text) = [(2, some 4)] ∧
      linesIn (visitDocument.annotate longer) = [(2, some 5)] := by
  intro text longer linesIn
  have before : Text.lines text.toList =
      ["requests:".toList, "- name: visit".toList] ++
        ["  for_each:".toList, "    expr: users".toList] := by
    decide +kernel
  have after : Text.lines longer.toList =
      ["requests:".toList, "- name: visit".toList] ++
        "# all:".toList :: ["  for_each:".toList, "    expr: users".toList] := by
    decide +kernel
  refine ⟨annotate_more before after (.inr rfl) visitDocument, ?_, ?_⟩
  · decide +kernel
  · decide +kernel

end Document

end RequestFlow
