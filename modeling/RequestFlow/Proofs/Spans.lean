import Mathlib.Data.List.Forall2
import Mathlib.Data.List.TakeWhile
import RequestFlow.Document.Lines

/-!
# Spans of lines

A region is a run of the lines of a text, so two indexes tell which.  Here the
layout of a text is read through such spans: a line is read at its index, and
reading at an index that no line has comes to nothing.  Main statement: whatever
the text and the document, this never happens, and the document that it comes to
is the annotated one.
-/

namespace RequestFlow.Document

/-- The lines from one index up to another, which is not among them. -/
structure Span where
  start : Nat
  stop : Nat

namespace Span

section Reading

variable (lines : Region)

/-- Looks for a key on so many lines from an index on. -/
def findKeyFrom? (key : String) : Option Nat → Nat → Nat → Option (Option Nat)
  | _, _, 0 => some none
  | level, index, count + 1 => do
      let line ← lines[index]?
      match line.key? with
      | none => findKeyFrom? key level (index + 1) count
      | some (column, name) =>
          if level.getD column = column ∧ name = key.toList then some (some index)
          else findKeyFrom? key (some (level.getD column)) (index + 1) count

/-- The index of a key on the level of the span's first key. -/
def keyIndex? (span : Span) (key : String) : Option (Option Nat) :=
  findKeyFrom? lines key none span.start (min span.stop lines.length - span.start)

/-- The index behind the lines below a column, at most so many from an index on. -/
def belowFrom? (column : Nat) : Nat → Nat → Option Nat
  | index, 0 => some index
  | index, count + 1 => do
      let line ← lines[index]?
      if line.isBelow column then belowFrom? column (index + 1) count
      else some index

/-- The span below the key on a line, which ends with an index at the latest. -/
def below? (stop index : Nat) : Option Span := do
  let line ← lines[index]?
  match line.key? with
  | none => some ⟨index + 1, index + 1⟩
  | some (column, _) => do
      let last ← belowFrom? lines column (index + 1) (stop - (index + 1))
      some ⟨index + 1, last⟩

/-- The indexes of the lines that begin an item, among so many from an index on. -/
def startsFrom? : Option Nat → Nat → Nat → Option (List Nat)
  | _, _, 0 => some []
  | column, index, count + 1 => do
      let line ← lines[index]?
      if line.beginsItem && column.getD line.indentation == line.indentation then
        do
        let starts ← startsFrom? (some line.indentation) (index + 1) count
        some (index :: starts)
      else startsFrom? column (index + 1) count

/-- The spans from each index up to the next one, and from the last one up to an
end. -/
def between (stop : Nat) : List Nat → List Span
  | [] => []
  | start :: starts => ⟨start, starts.head?.getD stop⟩ :: between stop starts

/-- The spans of the items of the list below a key. -/
def itemsOf? (span : Span) (key : String) : Option (List Span) := do
  match ← keyIndex? lines span key with
  | none => some []
  | some index => do
      let body ← below? lines span.stop index
      let starts ← startsFrom? lines none body.start (body.stop - body.start)
      some (between body.stop starts)

/-- The line of a key, or another line where the key is not found. -/
def lineOf? (span : Span) (key : String) (other : Nat) : Option Nat := do
  let found ← keyIndex? lines span key
  some ((found.map (· + 1)).getD other)

/-- Places each part in its span. -/
def placeEach? {Part : Type} (place : Span → Part → Option Part) :
    List Span → List Part → Option (List Part)
  | span :: spans, part :: parts => do
      let placed ← place span part
      let others ← placeEach? place spans parts
      some (placed :: others)
  | _, _ => some []

/-- Places each part in its span, if there are as many spans as parts. -/
def placeAll? {Part : Type} (place : Span → Part → Option Part) (spans : List Span)
    (parts : List Part) : Option (List Part) :=
  if spans.length = parts.length then placeEach? place spans parts else some parts

/-- Places a part, if there is one. -/
def placeSome? {Part : Type} (place : Part → Option Part) :
    Option Part → Option (Option Part)
  | none => some none
  | some part => (place part).map some

/-- Places a loop. -/
def placeLoop? (span : Span) (loop : LoopDefinition) : Option LoopDefinition := do
  match ← keyIndex? lines span "for_each" with
  | none => some loop
  | some index => do
      let body ← below? lines span.stop index
      let line ← lineOf? lines body "expr" (index + 1)
      some { loop with line := known loop.line line }

/-- Places a branch at its condition, or else at a line of its own. -/
def placeBranchAt? (line : Nat) (span : Span) (branch : Branch) :
    Option Branch := do
  let line ← lineOf? lines span "when" line
  some { branch with line := known branch.line line }

/-- Places a branch that is an item of a list. -/
def placeBranch? (span : Span) (branch : Branch) : Option Branch :=
  placeBranchAt? lines (span.start + 1) span branch

/-- Places a branch below a key. -/
def placeKeyedBranch? (key : String) (span : Span) (branch : Branch) :
    Option Branch := do
  match ← keyIndex? lines span key with
  | none => some branch
  | some index => do
      let body ← below? lines span.stop index
      placeBranchAt? lines (index + 1) body branch

/-- Places the branches of a choice by conditions. -/
def placeConditional? (span : Span) (block : ConditionalBlock) :
    Option ConditionalBlock := do
  match ← keyIndex? lines span "if" with
  | none => some block
  | some index => do
      let body ← below? lines span.stop index
      let first ← placeKeyedBranch? lines "then" body block.first
      let items ← itemsOf? lines body "elif"
      let others ← placeAll? (placeBranch? lines) items block.others
      let otherwise ← placeSome? (placeKeyedBranch? lines "else" body)
          block.otherwise
      some ⟨first, others, otherwise⟩

/-- Places the subject and the cases of a choice by a value. -/
def placeSwitch? (span : Span) (block : SwitchBlock) : Option SwitchBlock := do
  match ← keyIndex? lines span "switch" with
  | none => some block
  | some index => do
      let body ← below? lines span.stop index
      let line ← lineOf? lines body "expr" (index + 1)
      let items ← itemsOf? lines body "cases"
      let cases ← placeAll? (placeBranch? lines) items block.cases
      let otherwise ← placeSome? (placeKeyedBranch? lines "default" body)
          block.otherwise
      some
        { block with
          cases := cases
          otherwise := otherwise
          line := known block.line line }

/-- Places a step. -/
def placeStep? (span : Span) (step : StepDefinition) : Option StepDefinition := do
  let guardLine ← lineOf? lines span "when" 0
  let loop ← placeSome? (placeLoop? lines span) step.loop
  let conditional ← placeSome? (placeConditional? lines span) step.conditional
  let switch ← placeSome? (placeSwitch? lines span) step.switch
  some { step with
    line := known step.line (span.start + 1)
    guardLine := known step.guardLine guardLine
    loop := loop
    conditional := conditional
    switch := switch }

/-- Places a request. -/
def placeRequest? (span : Span) (request : Request) : Option Request := do
  let loop ← placeSome? (placeLoop? lines span) request.loop
  some { request with line := known request.line (span.start + 1), loop := loop }

/-- Places a workflow. -/
def placeWorkflow? (span : Span) (workflow : WorkflowDefinition) :
    Option WorkflowDefinition := do
  let items ← itemsOf? lines span "steps"
  let steps ← placeAll? (placeStep? lines) items workflow.steps
  some
    { workflow with line := known workflow.line (span.start + 1), steps := steps }

end Reading

/-- Fills in the lines of a document that are not known, where every line of the
text is read at its index. -/
def annotate? (document : Document) (text : String) : Option Document := do
  let lines := NumberedLine.ofText text.toList
  let requestItems ← itemsOf? lines ⟨0, lines.length⟩ "requests"
  let workflowItems ← itemsOf? lines ⟨0, lines.length⟩ "workflows"
  let requests ←
    if requestItems.length = document.requests.length then
      placeEach? (placeRequest? lines) requestItems document.requests
    else
      some (document.requests.map fun request =>
        { request with
          line := known request.line (Region.nameLine lines request.name) })
  let workflows ←
    if workflowItems.length = document.workflows.length then
      placeEach? (placeWorkflow? lines) workflowItems document.workflows
    else
      some (document.workflows.map fun workflow =>
        { workflow with
          line := known workflow.line (Region.nameLine lines workflow.name) })
  some { document with requests := requests, workflows := workflows }

/-! ## Regions of spans -/

/-- The lines of a text have the numbers of their indexes, counted from one. -/
def Numbered (lines : Region) : Prop :=
  ∀ (index : Nat) (line : NumberedLine),
    lines[index]? = some line → line.number = index + 1

/-- A span lies within the lines, and these are its region. -/
structure Shows (lines : Region) (span : Span) (region : Region) : Prop where
  ordered : span.start ≤ span.stop
  within : span.stop ≤ lines.length
  content : (lines.drop span.start).take (span.stop - span.start) = region

/-- The span of an item begins with the item's first line. -/
structure ShowsItem (lines : Region) (span : Span) (region : Region) : Prop
    extends Shows lines span region where
  first : region.firstLine = span.start + 1

/-- A key is at an index, and the same lines are below it. -/
structure Finds (lines : Region) (stop index : Nat) (declaration : Declaration) :
    Prop where
  line : declaration.line = index + 1
  body :
    ∃ body, below? lines stop index = some body ∧ body.Shows lines declaration.body

variable {lines : Region}

/-- The lines of a nonempty span are its first line and those of the span behind
it. -/
theorem exists_line {index count : Nat}
    (within : index + (count + 1) ≤ lines.length) :
    ∃ line, lines[index]? = some line ∧
      (lines.drop index).take (count + 1) =
        line :: (lines.drop (index + 1)).take count := by
  have bound : index < lines.length := by omega
  refine ⟨lines[index], List.getElem?_eq_getElem bound, ?_⟩
  rw [List.drop_eq_getElem_cons bound, List.take_succ_cons]

/-- The index behind the lines below a column is that of the first line that is
not below it. -/
theorem belowFrom?_eq (column : Nat) {index count : Nat}
    (within : index + count ≤ lines.length) :
    belowFrom? lines column index count =
      some (index +
        (((lines.drop index).take count).takeWhile
          (NumberedLine.isBelow column)).length) := by
  induction count generalizing index with
  | zero => simp [belowFrom?]
  | succ count hypothesis =>
      obtain ⟨line, there, lines_eq⟩ := exists_line within
      simp only [belowFrom?, there, lines_eq, Option.bind_eq_bind,
        Option.bind_some]
      by_cases below : line.isBelow column
      · rw [if_pos below, hypothesis (by omega), List.takeWhile_cons_of_pos below,
          List.length_cons]
        congr 1
        omega
      · rw [if_neg below, List.takeWhile_cons_of_neg below]
        rfl

/-- Lines at the beginning of some others are a span. -/
theorem shows_of_prefix {index : Nat} {region : Region}
    (front : region <+: lines.drop index) (within : index ≤ lines.length) :
    Shows lines ⟨index, index + region.length⟩ region := by
  have length := front.length_le
  rw [List.length_drop] at length
  constructor
  · exact Nat.le_add_right _ _
  · show index + region.length ≤ lines.length
    omega
  · rw [Nat.add_sub_cancel_left]
    exact (List.prefix_iff_eq_take.mp front).symm

/-- What is below a key is a span. -/
theorem below?_shows {index count column : Nat} {line : NumberedLine}
    {name : List Char} (within : index + (count + 1) ≤ lines.length)
    (there : lines[index]? = some line) (keyed : line.key? = some (column, name)) :
    ∃ body, below? lines (index + (count + 1)) index = some body ∧
      body.Shows lines
        (((lines.drop (index + 1)).take count).takeWhile
          (NumberedLine.isBelow column)) := by
  have front :
      ((lines.drop (index + 1)).take count).takeWhile
          (NumberedLine.isBelow column) <+: lines.drop (index + 1) :=
    (List.takeWhile_prefix _).trans (List.take_prefix _ _)
  refine ⟨_, ?_, shows_of_prefix front (by omega)⟩
  simp only [below?, there, keyed, Option.bind_eq_bind, Option.bind_some]
  rw [show index + (count + 1) - (index + 1) = count by omega,
    belowFrom?_eq column (by omega)]
  rfl

/-- Looking for a key by indexes finds what looking for it on the lines finds,
which is the step lemma of the simulation; the induction is on the lines that are
left. -/
theorem findKeyFrom?_finds (key : String) (level : Option Nat) {index count : Nat}
    (numbered : Numbered lines) (within : index + count ≤ lines.length) :
    ∃ found, findKeyFrom? lines key level index count = some found ∧
      Option.Rel (Finds lines (index + count)) found
        (Region.findKey? key level ((lines.drop index).take count)) := by
  -- The end of the search stays where it is, so a key is found with the same
  -- lines below it from whatever index the search has come to.
  induction count generalizing index level with
  | zero =>
      rw [List.take_zero]
      exact ⟨none, rfl, .none⟩
  | succ count hypothesis =>
      have rest : index + 1 + count ≤ lines.length := by omega
      have later (level : Option Nat) := hypothesis level rest
      rw [show index + 1 + count = index + (count + 1) by omega] at later
      obtain ⟨line, there, lines_eq⟩ := exists_line within
      simp only [findKeyFrom?, there, lines_eq, Region.findKey?,
        Option.bind_eq_bind, Option.bind_some]
      cases keyed : line.key? with
      | none => exact later level
      | some found =>
          obtain ⟨column, name⟩ := found
          dsimp only
          by_cases sought : level.getD column = column ∧ name = key.toList
          · rw [if_pos sought, if_pos sought]
            exact ⟨some index, rfl,
              .some ⟨numbered index line there, below?_shows within there keyed⟩⟩
          · rw [if_neg sought, if_neg sought]
            exact later _

section Placing

variable {span : Span} {region : Region}

/-- A key is found through a span as it is found in the region. -/
theorem Shows.keyIndex? (shows : span.Shows lines region)
    (numbered : Numbered lines) (key : String) :
    ∃ found, span.keyIndex? lines key = some found ∧
      Option.Rel (Finds lines span.stop) found (region.declaration? key) := by
  have ordered := shows.ordered
  have within := shows.within
  have all : span.start + (span.stop - span.start) ≤ lines.length := by omega
  have finds := findKeyFrom?_finds key none numbered all
  rw [Nat.add_sub_cancel' ordered, shows.content] at finds
  rw [Span.keyIndex?, Nat.min_eq_left within]
  exact finds

/-- A span that shows a region has the line of a key where the region has it. -/
theorem Shows.lineOf? (shows : span.Shows lines region) (numbered : Numbered lines)
    (key : String) (other : Nat) :
    span.lineOf? lines key other = some (region.lineOf key other) := by
  obtain ⟨found, searched, finds⟩ := shows.keyIndex? numbered key
  simp only [Span.lineOf?, searched, Region.lineOf, Option.bind_eq_bind,
    Option.bind_some]
  generalize region.declaration? key = declaration at finds ⊢
  cases finds with
  | none => rfl
  | some finds =>
      simp only [Option.map_some, Option.getD_some]
      rw [finds.line]

/-- The first item begins where the lines in front of it end. -/
theorem startsFrom?_shows (column : Nat) {index count : Nat}
    (numbered : Numbered lines) (within : index + count ≤ lines.length) :
    ∃ starts, startsFrom? lines (some column) index count = some starts ∧
      starts.head?.getD (index + count) =
        index +
          (((lines.drop index).take count).takeWhile fun line =>
            !Region.beginsItemIn column line).length ∧
      List.Forall₂ (ShowsItem lines) (between (index + count) starts)
        (Region.splitBefore (Region.beginsItemIn column)
          ((lines.drop index).take count)) := by
  induction count generalizing index with
  | zero => exact ⟨[], rfl, by simp, by simp [between, Region.splitBefore]⟩
  | succ count hypothesis =>
      have rest : index + 1 + count ≤ lines.length := by omega
      obtain ⟨starts, searched, first, shows⟩ := hypothesis rest
      rw [show index + 1 + count = index + (count + 1) by omega] at first shows
      obtain ⟨line, there, lines_eq⟩ := exists_line within
      have same :
          (line.beginsItem &&
              (some column).getD line.indentation == line.indentation) =
            Region.beginsItemIn column line := by
        rw [Region.beginsItemIn, Option.getD_some, Bool.beq_comm]
      simp only [startsFrom?, there, lines_eq, same, Region.splitBefore,
        Option.bind_eq_bind, Option.bind_some]
      by_cases begins : Region.beginsItemIn column line = true
      · have indented : line.indentation = column := by
          rw [Region.beginsItemIn, Bool.and_eq_true, beq_iff_eq] at begins
          exact begins.2
        rw [if_pos begins, if_pos begins, indented, searched]
        refine ⟨index :: starts, rfl, ?_, ?_⟩
        · simp [begins]
        · have front :
              line ::
                  ((lines.drop (index + 1)).take count).takeWhile
                    (fun line => !Region.beginsItemIn column line) <+:
                lines.drop index := by
            refine .trans ?_
              (lines_eq ▸ List.take_prefix (count + 1) (lines.drop index))
            exact List.cons_prefix_cons.mpr ⟨rfl, List.takeWhile_prefix _⟩
          have span := shows_of_prefix front (by omega)
          rw [List.length_cons, Nat.add_comm _ 1, ← Nat.add_assoc, ← first] at span
          exact .cons ⟨span, numbered index line there⟩ shows
      · rw [if_neg begins, if_neg begins]
        refine ⟨starts, searched, ?_, shows⟩
        rw [first, List.takeWhile_cons_of_pos (by simpa using begins),
          List.length_cons]
        omega

/-- The lines in front of the first item of all are passed over. -/
theorem startsFrom?_items {index count : Nat} (numbered : Numbered lines)
    (within : index + count ≤ lines.length) :
    ∃ starts, startsFrom? lines none index count = some starts ∧
      List.Forall₂ (ShowsItem lines) (between (index + count) starts)
        (Region.items ((lines.drop index).take count)) := by
  induction count generalizing index with
  | zero => exact ⟨[], rfl, by simp [between, Region.items]⟩
  | succ count hypothesis =>
      obtain ⟨line, there, lines_eq⟩ := exists_line within
      by_cases begins : line.beginsItem = true
      · -- The first item sets the column, so the search for items of that column
        -- finds the same.
        obtain ⟨starts, searched, -, shows⟩ :=
          startsFrom?_shows line.indentation numbered within
        refine ⟨starts, ?_, ?_⟩
        · rw [← searched]
          simp only [startsFrom?, there, begins, Option.getD_none,
            Option.getD_some, beq_self_eq_true, Bool.and_self, if_true,
            Option.bind_eq_bind, Option.bind_some]
        · rw [Region.items, lines_eq, List.find?_cons_of_pos begins, ← lines_eq]
          exact shows
      · have rest : index + 1 + count ≤ lines.length := by omega
        obtain ⟨starts, searched, shows⟩ := hypothesis rest
        rw [show index + 1 + count = index + (count + 1) by omega] at shows
        refine ⟨starts, ?_, ?_⟩
        · simp [startsFrom?, there, begins, searched]
        · rw [Region.items] at shows ⊢
          rw [lines_eq, List.find?_cons_of_neg begins]
          cases found : (List.take count (List.drop (index + 1) lines)).find?
              NumberedLine.beginsItem with
          | none =>
              rw [found] at shows
              exact shows
          | some first =>
              rw [found] at shows
              dsimp only at shows ⊢
              rw [Region.splitBefore,
                if_neg (by simp [Region.beginsItemIn, begins])]
              exact shows

/-- The items of a list are found through a span as they are found in the
region. -/
theorem Shows.itemsOf? (shows : span.Shows lines region)
    (numbered : Numbered lines) (key : String) :
    ∃ items, span.itemsOf? lines key = some items ∧
      List.Forall₂ (ShowsItem lines) items (region.itemsOf key) := by
  obtain ⟨found, searched, finds⟩ := shows.keyIndex? numbered key
  simp only [Span.itemsOf?, searched, Region.itemsOf, Option.bind_eq_bind,
    Option.bind_some]
  generalize region.declaration? key = declaration at finds ⊢
  cases finds with
  | none => exact ⟨[], rfl, .nil⟩
  | some finds =>
      obtain ⟨body, below, inner⟩ := finds.body
      have whole : body.start + (body.stop - body.start) = body.stop :=
        Nat.add_sub_cancel' inner.ordered
      obtain ⟨starts, started, items⟩ := startsFrom?_items numbered
        (le_of_eq_of_le whole inner.within)
      rw [whole, inner.content] at items
      simp only [below, started, Option.bind_some]
      exact ⟨_, rfl, items⟩

/-! ## Placing through spans -/

/-- If one part is placed alike by span and by region, parts one by one are
too. -/
theorem placeEach?_eq {Part : Type} {place? : Span → Part → Option Part}
    {place : Region → Part → Part} {spans : List Span} {regions : List Region}
    (same : ∀ {span region}, ShowsItem lines span region →
      ∀ part, place? span part = some (place region part))
    (shows : List.Forall₂ (ShowsItem lines) spans regions) (parts : List Part) :
    placeEach? place? spans parts = some (List.zipWith place regions parts) := by
  induction shows generalizing parts with
  | nil => rfl
  | cons span shows hypothesis =>
      cases parts with
      | nil => rfl
      | cons part parts => simp [placeEach?, same span, hypothesis]

/-- The same with as many spans as regions, so the test of their number comes out
alike. -/
theorem placeAll?_eq {Part : Type} {place? : Span → Part → Option Part}
    {place : Region → Part → Part} {spans : List Span} {regions : List Region}
    (same : ∀ {span region}, ShowsItem lines span region →
      ∀ part, place? span part = some (place region part))
    (shows : List.Forall₂ (ShowsItem lines) spans regions) (parts : List Part) :
    placeAll? place? spans parts = some (placeAll place regions parts) := by
  rw [placeAll?, placeAll, shows.length_eq, placeEach?_eq same shows]
  split <;> rfl

theorem placeSome?_eq {Part : Type} {place? : Part → Option Part}
    {place : Part → Part} (same : ∀ part, place? part = some (place part))
    (part : Option Part) : placeSome? place? part = some (part.map place) := by
  cases part with
  | none => rfl
  | some part => simp [placeSome?, same]

/-- Each part of a document is placed in a span as it is in the region that the
span shows; one lemma for each kind of part. -/
theorem Shows.placeLoop? (shows : span.Shows lines region)
    (numbered : Numbered lines) (loop : LoopDefinition) :
    span.placeLoop? lines loop = some (placeLoop region loop) := by
  obtain ⟨found, searched, finds⟩ := shows.keyIndex? numbered "for_each"
  simp only [Span.placeLoop?, searched, placeLoop, Option.bind_eq_bind,
    Option.bind_some]
  generalize region.declaration? "for_each" = declaration at finds ⊢
  cases finds with
  | none => rfl
  | some finds =>
      obtain ⟨body, below, inner⟩ := finds.body
      simp only [below, inner.lineOf? numbered, finds.line, Option.bind_some]

theorem Shows.placeBranchAt? (shows : span.Shows lines region)
    (numbered : Numbered lines) (line : Nat) (branch : Branch) :
    span.placeBranchAt? lines line branch =
      some (placeBranchAt line region branch) := by
  simp only [Span.placeBranchAt?, shows.lineOf? numbered, placeBranchAt,
    Option.bind_eq_bind, Option.bind_some]

theorem ShowsItem.placeBranch? (shows : span.ShowsItem lines region)
    (numbered : Numbered lines) (branch : Branch) :
    span.placeBranch? lines branch = some (placeBranch region branch) := by
  rw [Span.placeBranch?, shows.placeBranchAt? numbered, placeBranch, shows.first]

theorem Shows.placeKeyedBranch? (shows : span.Shows lines region)
    (numbered : Numbered lines) (key : String) (branch : Branch) :
    span.placeKeyedBranch? lines key branch =
      some (placeKeyedBranch key region branch) := by
  obtain ⟨found, searched, finds⟩ := shows.keyIndex? numbered key
  simp only [Span.placeKeyedBranch?, searched, placeKeyedBranch,
    Option.bind_eq_bind, Option.bind_some]
  generalize region.declaration? key = declaration at finds ⊢
  cases finds with
  | none => rfl
  | some finds =>
      obtain ⟨body, below, inner⟩ := finds.body
      simp only [below, inner.placeBranchAt? numbered, finds.line,
        Option.bind_some]

theorem Shows.placeConditional? (shows : span.Shows lines region)
    (numbered : Numbered lines) (block : ConditionalBlock) :
    span.placeConditional? lines block = some (placeConditional region block) := by
  obtain ⟨found, searched, finds⟩ := shows.keyIndex? numbered "if"
  simp only [Span.placeConditional?, searched, placeConditional,
    Option.bind_eq_bind, Option.bind_some]
  generalize region.declaration? "if" = declaration at finds ⊢
  cases finds with
  | none => rfl
  | some finds =>
      obtain ⟨body, below, inner⟩ := finds.body
      obtain ⟨items, listed, others⟩ := inner.itemsOf? numbered "elif"
      have branches :=
        placeAll?_eq (fun item => item.placeBranch? numbered) others block.others
      have otherwise :=
        placeSome?_eq (inner.placeKeyedBranch? numbered "else") block.otherwise
      simp only [below, inner.placeKeyedBranch? numbered, listed, branches,
        otherwise, Option.bind_some]

theorem Shows.placeSwitch? (shows : span.Shows lines region)
    (numbered : Numbered lines) (block : SwitchBlock) :
    span.placeSwitch? lines block = some (placeSwitch region block) := by
  obtain ⟨found, searched, finds⟩ := shows.keyIndex? numbered "switch"
  simp only [Span.placeSwitch?, searched, placeSwitch, Option.bind_eq_bind,
    Option.bind_some]
  generalize region.declaration? "switch" = declaration at finds ⊢
  cases finds with
  | none => rfl
  | some finds =>
      obtain ⟨body, below, inner⟩ := finds.body
      obtain ⟨items, listed, cases⟩ := inner.itemsOf? numbered "cases"
      have branches :=
        placeAll?_eq (fun item => item.placeBranch? numbered) cases block.cases
      have otherwise :=
        placeSome?_eq (inner.placeKeyedBranch? numbered "default") block.otherwise
      simp only [below, inner.lineOf? numbered, listed, branches, otherwise,
        finds.line, Option.bind_some]

theorem ShowsItem.placeStep? (shows : span.ShowsItem lines region)
    (numbered : Numbered lines) (step : StepDefinition) :
    span.placeStep? lines step = some (placeStep region step) := by
  have loop := placeSome?_eq (shows.placeLoop? numbered) step.loop
  have conditional :=
    placeSome?_eq (shows.placeConditional? numbered) step.conditional
  have switch := placeSome?_eq (shows.placeSwitch? numbered) step.switch
  simp only [Span.placeStep?, shows.lineOf? numbered, loop, conditional, switch,
    placeStep, shows.first, Option.bind_eq_bind, Option.bind_some]

theorem ShowsItem.placeRequest? (shows : span.ShowsItem lines region)
    (numbered : Numbered lines) (request : Request) :
    span.placeRequest? lines request = some (placeRequest region request) := by
  have loop := placeSome?_eq (shows.placeLoop? numbered) request.loop
  simp only [Span.placeRequest?, loop, placeRequest, shows.first,
    Option.bind_eq_bind, Option.bind_some]

theorem ShowsItem.placeWorkflow? (shows : span.ShowsItem lines region)
    (numbered : Numbered lines) (workflow : WorkflowDefinition) :
    span.placeWorkflow? lines workflow = some (placeWorkflow region workflow) := by
  obtain ⟨items, listed, steps⟩ := shows.itemsOf? numbered "steps"
  have placed :=
    placeAll?_eq (fun item => item.placeStep? numbered) steps workflow.steps
  simp only [Span.placeWorkflow?, listed, placed, placeWorkflow, shows.first,
    Option.bind_eq_bind, Option.bind_some]

end Placing

/-- The lines of a text carry their own numbers. -/
theorem numbered_ofText (text : List Char) :
    Numbered (NumberedLine.ofText text) := by
  intro index line there
  rw [NumberedLine.ofText, List.getElem?_mapIdx, Option.map_eq_some_iff] at there
  obtain ⟨_, _, rfl⟩ := there
  rfl

/-- Whatever the text and the document, no line is read that the text does not
have, and what comes of it is the annotated document. -/
theorem annotate?_eq (document : Document) (text : String) :
    annotate? document text = some (document.annotate text) := by
  have numbered := numbered_ofText text.toList
  have shows :
      Shows (NumberedLine.ofText text.toList)
        ⟨0, (NumberedLine.ofText text.toList).length⟩
        (NumberedLine.ofText text.toList) :=
    ⟨Nat.zero_le _, Nat.le_refl _, List.take_length⟩
  obtain ⟨requestItems, requestsListed, requests⟩ :=
    shows.itemsOf? numbered "requests"
  obtain ⟨workflowItems, workflowsListed, workflows⟩ :=
    shows.itemsOf? numbered "workflows"
  have placedRequests :=
    placeEach?_eq (fun item => item.placeRequest? numbered) requests
      document.requests
  have placedWorkflows :=
    placeEach?_eq (fun item => item.placeWorkflow? numbered) workflows
      document.workflows
  simp only [annotate?, requestsListed, workflowsListed, placedRequests,
    placedWorkflows, requests.length_eq, workflows.length_eq, Option.bind_eq_bind,
    Option.bind_some, annotate]
  split <;> split <;> rfl

end Span

end RequestFlow.Document
