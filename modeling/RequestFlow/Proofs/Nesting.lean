import Mathlib.Data.List.Pairwise
import RequestFlow.Proofs.Spans

/-!
# Lines within lines

Annotation fills in the lines that are not known with lines that it finds, and it
finds them in regions that lie within each other.  Main statement: for every text
and every document, no line is read that the text does not have; only lines that
are not known change, to lines of the text; a second annotation changes nothing;
and where no line was known before, the lines of what is declared within something
lie between the line of that and the line of what is declared next.
-/

namespace RequestFlow

/-! ## Line numbers of a document -/

/-- The line of a loop. -/
def LoopDefinition.lines (loop : LoopDefinition) : List Nat := [loop.line]

def LoopDefinition.withoutLines (loop : LoopDefinition) : LoopDefinition :=
  { loop with line := 0 }

/-- The line of a branch. -/
def Branch.lines (branch : Branch) : List Nat := [branch.line]

def Branch.withoutLines (branch : Branch) : Branch :=
  { branch with line := 0 }

/-- The lines of the branches of a choice by conditions. -/
def ConditionalBlock.lines (block : ConditionalBlock) : List Nat :=
  block.first.lines ++ (block.others.flatMap Branch.lines ++
    block.otherwise.toList.flatMap Branch.lines)

def ConditionalBlock.withoutLines (block : ConditionalBlock) : ConditionalBlock :=
  { first := block.first.withoutLines
    others := block.others.map Branch.withoutLines
    otherwise := block.otherwise.map Branch.withoutLines }

/-- The lines of the subject and of the cases of a choice by a value. -/
def SwitchBlock.lines (block : SwitchBlock) : List Nat :=
  block.line :: (block.cases.flatMap Branch.lines ++
    block.otherwise.toList.flatMap Branch.lines)

def SwitchBlock.withoutLines (block : SwitchBlock) : SwitchBlock :=
  { block with
    cases := block.cases.map Branch.withoutLines
    otherwise := block.otherwise.map Branch.withoutLines
    line := 0 }

/-- The lines of what a step declares: its condition, its loop and its branches. -/
def StepDefinition.partLines (step : StepDefinition) : List Nat :=
  step.guardLine :: (step.loop.toList.flatMap LoopDefinition.lines ++
    (step.conditional.toList.flatMap ConditionalBlock.lines ++
      step.switch.toList.flatMap SwitchBlock.lines))

/-- The line of a step and those of what it declares. -/
def StepDefinition.lines (step : StepDefinition) : List Nat :=
  step.line :: step.partLines

def StepDefinition.withoutLines (step : StepDefinition) : StepDefinition :=
  { step with
    line := 0
    guardLine := 0
    loop := step.loop.map LoopDefinition.withoutLines
    conditional := step.conditional.map ConditionalBlock.withoutLines
    switch := step.switch.map SwitchBlock.withoutLines }

/-- The line of a request and that of its loop. -/
def Request.lines (request : Request) : List Nat :=
  request.line :: request.loop.toList.flatMap LoopDefinition.lines

def Request.withoutLines (request : Request) : Request :=
  { request with line := 0, loop := request.loop.map LoopDefinition.withoutLines }

/-- The line of a workflow and those of its steps. -/
def WorkflowDefinition.lines (workflow : WorkflowDefinition) : List Nat :=
  workflow.line :: workflow.steps.flatMap StepDefinition.lines

def WorkflowDefinition.withoutLines (workflow : WorkflowDefinition) :
    WorkflowDefinition :=
  { workflow with
    line := 0
    steps := workflow.steps.map StepDefinition.withoutLines }

/-- The known ones of some lines are in front of a line. -/
def Before (lines : List Nat) (line : Nat) : Prop :=
  ∀ other ∈ lines, other ≠ 0 → other < line

/-- A step is declared behind its workflow, what it declares stands behind it, and
all of it is in front of the next step. -/
structure WorkflowDefinition.Nests (workflow : WorkflowDefinition) : Prop where
  behindWorkflow :
    ∀ step ∈ workflow.steps, step.line ≠ 0 → workflow.line < step.line
  behindStep :
    ∀ step ∈ workflow.steps, ∀ line ∈ step.partLines, line ≠ 0 → step.line ≤ line
  beforeStep : workflow.steps.Pairwise fun step next => Before step.lines next.line

namespace Document

/-- All line numbers of a document. -/
def lines (document : Document) : List Nat :=
  document.requests.flatMap Request.lines ++
    document.workflows.flatMap WorkflowDefinition.lines

/-- All of a document but its line numbers. -/
def withoutLines (document : Document) : Document :=
  { document with
    requests := document.requests.map Request.withoutLines
    workflows := document.workflows.map WorkflowDefinition.withoutLines }

/-! ## Regions within regions -/

/-- A line number stays, or it was not known and becomes one of some others. -/
def Fills (numbers : List Nat) (before after : Nat) : Prop :=
  after = before ∨ before = 0 ∧ after ∈ numbers

/-- What is filled in from some numbers is filled in from more of them. -/
theorem Fills.mono {numbers others : List Nat} (among : numbers ⊆ others)
    {before after : Nat} (fills : Fills numbers before after) :
    Fills others before after :=
  fills.imp_right fun found => ⟨found.1, among found.2⟩

/-- A line that is found is filled in only where none was known. -/
theorem fills_known {numbers : List Nat} (line : Nat) {found : Nat}
    (among : found = 0 ∨ found ∈ numbers) :
    Fills numbers line (known line found) := by
  rw [known]
  by_cases unknown : line = 0
  · rw [if_pos unknown]
    rcases among with rfl | among
    · exact .inl unknown.symm
    · exact .inr ⟨unknown, among⟩
  · rw [if_neg unknown]
    exact .inl rfl

/-- A line that was filled in is not filled in again. -/
theorem known_known (line found : Nat) :
    known (known line found) found = known line found := by
  simp only [known]
  split <;> simp_all

namespace Region

/-- The numbers of a region's lines. -/
def numbers (region : Region) : List Nat :=
  region.map NumberedLine.number

/-- A key and the lines below it are lines of the region, in this order. -/
theorem sublist_of_findKey? {key : String} {level : Option Nat} {region : Region}
    {declaration : Declaration}
    (found : region.findKey? key level = some declaration) :
    (declaration.line :: numbers declaration.body).Sublist region.numbers := by
  induction region generalizing level with
  | nil => cases found
  | cons line region hypothesis =>
      rw [findKey?] at found
      split at found
      · exact (hypothesis found).cons _
      · split at found
        · rcases Option.some.inj found with rfl
          exact ((List.takeWhile_sublist _).map _).cons_cons _
        · exact (hypothesis found).cons _

/-- The body of a declaration lies in the region of the declaration. -/
theorem numbers_subset_of_declaration? {key : String} {region : Region}
    {declaration : Declaration}
    (found : region.declaration? key = some declaration) :
    numbers declaration.body ⊆ region.numbers :=
  List.subset_of_cons_subset (sublist_of_findKey? found).subset

/-- The line of a declaration is one of its region. -/
theorem line_mem_of_declaration? {key : String} {region : Region}
    {declaration : Declaration}
    (found : region.declaration? key = some declaration) :
    declaration.line ∈ region.numbers :=
  (sublist_of_findKey? found).subset List.mem_cons_self

/-- The line of a key is one of the region, or what is taken where the key is
absent. -/
theorem lineOf_eq_or_mem (region : Region) (key : String) (other : Nat) :
    region.lineOf key other = other ∨
      region.lineOf key other ∈ region.numbers := by
  rw [lineOf]
  cases found : region.declaration? key with
  | none => exact .inl rfl
  | some declaration => exact .inr (line_mem_of_declaration? found)

/-- The first line of a region is one of its lines, unless it has none. -/
theorem firstLine_eq_or_mem (region : Region) :
    region.firstLine = 0 ∨ region.firstLine ∈ region.numbers := by
  cases region with
  | nil => exact .inl rfl
  | cons line region => exact .inr List.mem_cons_self

/-- The line of a name is one of the region, unless the name is absent. -/
theorem nameLine_eq_or_mem (region : Region) (name : String) :
    region.nameLine name = 0 ∨ region.nameLine name ∈ region.numbers := by
  rw [nameLine]
  cases found : region.find? (NumberedLine.givesName name) with
  | none => exact .inl rfl
  | some line => exact .inr (List.mem_map_of_mem (List.mem_of_find?_eq_some found))

/-- The items are the lines from the first one on that begins an item. -/
theorem flatten_splitBefore (test : NumberedLine → Bool) (region : Region) :
    (region.splitBefore test).flatten =
      region.dropWhile fun line => !test line := by
  induction region with
  | nil => rfl
  | cons line region hypothesis =>
      rw [splitBefore]
      by_cases begins : test line = true
      · rw [if_pos begins, List.flatten_cons, hypothesis,
          List.dropWhile_cons_of_neg (by simp [begins]), List.cons_append,
          List.takeWhile_append_dropWhile]
      · rw [if_neg begins, hypothesis,
          List.dropWhile_cons_of_pos (by simp [begins])]

/-- No part of a region that is split is empty. -/
theorem ne_nil_of_mem_splitBefore {test : NumberedLine → Bool}
    {region item : Region} (member : item ∈ region.splitBefore test) :
    item ≠ [] := by
  induction region with
  | nil => cases member
  | cons line region hypothesis =>
      rw [splitBefore] at member
      split at member
      · rcases List.mem_cons.mp member with rfl | member
        · exact List.cons_ne_nil _ _
        · exact hypothesis member
      · exact hypothesis member

theorem ne_nil_of_mem_itemsOf {region item : Region} {key : String}
    (member : item ∈ region.itemsOf key) : item ≠ [] := by
  rw [itemsOf] at member
  cases found : region.declaration? key with
  | none =>
      rw [found] at member
      cases member
  | some declaration =>
      rw [found, Option.map_some, Option.getD_some, items] at member
      split at member
      · cases member
      · exact ne_nil_of_mem_splitBefore member

/-- The items below a key are lines of the region behind its first one. -/
theorem numbers_itemsOf (region : Region) (key : String) :
    (numbers (region.itemsOf key).flatten).Sublist region.numbers.tail := by
  rw [itemsOf]
  cases found : region.declaration? key with
  | none => exact List.nil_sublist _
  | some declaration =>
      have below : (items declaration.body).flatten.Sublist declaration.body := by
        rw [items]
        split
        · exact List.nil_sublist _
        · rw [flatten_splitBefore]
          exact List.dropWhile_sublist _
      exact (below.map _).trans (sublist_of_findKey? found).tail

/-- An item lies in the region of its list. -/
theorem numbers_subset_of_mem_itemsOf {region item : Region} {key : String}
    (member : item ∈ region.itemsOf key) : item.numbers ⊆ region.numbers := by
  intro number among
  refine List.mem_of_mem_tail ((numbers_itemsOf region key).subset ?_)
  rw [numbers, List.map_flatten, List.mem_flatten]
  exact ⟨_, List.mem_map_of_mem member, among⟩

end Region

/-! ## Placing parts -/

/-- Placing parts in a region fills in lines of the region that are not known, and
nothing else; to do it again changes nothing. -/
structure Settles {Part : Type} (lines : Part → List Nat)
    (withoutLines : Part → Part) (numbers : List Nat) (place : Part → Part) :
    Prop where
  same : ∀ part, withoutLines (place part) = withoutLines part
  fills : ∀ part, List.Forall₂ (Fills numbers) (lines part) (lines (place part))
  again : ∀ part, place (place part) = place part

namespace Settles

variable {Part : Type} {lines : Part → List Nat} {withoutLines : Part → Part}
  {numbers : List Nat}

/-- What settles on some lines settles on more of them. -/
theorem mono {others : List Nat} {place : Part → Part} (among : numbers ⊆ others)
    (settles : Settles lines withoutLines numbers place) :
    Settles lines withoutLines others place :=
  ⟨settles.same, fun part => (settles.fills part).imp fun _ _ => Fills.mono among,
    settles.again⟩

theorem forall₂_fills (before : List Nat) :
    List.Forall₂ (Fills numbers) before before :=
  List.forall₂_same.mpr fun _ _ => .inl rfl

theorem forNone : Settles lines withoutLines numbers fun part => part :=
  ⟨fun _ => rfl, fun _ => forall₂_fills _, fun _ => rfl⟩

/-- What settles on lines does so for an optional part. -/
theorem forOption {place : Part → Part}
    (settles : Settles lines withoutLines numbers place) :
    Settles (fun part : Option Part => part.toList.flatMap lines)
      (Option.map withoutLines) numbers (Option.map place) := by
  constructor
  · rintro (_ | part)
    · rfl
    · exact congrArg some (settles.same part)
  · rintro (_ | part)
    · exact .nil
    · simpa using settles.fills part
  · rintro (_ | part)
    · rfl
    · exact congrArg some (settles.again part)

/-- As many parts as regions. -/
theorem forEach {place : Region → Part → Part} {regions : List Region}
    {parts : List Part}
    (settles :
      ∀ region ∈ regions, Settles lines withoutLines numbers (place region))
    (enough : regions.length = parts.length) :
    (List.zipWith place regions parts).map withoutLines = parts.map withoutLines ∧
      List.Forall₂ (Fills numbers) (parts.flatMap lines)
        ((List.zipWith place regions parts).flatMap lines) ∧
      List.zipWith place regions (List.zipWith place regions parts) =
        List.zipWith place regions parts := by
  induction regions generalizing parts with
  | nil =>
      rw [List.length_nil, eq_comm, List.length_eq_zero_iff] at enough
      rw [enough]
      exact ⟨rfl, .nil, rfl⟩
  | cons region regions hypothesis =>
      cases parts with
      | nil => cases enough
      | cons part parts =>
          have first := settles region List.mem_cons_self
          obtain ⟨same, fills, again⟩ :=
            hypothesis
              (fun other member => settles other (List.mem_cons_of_mem _ member))
              (Nat.succ.inj enough)
          refine ⟨?_, ?_, ?_⟩
          · rw [List.zipWith_cons_cons, List.map_cons, List.map_cons, first.same,
              same]
          · rw [List.zipWith_cons_cons, List.flatMap_cons, List.flatMap_cons]
            exact List.rel_append (first.fills part) fills
          · rw [List.zipWith_cons_cons, List.zipWith_cons_cons, first.again, again]

/-- What settles on lines does so for every part of a list. -/
theorem forList {place : Part → Part}
    (settles : Settles lines withoutLines numbers place) :
    Settles (List.flatMap lines) (List.map withoutLines) numbers
      (List.map place) := by
  constructor
  · intro parts
    simp [settles.same]
  · intro parts
    induction parts with
    | nil => exact .nil
    | cons part parts hypothesis =>
        exact List.rel_append (settles.fills part) hypothesis
  · intro parts
    simp [settles.again]

/-- Each part in its region if there are as many, and otherwise each part by
itself. -/
theorem forEachOr {place : Region → Part → Part} {other : Part → Part}
    {regions : List Region}
    (settles :
      ∀ region ∈ regions, Settles lines withoutLines numbers (place region))
    (otherwise : Settles lines withoutLines numbers other) :
    Settles (List.flatMap lines) (List.map withoutLines) numbers fun parts =>
      if regions.length = parts.length then List.zipWith place regions parts
      else parts.map other := by
  constructor
  all_goals
    intro parts
    by_cases enough : regions.length = parts.length
  · rw [if_pos enough]
    exact (forEach settles enough).1
  · rw [if_neg enough]
    exact otherwise.forList.same parts
  · rw [if_pos enough]
    exact (forEach settles enough).2.1
  · rw [if_neg enough]
    exact otherwise.forList.fills parts
  · rw [if_pos enough, if_pos (by simp [enough])]
    exact (forEach settles enough).2.2
  · rw [if_neg enough, if_neg (by simpa using enough)]
    exact otherwise.forList.again parts

/-- Parts that each have a region of their own settle if each does. -/
theorem forAll {place : Region → Part → Part} {regions : List Region}
    (settles :
      ∀ region ∈ regions, Settles lines withoutLines numbers (place region)) :
    Settles (List.flatMap lines) (List.map withoutLines) numbers
      (placeAll place regions) := by
  have each := forEachOr settles forNone
  simp only [List.map_id_fun', id] at each
  exact each

end Settles

variable {region : Region}

/-- A line below a key, or that of the key. -/
theorem lineOf_mem_of_declaration? {key : String} {declaration : Declaration}
    (found : region.declaration? key = some declaration) (other : String) :
    declaration.body.lineOf other declaration.line ∈ region.numbers := by
  rcases Region.lineOf_eq_or_mem declaration.body other declaration.line with
    equal | among
  · rw [equal]
    exact Region.line_mem_of_declaration? found
  · exact Region.numbers_subset_of_declaration? found among

/-- A loop settles on the lines of its region. -/
theorem settles_placeLoop (region : Region) :
    Settles LoopDefinition.lines LoopDefinition.withoutLines region.numbers
      (placeLoop region) := by
  unfold placeLoop
  cases found : region.declaration? "for_each" with
  | none => exact .forNone
  | some declaration =>
      refine ⟨fun _ => rfl, fun loop => .cons (fills_known _ ?_) .nil,
        fun loop => ?_⟩
      · exact .inr (lineOf_mem_of_declaration? found "expr")
      · dsimp only
        rw [known_known]

/-- A branch settles on a given line and those of its region. -/
theorem settles_placeBranchAt {line : Nat}
    (among : line = 0 ∨ line ∈ region.numbers) :
    Settles Branch.lines Branch.withoutLines region.numbers
      (placeBranchAt line region) := by
  refine ⟨fun _ => rfl, fun branch => .cons (fills_known _ ?_) .nil,
    fun branch => ?_⟩
  · rcases Region.lineOf_eq_or_mem region "when" line with equal | found
    · rw [equal]
      exact among
    · exact .inr found
  · simp only [placeBranchAt, known_known]

theorem settles_placeBranch (region : Region) :
    Settles Branch.lines Branch.withoutLines region.numbers (placeBranch region) :=
  settles_placeBranchAt (Region.firstLine_eq_or_mem region)

/-- A branch under a key settles on the lines of its block. -/
theorem settles_placeKeyedBranch (key : String) (region : Region) :
    Settles Branch.lines Branch.withoutLines region.numbers
      (placeKeyedBranch key region) := by
  unfold placeKeyedBranch
  cases found : region.declaration? key with
  | none => exact .forNone
  | some declaration =>
      refine ⟨fun _ => rfl, fun branch => .cons (fills_known _ ?_) .nil,
        fun branch => ?_⟩
      · exact .inr (lineOf_mem_of_declaration? found "when")
      · simp only [placeBranchAt, known_known]

theorem settles_placeBranches (key : String) (region : Region) :
    Settles (List.flatMap Branch.lines) (List.map Branch.withoutLines)
      region.numbers (placeAll placeBranch (region.itemsOf key)) :=
  .forAll fun item member =>
    (settles_placeBranch item).mono (Region.numbers_subset_of_mem_itemsOf member)

/-- A conditional settles on the lines of its region, part by part. -/
theorem settles_placeConditional (region : Region) :
    Settles ConditionalBlock.lines ConditionalBlock.withoutLines region.numbers
      (placeConditional region) := by
  unfold placeConditional
  cases found : region.declaration? "if" with
  | none => exact .forNone
  | some declaration =>
      have within := Region.numbers_subset_of_declaration? found
      have first := (settles_placeKeyedBranch "then" declaration.body).mono within
      have others := (settles_placeBranches "elif" declaration.body).mono within
      have otherwise :=
        (settles_placeKeyedBranch "else" declaration.body).forOption.mono within
      refine ⟨fun block => ?_, fun block => ?_, fun block => ?_⟩
      · simp only [ConditionalBlock.withoutLines, first.same, others.same,
          otherwise.same]
      · exact List.rel_append (first.fills _)
          (List.rel_append (others.fills _) (otherwise.fills _))
      · simp only [first.again, others.again, otherwise.again]

/-- A switch settles on the lines of its region, part by part. -/
theorem settles_placeSwitch (region : Region) :
    Settles SwitchBlock.lines SwitchBlock.withoutLines region.numbers
      (placeSwitch region) := by
  unfold placeSwitch
  cases found : region.declaration? "switch" with
  | none => exact .forNone
  | some declaration =>
      have within := Region.numbers_subset_of_declaration? found
      have cases := (settles_placeBranches "cases" declaration.body).mono within
      have otherwise :=
        (settles_placeKeyedBranch "default" declaration.body).forOption.mono within
      refine ⟨fun block => ?_, fun block => ?_, fun block => ?_⟩
      · simp only [SwitchBlock.withoutLines, cases.same, otherwise.same]
      · exact .cons
          (fills_known _ (.inr (lineOf_mem_of_declaration? found "expr")))
          (List.rel_append (cases.fills _) (otherwise.fills _))
      · simp only [cases.again, otherwise.again, known_known]

/-- A step settles on the lines of its region. -/
theorem settles_placeStep (region : Region) :
    Settles StepDefinition.lines StepDefinition.withoutLines region.numbers
      (placeStep region) := by
  have loop := (settles_placeLoop region).forOption
  have conditional := (settles_placeConditional region).forOption
  have switch := (settles_placeSwitch region).forOption
  refine ⟨fun step => ?_, fun step => ?_, fun step => ?_⟩
  · simp only [placeStep, StepDefinition.withoutLines, loop.same, conditional.same,
      switch.same]
  · exact .cons (fills_known _ (Region.firstLine_eq_or_mem region))
      (.cons (fills_known _ (Region.lineOf_eq_or_mem region "when" 0))
        (List.rel_append (loop.fills _)
          (List.rel_append (conditional.fills _) (switch.fills _))))
  · simp only [placeStep, loop.again, conditional.again, switch.again, known_known]

/-- A request settles on the lines of its region. -/
theorem settles_placeRequest (region : Region) :
    Settles Request.lines Request.withoutLines region.numbers
      (placeRequest region) := by
  have loop := (settles_placeLoop region).forOption
  refine ⟨fun request => ?_, fun request => ?_, fun request => ?_⟩
  · simp only [placeRequest, Request.withoutLines, loop.same]
  · exact .cons (fills_known _ (Region.firstLine_eq_or_mem region)) (loop.fills _)
  · simp only [placeRequest, loop.again, known_known]

/-- A workflow settles on the lines of its region, and its steps settle within
them. -/
theorem settles_placeWorkflow (region : Region) :
    Settles WorkflowDefinition.lines WorkflowDefinition.withoutLines region.numbers
      (placeWorkflow region) := by
  have steps :
      Settles (List.flatMap StepDefinition.lines)
        (List.map StepDefinition.withoutLines) region.numbers
        (placeAll placeStep (region.itemsOf "steps")) :=
    .forAll fun item member =>
      (settles_placeStep item).mono (Region.numbers_subset_of_mem_itemsOf member)
  refine ⟨fun workflow => ?_, fun workflow => ?_, fun workflow => ?_⟩
  · simp only [placeWorkflow, WorkflowDefinition.withoutLines, steps.same]
  · exact .cons (fills_known _ (Region.firstLine_eq_or_mem region)) (steps.fills _)
  · simp only [placeWorkflow, steps.again, known_known]

/-- A request that is found by its name alone settles on a line of the text. -/
theorem settles_nameRequest (region : Region) :
    Settles Request.lines Request.withoutLines region.numbers fun request =>
      { request with
        line := known request.line (region.nameLine request.name) } := by
  refine ⟨fun _ => rfl, fun request => ?_, fun request => ?_⟩
  · exact .cons (fills_known _ (Region.nameLine_eq_or_mem region _))
      (Settles.forall₂_fills _)
  · simp only [known_known]

theorem settles_nameWorkflow (region : Region) :
    Settles WorkflowDefinition.lines WorkflowDefinition.withoutLines region.numbers
      fun workflow =>
      { workflow with
        line := known workflow.line (region.nameLine workflow.name) } := by
  refine ⟨fun _ => rfl, fun workflow => ?_, fun workflow => ?_⟩
  · exact .cons (fills_known _ (Region.nameLine_eq_or_mem region _))
      (Settles.forall₂_fills _)
  · simp only [known_known]

/-- The annotation settles on the lines of the text, whether the items are as many
as the parts or not. -/
theorem settles_annotate (text : String) :
    Settles lines withoutLines (Region.numbers (NumberedLine.ofText text.toList))
      fun document => document.annotate text := by
  have requests :=
    Settles.forEachOr
      (fun item
        (member :
          item ∈ Region.itemsOf (NumberedLine.ofText text.toList) "requests") =>
      (settles_placeRequest item).mono
        (Region.numbers_subset_of_mem_itemsOf member))
    (settles_nameRequest (NumberedLine.ofText text.toList))
  have workflows :=
    Settles.forEachOr
      (fun item
        (member :
          item ∈ Region.itemsOf (NumberedLine.ofText text.toList) "workflows") =>
      (settles_placeWorkflow item).mono
        (Region.numbers_subset_of_mem_itemsOf member))
    (settles_nameWorkflow (NumberedLine.ofText text.toList))
  refine ⟨fun document => ?_, fun document => ?_, fun document => ?_⟩
  · simp only [annotate, withoutLines, requests.same, workflows.same]
  · exact List.rel_append (requests.fills _) (workflows.fills _)
  · exact congrArg₂ (Document.mk document.title document.bindings document.options)
      (requests.again document.requests) (workflows.again document.workflows)

/-! ## Lines between lines -/

/-- Requests and workflows that the text has as many of are declared one behind
the other, and all of a workflow is in front of the next one. -/
structure Nests (text : String) (document : Document) : Prop where
  requests :
    (Region.itemsOf (NumberedLine.ofText text.toList) "requests").length =
      document.requests.length →
        (document.requests.map Request.line).Pairwise (· < ·)
  workflows :
    (Region.itemsOf (NumberedLine.ofText text.toList) "workflows").length =
      document.workflows.length →
        (document.workflows.map WorkflowDefinition.line).Pairwise (· < ·)
  steps : ∀ workflow ∈ document.workflows, workflow.Nests
  beforeWorkflow : document.workflows.Pairwise fun workflow next =>
    ∀ step ∈ workflow.steps, Before step.lines next.line

namespace Region

/-- The lines of a region are in the order of their numbers. -/
def Ordered (region : Region) : Prop :=
  region.numbers.Pairwise (· < ·)

/-- The first line of an ordered region comes first. -/
theorem Ordered.firstLine_le {region : Region} (ordered : region.Ordered)
    {line : Nat} (member : line ∈ region.numbers) : region.firstLine ≤ line := by
  cases region with
  | nil => cases member
  | cons first region =>
      rcases List.mem_cons.mp member with rfl | member
      · exact Nat.le_refl _
      · exact Nat.le_of_lt (List.rel_of_pairwise_cons ordered member)

theorem firstLine_mem {region : Region} (nonempty : region ≠ []) :
    region.firstLine ∈ region.numbers := by
  cases region with
  | nil => exact (nonempty rfl).elim
  | cons first region => exact List.mem_cons_self

/-- The items of an ordered region are ordered, and one comes after the other. -/
theorem Ordered.items {region : Region} (ordered : region.Ordered) (key : String) :
    (numbers (region.itemsOf key).flatten).Pairwise (· < ·) :=
  (ordered.sublist (List.tail_sublist _)).sublist (numbers_itemsOf region key)

/-- An item of an ordered region is ordered. -/
theorem Ordered.item {region item : Region} (ordered : region.Ordered)
    {key : String} (member : item ∈ region.itemsOf key) : item.Ordered := by
  have items := ordered.items key
  rw [numbers, List.map_flatten, List.pairwise_flatten] at items
  exact items.1 _ (List.mem_map_of_mem member)

/-- The lines of an item are in front of the next item. -/
theorem Ordered.pairwise_items {region : Region} (ordered : region.Ordered)
    (key : String) : (region.itemsOf key).Pairwise fun item next =>
      ∀ line ∈ item.numbers, line < next.firstLine := by
  have items := ordered.items key
  rw [numbers, List.map_flatten, List.pairwise_flatten, List.pairwise_map] at items
  refine items.2.imp_of_mem ?_
  intro item next _ member less line among
  exact less line among _ (firstLine_mem (ne_nil_of_mem_itemsOf member))

/-- The lines of an item are behind the first line of the region. -/
theorem Ordered.firstLine_lt {region item : Region} (ordered : region.Ordered)
    {key : String} (member : item ∈ region.itemsOf key) {line : Nat}
    (among : line ∈ item.numbers) : region.firstLine < line := by
  have behind : line ∈ region.numbers.tail := by
    refine (numbers_itemsOf region key).subset ?_
    rw [numbers, List.map_flatten, List.mem_flatten]
    exact ⟨_, List.mem_map_of_mem member, among⟩
  cases region with
  | nil => cases behind
  | cons first region => exact List.rel_of_pairwise_cons ordered behind

end Region

/-- A part has the first line of a region, and all of its lines that are known are
in the region. -/
structure Stands (region : Region) (line : Nat) (lines : List Nat) : Prop where
  nonempty : region ≠ []
  first : line = region.firstLine
  among : ∀ other ∈ lines, other ≠ 0 → other ∈ region.numbers

/-- The lines of a part of which no line was known. -/
theorem Settles.among {Part : Type} {lines : Part → List Nat}
    {withoutLines : Part → Part} {numbers : List Nat} {place : Part → Part}
    (settles : Settles lines withoutLines numbers place) {part : Part}
    (unknown : ∀ line ∈ lines part, line = 0) :
    ∀ line ∈ lines (place part), line ≠ 0 → line ∈ numbers := by
  have fills := settles.fills part
  generalize lines part = before, lines (place part) = after at fills unknown
  intro line member visible
  induction fills with
  | nil => cases member
  | @cons first found before after fills _ hypothesis =>
      rw [List.forall_mem_cons] at unknown
      rcases List.mem_cons.mp member with rfl | member
      · rcases fills with same | ⟨_, among⟩
        · exact (visible (same.trans unknown.1)).elim
        · exact among
      · exact hypothesis unknown.2 member

section Standing

variable {Part : Type} {lines : Part → List Nat} {line : Part → Nat}

/-- Parts that are placed by their regions are as many as these, each of them a
placed part. -/
theorem forall₂_zipWith {place : Region → Part → Part} {regions : List Region}
    {parts : List Part} (enough : regions.length = parts.length) :
    List.Forall₂ (fun region placed =>
      region ∈ regions ∧ ∃ part ∈ parts, placed = place region part) regions
      (List.zipWith place regions parts) := by
  induction regions generalizing parts with
  | nil => exact .nil
  | cons region regions hypothesis =>
      cases parts with
      | nil => cases enough
      | cons part parts =>
          refine .cons ⟨List.mem_cons_self, part, List.mem_cons_self, rfl⟩
            ((hypothesis (Nat.succ.inj enough)).imp ?_)
          rintro other placed ⟨there, declared, member, equal⟩
          exact ⟨List.mem_cons_of_mem _ there, declared,
            List.mem_cons_of_mem _ member, equal⟩

/-- Parts of which no line was known stand in the items that they are placed in. -/
theorem stands_of_unknown {withoutLines : Part → Part}
    {place : Region → Part → Part}
    (settles :
      ∀ region : Region, Settles lines withoutLines region.numbers (place region))
    (first : ∀ (region : Region) (part : Part),
        line part = 0 → line (place region part) = region.firstLine)
    (own : ∀ part : Part, line part ∈ lines part) {region : Region} {key : String}
    {parts : List Part} (unknown : ∀ part ∈ parts, ∀ line ∈ lines part, line = 0)
    (enough : (region.itemsOf key).length = parts.length) :
    List.Forall₂ (fun item part => Stands item (line part) (lines part))
      (region.itemsOf key) (List.zipWith place (region.itemsOf key) parts) := by
  refine (forall₂_zipWith enough).imp ?_
  rintro item placed ⟨there, part, member, rfl⟩
  exact ⟨Region.ne_nil_of_mem_itemsOf there,
    first item part (unknown part member _ (own part)),
    (settles item).among (unknown part member)⟩

theorem exists_of_mem_right {First Second : Type}
    {relation : First → Second → Prop} {firsts : List First}
    {seconds : List Second} (related : List.Forall₂ relation firsts seconds)
    {second : Second} (member : second ∈ seconds) :
    ∃ first ∈ firsts, relation first second := by
  induction related with
  | nil => cases member
  | cons related _ hypothesis =>
      rcases List.mem_cons.mp member with rfl | member
      · exact ⟨_, List.mem_cons_self, related⟩
      · obtain ⟨first, there, related⟩ := hypothesis member
        exact ⟨first, List.mem_cons_of_mem _ there, related⟩

/-- Parts that stand in regions one behind the other stand so themselves. -/
theorem pairwise_of_stands {regions : List Region} {parts : List Part}
    (stands :
      List.Forall₂ (fun region part => Stands region (line part) (lines part))
        regions parts)
    (ordered :
      regions.Pairwise fun region next =>
        ∀ line ∈ region.numbers, line < next.firstLine) :
    parts.Pairwise fun part next =>
      line part < line next ∧ Before (lines part) (line next) := by
  induction stands with
  | nil => exact .nil
  | cons stands others hypothesis =>
      rw [List.pairwise_cons] at ordered
      refine .cons ?_ (hypothesis ordered.2)
      intro next member
      obtain ⟨region, there, behind⟩ := exists_of_mem_right others member
      rw [stands.first, behind.first]
      have front := ordered.1 region there
      exact ⟨front _ (Region.firstLine_mem stands.nonempty),
        fun other among visible => front other (stands.among other among visible)⟩

end Standing

/-- Steps without known lines nest in any workflow. -/
theorem nests_of_unknown {workflow : WorkflowDefinition}
    (unknown : ∀ step ∈ workflow.steps, ∀ line ∈ step.lines, line = 0) :
    workflow.Nests := by
  constructor
  · intro step member visible
    exact (visible (unknown step member _ List.mem_cons_self)).elim
  · intro step member line among visible
    exact (visible (unknown step member line (List.mem_cons_of_mem _ among))).elim
  · apply List.pairwise_of_forall_mem_list
    intro step member next _ line among visible
    exact (visible (unknown step member line among)).elim

/-- Steps that stand in the items of a workflow's region are nested. -/
theorem nests_of_stands {workflow : WorkflowDefinition} {region : Region}
    (ordered : region.Ordered) (first : workflow.line = region.firstLine)
    (stands :
      List.Forall₂
        (fun item (step : StepDefinition) => Stands item step.line step.lines)
        (region.itemsOf "steps") workflow.steps) : workflow.Nests := by
  constructor
  · intro step member _
    obtain ⟨item, there, stands⟩ := exists_of_mem_right stands member
    rw [first, stands.first]
    exact ordered.firstLine_lt there (Region.firstLine_mem stands.nonempty)
  · intro step member line among visible
    obtain ⟨item, there, stands⟩ := exists_of_mem_right stands member
    rw [stands.first]
    exact (ordered.item there).firstLine_le
      (stands.among line (List.mem_cons_of_mem _ among) visible)
  · exact (pairwise_of_stands stands (ordered.pairwise_items "steps")).imp
      And.right

theorem known_zero {line : Nat} (unknown : line = 0) (found : Nat) :
    known line found = found :=
  if_pos unknown

/-- A workflow without known lines that is placed in a region has its steps in
it. -/
theorem nests_placeWorkflow {workflow : WorkflowDefinition} {region : Region}
    (ordered : region.Ordered) (unknown : ∀ line ∈ workflow.lines, line = 0) :
    (placeWorkflow region workflow).Nests := by
  have steps : ∀ step ∈ workflow.steps, ∀ line ∈ step.lines, line = 0 := by
    intro step member line among
    exact unknown line
      (List.mem_cons_of_mem _ (List.mem_flatMap.mpr ⟨step, member, among⟩))
  by_cases enough : (region.itemsOf "steps").length = workflow.steps.length
  · apply nests_of_stands ordered
    · exact known_zero (unknown _ List.mem_cons_self) _
    · simp only [placeWorkflow, placeAll, if_pos enough]
      exact stands_of_unknown settles_placeStep
        (fun _ _ unknown => known_zero unknown _) (fun _ => List.mem_cons_self)
        steps enough
  · apply nests_of_unknown
    simp only [placeWorkflow, placeAll, if_neg enough]
    exact steps

/-- The lines of a text are numbered from one on. -/
theorem numbers_ofText (text : List Char) :
    Region.numbers (NumberedLine.ofText text) =
      List.range' 1 (Text.lines text).length := by
  apply List.ext_getElem
  · simp [Region.numbers, NumberedLine.ofText]
  · intro index _ _
    simp [Region.numbers, NumberedLine.ofText, Nat.add_comm]

/-- The lines of a text are in order. -/
theorem ordered_ofText (text : List Char) :
    Region.Ordered (NumberedLine.ofText text) := by
  rw [Region.Ordered, numbers_ofText]
  exact List.pairwise_lt_range'

/-- What stands before all lines of a workflow stands before those of its
steps. -/
theorem Before.of_workflow {workflow : WorkflowDefinition} {line : Nat}
    (before : Before workflow.lines line) :
    ∀ step ∈ workflow.steps, Before step.lines line := by
  intro step member other among
  exact before other
    (List.mem_cons_of_mem _ (List.mem_flatMap.mpr ⟨step, member, among⟩))

section Annotating

variable {document : Document} {text : String}

/-- As many requests as items are placed one by one. -/
theorem requests_annotate
    (enough :
      (Region.itemsOf (NumberedLine.ofText text.toList) "requests").length =
        document.requests.length) :
    (document.annotate text).requests =
      List.zipWith placeRequest
        (Region.itemsOf (NumberedLine.ofText text.toList) "requests")
        document.requests :=
  if_pos enough

/-- As many workflows as items are placed one by one. -/
theorem workflows_annotate
    (enough :
      (Region.itemsOf (NumberedLine.ofText text.toList) "workflows").length =
        document.workflows.length) :
    (document.annotate text).workflows =
      List.zipWith placeWorkflow
        (Region.itemsOf (NumberedLine.ofText text.toList) "workflows")
        document.workflows :=
  if_pos enough

/-- Workflows that are not as many as the items are looked for by their names. -/
theorem workflows_annotate_of_ne
    (differ :
      (Region.itemsOf (NumberedLine.ofText text.toList) "workflows").length ≠
        document.workflows.length) :
    (document.annotate text).workflows = document.workflows.map fun workflow =>
      { workflow with
        line := known workflow.line
          (Region.nameLine (NumberedLine.ofText text.toList) workflow.name) } :=
  if_neg differ

/-- No request and no workflow is lost or added. -/
theorem length_annotate (document : Document) (text : String) :
    (document.annotate text).requests.length = document.requests.length ∧
      (document.annotate text).workflows.length = document.workflows.length := by
  constructor
  all_goals
    simp only [annotate]
    split
    · next enough => simp [enough]
    · exact List.length_map _

/-- Where no line was known before, the lines are nested. -/
theorem nests_annotate (text : String)
    (unknown : ∀ line ∈ document.lines, line = 0) :
    (document.annotate text).Nests text := by
  have requests :
      ∀ request ∈ document.requests, ∀ line ∈ request.lines, line = 0 := by
    intro request member line among
    exact unknown line
      (List.mem_append_left _ (List.mem_flatMap.mpr ⟨request, member, among⟩))
  have workflows :
      ∀ workflow ∈ document.workflows, ∀ line ∈ workflow.lines, line = 0 := by
    intro workflow member line among
    exact unknown line
      (List.mem_append_right _ (List.mem_flatMap.mpr ⟨workflow, member, among⟩))
  have ordered := ordered_ofText text.toList
  have stands
      (enough :
        (Region.itemsOf (NumberedLine.ofText text.toList) "workflows").length =
          document.workflows.length) :=
    stands_of_unknown settles_placeWorkflow
      (fun _ _ unknown => known_zero unknown _) (fun _ => List.mem_cons_self)
      workflows enough
  constructor
  · intro enough
    rw [(length_annotate document text).1] at enough
    rw [requests_annotate enough, List.pairwise_map]
    have stands :=
      stands_of_unknown settles_placeRequest
        (fun _ _ unknown => known_zero unknown _) (fun _ => List.mem_cons_self)
        requests enough
    exact (pairwise_of_stands stands (ordered.pairwise_items "requests")).imp
      And.left
  · intro enough
    rw [(length_annotate document text).2] at enough
    rw [workflows_annotate enough, List.pairwise_map]
    exact (pairwise_of_stands (stands enough)
      (ordered.pairwise_items "workflows")).imp And.left
  · intro workflow member
    by_cases enough :
        (Region.itemsOf (NumberedLine.ofText text.toList) "workflows").length =
          document.workflows.length
    · rw [workflows_annotate enough] at member
      obtain ⟨region, _, there, declared, among, rfl⟩ :=
        exists_of_mem_right (forall₂_zipWith enough) member
      exact nests_placeWorkflow (ordered.item there) (workflows declared among)
    · -- Only the lines of the workflows themselves are set, so there is nothing
      -- to compare.
      rw [workflows_annotate_of_ne enough] at member
      obtain ⟨declared, among, rfl⟩ := List.mem_map.mp member
      apply nests_of_unknown
      intro step member line found
      exact workflows declared among line
        (List.mem_cons_of_mem _ (List.mem_flatMap.mpr ⟨step, member, found⟩))
  · by_cases enough :
        (Region.itemsOf (NumberedLine.ofText text.toList) "workflows").length =
          document.workflows.length
    · rw [workflows_annotate enough]
      refine (pairwise_of_stands (stands enough)
        (ordered.pairwise_items "workflows")).imp ?_
      intro workflow next pair
      exact Before.of_workflow pair.2
    · rw [workflows_annotate_of_ne enough]
      apply List.pairwise_of_forall_mem_list
      intro workflow member next _ step there line among visible
      obtain ⟨declared, declaredThere, rfl⟩ := List.mem_map.mp member
      exact (visible (workflows declared declaredThere line
        (List.mem_cons_of_mem _ (List.mem_flatMap.mpr ⟨step, there, among⟩)))).elim

end Annotating

/-- What annotation does, whether the text is that of the document or not: it
reads no line that the text does not have, it changes no line that is known and
nothing but lines, it sets lines of the text, it does so once, and where it sets
them all they are nested. -/
structure Annotates (text : String) (document annotated : Document) : Prop where
  reads : Span.annotate? document text = some annotated
  same : annotated.withoutLines = document.withoutLines
  fills : List.Forall₂
    (fun before after => after = before ∨
      before = 0 ∧ 1 ≤ after ∧ after ≤ (Text.lines text.toList).length)
    document.lines annotated.lines
  again : annotated.annotate text = annotated
  nests : (∀ line ∈ document.lines, line = 0) → annotated.Nests text

/-- For every text and every document. -/
theorem annotates (document : Document) (text : String) :
    document.Annotates text (document.annotate text) := by
  have settles := settles_annotate text
  constructor
  · exact Span.annotate?_eq document text
  · exact settles.same document
  · refine (settles.fills document).imp ?_
    intro before after fills
    refine fills.imp_right fun found => ⟨found.1, ?_⟩
    have among := found.2
    rw [numbers_ofText, List.mem_range'_1] at among
    omega
  · exact settles.again document
  · exact nests_annotate text

/-- A workflow of two steps, of which no line is known. -/
def tourDocument : Document :=
  { title := none
    bindings := .empty
    options := .inherit
    requests := []
    workflows :=
      [{ name := "tour"
         description := none
         tags := []
         policy := .stop
         options := .inherit
         bindings := .empty
         steps :=
           [{ StepDefinition.ofKind .request with
              using_ := some "visit"
              guard := some "ready" }, { StepDefinition.ofKind .forEach with
              using_ := some "visit"
              loop := some ⟨"users", "user", 0⟩ }]
         line := 0 }] }

theorem annotates_tourDocument :
    let text :=
      "workflows:\n- name: tour\n  steps:\n  - using: visit\n    when: ready\n" ++
        "  - using: visit\n    for_each:\n      expr: users\n"
    (∀ line ∈ tourDocument.lines, line = 0) ∧
      (tourDocument.annotate text).Nests text ∧
      (tourDocument.annotate text).lines = [2, 4, 5, 6, 0, 8] := by
  intro text
  have unknown : ∀ line ∈ tourDocument.lines, line = 0 := by decide
  refine ⟨unknown, (annotates tourDocument text).nests unknown, ?_⟩
  decide +kernel

end Document

end RequestFlow
