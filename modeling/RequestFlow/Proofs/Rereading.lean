import RequestFlow.Proofs.Leaves

/-!
# Trees that are read back

A tree stands for a sequence of tokens, whatever blanks are between them.  Reading
the sequence gives the tree, and a printer that writes the sequence can choose the
blanks.  Main statement: the text of a tree with one part a line is read as the
tree.
-/

namespace RequestFlow.Json

/-! ## The tokens of a tree -/

mutual

/-- The kinds of the tokens that a tree is written with. -/
def Syntax.kinds : Syntax → List Kind
  | .array [] => [.mark '[', .mark ']']
  | .array (item :: items) =>
      .mark '[' :: (item.kinds ++ Syntax.kindsOfItems items)
  | .object [] => [.mark '{', .mark '}']
  | .object (field :: fields) =>
      .mark '{' :: .leaf (.string field.1) :: .mark ':' ::
        (field.2.kinds ++ Syntax.kindsOfFields fields)
  | .null => [.leaf .null]
  | .bool value => [.leaf (.bool value)]
  | .number value => [.leaf (.number value)]
  | .string value => [.leaf (.string value)]

/-- The items after the first one, each behind a comma, and the end of the list. -/
def Syntax.kindsOfItems : List Syntax → List Kind
  | [] => [.mark ']']
  | item :: items => .mark ',' :: (item.kinds ++ Syntax.kindsOfItems items)

/-- The fields after the first one, each behind a comma, and the end of the
object. -/
def Syntax.kindsOfFields : List (Option String × Syntax) → List Kind
  | [] => [.mark '}']
  | field :: fields =>
      .mark ',' :: .leaf (.string field.1) :: .mark ':' ::
        (field.2.kinds ++ Syntax.kindsOfFields fields)

end

/-- The leaves of a tree are present, its numbers are integers, and its lists and
objects are nested at most so many levels. -/
inductive Syntax.Readable : Nat → Syntax → Prop where
  | null {depth : Nat} : Readable depth .null
  | bool {depth : Nat} (value : Bool) : Readable depth (.bool value)
  | integer {depth : Nat} {value : Int} (within : Number.InRange value) :
      Readable depth (.number (some (.integer value)))
  | text {depth : Nat} (text : String) : Readable depth (.string (some text))
  | array {depth : Nat} {items : List Syntax}
      (each : ∀ item ∈ items, Readable depth item) :
      Readable (depth + 1) (.array items)
  | object {depth : Nat} {fields : List (Option String × Syntax)}
      (named : ∀ field ∈ fields, field.1.isSome = true)
      (each : ∀ field ∈ fields, Readable depth field.2) :
      Readable (depth + 1) (.object fields)

/-! ## Reading tokens -/

/-- A value is expected, or a value or the end of a list. -/
def Expected.Awaits (expected : Expected) : Prop :=
  expected = .value ∨ expected = .item

namespace Reader

variable {strictness : Strictness} {reader middle next : Reader}
  {first second : List Kind}

/-- Tokens of the kinds take the reader from one state to another. -/
def Takes (strictness : Strictness) (reader : Reader) (kinds : List Kind)
    (next : Reader) : Prop :=
  ∀ tokens, tokens.map Token.kind = kinds → reader.run strictness tokens = .ok next

/-- A reader reads two sequences of tokens one after the other. -/
theorem run_append (tokens others : List Token) :
    reader.run strictness (tokens ++ others) =
      (reader.run strictness tokens).bind fun next =>
        next.run strictness others := by
  induction tokens generalizing reader with
  | nil => rfl
  | cons token tokens hypothesis =>
      rw [List.cons_append, run, run]
      cases reader.step strictness token with
      | error failure => rfl
      | ok next => exact hypothesis

/-- What is taken in two parts is taken as a whole. -/
theorem Takes.append (left : Takes strictness reader first middle)
    (right : Takes strictness middle second next) :
    Takes strictness reader (first ++ second) next := by
  intro tokens kinds
  rcases List.map_eq_append_iff.mp kinds with ⟨before, after, rfl, befores, afters⟩
  rw [run_append, left before befores]
  exact right after afters

/-- A token that fits is taken before the others. -/
theorem Takes.cons {kind : Kind} (middle : Reader)
    (step : ∀ rest, reader.step strictness ⟨kind, rest⟩ = .ok middle)
    (right : Takes strictness middle second next) :
    Takes strictness reader (kind :: second) next := by
  intro tokens kinds
  rcases List.map_eq_cons_iff.mp kinds with ⟨⟨_, rest⟩, others, rfl, rfl, later⟩
  rw [run, step rest]
  exact right others later

theorem Takes.nil : Takes strictness reader [] reader := by
  intro tokens kinds
  rw [List.map_eq_nil_iff.mp kinds]
  rfl

section Values

variable {stack : List Frame} {expected : Expected} {depth : Nat}

/-- Where a value is expected, a token that does not close a list begins one. -/
theorem step_value (awaits : expected.Awaits) {token : Token}
    (opens : isMarkOf ']' token = false) :
    (Reader.mk stack expected).step strictness token =
      takeValue strictness ⟨stack, expected⟩ token := by
  rcases awaits with rfl | rfl
  · rw [step]
    dsimp only
    split
    · rw [opens]
      rfl
    · rfl
  · rw [step]
    dsimp only
    rw [opens]
    rfl

/-- A leaf is taken wherever a value is awaited. -/
theorem takes_leaf (awaits : expected.Awaits) (leaf : Syntax) :
    Takes strictness ⟨stack, expected⟩ [.leaf leaf] ⟨stack, .afterValue leaf⟩ := by
  refine Takes.cons _ (fun rest => ?_) Takes.nil
  rw [step_value awaits rfl]
  rfl

/-- There is room for a frame on the stack. -/
def HasRoom (strictness : Strictness) (stack : List Frame) (depth : Nat) : Prop :=
  strictness = .strict → stack.length + depth < levelLimit

/-- A frame takes up one level. -/
theorem HasRoom.push (room : HasRoom strictness stack (depth + 1))
    (frame : Frame) : HasRoom strictness (frame :: stack) depth := by
  intro strict
  have bounded := room strict
  rw [List.length_cons]
  omega

/-- A collection is opened where there is room for it. -/
theorem openFrame_eq (room : HasRoom strictness stack (depth + 1)) (frame : Frame)
    (next : Expected) (token : Token) :
    openFrame strictness ⟨stack, expected⟩ frame next token =
      .ok ⟨frame :: stack, next⟩ := by
  rw [openFrame, if_neg]
  rintro ⟨strict, full⟩
  have bounded := room strict
  dsimp only at full
  omega

/-- An opening bracket begins a list wherever a value is awaited. -/
theorem step_openList (awaits : expected.Awaits)
    (room : HasRoom strictness stack (depth + 1)) (rest : List Char) :
    (Reader.mk stack expected).step strictness ⟨.mark '[', rest⟩ =
      .ok ⟨.items [] :: stack, .item⟩ := by
  rw [step_value awaits rfl]
  exact openFrame_eq room _ _ _

/-- An opening brace begins an object wherever a value is awaited. -/
theorem step_openObject (awaits : expected.Awaits)
    (room : HasRoom strictness stack (depth + 1)) (rest : List Char) :
    (Reader.mk stack expected).step strictness ⟨.mark '{', rest⟩ =
      .ok ⟨.fields [] none :: stack, .name⟩ := by
  rw [step_value awaits rfl]
  exact openFrame_eq room _ _ _

/-- The reader goes through the tokens of a tree, wherever a value is expected and
there is room. -/
def Reads (strictness : Strictness) (depth : Nat) (tree : Syntax) : Prop :=
  ∀ stack expected, Expected.Awaits expected → HasRoom strictness stack depth →
    Takes strictness ⟨stack, expected⟩ tree.kinds ⟨stack, .afterValue tree⟩

/-- By induction on the items: those behind the first one are taken up to the end
of the list. -/
theorem takes_items {items : List Syntax}
    (each : ∀ item ∈ items, Reads strictness depth item)
    (room : HasRoom strictness stack (depth + 1)) (done : List Syntax)
    (value : Syntax) :
    Takes strictness ⟨.items done :: stack, .afterValue value⟩
      (Syntax.kindsOfItems items)
      ⟨stack, .afterValue (.array ((value :: done).reverse ++ items))⟩ := by
  -- The value that was read last is not yet among the frame's items: the next
  -- mark puts it there.
  induction items generalizing done value with
  | nil =>
      rw [List.append_nil]
      exact Takes.cons _ (fun rest => rfl) Takes.nil
  | cons item items hypothesis =>
      rw [Syntax.kindsOfItems]
      refine Takes.cons ⟨.items (value :: done) :: stack, .value⟩ (fun rest => rfl)
        ?_
      refine Takes.append
        (each item List.mem_cons_self _ _ (.inl rfl) (room.push _)) ?_
      have later :=
        hypothesis (fun other member => each other (List.mem_cons_of_mem _ member))
          (value :: done) item
      rw [List.reverse_cons, List.append_assoc, List.singleton_append] at later
      exact later

/-- By induction on the fields: those behind the first one are taken up to the end
of the object. -/
theorem takes_fields {fields : List (Option String × Syntax)}
    (each : ∀ field ∈ fields, Reads strictness depth field.2)
    (room : HasRoom strictness stack (depth + 1))
    (done : List (Option String × Syntax)) (name : Option String)
    (value : Syntax) :
    Takes strictness ⟨.fields done name :: stack, .afterValue value⟩
      (Syntax.kindsOfFields fields) ⟨stack,
      .afterValue (.object (((name, value) :: done).reverse ++ fields))⟩ := by
  induction fields generalizing done name value with
  | nil =>
      rw [List.append_nil]
      exact Takes.cons _ (fun rest => rfl) Takes.nil
  | cons field fields hypothesis =>
      rw [Syntax.kindsOfFields]
      refine Takes.cons
        ⟨.fields ((name, value) :: done) none :: stack, .anotherName⟩
        (fun rest => rfl) ?_
      refine Takes.cons ⟨.fields ((name, value) :: done) field.1 :: stack, .colon⟩
        (fun rest => rfl) ?_
      refine Takes.cons ⟨.fields ((name, value) :: done) field.1 :: stack, .value⟩
        (fun rest => rfl) ?_
      refine Takes.append
        (each field List.mem_cons_self _ _ (.inl rfl) (room.push _)) ?_
      have later :=
        hypothesis (fun other member => each other (List.mem_cons_of_mem _ member))
          ((name, value) :: done) field.1 field.2
      rw [List.reverse_cons, List.append_assoc, List.singleton_append] at later
      exact later

/-- A list is read if its items are, one level below. -/
theorem reads_array {items : List Syntax}
    (each : ∀ item ∈ items, Reads strictness depth item) :
    Reads strictness (depth + 1) (.array items) := by
  intro stack expected awaits room
  cases items with
  | nil =>
      rw [Syntax.kinds]
      exact Takes.cons _ (step_openList awaits room)
        (Takes.cons _ (fun rest => rfl) Takes.nil)
  | cons item items =>
      rw [Syntax.kinds]
      refine Takes.cons _ (step_openList awaits room) ?_
      refine Takes.append
        (each item List.mem_cons_self _ _ (.inr rfl) (room.push _)) ?_
      exact takes_items
        (fun other member => each other (List.mem_cons_of_mem _ member)) room []
        item

/-- An object is read if the values of its fields are, one level below. -/
theorem reads_object {fields : List (Option String × Syntax)}
    (each : ∀ field ∈ fields, Reads strictness depth field.2) :
    Reads strictness (depth + 1) (.object fields) := by
  intro stack expected awaits room
  cases fields with
  | nil =>
      rw [Syntax.kinds]
      exact Takes.cons _ (step_openObject awaits room)
        (Takes.cons _ (fun rest => rfl) Takes.nil)
  | cons field fields =>
      rw [Syntax.kinds]
      refine Takes.cons _ (step_openObject awaits room) ?_
      refine Takes.cons ⟨.fields [] field.1 :: stack, .colon⟩ (fun rest => rfl) ?_
      refine Takes.cons ⟨.fields [] field.1 :: stack, .value⟩ (fun rest => rfl) ?_
      refine Takes.append
        (each field List.mem_cons_self _ _ (.inl rfl) (room.push _)) ?_
      exact takes_fields
        (fun other member => each other (List.mem_cons_of_mem _ member)) room []
        field.1 field.2

/-- The reader goes through the tokens of every readable tree. -/
theorem reads_of_readable {tree : Syntax} (readable : tree.Readable depth) :
    Reads strictness depth tree := by
  have leaf (leaf : Syntax) (kinds : leaf.kinds = [.leaf leaf]) {depth : Nat} :
      Reads strictness depth leaf := by
    intro stack expected awaits _
    rw [kinds]
    exact takes_leaf awaits leaf
  induction readable with
  | null => exact leaf _ rfl
  | bool value => exact leaf _ rfl
  | integer within => exact leaf _ rfl
  | text text => exact leaf _ rfl
  | array each hypothesis => exact reads_array hypothesis
  | object named each hypothesis => exact reads_object hypothesis

end Values

end Reader

/-! ## Writing tokens -/

section Writing

variable {strictness : Strictness}

/-- The kinds of the tokens of a text. -/
def kindsWithin (strictness : Strictness) (steps : Nat) (text : List Char) :
    List Kind :=
  (tokensWithin strictness steps text).map Token.kind

/-- A text is taken apart into tokens of the kinds if a fence follows. -/
def Lexes (strictness : Strictness) (text : List Char) (kinds : List Kind) :
    Prop :=
  ∀ rest steps, Fenced rest → (text ++ rest).length ≤ steps →
    ∃ left, rest.length ≤ left ∧
      kindsWithin strictness steps (text ++ rest) =
        kinds ++ kindsWithin strictness left rest

namespace Lexes

variable {text more : List Char} {kinds others : List Kind}

theorem nil : Lexes strictness [] [] :=
  fun _ steps _ enough => ⟨steps, enough, rfl⟩

/-- A mark in front of a text is its first token. -/
theorem mark {symbol : Char} (mark : isMark symbol = true)
    (later : Lexes strictness text kinds) :
    Lexes strictness (symbol :: text) (.mark symbol :: kinds) := by
  intro rest steps fenced enough
  cases steps with
  | zero => cases enough
  | succ steps =>
      rcases later rest steps fenced (Nat.le_of_succ_le_succ enough) with
        ⟨left, bounded, equal⟩
      have solid : isSpacing symbol = false := by
        simp only [isMark, Bool.or_eq_true, beq_iff_eq] at mark
        rcases mark with ((((rfl | rfl) | rfl) | rfl) | rfl) | rfl <;> rfl
      refine ⟨left, bounded, ?_⟩
      rw [kindsWithin, List.cons_append, tokensWithin, solid, mark]
      exact congrArg (Kind.mark symbol :: ·) equal

/-- Spacing in front of a text is passed over. -/
theorem spacing {blank : Char} (spacing : isSpacing blank = true)
    (later : Lexes strictness text kinds) :
    Lexes strictness (blank :: text) kinds := by
  intro rest steps fenced enough
  cases steps with
  | zero => cases enough
  | succ steps =>
      rcases later rest steps fenced (Nat.le_of_succ_le_succ enough) with
        ⟨left, bounded, equal⟩
      refine ⟨left, bounded, ?_⟩
      rw [kindsWithin, List.cons_append, tokensWithin, spacing]
      exact equal

theorem leaf {leaf : Syntax} (reads : ReadsLeaf strictness text leaf) :
    Lexes strictness text [.leaf leaf] := by
  rcases reads with ⟨first, more, rfl, plain, scanned⟩
  intro rest steps fenced enough
  cases steps with
  | zero => cases enough
  | succ steps =>
      refine ⟨steps, ?_, ?_⟩
      · simp only [List.length_append, List.length_cons] at enough
        omega
      · rcases Bool.or_eq_false_iff.mp plain with ⟨solid, unmarked⟩
        rw [kindsWithin, List.cons_append, tokensWithin, solid, unmarked,
          scanned rest fenced]
        rfl

/-- Two texts stand one behind the other if the second one begins with a fence. -/
theorem append (first : Lexes strictness text kinds)
    (second : Lexes strictness more others)
    (fenced : ∀ rest, Fenced (more ++ rest)) :
    Lexes strictness (text ++ more) (kinds ++ others) := by
  intro rest steps stops enough
  rw [List.append_assoc] at enough ⊢
  rcases first (more ++ rest) steps (fenced rest) enough with
    ⟨left, bounded, equal⟩
  rcases second rest left stops bounded with ⟨last, enough, also⟩
  refine ⟨last, enough, ?_⟩
  rw [equal, also, List.append_assoc]

/-- So is the beginning of a line. -/
theorem lineStart (level : Nat) (later : Lexes strictness text kinds) :
    Lexes strictness (Json.lineStart level ++ text) kinds := by
  have blanks (count : Nat) :
      Lexes strictness (List.replicate count ' ' ++ text) kinds := by
    induction count with
    | zero => exact later
    | succ count hypothesis => exact spacing rfl hypothesis
  exact spacing rfl (blanks _)

end Lexes

/-! ## One part a line -/

/-- Behind an item comes a comma or the beginning of a line, where a number
ends. -/
theorem fenced_prettyItems (level : Nat) (items : List Syntax)
    (last rest : List Char) :
    Fenced (Syntax.prettyItems (level + 1) items ++ (lineStart level ++ last) ++
      rest) := by
  cases items with
  | nil => exact Fenced.cons rfl _
  | cons item items =>
      rw [Syntax.prettyItems]
      exact Fenced.cons rfl _

theorem fenced_prettyFields (level : Nat) (fields : List (Option String × Syntax))
    (last rest : List Char) :
    Fenced (Syntax.prettyFields (level + 1) fields ++ (lineStart level ++ last) ++
      rest) := by
  cases fields with
  | nil => exact Fenced.cons rfl _
  | cons field fields =>
      rw [Syntax.prettyFields]
      exact Fenced.cons rfl _

theorem lexes_end (level : Nat) {symbol : Char} (mark : isMark symbol = true) :
    Lexes strictness (lineStart level ++ [symbol]) [.mark symbol] :=
  Lexes.lineStart level (Lexes.mark mark Lexes.nil)

/-- The items of a list fall into their tokens, with commas between them. -/
theorem lexes_prettyItems (level : Nat) {items : List Syntax}
    (each :
      ∀ item ∈ items, Lexes strictness (item.prettyAt (level + 1)) item.kinds) :
    Lexes strictness
      (Syntax.prettyItems (level + 1) items ++ (lineStart level ++ [']']))
      (Syntax.kindsOfItems items) := by
  induction items with
  | nil => exact lexes_end level rfl
  | cons item items hypothesis =>
      simp only [Syntax.prettyItems, Syntax.kindsOfItems, List.cons_append,
        List.append_assoc]
      refine Lexes.mark rfl (Lexes.lineStart _ ?_)
      refine Lexes.append (each item List.mem_cons_self) ?_
        (fenced_prettyItems _ _ _)
      exact hypothesis fun other member =>
        each other (List.mem_cons_of_mem _ member)

/-- A field and what follows it. -/
theorem lexes_field (level : Nat) {field : Option String × Syntax}
    (named : field.1.isSome = true)
    (value : Lexes strictness (field.2.prettyAt level) field.2.kinds)
    {more : List Char} {others : List Kind} (later : Lexes strictness more others)
    (fenced : ∀ rest, Fenced (more ++ rest)) :
    Lexes strictness
      (quote (field.1.getD "") ++ ':' :: ' ' :: (field.2.prettyAt level ++ more))
      (.leaf (.string field.1) :: .mark ':' :: (field.2.kinds ++ others)) := by
  rcases Option.isSome_iff_exists.mp named with ⟨name, present⟩
  rw [present, Option.getD_some]
  refine Lexes.append (Lexes.leaf (readsLeaf_quote name)) ?_ fun _ =>
    Fenced.cons rfl _
  exact Lexes.mark rfl (Lexes.spacing rfl (Lexes.append value later fenced))

/-- The fields of an object fall into their tokens, each name in front of its
value. -/
theorem lexes_prettyFields (level : Nat) {fields : List (Option String × Syntax)}
    (named : ∀ field ∈ fields, field.1.isSome = true)
    (each : ∀ field ∈ fields,
        Lexes strictness (field.2.prettyAt (level + 1)) field.2.kinds) :
    Lexes strictness
      (Syntax.prettyFields (level + 1) fields ++ (lineStart level ++ ['}']))
      (Syntax.kindsOfFields fields) := by
  induction fields with
  | nil => exact lexes_end level rfl
  | cons field fields hypothesis =>
      simp only [Syntax.prettyFields, Syntax.kindsOfFields, List.cons_append,
        List.append_assoc]
      refine Lexes.mark rfl (Lexes.lineStart _ ?_)
      refine lexes_field _ (named field List.mem_cons_self)
        (each field List.mem_cons_self) ?_ (fenced_prettyFields _ _ _)
      exact hypothesis
        (fun other member => named other (List.mem_cons_of_mem _ member))
        fun other member => each other (List.mem_cons_of_mem _ member)

/-- A readable tree is written with its tokens, at every level. -/
theorem lexes_prettyAt {depth : Nat} {tree : Syntax}
    (readable : tree.Readable depth) (level : Nat) :
    Lexes strictness (tree.prettyAt level) tree.kinds := by
  induction readable generalizing level with
  | null =>
      rw [Syntax.prettyAt]
      exact Lexes.leaf readsLeaf_null
  | bool value =>
      rw [Syntax.prettyAt]
      exact Lexes.leaf (readsLeaf_bool value)
  | integer within =>
      rw [Syntax.prettyAt]
      exact Lexes.leaf (readsLeaf_integer within)
  | text text =>
      rw [Syntax.prettyAt]
      exact Lexes.leaf (readsLeaf_quote text)
  | @array depth items each hypothesis =>
      cases items with
      | nil =>
          rw [Syntax.prettyAt, Syntax.kinds]
          exact Lexes.mark rfl (Lexes.mark rfl Lexes.nil)
      | cons item items =>
          simp only [Syntax.prettyAt, Syntax.kinds, List.cons_append,
            List.append_assoc]
          refine Lexes.mark rfl (Lexes.lineStart _ ?_)
          refine Lexes.append (hypothesis item List.mem_cons_self _) ?_
            (fenced_prettyItems _ _ _)
          exact lexes_prettyItems level fun other member =>
            hypothesis other (List.mem_cons_of_mem _ member) _
  | @object depth fields named each hypothesis =>
      cases fields with
      | nil =>
          rw [Syntax.prettyAt, Syntax.kinds]
          exact Lexes.mark rfl (Lexes.mark rfl Lexes.nil)
      | cons field fields =>
          simp only [Syntax.prettyAt, Syntax.kinds, List.cons_append,
            List.append_assoc]
          refine Lexes.mark rfl (Lexes.lineStart _ ?_)
          refine lexes_field _ (named field List.mem_cons_self)
            (hypothesis field List.mem_cons_self _) ?_ (fenced_prettyFields _ _ _)
          exact lexes_prettyFields level
            (fun other member => named other (List.mem_cons_of_mem _ member))
            fun other member => hypothesis other (List.mem_cons_of_mem _ member) _

end Writing

/-- A text that is taken apart into the tokens of a readable tree is read as the
tree. -/
theorem Syntax.read_of_lexes {strictness : Strictness} {depth : Nat}
    {tree : Syntax} (readable : tree.Readable depth)
    (room : strictness = .strict → depth < Reader.levelLimit) {text : List Char}
    (lexes : Lexes strictness text tree.kinds) :
    Syntax.read strictness text = .ok tree := by
  have whole : (tokens strictness text).map Token.kind = tree.kinds := by
    rcases lexes [] text.length nofun
        (Nat.le_of_eq (congrArg _ (List.append_nil _))) with
      ⟨left, _, equal⟩
    rw [List.append_nil] at equal
    have nothing : kindsWithin strictness left [] = [] := by
      cases left <;> rfl
    rw [nothing, List.append_nil] at equal
    exact equal
  have takes :=
    Reader.reads_of_readable readable [] .value (.inl rfl) (fun strict => by
    rw [List.length_nil, Nat.zero_add]
    exact room strict)
  rw [Syntax.read, Reader.start, takes _ whole]
  rfl

/-- The text of a readable tree is read as the tree. -/
theorem Syntax.read_pretty {strictness : Strictness} {depth : Nat} {tree : Syntax}
    (readable : tree.Readable depth)
    (room : strictness = .strict → depth < Reader.levelLimit) :
    Syntax.read strictness tree.pretty.toList = .ok tree := by
  rw [Syntax.pretty, String.toList_ofList]
  exact Syntax.read_of_lexes readable room (lexes_prettyAt readable 0)

end RequestFlow.Json
