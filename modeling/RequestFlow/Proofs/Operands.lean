import RequestFlow.Proofs.Literals

/-!
# Operands as they are read

The operands that are no conditions in parentheses: literals, texts in quotes and
paths to variables. Main statement: their texts close under a scan, have no
parentheses and no blanks at their ends, and are read as what they write.
-/

namespace RequestFlow.Condition

open RequestFlow.Text

/-! ## First and last characters -/

/-- A character that an operand may begin with. -/
def beginsOperand (character : Char) : Bool :=
  isNameCharacter character || ['(', '\'', '"', '[', '{'].contains character

/-- A text begins with such a character, and not with two braces. -/
def Begins (test : Char → Bool) (text : List Char) : Prop :=
  ∃ first rest, text = first :: rest ∧ test first = true ∧
    (first = '{' → ∃ second others, rest = second :: others ∧ second ≠ '{')

/-- A text does not begin with a blank. -/
def Starts (text : List Char) : Prop :=
  ∃ first rest, text = first :: rest ∧ isBlank first = false

/-- A text does not end with a blank. -/
def Ends (text : List Char) : Prop :=
  ∃ before last, text = before ++ [last] ∧ isBlank last = false

/-- How a text begins does not depend on what follows. -/
theorem Begins.append {test : Char → Bool} {text : List Char}
    (begins : Begins test text) (more : List Char) :
    Begins test (text ++ more) := by
  rcases begins with ⟨first, rest, rfl, passes, braced⟩
  refine ⟨first, rest ++ more, rfl, passes, ?_⟩
  intro brace
  rcases braced brace with ⟨second, others, rfl, unlike⟩
  exact ⟨second, others ++ more, rfl, unlike⟩

/-- A text that begins in one way begins in every wider way. -/
theorem Begins.weaken {test wider : Char → Bool} {text : List Char}
    (weaker : ∀ character, test character = true → wider character = true)
    (begins : Begins test text) : Begins wider text := by
  rcases begins with ⟨first, rest, equal, passes, braced⟩
  exact ⟨first, rest, equal, weaker first passes, braced⟩

/-- A text that begins visibly does not begin with a blank. -/
theorem Begins.starts {test : Char → Bool} {text : List Char}
    (visible : ∀ character, test character = true → isBlank character = false)
    (begins : Begins test text) : Starts text := by
  rcases begins with ⟨first, rest, equal, passes, -⟩
  exact ⟨first, rest, equal, visible first passes⟩

/-- A text whose first character is no brace begins with it. -/
theorem Begins.of_unbraced {test : Char → Bool} {first : Char}
    (passes : test first = true) (unbraced : first ≠ '{') (rest : List Char) :
    Begins test (first :: rest) :=
  ⟨first, rest, rfl, passes, fun brace => (unbraced brace).elim⟩

/-- A text that does not end with a blank does not do so behind another one. -/
theorem Ends.prepend {text : List Char} (ends : Ends text) (before : List Char) :
    Ends (before ++ text) := by
  rcases ends with ⟨earlier, last, rfl, visible⟩
  exact ⟨before ++ earlier, last, (List.append_assoc _ _ _).symm, visible⟩

theorem Ends.of_last (before : List Char) {last : Char}
    (visible : isBlank last = false) : Ends (before ++ [last]) :=
  ⟨before, last, rfl, visible⟩

/-- The codes of letters and digits lie between those of `0` and `z`. -/
theorem code_of_isAlphanum {character : Char}
    (alphanumeric : character.isAlphanum = true) :
    48 ≤ character.toNat ∧ character.toNat ≤ 122 := by
  have upper : 'A'.val.toNat = 65 ∧ 'Z'.val.toNat = 90 := ⟨rfl, rfl⟩
  have lower : 'a'.val.toNat = 97 ∧ 'z'.val.toNat = 122 := ⟨rfl, rfl⟩
  have digit : '0'.val.toNat = 48 ∧ '9'.val.toNat = 57 := ⟨rfl, rfl⟩
  have code : character.toNat = character.val.toNat := rfl
  rcases Bool.or_eq_true_iff.mp alphanumeric with letter | number
  · rcases Bool.or_eq_true_iff.mp letter with large | small
    · rcases of_decide_eq_true large with ⟨low, high⟩
      rw [ge_iff_le, UInt32.le_iff_toNat_le] at low
      rw [UInt32.le_iff_toNat_le] at high
      omega
    · rcases Bool.and_eq_true_iff.mp small with ⟨low, high⟩
      rw [decide_eq_true_eq, ge_iff_le, UInt32.le_iff_toNat_le] at low
      rw [decide_eq_true_eq, UInt32.le_iff_toNat_le] at high
      omega
  · rcases Bool.and_eq_true_iff.mp number with ⟨low, high⟩
    rw [decide_eq_true_eq, ge_iff_le, UInt32.le_iff_toNat_le] at low
    rw [decide_eq_true_eq, UInt32.le_iff_toNat_le] at high
    omega

theorem not_isAlphanum_of_isBlank {character : Char}
    (blank : isBlank character = true) : character.isAlphanum = false := by
  rw [← Bool.not_eq_true]
  intro alphanumeric
  have code := code_of_isAlphanum alphanumeric
  simp only [isBlank, Bool.or_eq_true, Bool.and_eq_true, decide_eq_true_eq,
    beq_iff_eq] at blank
  omega

/-- No operand begins with a blank. -/
theorem isBlank_of_beginsOperand {character : Char}
    (begins : beginsOperand character = true) : isBlank character = false := by
  rw [← Bool.not_eq_true]
  intro blank
  simp only [beginsOperand, isNameCharacter, not_isAlphanum_of_isBlank blank,
    Bool.false_or, List.contains_eq_mem, Bool.or_eq_true, beq_iff_eq,
    decide_eq_true_eq, List.mem_cons, List.not_mem_nil, or_false] at begins
  rcases begins with ((rfl | rfl) | rfl) | rfl | rfl | rfl | rfl | rfl <;>
    exact absurd blank (by decide)

/-- Trimming takes the blanks off a text that neither begins nor ends with one. -/
theorem trim_pad {text : List Char} (starts : Starts text) (ends : Ends text)
    (before after : Blanks) : trim (before.text ++ text ++ after.text) = text := by
  rcases starts with ⟨first, rest, equal, visible⟩
  rcases ends with ⟨earlier, last, same, shown⟩
  have front :
      trimStart (before.text ++ text ++ after.text) = text ++ after.text := by
    rw [trimStart, List.append_assoc, List.dropWhile_append_of_pos before.blank,
      equal, List.cons_append, List.dropWhile_cons_of_neg]
    rw [visible]
    exact Bool.false_ne_true
  have back : trimEnd (text ++ after.text) = text := by
    have blank : ∀ character ∈ after.text.reverse, isBlank character = true := by
      intro character member
      exact after.blank character (List.mem_reverse.mp member)
    rw [trimEnd, List.reverse_append, List.dropWhile_append_of_pos blank, same,
      List.reverse_append, List.reverse_singleton, List.singleton_append,
      List.dropWhile_cons_of_neg, List.reverse_cons, List.reverse_reverse]
    rw [shown]
    exact Bool.false_ne_true
  rw [trim, front, back]

/-- What trimming leaves alone has no blanks at its ends. -/
theorem tight_of_trim {first : Char} {rest : List Char}
    (tight : trim (first :: rest) = first :: rest) :
    isBlank first = false ∧ Ends (first :: rest) := by
  have length := congrArg List.length tight
  rw [trim] at length
  have back := trimEnd_length_le (trimStart (first :: rest))
  constructor
  · rw [← Bool.not_eq_true]
    intro blank
    have front : trimStart (first :: rest) = trimStart rest := by
      rw [trimStart, List.dropWhile_cons_of_pos blank, ← trimStart]
    have shorter := trimStart_length_le rest
    rw [front] at length back
    rw [List.length_cons] at length
    omega
  · have whole : trimStart (first :: rest) = first :: rest := by
      apply (List.dropWhile_sublist _).eq_of_length
      have shorter := trimStart_length_le (first :: rest)
      rw [trimStart] at shorter back length
      omega
    rw [whole] at length
    rcases List.eq_nil_or_concat (first :: rest) with none | ⟨before, last, equal⟩
    · cases none
    · rw [List.concat_eq_append] at equal
      refine ⟨before, last, equal, ?_⟩
      rw [← Bool.not_eq_true]
      intro blank
      have drop : trimEnd (before ++ [last]) = trimEnd before := by
        rw [trimEnd, List.reverse_append, List.reverse_singleton,
          List.singleton_append, List.dropWhile_cons_of_pos blank, ← trimEnd]
      have shorter := trimEnd_length_le before
      rw [equal, drop, List.length_append, List.length_singleton] at length
      omega

/-! ## Leaves -/

/-- A text is read as a leaf of the tree, and no search finds anything in it. -/
structure IsLeaf (text : List Char) (tree : Expression) : Prop where
  closes : Closes isOrdinary text
  unparenthesized : ∀ character ∈ text, character ≠ '(' ∧ character ≠ ')'
  begins : Begins beginsOperand text
  ends : Ends text
  reads : readLeaf text = tree

/-- Parentheses are not ordinary: a search enters and leaves them. -/
theorem unparenthesized_of_isOrdinary {character : Char}
    (ordinary : isOrdinary character = true) :
    character ≠ '(' ∧ character ≠ ')' := by
  constructor <;> (rintro rfl; exact absurd ordinary (by decide))

theorem unparenthesized_of_isPlain {character : Char}
    (plain : isPlain character = true) : character ≠ '(' ∧ character ≠ ')' := by
  constructor <;> (rintro rfl; exact absurd plain (by decide))

/-- A text in single quotes is read as the text between them; nothing in it is
looked at. -/
theorem Quotation.isLeaf (quotation : Quotation) :
    IsLeaf (['\''] ++ quotation.text ++ ['\''])
      (.literal (.string (String.ofList quotation.text))) := by
  have inside : ∀ character ∈ quotation.text, character ≠ '\'' := by
    rintro character member rfl
    exact absurd (quotation.plain _ member).1 (by decide)
  refine ⟨?_, ?_, .of_unbraced rfl (by decide) _, .of_last _ rfl, ?_⟩
  · exact (Steps.scans .beginSingle).append (Scans.inSingle inside) |>.append
      (Steps.scans .endSingle)
  · intro character member
    simp only [List.mem_append, List.mem_singleton] at member
    rcases member with (rfl | member) | rfl
    · decide
    · exact unparenthesized_of_isPlain (quotation.plain character member).1
    · decide
  · have unquoted :
        unquote? (['\''] ++ quotation.text ++ ['\'']) = some quotation.text := by
      rw [unquote?, List.append_assoc, dropStart?_append, Option.bind_some,
        dropEnd?_append]
    rw [readLeaf, if_neg, unquoted]
    exact Bool.false_ne_true

/-! ### Literals -/

/-- What a literal is read as. -/
def Literal.expression (literal : Literal) : Expression :=
  match Json.read literal.text with
  | .ok value => .literal value
  | .error failure =>
      .malformed
        (.invalidLiteral (String.ofList literal.text)
          (failure.message literal.text))

theorem isBlank_of_isSpacing {character : Char}
    (spacing : Json.isSpacing character = true) : isBlank character = true := by
  simp only [Json.isSpacing, Bool.or_eq_true, beq_iff_eq] at spacing
  rcases spacing with ((rfl | rfl) | rfl) | rfl <;> rfl

/-- Numbers, texts in double quotes and the three words look like literals. -/
theorem looksLikeLiteral_of_atom {text : List Char} (atom : Atom text) :
    looksLikeLiteral text = true ∧ Begins beginsOperand text := by
  cases atom with
  | quoted inside => exact ⟨rfl, .of_unbraced rfl (by decide) _⟩
  | number begins numeric =>
      rcases Bool.or_eq_true_iff.mp begins with minus | digit
      · rcases of_decide_eq_true minus with rfl
        exact ⟨rfl, .of_unbraced rfl (by decide) _⟩
      · refine ⟨?_, .of_unbraced ?_ ?_ _⟩
        · simp [looksLikeLiteral, digit]
        · simp [beginsOperand, isNameCharacter, Char.isAlphanum, digit]
        · rintro rfl
          exact absurd digit (by decide)
  | null => exact ⟨rfl, .of_unbraced rfl (by decide) _⟩
  | true => exact ⟨rfl, .of_unbraced rfl (by decide) _⟩
  | false => exact ⟨rfl, .of_unbraced rfl (by decide) _⟩

/-- Behind a text that does not end with a blank there is no spacing. -/
theorem Ends.eq_nil_of_isSpacing {text rest : List Char}
    (ends : Ends (text ++ rest))
    (spacing : ∀ character ∈ rest, Json.isSpacing character = true) :
    rest = [] := by
  rcases List.eq_nil_or_concat rest with none | ⟨before, last, rfl⟩
  · exact none
  · rcases ends with ⟨earlier, final, equal, visible⟩
    rw [List.concat_eq_append] at equal spacing
    rw [← List.append_assoc] at equal
    rcases List.append_inj' equal rfl with ⟨-, same⟩
    have blank :=
      isBlank_of_isSpacing
        (spacing last (List.mem_append_right _ List.mem_cons_self))
    rw [List.singleton_inj.mp same, visible] at blank
    cases blank

/-- A text that begins as data does looks like a literal. -/
theorem looksLikeLiteral_of_startsData {text : List Char} (ends : Ends text)
    (starts : StartsData text) :
    looksLikeLiteral text = true ∧ Begins beginsOperand text := by
  cases starts with
  | list => exact ⟨rfl, .of_unbraced rfl (by decide) _⟩
  | object unlike => exact ⟨rfl, _, _, rfl, rfl, fun _ => ⟨_, _, rfl, unlike⟩⟩
  | leaf atom spacing =>
      rw [ends.eq_nil_of_isSpacing spacing, List.append_nil]
      exact looksLikeLiteral_of_atom atom

/-- A data text is one leaf, whether it stands for a value or not. -/
theorem Literal.isLeaf (literal : Literal) :
    IsLeaf literal.text literal.expression := by
  rcases literal with ⟨text, strictness, tree, written, plain, tight⟩
  cases text with
  | nil => cases written
  | cons first rest =>
      rcases tight_of_trim tight with ⟨visible, ends⟩
      have unspaced : Json.isSpacing first = false := by
        rw [← Bool.not_eq_true]
        intro spacing
        rw [isBlank_of_isSpacing spacing] at visible
        cases visible
      have starts :=
        startsData_of_read
          (fun other member => plain other (List.mem_cons_of_mem _ member))
          unspaced written
      rcases looksLikeLiteral_of_startsData ends starts with ⟨looks, begins⟩
      refine ⟨closes_of_read plain written, ?_, begins, ends, ?_⟩
      · exact fun character member =>
          unparenthesized_of_isPlain (plain character member)
      · rw [readLeaf, if_pos looks]
        rfl

/-! ### Paths to variables -/

/-- A character of a path. -/
def isPathCharacter (character : Char) : Bool :=
  isNameCharacter character || ['[', ']', '.'].contains character

/-- What every path and every part of it is like. -/
structure IsPath (text : List Char) : Prop where
  closes : Closes isOrdinary text
  characters : ∀ character ∈ text, isPathCharacter character = true
  named : ∃ first rest, text = first :: rest ∧ isNameCharacter first = true

theorem isOrdinary_of_isNameCharacter {character : Char}
    (named : isNameCharacter character = true) : isOrdinary character = true :=
  isOrdinary_of (by decide) named

theorem isPathCharacter_of_isNameCharacter {character : Char}
    (named : isNameCharacter character = true) :
    isPathCharacter character = true := by
  rw [isPathCharacter, named, Bool.true_or]

theorem unparenthesized_of_isPathCharacter {character : Char}
    (part : isPathCharacter character = true) :
    character ≠ '(' ∧ character ≠ ')' := by
  constructor <;> (rintro rfl; exact absurd part (by decide))

/-- The indexes of a segment open and close their brackets one after the other. -/
theorem scans_of_indexDigits {opened : Option (List Char)} {text : List Char}
    {digits : List (List Char)} (read : indexDigits? opened text = some digits) :
    Scans isOrdinary .none (if opened.isSome then 1 else 0) text .none 0 ∧
      ∀ character ∈ text, isPathCharacter character = true := by
  fun_induction indexDigits? opened text generalizing digits with
  | case1 => exact ⟨.done, fun _ member => (List.not_mem_nil member).elim⟩
  | case2 text hypothesis =>
      rcases hypothesis read with ⟨scans, characters⟩
      exact ⟨.step (.opens (by decide)) scans,
        List.forall_mem_cons.mpr ⟨rfl, characters⟩⟩
  | case3 => cases read
  | case4 => cases read
  | case5 => cases read
  | case6 digits text some hypothesis =>
      rcases Option.map_eq_some_iff.mp read with ⟨others, inner, -⟩
      rcases hypothesis inner with ⟨scans, characters⟩
      exact ⟨.step (.closes (by decide)) scans,
        List.forall_mem_cons.mpr ⟨rfl, characters⟩⟩
  | case7 digits character text unclosed digit hypothesis =>
      rcases hypothesis read with ⟨scans, characters⟩
      have named : isNameCharacter character = true := by
        simp [isNameCharacter, Char.isAlphanum, digit]
      have neutral := isNeutral_of_isOrdinary (isOrdinary_of_isNameCharacter named)
      exact ⟨.step (.passes neutral nofun) scans,
        List.forall_mem_cons.mpr
          ⟨isPathCharacter_of_isNameCharacter named, characters⟩⟩
  | case8 => cases read

/-- A segment that can be read is a path. -/
theorem isPath_of_segment {text : List Char} {segment : PathSegment}
    (read : PathSegment.ofText? text = some segment) : IsPath text := by
  rw [PathSegment.ofText?] at read
  split at read
  · cases read
  · next some =>
      rcases Option.map_eq_some_iff.mp read with ⟨digits, indexes, -⟩
      rcases scans_of_indexDigits indexes with ⟨scans, characters⟩
      have name : ∀ character ∈ text.takeWhile isNameCharacter,
          isNameCharacter character = true := fun _ => List.mem_takeWhile_imp
      have whole :
          text.takeWhile isNameCharacter ++ text.dropWhile isNameCharacter =
            text :=
        List.takeWhile_append_dropWhile
      rw [← whole]
      refine ⟨?_, ?_, ?_⟩
      · have ordinary := fun character member =>
          isOrdinary_of_isNameCharacter (name character member)
        exact (scans_of_ordinary ordinary).append scans
      · intro character member
        rcases List.mem_append.mp member with member | member
        · exact isPathCharacter_of_isNameCharacter (name character member)
        · exact characters character member
      · cases letters : text.takeWhile isNameCharacter with
        | nil =>
            rw [letters] at some
            exact (some rfl).elim
        | cons first others =>
            rw [letters] at name
            exact ⟨first, _, rfl, name first List.mem_cons_self⟩

/-- Two paths with a point between them are a path. -/
theorem IsPath.join {first second : List Char} (left : IsPath first)
    (right : IsPath second) : IsPath (first ++ '.' :: second) := by
  refine ⟨?_, ?_, ?_⟩
  · have dot : Steps isOrdinary .none 0 '.' .none 0 :=
      .passes (by decide) fun _ => by decide
    exact Scans.append left.closes (.step dot right.closes)
  · intro character member
    rw [List.mem_append, List.mem_cons] at member
    rcases member with member | rfl | member
    · exact left.characters character member
    · rfl
    · exact right.characters character member
  · rcases left.named with ⟨begin, rest, rfl, named⟩
    exact ⟨begin, _, rfl, named⟩

/-- A path is made of segments with points between them. -/
theorem isPath_of_pieces {pieces : List (List Char)} {text : List Char}
    {segments : List PathSegment} (split : splitAt (· == '.') text = pieces)
    (read : pieces.mapM PathSegment.ofText? = some segments) : IsPath text := by
  induction pieces generalizing text segments with
  | nil => exact (splitAt_ne_nil _ _ split).elim
  | cons piece pieces hypothesis =>
      rw [List.mapM_cons, Option.bind_eq_bind, Option.bind_eq_some_iff] at read
      rcases read with ⟨segment, first, read⟩
      rw [Option.bind_eq_bind, Option.bind_eq_some_iff] at read
      rcases read with ⟨others, rest, -⟩
      rcases eq_append_of_splitAt split with
        ⟨rfl, rfl⟩ | ⟨dot, later, separates, rfl, after⟩
      · exact isPath_of_segment first
      · rcases eq_of_beq separates with rfl
        exact (isPath_of_segment first).join (hypothesis after rest)

/-- What is read as a path has only characters of paths, none of which is blank.
-/
theorem isPath_of_read {text : List Char} {path : Path}
    (read : Path.ofText? text = some path) :
    IsPath text ∧ ∀ character ∈ text, isBlank character = false := by
  rw [Path.ofText?] at read
  split at read
  · cases read
  · next visible =>
      split at read
      · next segments =>
          exact ⟨isPath_of_pieces rfl segments, by simpa using visible⟩
      · cases read

/-- A path is one leaf, read as the variable at the path. -/
theorem Reference.isLeaf (reference : Reference) :
    IsLeaf reference.text (.variableAt reference.text reference.path) := by
  rcases reference with ⟨text, path, read, unlike, unreserved⟩
  rcases isPath_of_read read with
    ⟨⟨closes, characters, first, rest, rfl, named⟩, visible⟩
  rcases unlike first rest rfl with ⟨minus, digit⟩
  have differs (other : Char) (unnamed : isNameCharacter other = false) :
      first ≠ other := by
    rintro rfl
    rw [named] at unnamed
    cases unnamed
  refine ⟨closes, ?_, ?_, ?_, ?_⟩
  · exact fun character member =>
      unparenthesized_of_isPathCharacter (characters character member)
  · refine .of_unbraced ?_ (differs '{' (by decide)) _
    rw [beginsOperand, named, Bool.true_or]
  · rcases List.eq_nil_or_concat (first :: rest) with none | ⟨before, last, equal⟩
    · cases none
    · rw [List.concat_eq_append] at equal
      exact ⟨before, last, equal, visible last (by rw [equal]; simp)⟩
  · have looks : looksLikeLiteral (first :: rest) = false := by
      rcases unreserved with ⟨null, yes, no⟩
      simp only [looksLikeLiteral, List.head?_cons, Bool.or_eq_false_iff,
        beq_eq_false_iff_ne]
      have bracket := differs '[' (by decide)
      have brace := differs '{' (by decide)
      have quote := differs '"' (by decide)
      exact ⟨⟨⟨⟨⟨⟨⟨bracket, brace⟩, quote⟩, minus⟩, digit⟩, null⟩, yes⟩, no⟩
    have unquoted : unquote? (first :: rest) = none := by
      rw [unquote?, dropStart?, if_neg (differs '\'' (by decide)).symm,
        Option.bind_none]
    rw [readLeaf, looks, if_neg Bool.false_ne_true, unquoted, read]

end RequestFlow.Condition
