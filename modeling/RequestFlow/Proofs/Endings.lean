import RequestFlow.Proofs.Dividing

/-!
# Texts that end with a sign

`|` and `&` are the signs of the connectives, and no operand ends with one.  Main
statements: no data text ends with a sign; and a text that does, and comes apart
at no connective, has no value.
-/

namespace RequestFlow

open RequestFlow.Text

/-! ## Last characters -/

/-- The signs that connectives are written with. -/
def connectiveSigns : List Char := ['|', '&']

/-- The last character of a text is a sign of a connective. -/
def EndsWithSign (text : List Char) : Prop :=
  ∃ sign ∈ connectiveSigns, text.getLast? = some sign

/-- The last character of a text, if there is one, is no sign of a connective. -/
def EndsShut (text : List Char) : Prop :=
  ∀ last ∈ text.getLast?, last ∉ connectiveSigns

section Endings

variable {text front rest : List Char}

theorem EndsWithSign.not_endsShut (ends : EndsWithSign text) :
    ¬ EndsShut text := by
  intro shut
  rcases ends with ⟨sign, member, last⟩
  exact shut sign last member

/-- A front that ends shut has not the last character, so the rest still ends with
a sign. -/
theorem EndsWithSign.behind (ends : EndsWithSign (front ++ rest))
    (shut : EndsShut front) : EndsWithSign rest := by
  rcases ends with ⟨sign, member, last⟩
  rw [List.getLast?_append] at last
  cases behind : rest.getLast? with
  | none =>
      rw [behind, Option.none_or] at last
      exact (shut sign last member).elim
  | some other =>
      rw [behind, Option.some_or] at last
      exact ⟨sign, member, behind.trans last⟩

theorem EndsWithSign.prepend (ends : EndsWithSign rest) (front : List Char) :
    EndsWithSign (front ++ rest) := by
  rcases ends with ⟨sign, member, last⟩
  exact ⟨sign, member, by rw [List.getLast?_append, last, Option.some_or]⟩

theorem EndsWithSign.ne_nil (ends : EndsWithSign text) : text ≠ [] := by
  rintro rfl
  rcases ends with ⟨sign, member, last⟩
  cases last

theorem not_of_mem_connectiveSigns {test : Char → Bool}
    (excludes : connectiveSigns.all (fun sign => !test sign)) {sign : Char}
    (member : sign ∈ connectiveSigns) : test sign = false := by
  simpa using List.all_eq_true.mp excludes sign member

/-- A text ends shut if all its characters pass a test that no sign of a
connective passes. -/
theorem EndsShut.of_all {test : Char → Bool}
    (excludes : connectiveSigns.all (fun sign => !test sign))
    (passes : ∀ character ∈ text, test character = true) : EndsShut text := by
  intro last final sign
  cases (passes last (List.mem_of_getLast? final)).symm.trans
    (not_of_mem_connectiveSigns excludes sign)

theorem EndsShut.of_last (front : List Char) {last : Char}
    (unlike : last ∉ connectiveSigns) : EndsShut (front ++ [last]) := by
  intro other final
  rw [List.getLast?_concat] at final
  cases final
  exact unlike

theorem EndsShut.prepend (shut : EndsShut text) (nonempty : text ≠ [])
    (front : List Char) : EndsShut (front ++ text) := by
  intro last final
  rw [List.getLast?_append_of_ne_nil front nonempty] at final
  exact shut last final

/-- What ends with a sign does not end with any other character, such as a quote
or a bracket. -/
theorem EndsWithSign.dropEnd?_eq_none {character : Char} (ends : EndsWithSign text)
    (unlike : character ∉ connectiveSigns) : dropEnd? [character] text = none := by
  cases closed : dropEnd? [character] text with
  | none => rfl
  | some inner =>
      rw [eq_append_of_dropEnd? closed] at ends
      exact (ends.not_endsShut (.of_last inner unlike)).elim

/-- A sign is no blank, so there is nothing to trim behind it. -/
theorem EndsWithSign.trim_eq_trimStart (ends : EndsWithSign text) :
    trim text = trimStart text := by
  have blank : ∀ character ∈ text.takeWhile isBlank, isBlank character = true :=
    fun _ => List.mem_takeWhile_imp
  rw [← List.takeWhile_append_dropWhile (p := isBlank) (l := text)] at ends
  rcases ends.behind (.of_all (by decide) blank) with ⟨sign, member, last⟩
  rcases List.getLast?_eq_some_iff.mp last with ⟨earlier, equal⟩
  have visible : isBlank sign = false :=
    not_of_mem_connectiveSigns (by decide) member
  rw [trim, trimStart, equal, trimEnd, List.reverse_concat, List.dropWhile_cons,
    visible, if_neg Bool.false_ne_true, ← List.reverse_concat,
    List.reverse_reverse]

/-- A text that ends with a sign is trimmed at its front only. -/
theorem EndsWithSign.exists_front (ends : EndsWithSign text) :
    ∃ front, text = front ++ trim text ∧
      ∀ character ∈ front, isBlank character = true := by
  refine ⟨text.takeWhile isBlank, ?_, fun _ => List.mem_takeWhile_imp⟩
  rw [ends.trim_eq_trimStart]
  exact List.takeWhile_append_dropWhile.symm

theorem EndsWithSign.trim (ends : EndsWithSign text) :
    EndsWithSign (trim text) := by
  rcases ends.exists_front with ⟨front, whole, blank⟩
  rw [whole] at ends
  exact ends.behind (.of_all (by decide) blank)

end Endings

/-! ## Data texts -/

namespace Json

section Scans

variable {strictness : Strictness} {text rest : List Char} {code : Nat}

/-- Escapes are read from the front: what is left over is the end of the text. The
three lemmas together keep a sign at the end of a string literal's text. -/
theorem suffix_of_scanHex (scanned : scanHex text = .ok (code, rest)) :
    rest <:+ text := by
  simp only [scanHex] at scanned
  split at scanned
  · cases scanned
    exact List.drop_suffix 4 text
  · split at scanned <;> cases scanned

theorem suffix_of_scanTrailing {leading : Nat}
    (scanned : scanTrailing leading text = .ok (code, rest)) : rest <:+ text := by
  unfold scanTrailing at scanned
  split at scanned
  · cases scanned
  · cases scanned
  · next text =>
      split at scanned
      · cases scanned
      · next trailing middle found =>
          split at scanned
          · cases scanned
            exact (suffix_of_scanHex found).trans
              (List.suffix_append ['\\', 'u'] text)
          · cases scanned
  · cases scanned
  · cases scanned

theorem suffix_of_scanEscape
    (scanned : scanEscape strictness text = .ok (code, rest)) : rest <:+ text := by
  unfold scanEscape at scanned
  split at scanned
  · cases scanned
  · next text =>
      split at scanned
      · cases scanned
      · next unit middle found =>
          have behind : middle <:+ 'u' :: text :=
            (suffix_of_scanHex found).trans (List.suffix_cons _ _)
          split at scanned
          · cases scanned
            exact behind
          · split at scanned
            · cases scanned
            · split at scanned
              · exact (suffix_of_scanTrailing scanned).trans behind
              · cases scanned
                exact behind
  · split at scanned
    · cases scanned
      exact List.suffix_cons _ _
    · cases scanned

/-- A quoted text is read up to a quote. -/
theorem suffix_of_scanText {codes : List Nat}
    (scanned : scanText strictness text = .ok (codes, rest)) :
    '"' :: rest <:+ text := by
  fun_induction scanText strictness text generalizing codes rest with
  | case1 => cases scanned
  | case2 text =>
      cases scanned
      exact List.suffix_rfl
  | case3 => cases scanned
  | case4 => cases scanned
  | case5 text code middle found shorter codes later read hypothesis =>
      cases scanned
      have behind : middle <:+ '\\' :: text :=
        (suffix_of_scanEscape found).trans (List.suffix_cons _ _)
      exact (hypothesis read).trans behind
  | case6 => cases scanned
  | case7 => cases scanned
  | case8 character text plain straight large codes later read hypothesis =>
      cases scanned
      exact (hypothesis read).trans (List.suffix_cons _ _)

/-- A leaf is read up to a character that is no sign. -/
theorem exists_taken_of_scanLeaf {first : Char} {leaf : Syntax}
    (scanned : scanLeaf strictness first text = .ok (leaf, rest)) :
    ∃ taken, text = taken ++ rest ∧ EndsShut (first :: taken) := by
  have word {letters : List Char} {tree : Syntax}
      (shut : EndsShut (first :: letters))
      (read :
        (scanWord letters text).map (fun rest => (tree, rest)) =
          .ok (leaf, rest)) :
      ∃ taken, text = taken ++ rest ∧ EndsShut (first :: taken) :=
    ⟨letters, Condition.eq_append_of_map_scanWord read, shut⟩
  have numeral {numeral : Numeral} {rest : List Char}
      (read : scanNumeral (first :: text) = .ok (numeral, rest)) :
      ∃ taken, text = taken ++ rest ∧ EndsShut (first :: taken) := by
    rcases Condition.takesNumeric_of_scanNumeral read with
      ⟨numeric, taken, rfl, others⟩
    exact ⟨taken, rfl,
      .of_all (by decide) (List.forall_mem_cons.mpr ⟨numeric, others⟩)⟩
  rw [scanLeaf] at scanned
  split at scanned
  · cases inner : scanText strictness text with
    | error failure =>
        rw [inner] at scanned
        cases scanned
    | ok found =>
        rw [inner] at scanned
        cases scanned
        rcases suffix_of_scanText inner with ⟨front, whole⟩
        refine ⟨front ++ ['"'], ?_, .of_last (first :: front) (by decide)⟩
        rw [← whole, List.append_assoc, List.singleton_append]
  · split at scanned
    · split at scanned
      · cases scanned
      · next read =>
          split at scanned
          · split at scanned <;> cases scanned
            exact numeral read
          · cases scanned
            exact numeral read
    · split at scanned
      · next letter =>
          subst letter
          exact word (.of_last ['n', 'u', 'l'] (by decide)) scanned
      · split at scanned
        · next letter =>
            subst letter
            exact word (.of_last ['t', 'r', 'u'] (by decide)) scanned
        · split at scanned
          · next letter =>
              subst letter
              exact word (.of_last ['f', 'a', 'l', 's'] (by decide)) scanned
          · cases scanned

end Scans

section Tokens

variable {strictness : Strictness} {text : List Char}

/-- The last leaf of a text that ends with a sign is not well formed. -/
theorem exists_broken {steps : Nat} (enough : text.length ≤ steps)
    (ends : EndsWithSign text) :
    ∃ token ∈ tokensWithin strictness steps text, ∃ failure,
      token.kind = .broken failure := by
  induction steps generalizing text with
  | zero =>
      exact (ends.ne_nil (List.length_eq_zero_iff.mp (Nat.le_zero.mp enough))).elim
  | succ steps hypothesis =>
      cases text with
      | nil => exact (ends.ne_nil rfl).elim
      | cons character text =>
          have fewer : text.length ≤ steps := Nat.le_of_succ_le_succ enough
          have behind
              (between : (isSpacing character || isMark character) = true) :
              EndsWithSign text := by
            refine EndsWithSign.behind ends (.of_last [] ?_)
            intro sign
            have unlike :
                connectiveSigns.all
                    (fun sign => !(isSpacing sign || isMark sign)) = true := by
              decide
            cases between.symm.trans (not_of_mem_connectiveSigns unlike sign)
          rw [tokensWithin]
          split
          · next spacing =>
              exact hypothesis fewer (behind (by rw [spacing, Bool.true_or]))
          · split
            · next mark =>
                rcases hypothesis fewer (behind (by rw [mark, Bool.or_true])) with
                  ⟨token, listed, broken⟩
                exact ⟨token, List.mem_cons_of_mem _ listed, broken⟩
            · split
              · next failure broken => exact ⟨_, List.mem_cons_self, failure, rfl⟩
              · next leaf rest scanned =>
                  rcases exists_taken_of_scanLeaf scanned with ⟨taken, rfl, shut⟩
                  have shorter : rest.length ≤ steps := by
                    rw [List.length_append] at fewer
                    omega
                  rcases hypothesis shorter (EndsWithSign.behind ends shut) with
                    ⟨token, listed, broken⟩
                  exact ⟨token, List.mem_cons_of_mem _ listed, broken⟩

variable {reader : Reader} {token : Token} {failure : Failure}

/-- A broken token is no name, nor can it follow a value, so it is refused
wherever the reader stands. -/
theorem takeName_broken (broken : token.kind = .broken failure) :
    ∃ failed, reader.takeName token = .error failed := by
  rw [Reader.takeName, broken]
  dsimp only
  split
  · exact ⟨failure, rfl⟩
  · exact ⟨_, rfl⟩

theorem takeAfter_broken (broken : token.kind = .broken failure) (value : Syntax) :
    ∃ failed, reader.takeAfter value token = .error failed := by
  rw [Reader.takeAfter, broken]
  split <;> first | exact ⟨_, rfl⟩ | contradiction

/-- What is not well formed is never what comes next. -/
theorem step_broken (broken : token.kind = .broken failure) :
    ∃ failed, reader.step strictness token = .error failed := by
  have unmarked (symbol : Char) : Reader.isMarkOf symbol token = false := by
    rw [Reader.isMarkOf, broken]
  have value : reader.takeValue strictness token = .error failure := by
    rw [Reader.takeValue, broken]
  rw [Reader.step]
  simp only [unmarked, Bool.false_eq_true, if_false, value]
  split
  · split <;> exact ⟨failure, rfl⟩
  · exact ⟨failure, rfl⟩
  · exact takeName_broken broken
  · exact takeName_broken broken
  · exact ⟨_, rfl⟩
  · exact takeAfter_broken broken _

/-- Structured text with a broken token among its tokens is refused. -/
theorem run_broken {tokens : List Token} (listed : token ∈ tokens)
    (broken : token.kind = .broken failure) :
    ∃ failed, reader.run strictness tokens = .error failed := by
  induction tokens generalizing reader with
  | nil => cases listed
  | cons first tokens hypothesis =>
      rw [Reader.run]
      cases stepped : reader.step strictness first with
      | error failed => exact ⟨failed, rfl⟩
      | ok next =>
          rcases List.mem_cons.mp listed with rfl | later
          · obtain ⟨failed, refused⟩ :
                ∃ failed, reader.step strictness token = .error failed :=
              step_broken broken
            cases refused.symm.trans stepped
          · exact hypothesis later

/-- No data text ends with a sign of a connective. -/
theorem read_of_endsWithSign (ends : EndsWithSign text) :
    ∃ failure, read text = .error failure := by
  obtain ⟨token, listed, failure, broken⟩ :
      ∃ token ∈ tokens .strict text, ∃ failure, token.kind = .broken failure :=
    exists_broken (Nat.le_refl _) ends
  obtain ⟨failed, run⟩ :
      ∃ failed, Reader.start.run .strict (tokens .strict text) = .error failed :=
    run_broken listed broken
  exact ⟨failed, by rw [read, Syntax.read, run]⟩

end Tokens

end Json

/-! ## Texts without a value -/

namespace Condition

open RequestFlow.Text

/-- Where nothing is open the operator stands in the text at its very end only. -/
def OnlyLast (operator text : List Char) : Prop :=
  ∀ before rest, text = before ++ operator ++ rest →
    Place.outside.after before = .outside → rest = []

/-- A text ends with a sign, and comes apart at no connective. -/
structure Trails (text : List Char) : Prop where
  ends : EndsWithSign text
  last : ∀ connective : Connective, OnlyLast connective.operator text

section Lasts

variable {operator text front rest before : List Char}

theorem OnlyLast.of_unexposed (unexposed : ¬ Exposes .outside operator text) :
    OnlyLast operator text :=
  fun before rest whole bare => (unexposed ⟨before, rest, whole, bare⟩).elim

/-- What stands at the very end of a text only stands at the very end only of the
rest behind a closed front. -/
theorem OnlyLast.behind (last : OnlyLast operator (front ++ rest))
    (bare : Place.outside.after front = .outside) : OnlyLast operator rest := by
  rintro before later rfl outside
  refine last (front ++ before) later (by simp only [List.append_assoc]) ?_
  rw [Place.after_append, bare, outside]

/-- A cut at an operator that stands at the very end only has nothing behind
it. -/
theorem OnlyLast.eq_nil_of_cutAt (last : OnlyLast operator text)
    (member : operator ∈ operators)
    (cutting : cutAt operator text = some (before, rest)) : rest = [] :=
  last before rest (eq_append_of_cutTopLevel cutting) (after_of_cut member cutting)

end Lasts

section Ends

variable {text : List Char}

theorem endsShut_membershipOperator : EndsShut membershipOperator :=
  .of_last ['.', 'i', 'n', 'c', 'l', 'u', 'd', 'e', 's'] (by decide)

theorem endsShut_comparison (equal : Bool) :
    EndsShut (comparisonOperator equal) := by
  cases equal with
  | true => exact .of_last ['='] (by decide)
  | false => exact .of_last ['!'] (by decide)

/-- Membership operators are taken off the front, and leave the end of the text as
it is. -/
theorem endsWithSign_dropMembership (ends : EndsWithSign text) (steps : Nat) :
    EndsWithSign (dropMembership steps text) := by
  induction steps generalizing text with
  | zero => exact ends
  | succ steps hypothesis =>
      rw [dropMembership]
      split
      · next rest found =>
          rw [eq_append_of_dropStart? found] at ends
          exact hypothesis (ends.behind endsShut_membershipOperator)
      · exact ends

/-- What is in front of a text without its negations. -/
theorem exists_dropped (steps : Nat) (text : List Char) :
    ∃ front, text = front ++ (dropNegations steps text).2 ∧
      ∀ character ∈ front, (isBlank character || character == '!') = true := by
  have blanks (text : List Char) : ∃ front, text = front ++ trimStart text ∧
      ∀ character ∈ front, (isBlank character || character == '!') = true := by
    refine ⟨text.takeWhile isBlank, List.takeWhile_append_dropWhile.symm, ?_⟩
    intro character member
    rw [List.mem_takeWhile_imp member, Bool.true_or]
  induction steps generalizing text with
  | zero => exact blanks text
  | succ steps hypothesis =>
      rcases blanks text with ⟨front, whole, dropped⟩
      rw [dropNegations]
      split
      · next rest visible =>
          split
          · exact ⟨front, visible ▸ whole, dropped⟩
          · rcases hypothesis rest with ⟨later, behind, others⟩
            refine ⟨front ++ '!' :: later, ?_, ?_⟩
            · rw [List.append_assoc, List.cons_append, ← behind, ← visible]
              exact whole
            · exact List.forall_mem_append.mpr
                ⟨dropped, List.forall_mem_cons.mpr ⟨rfl, others⟩⟩
      · exact ⟨front, whole, dropped⟩

/-- No literal and no path ends with a sign, so a leaf that does is malformed. -/
theorem readLeaf_of_endsWithSign (ends : EndsWithSign text) :
    ∃ fault, readLeaf text = .malformed fault := by
  rw [readLeaf]
  split
  · rcases Json.read_of_endsWithSign ends with ⟨failure, unread⟩
    exact ⟨_, by rw [unread]⟩
  · have unquoted : unquote? text = none := by
      rw [unquote?, Option.bind_eq_none_iff]
      intro inner opened
      rw [eq_append_of_dropStart? opened] at ends
      exact (ends.behind (.of_last [] (by decide))).dropEnd?_eq_none (by decide)
    have unread : Path.ofText? text = none := by
      cases read : Path.ofText? text with
      | none => rfl
      | some path =>
          have shut : EndsShut text :=
            .of_all (by decide) (isPath_of_read read).1.characters
          exact (ends.not_endsShut shut).elim
    exact ⟨_, by rw [unquoted, unread]⟩

theorem unwrap?_of_endsWithSign (ends : EndsWithSign text) :
    unwrap? text = none := by
  rw [unwrap?]
  split
  · rfl
  · next rest opened =>
      rw [eq_append_of_dropStart? opened] at ends
      rw [(ends.behind (.of_last [] (by decide))).dropEnd?_eq_none (by decide)]

/-- Without a comparison the text is a membership test or a leaf, and its last
operand is malformed either way. -/
theorem ofUncompared_of_endsWithSign (ends : EndsWithSign text) :
    ∃ fault, Expression.ofUncompared text = .malformed fault := by
  rw [Expression.ofUncompared, membership?]
  cases cutting : cutAt membershipOperator text with
  | none =>
      rw [Option.map_none, unwrap?_of_endsWithSign ends]
      exact readLeaf_of_endsWithSign ends
  | some parts =>
      have opened : EndsShut (parts.1 ++ membershipOperator) :=
        endsShut_membershipOperator.prepend (by decide) parts.1
      rw [eq_append_of_cutTopLevel cutting] at ends
      have argument :=
        (endsWithSign_dropMembership (ends.behind opened) text.length).trim
      rw [Option.map_some, argument.dropEnd?_eq_none (by decide)]
      exact ⟨_, rfl⟩

end Ends

/-! ## Texts that trail a connective -/

section Trailing

variable {text front rest : List Char}

/-- What trails goes on trailing behind a front that is closed and ends shut. -/
theorem Trails.behind (trails : Trails (front ++ rest)) (shut : EndsShut front)
    (bare : Place.outside.after front = .outside) : Trails rest :=
  ⟨trails.ends.behind shut, fun connective => (trails.last connective).behind bare⟩

/-- Blanks and negations in front are dropped. -/
theorem Trails.behind_all {test : Char → Bool} (trails : Trails (front ++ rest))
    (shut : connectiveSigns.all (fun sign => !test sign))
    (neutral : ∀ character, test character = true → isNeutral character = true)
    (passes : ∀ character ∈ front, test character = true) : Trails rest :=
  trails.behind (.of_all shut passes)
    (Place.outside.after_of_isNeutral fun character member =>
      neutral character (passes character member))

theorem Trails.trimmed (trails : Trails text) : Trails (trim text) := by
  rcases trails.ends.exists_front with ⟨front, whole, blank⟩
  rw [whole] at trails
  exact trails.behind_all (by decide)
    (fun _ => isNeutral_of_isOrdinary ∘ isOrdinary_of_isBlank) blank

theorem Trails.unsigned (trails : Trails text) (steps : Nat) :
    Trails (dropNegations steps text).2 := by
  rcases exists_dropped steps text with ⟨front, whole, dropped⟩
  rw [whole] at trails
  refine trails.behind_all (by decide) ?_ dropped
  intro character passes
  rcases Bool.or_eq_true_iff.mp passes with blank | negation
  · exact isNeutral_of_isOrdinary (isOrdinary_of_isBlank blank)
  · rcases eq_of_beq negation with rfl
    rfl

/-- Connectives that stand at the very end only leave no two operands, so the text
is read from its negations on. -/
theorem Trails.ofTrimmed_eq (trails : Trails text) :
    Expression.ofTrimmed text =
      Expression.ofSigned (dropNegations text.length text) := by
  refine ofTrimmed_of_unchained trails.ends.ne_nil ?_
  intro connective before rest cutting
  have member : connective.operator ∈ operators := by cases connective <;> decide
  exact (trails.last connective).eq_nil_of_cutAt member cutting

/-- The right side of a comparison trails if the comparison does. -/
theorem Trails.right_of_comparison {equal : Bool} {left right : List Char}
    (trails : Trails text)
    (compared : comparison? text = some (equal, left, right)) :
    ∃ rest, right = trim rest ∧ rest.length < text.length ∧ Trails rest := by
  have behind (equal : Bool) {before rest : List Char}
      (cutting : cutAt (comparisonOperator equal) text = some (before, rest)) :
      rest.length < text.length ∧ Trails rest := by
    have member : comparisonOperator equal ∈ operators := by cases equal <;> decide
    have neutral :
        ∀ character ∈ comparisonOperator equal, isNeutral character = true :=
      List.all_eq_true.mp (by cases equal <;> decide)
    have nonempty := ne_nil_of_mem_operators member
    have shut := (endsShut_comparison equal).prepend nonempty before
    have bare : Place.outside.after before = .outside :=
      after_of_cut member cutting
    have whole : text = before ++ comparisonOperator equal ++ rest :=
      eq_append_of_cutTopLevel cutting
    constructor
    · have positive := List.length_pos_iff.mpr nonempty
      rw [whole, List.length_append, List.length_append]
      omega
    · rw [whole] at trails
      refine trails.behind shut ?_
      rw [Place.after_append, bare, Place.after_of_isNeutral neutral]
  rw [comparison?] at compared
  split at compared
  · next before rest cutting =>
      cases compared
      exact ⟨rest, rfl, behind false cutting⟩
  · rcases Option.map_eq_some_iff.mp compared with ⟨⟨before, rest⟩, cutting, same⟩
    cases same
    exact ⟨rest, rfl, behind true cutting⟩

variable {setting : Setting}

/-- Under its negations a text that trails fails: it is compared with one that
trails, or it is a malformed leaf. -/
theorem Trails.evaluate_ofUnsigned (trails : Trails text)
    (sides : ∀ rest, rest.length < text.length → Trails rest →
      ∃ failure, evaluate setting (Expression.ofText rest) = .error failure) :
    ∃ failure, evaluate setting (Expression.ofUnsigned text) = .error failure := by
  rw [Expression.ofUnsigned]
  cases compared : comparison? text with
  | none =>
      rcases ofUncompared_of_endsWithSign trails.ends with ⟨fault, malformed⟩
      exact ⟨_, by rw [malformed, evaluate]; rfl⟩
  | some parts =>
      rcases parts with ⟨equal, left, right⟩
      dsimp only
      split
      · exact ⟨_, by rw [evaluate]; rfl⟩
      · rcases trails.right_of_comparison compared with ⟨rest, rfl, shorter, later⟩
        rcases sides rest shorter later with ⟨failure, failed⟩
        rw [evaluate_comparison, ofText_trim, failed]
        cases evaluate setting (Expression.ofText left) with
        | error failure => exact ⟨failure, rfl⟩
        | ok value => exact ⟨failure, rfl⟩

/-- A text that ends with a sign and comes apart at no connective has no value. -/
theorem Trails.evaluate_ofTrimmed (trails : Trails text) (setting : Setting) :
    ∃ failure, evaluate setting (Expression.ofTrimmed text) = .error failure := by
  induction length : text.length using Nat.strongRecOn generalizing text with
  | ind length hypothesis =>
      subst length
      have shorter (rest : List Char) (fewer : rest.length < text.length)
          (later : Trails rest) :
          ∃ failure,
            evaluate setting (Expression.ofText rest) = .error failure := by
        have bound := trim_length_le rest
        rw [Expression.ofText_eq]
        exact hypothesis (trim rest).length (by omega) later.trimmed rfl
      have bound := dropNegations_length text.length text
      have inner := trails.unsigned text.length
      rw [trails.ofTrimmed_eq]
      cases counted : dropNegations text.length text with
      | mk count signed =>
          rw [counted] at bound inner
          dsimp only at bound inner
          cases count with
          | zero =>
              rw [Expression.ofSigned]
              exact inner.evaluate_ofUnsigned fun rest fewer later =>
                shorter rest (by omega) later
          | succ count =>
              rw [Expression.ofSigned]
              split
              · exact ⟨_, by rw [evaluate]; rfl⟩
              · rcases shorter signed (by omega) inner with ⟨failure, failed⟩
                exact ⟨failure, by rw [evaluate, failed]⟩

/-- The value of a text that trails is an error, whatever its length. -/
theorem Trails.evaluate_ofText (trails : Trails text) (setting : Setting) :
    ∃ failure, evaluate setting (Expression.ofText text) = .error failure := by
  rw [Expression.ofText_eq]
  exact trails.trimmed.evaluate_ofTrimmed setting

end Trailing

end Condition
end RequestFlow
