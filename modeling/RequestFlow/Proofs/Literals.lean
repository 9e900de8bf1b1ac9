import Mathlib.Data.List.TakeWhile
import RequestFlow.Proofs.Scanning

/-!
# Data texts under a scan

A well formed data text opens and closes its brackets in turn, and within its
quotes there are no others as long as nothing is escaped.  Main statements: a scan
gets through every such text and meets nothing there that an operator could begin
with; and the text is a list, an object or a leaf.
-/

namespace RequestFlow.Condition

open RequestFlow.Json

/-! ## Numbers and words -/

/-- A character of a written number. -/
def isNumeric (character : Char) : Bool :=
  character.isDigit || ['-', '+', '.', 'e', 'E'].contains character

/-- Some characters of a written number were taken off a text. -/
def TakesNumeric (text rest : List Char) : Prop :=
  ∃ taken, text = taken ++ rest ∧ ∀ character ∈ taken, isNumeric character = true

namespace TakesNumeric

variable {text middle rest : List Char}

theorem refl (text : List Char) : TakesNumeric text text :=
  ⟨[], rfl, fun _ member => (List.not_mem_nil member).elim⟩

theorem trans (first : TakesNumeric text middle)
    (second : TakesNumeric middle rest) : TakesNumeric text rest := by
  rcases first with ⟨taken, rfl, numeric⟩
  rcases second with ⟨more, rfl, also⟩
  refine ⟨taken ++ more, (List.append_assoc _ _ _).symm, ?_⟩
  intro character member
  rcases List.mem_append.mp member with member | member
  · exact numeric character member
  · exact also character member

theorem cons {character : Char} (numeric : isNumeric character = true)
    (takes : TakesNumeric text rest) : TakesNumeric (character :: text) rest := by
  rcases takes with ⟨taken, rfl, all⟩
  refine ⟨character :: taken, rfl, ?_⟩
  intro other member
  rcases List.mem_cons.mp member with rfl | member
  · exact numeric
  · exact all other member

end TakesNumeric

theorem isNumeric_of_isDigit {character : Char}
    (digit : character.isDigit = true) : isNumeric character = true := by
  rw [isNumeric, digit, Bool.true_or]

/-- The digits of a numeral are taken off the front of its text, and there is at
least one. -/
theorem takes_of_scanDigits {text digits rest : List Char} {ahead : Nat}
    (scanned : scanDigits text ahead = .ok (digits, rest)) :
    digits ≠ [] ∧ text = digits ++ rest ∧
      ∀ character ∈ digits, isNumeric character = true := by
  rw [scanDigits] at scanned
  split at scanned
  · split at scanned <;> cases scanned
  · next some =>
      cases scanned
      refine ⟨?_, List.takeWhile_append_dropWhile.symm, ?_⟩
      · rw [List.isEmpty_iff] at some
        exact some
      · intro character member
        exact isNumeric_of_isDigit (List.mem_takeWhile_imp member)

/-- So what a scan of digits takes is numeric. -/
theorem takesNumeric_of_scanDigits {text digits rest : List Char} {ahead : Nat}
    (scanned : scanDigits text ahead = .ok (digits, rest)) :
    TakesNumeric text rest :=
  ⟨digits, (takes_of_scanDigits scanned).2⟩

/-- The whole part of a numeral begins with a digit and goes on with digits. -/
theorem takesNumeric_of_scanWhole {text whole rest : List Char}
    (scanned : scanWhole text = .ok (whole, rest)) :
    ∃ first others, text = first :: others ∧ isNumeric first = true ∧
      TakesNumeric others rest := by
  unfold scanWhole at scanned
  split at scanned
  · cases scanned
  · split at scanned
    · cases scanned
    · cases scanned
      exact ⟨_, _, rfl, rfl, .refl _⟩
  · rcases takes_of_scanDigits scanned with ⟨some, rfl, numeric⟩
    cases whole with
    | nil => exact (some rfl).elim
    | cons first others =>
        exact ⟨first, others ++ rest, rfl, numeric first List.mem_cons_self,
          others, rfl,
          fun other member => numeric other (List.mem_cons_of_mem _ member)⟩

/-- A fraction is a point with digits behind it, or nothing. -/
theorem takesNumeric_of_scanFraction {text rest : List Char}
    {fraction : Option (List Char)}
    (scanned : scanFraction text = .ok (fraction, rest)) :
    TakesNumeric text rest := by
  unfold scanFraction at scanned
  split at scanned
  · next text =>
      cases digits : scanDigits text 1 with
      | error failure =>
          rw [digits] at scanned
          cases scanned
      | ok found =>
          rw [digits] at scanned
          cases scanned
          exact .cons rfl (takesNumeric_of_scanDigits digits)
  · cases scanned
    exact .refl _

/-- An exponent may begin with a sign. -/
theorem takesNumeric_of_scanSigned {text rest : List Char}
    {exponent : Option (Bool × List Char)}
    (scanned : scanSigned text = .ok (exponent, rest)) :
    TakesNumeric text rest := by
  simp only [scanSigned] at scanned
  cases digits : scanDigits
      (if (text.head? == some '-' || text.head? == some '+') = true then
        text.drop 1
      else text) 1 with
  | error failure =>
      rw [digits] at scanned
      cases scanned
  | ok found =>
      rw [digits] at scanned
      cases scanned
      have takes := takesNumeric_of_scanDigits digits
      cases text with
      | nil => exact takes
      | cons first text =>
          simp only [List.head?_cons, Bool.or_eq_true, beq_iff_eq,
            Option.some.injEq] at takes
          split at takes
          · next signed =>
              rcases signed with rfl | rfl
              · exact .cons rfl takes
              · exact .cons rfl takes
          · exact takes

/-- An exponent is its letter with digits behind it, or nothing. -/
theorem takesNumeric_of_scanExponent {text rest : List Char}
    {exponent : Option (Bool × List Char)}
    (scanned : scanExponent text = .ok (exponent, rest)) :
    TakesNumeric text rest := by
  unfold scanExponent at scanned
  split at scanned
  · exact .cons rfl (takesNumeric_of_scanSigned scanned)
  · exact .cons rfl (takesNumeric_of_scanSigned scanned)
  · cases scanned
    exact .refl _

/-- A numeral has only characters of numerals, and at least one. -/
theorem takesNumeric_of_scanNumeral {first : Char} {text rest : List Char}
    {numeral : Numeral}
    (scanned : scanNumeral (first :: text) = .ok (numeral, rest)) :
    isNumeric first = true ∧ TakesNumeric text rest := by
  simp only [scanNumeral, List.head?_cons, beq_iff_eq, Option.some.injEq,
    List.drop_succ_cons, List.drop_zero] at scanned
  split at scanned
  · cases scanned
  · next whole afterWhole wholeScanned =>
      split at scanned
      · cases scanned
      · next fraction afterFraction fractionScanned =>
          split at scanned
          · cases scanned
          · next exponent afterExponent exponentScanned =>
              cases scanned
              have later := (takesNumeric_of_scanFraction fractionScanned).trans
                (takesNumeric_of_scanExponent exponentScanned)
              rcases takesNumeric_of_scanWhole wholeScanned with
                ⟨digit, others, same, numeric, takes⟩
              split at same
              · next negative =>
                  subst negative same
                  exact ⟨rfl, .cons numeric (takes.trans later)⟩
              · rcases List.cons.inj same with ⟨rfl, rfl⟩
                exact ⟨numeric, takes.trans later⟩

/-- A word is read letter by letter. -/
theorem eq_append_of_scanWord {word text rest : List Char}
    (scanned : scanWord word text = .ok rest) : text = word ++ rest := by
  induction word generalizing text with
  | nil =>
      cases scanned
      rfl
  | cons letter word hypothesis =>
      cases text with
      | nil => cases scanned
      | cons character text =>
          rw [scanWord] at scanned
          split at scanned
          · next same => rw [same, hypothesis scanned, List.cons_append]
          · cases scanned

/-! ## Quoted texts -/

/-- A text without escapes ends at its first quote. -/
theorem eq_append_of_scanText {strictness : Strictness} {text rest : List Char}
    {codes : List Nat} (plain : ∀ character ∈ text, isPlain character = true)
    (scanned : scanText strictness text = .ok (codes, rest)) :
    ∃ body, text = body ++ '"' :: rest ∧ ∀ character ∈ body, character ≠ '"' := by
  induction text generalizing codes with
  | nil => simp [scanText] at scanned
  | cons character text hypothesis =>
      unfold scanText at scanned
      split at scanned
      · next impossible => cases impossible
      · next closing =>
          rcases List.cons.inj closing with ⟨rfl, rfl⟩
          cases scanned
          exact ⟨[], rfl, fun _ member => (List.not_mem_nil member).elim⟩
      · next escaping =>
          rcases List.cons.inj escaping with ⟨rfl, -⟩
          exact absurd (plain '\\' List.mem_cons_self) (by decide)
      · next other text unquoted unescaped equal =>
          rcases List.cons.inj equal with ⟨rfl, rfl⟩
          split at scanned
          · cases scanned
          · split at scanned
            · cases scanned
            · next found inner =>
                cases scanned
                rcases hypothesis
                    (fun other member =>
                      plain other (List.mem_cons_of_mem _ member)) inner with
                  ⟨body, rfl, inside⟩
                refine ⟨character :: body, rfl, ?_⟩
                intro other member
                rcases List.mem_cons.mp member with rfl | member
                · rintro rfl
                  exact unquoted rfl
                · exact inside other member

/-! ## Leaves -/

theorem isOrdinary_of_isNumeric {character : Char}
    (numeric : isNumeric character = true) : isOrdinary character = true :=
  isOrdinary_of (by decide) numeric

/-- A scan gets through ordinary characters at any depth without a change. -/
theorem scans_of_ordinary {depth : Nat} {text : List Char}
    (ordinary : ∀ character ∈ text, isOrdinary character = true) :
    Scans isOrdinary .none depth text .none depth :=
  .of_neutral
    (fun character member => isNeutral_of_isOrdinary (ordinary character member))
    fun _ => ordinary

/-- What a leaf is written as. -/
inductive Atom : List Char → Prop where
  | quoted {body : List Char} (inside : ∀ character ∈ body, character ≠ '"') :
      Atom ('"' :: (body ++ ['"']))
  | number {first : Char} {others : List Char}
      (begins : (first = '-' || first.isDigit) = true)
      (numeric : ∀ character ∈ first :: others, isNumeric character = true) :
      Atom (first :: others)
  | null : Atom ['n', 'u', 'l', 'l']
  | true : Atom ['t', 'r', 'u', 'e']
  | false : Atom ['f', 'a', 'l', 's', 'e']

theorem eq_append_of_map_scanWord {letters text rest : List Char}
    {tree value : Syntax}
    (scanned :
      (scanWord letters text).map (fun rest => (tree, rest)) = .ok (value, rest)) :
    text = letters ++ rest := by
  cases inner : scanWord letters text with
  | error failure =>
      rw [inner] at scanned
      cases scanned
  | ok found =>
      rw [inner] at scanned
      cases scanned
      exact eq_append_of_scanWord inner

/-- A text in double quotes is an atom. -/
theorem atom_of_scanText {strictness : Strictness} {text rest : List Char}
    {codes : List Nat} (plain : ∀ character ∈ text, isPlain character = true)
    (scanned : scanText strictness text = .ok (codes, rest)) :
    ∃ others, text = others ++ rest ∧ Atom ('"' :: others) := by
  rcases eq_append_of_scanText plain scanned with ⟨body, rfl, inside⟩
  exact ⟨body ++ ['"'], (List.append_assoc body ['"'] rest).symm, .quoted inside⟩

/-- A numeral is an atom. -/
theorem atom_of_scanNumeral {first : Char} {text rest : List Char}
    {numeral : Numeral} (begins : (first = '-' || first.isDigit) = true)
    (scanned : scanNumeral (first :: text) = .ok (numeral, rest)) :
    ∃ others, text = others ++ rest ∧ Atom (first :: others) := by
  rcases takesNumeric_of_scanNumeral scanned with ⟨numeric, taken, rfl, others⟩
  exact ⟨taken, rfl, .number begins (List.forall_mem_cons.mpr ⟨numeric, others⟩)⟩

/-- A leaf that is scanned is taken off the text as it is written. -/
theorem atom_of_scanLeaf {strictness : Strictness} {first : Char}
    {text rest : List Char} {value : Syntax}
    (plain : ∀ character ∈ text, isPlain character = true)
    (scanned : scanLeaf strictness first text = .ok (value, rest)) :
    ∃ others, text = others ++ rest ∧ Atom (first :: others) := by
  rw [scanLeaf] at scanned
  split at scanned
  · next quote =>
      subst quote
      cases inner : scanText strictness text with
      | error failure =>
          rw [inner] at scanned
          cases scanned
      | ok found =>
          rw [inner] at scanned
          cases scanned
          exact atom_of_scanText plain inner
  · split at scanned
    · next begins =>
        split at scanned
        · cases scanned
        · next numeral after inner =>
            -- The rest is that of the numeral, whether its value is within bounds
            -- or not.
            split at scanned
            · split at scanned <;> cases scanned
              exact atom_of_scanNumeral begins inner
            · cases scanned
              exact atom_of_scanNumeral begins inner
    · split at scanned
      · next letter =>
          subst letter
          exact ⟨_, eq_append_of_map_scanWord scanned, .null⟩
      · split at scanned
        · next letter =>
            subst letter
            exact ⟨_, eq_append_of_map_scanWord scanned, .true⟩
        · split at scanned
          · next letter =>
              subst letter
              exact ⟨_, eq_append_of_map_scanWord scanned, .false⟩
          · cases scanned

/-- A scan gets through an atom at any depth: quotes are closed in it and nothing
is opened. -/
theorem Atom.scans {text : List Char} (atom : Atom text) (depth : Nat) :
    Scans isOrdinary .none depth text .none depth := by
  cases atom with
  | quoted inside =>
      exact .step .beginDouble
        ((Scans.inDouble inside).append (Steps.scans .endDouble))
  | number begins numeric =>
      exact scans_of_ordinary fun character member =>
        isOrdinary_of_isNumeric (numeric character member)
  | null => exact scans_of_ordinary (List.all_eq_true.mp rfl)
  | true => exact scans_of_ordinary (List.all_eq_true.mp rfl)
  | false => exact scans_of_ordinary (List.all_eq_true.mp rfl)

/-! ## Readers -/

/-- Something is open wherever a list or an object may end at once. -/
def Sound (reader : Reader) : Prop :=
  match reader.expected with
  | .item | .name => reader.stack ≠ []
  | _ => True

/-- What a token does to the number of open lists and objects. -/
inductive Shifts : Kind → Nat → Nat → Prop where
  | opens {symbol : Char} {depth : Nat} (bracket : symbol ∈ ['[', '{']) :
      Shifts (.mark symbol) depth (depth + 1)
  | closes {symbol : Char} {depth : Nat} (bracket : symbol ∈ [']', '}']) :
      Shifts (.mark symbol) (depth + 1) depth
  | separates {symbol : Char} {depth : Nat} (separator : symbol ∈ [',', ':']) :
      Shifts (.mark symbol) depth depth
  | leaf {value : Syntax} {depth : Nat} : Shifts (.leaf value) depth depth

section Readers

variable {strictness : Strictness} {reader next : Reader} {token : Json.Token}

theorem eq_of_openFrame {frame : Frame} {expected : Expected}
    (opened : reader.openFrame strictness frame expected token = .ok next) :
    next = ⟨frame :: reader.stack, expected⟩ := by
  rw [Reader.openFrame] at opened
  split at opened
  · cases opened
  · exact (Except.ok.inj opened).symm

/-- A token that is read as a value opens a bracket for each frame that it puts on
the stack. -/
theorem shifts_of_takeValue
    (taken : reader.takeValue strictness token = .ok next) :
    Sound next ∧ Shifts token.kind reader.stack.length next.stack.length := by
  rw [Reader.takeValue] at taken
  split at taken
  · next kind =>
      cases taken
      rw [kind]
      exact ⟨trivial, .leaf⟩
  · cases taken
  · next kind =>
      rw [kind]
      split at taken
      · next bracket =>
          rcases eq_of_openFrame taken with rfl
          exact ⟨List.cons_ne_nil _ _, .opens (by rw [bracket]; decide)⟩
      · split at taken
        · next bracket =>
            rcases eq_of_openFrame taken with rfl
            exact ⟨List.cons_ne_nil _ _, .opens (by rw [bracket]; decide)⟩
        · cases taken

/-- A name within an object opens and closes nothing but the object. -/
theorem shifts_of_takeName (taken : reader.takeName token = .ok next) :
    Sound next ∧ Shifts token.kind reader.stack.length next.stack.length := by
  rw [Reader.takeName] at taken
  split at taken
  · next kind opened =>
      cases taken
      rw [kind, opened]
      exact ⟨trivial, .leaf⟩
  · split at taken <;> cases taken
  · cases taken

/-- What follows a value closes a bracket for each frame that it takes off the
stack. -/
theorem shifts_of_takeAfter {value : Syntax}
    (taken : reader.takeAfter value token = .ok next) :
    Sound next ∧ Shifts token.kind reader.stack.length next.stack.length := by
  rw [Reader.takeAfter] at taken
  split at taken
  · cases taken
  · next opened kind =>
      rw [kind, opened]
      split at taken
      · next comma =>
          cases taken
          exact ⟨trivial, .separates (by rw [comma]; decide)⟩
      · split at taken
        · next bracket =>
            cases taken
            exact ⟨trivial, .closes (by rw [bracket]; decide)⟩
        · cases taken
  · cases taken
  · next opened kind =>
      rw [kind, opened]
      split at taken
      · next comma =>
          cases taken
          exact ⟨trivial, .separates (by rw [comma]; decide)⟩
      · split at taken
        · next bracket =>
            cases taken
            exact ⟨trivial, .closes (by rw [bracket]; decide)⟩
        · cases taken
  · cases taken

theorem kind_of_isMarkOf {symbol : Char}
    (mark : Reader.isMarkOf symbol token = true) : token.kind = .mark symbol := by
  rw [Reader.isMarkOf] at mark
  split at mark
  · next kind => rw [kind, eq_of_beq mark]
  · cases mark

/-- A bracket that is closed at once takes its frame off the stack. -/
theorem shifts_of_empty {symbol : Char} {value : Syntax}
    (bracket : symbol ∈ [']', '}']) (opened : reader.stack ≠ [])
    (mark : Reader.isMarkOf symbol token = true) :
    Sound ⟨reader.stack.drop 1, .afterValue value⟩ ∧
      Shifts token.kind reader.stack.length (reader.stack.drop 1).length := by
  rw [kind_of_isMarkOf mark]
  cases stack : reader.stack with
  | nil => exact (opened stack).elim
  | cons frame frames => exact ⟨trivial, .closes bracket⟩

/-- A token that is read opens and closes what its mark says. -/
theorem shifts_of_step (sound : Sound reader)
    (read : reader.step strictness token = .ok next) :
    Sound next ∧ Shifts token.kind reader.stack.length next.stack.length := by
  rw [Sound] at sound
  rw [Reader.step] at read
  cases expected : reader.expected with
  | value =>
      simp only [expected] at read
      split at read
      · split at read
        · cases read
        · exact shifts_of_takeValue read
      · exact shifts_of_takeValue read
  | item =>
      simp only [expected] at read sound
      split at read
      · next mark =>
          cases read
          exact shifts_of_empty (by decide) sound mark
      · exact shifts_of_takeValue read
  | name =>
      simp only [expected] at read sound
      split at read
      · next mark =>
          cases read
          exact shifts_of_empty (by decide) sound mark
      · exact shifts_of_takeName read
  | anotherName =>
      simp only [expected] at read
      split at read
      · cases read
      · exact shifts_of_takeName read
  | colon =>
      simp only [expected] at read
      split at read
      · next mark =>
          cases read
          rw [kind_of_isMarkOf mark]
          exact ⟨trivial, .separates (by decide)⟩
      · cases read
  | afterValue value =>
      simp only [expected] at read
      exact shifts_of_takeAfter read

end Readers

theorem isOrdinary_of_isSpacing {character : Char}
    (spacing : isSpacing character = true) : isOrdinary character = true :=
  isOrdinary_of (by decide) spacing

/-- A mark that shifts the stack is met by a scan as a step of the same depth. -/
theorem Shifts.steps {symbol : Char} {depth deeper : Nat}
    (shifts : Shifts (.mark symbol) depth deeper) :
    Steps isOrdinary .none depth symbol .none deeper := by
  cases shifts with
  | opens bracket => exact .opens (List.mem_cons_of_mem _ bracket)
  | closes bracket => exact .closes (List.mem_cons_of_mem _ bracket)
  | separates separator =>
      have ordinary : isOrdinary symbol = true := by
        simp only [List.mem_cons, List.not_mem_nil, or_false] at separator
        rcases separator with rfl | rfl <;> decide
      exact .passes (isNeutral_of_isOrdinary ordinary) fun _ => ordinary

/-- A leaf leaves the depth as it is. -/
theorem Shifts.eq_of_leaf {value : Syntax} {depth deeper : Nat}
    (shifts : Shifts (.leaf value) depth deeper) : deeper = depth := by
  cases shifts with
  | leaf => rfl

/-- A scan gets through the text of tokens that are read, with as much open as the
reader has. -/
theorem scans_of_run {strictness : Strictness} {steps : Nat} {text : List Char}
    (enough : text.length ≤ steps)
    (plain : ∀ character ∈ text, isPlain character = true) {reader final : Reader}
    (sound : Sound reader)
    (read :
      reader.run strictness (tokensWithin strictness steps text) = .ok final) :
    Scans isOrdinary .none reader.stack.length text .none final.stack.length := by
  -- Whatever the tokens are, the scan is as deep as the reader's stack.
  induction steps generalizing text reader with
  | zero =>
      rcases List.eq_nil_of_length_eq_zero (Nat.le_zero.mp enough) with rfl
      cases read
      exact .done
  | succ steps hypothesis =>
      cases text with
      | nil =>
          cases read
          exact .done
      | cons character text =>
          have shorter : text.length ≤ steps := Nat.le_of_succ_le_succ enough
          have plainRest : ∀ character ∈ text, isPlain character = true :=
            fun other member => plain other (List.mem_cons_of_mem _ member)
          rw [tokensWithin] at read
          split at read
          · next spacing =>
              have ordinary := isOrdinary_of_isSpacing spacing
              exact .step
                (.passes (isNeutral_of_isOrdinary ordinary) fun _ => ordinary)
                (hypothesis shorter plainRest sound read)
          · split at read
            · rw [Reader.run] at read
              split at read
              · cases read
              · next stepped =>
                  rcases shifts_of_step sound stepped with ⟨sound, shifts⟩
                  exact .step shifts.steps
                    (hypothesis shorter plainRest sound read)
            · split at read
              · rw [Reader.run] at read
                split at read
                · cases read
                · next stepped => cases (shifts_of_step sound stepped).2
              · next value rest scanned =>
                  rw [Reader.run] at read
                  split at read
                  · cases read
                  · next following stepped =>
                      rcases shifts_of_step sound stepped with ⟨sound, shifts⟩
                      rcases atom_of_scanLeaf plainRest scanned with
                        ⟨leaf, rfl, atom⟩
                      rw [List.length_append] at shorter
                      have later :=
                        hypothesis (Nat.le_trans (Nat.le_add_left _ _) shorter)
                          (fun other member =>
                            plainRest other (List.mem_append_right _ member)) sound
                          read
                      rw [shifts.eq_of_leaf] at later
                      exact (atom.scans _).append later

/-- A written piece of data closes. -/
theorem closes_of_read {strictness : Strictness} {text : List Char} {tree : Syntax}
    (plain : ∀ character ∈ text, isPlain character = true)
    (read : Syntax.read strictness text = .ok tree) : Closes isOrdinary text := by
  rw [Syntax.read] at read
  split at read
  · cases read
  · next final run =>
      have sound : Sound Reader.start := trivial
      have scans := scans_of_run (Nat.le_refl _) plain sound run
      rw [Reader.finish] at read
      split at read
      · next expected stack =>
          rw [stack] at scans
          exact scans
      all_goals cases read

/-! ## The first character -/

/-- A text without tokens has nothing but spacing. -/
theorem isSpacing_of_no_tokens {strictness : Strictness} {steps : Nat}
    {text : List Char} (enough : text.length ≤ steps)
    (none : tokensWithin strictness steps text = []) :
    ∀ character ∈ text, isSpacing character = true := by
  induction steps generalizing text with
  | zero =>
      rcases List.eq_nil_of_length_eq_zero (Nat.le_zero.mp enough) with rfl
      exact fun _ member => (List.not_mem_nil member).elim
  | succ steps hypothesis =>
      cases text with
      | nil => exact fun _ member => (List.not_mem_nil member).elim
      | cons character text =>
          rw [tokensWithin] at none
          split at none
          · next spacing =>
              intro other member
              rcases List.mem_cons.mp member with rfl | member
              · exact spacing
              · exact hypothesis (Nat.le_of_succ_le_succ enough) none other member
          · split at none
            · cases none
            · split at none <;> cases none

/-- A well formed data text is a list, an object, or a leaf with nothing behind
it. -/
inductive StartsData : List Char → Prop where
  | list {text : List Char} : StartsData ('[' :: text)
  | object {second : Char} {text : List Char} (unlike : second ≠ '{') :
      StartsData ('{' :: second :: text)
  | leaf {text rest : List Char} (atom : Atom text)
      (spacing : ∀ character ∈ rest, isSpacing character = true) :
      StartsData (text ++ rest)

/-- What is read behind the brace of an object does not begin with a second
brace. -/
theorem startsData_of_brace {strictness : Strictness} {text : List Char}
    {final : Reader} {tree : Syntax}
    (read :
      Reader.run strictness ⟨[.fields [] none], .name⟩
          (tokensWithin strictness text.length text) = .ok final)
    (finished : final.finish = .ok tree) : StartsData ('{' :: text) := by
  cases text with
  | nil =>
      cases read
      cases finished
  | cons second text =>
      apply StartsData.object
      rintro rfl
      cases read

/-- A well formed data text that begins with no mark is a leaf, with no token
behind it. -/
theorem scanLeaf_of_read {strictness : Strictness} {first : Char}
    {text : List Char} {tree : Syntax} (visible : isSpacing first = false)
    (unmarked : isMark first = false)
    (read : Syntax.read strictness (first :: text) = .ok tree) :
    ∃ rest, scanLeaf strictness first text = .ok (tree, rest) ∧
      tokensWithin strictness text.length rest = [] := by
  rw [Syntax.read, tokens, List.length_cons, tokensWithin,
    if_neg (by rw [visible]; exact nofun), if_neg (by rw [unmarked]; exact nofun)]
    at read
  cases scanned : scanLeaf strictness first text with
  | error failure =>
      rw [scanned] at read
      cases read
  | ok scan =>
      rcases scan with ⟨leaf, rest⟩
      rw [scanned] at read
      dsimp only at read
      cases following : tokensWithin strictness text.length rest with
      | nil =>
          rw [following] at read
          cases read
          exact ⟨rest, rfl, following⟩
      | cons token others =>
          rw [following] at read
          cases read

/-- A well formed data text that begins with a mark is read on within a list or an
object. -/
theorem openFrame_of_read {strictness : Strictness} {first : Char}
    {text : List Char} {tree : Syntax} (marked : isMark first = true)
    (read : Syntax.read strictness (first :: text) = .ok tree) :
    ∃ frame expected final,
      (first = '[' ∨ (first = '{' ∧ frame = .fields [] none ∧ expected = .name)) ∧
        Reader.run strictness ⟨[frame], expected⟩
            (tokensWithin strictness text.length text) = .ok final ∧
        final.finish = .ok tree := by
  have visible : isSpacing first = false := by
    rw [← Bool.not_eq_true]
    intro spacing
    simp only [isSpacing, Bool.or_eq_true, beq_iff_eq] at spacing
    rcases spacing with ((rfl | rfl) | rfl) | rfl <;> cases marked
  rw [Syntax.read] at read
  split at read
  · cases read
  · next final run =>
      rw [tokens, List.length_cons, tokensWithin,
        if_neg (by rw [visible]; exact nofun), if_pos marked, Reader.run] at run
      split at run
      · cases run
      · next following stepped =>
          simp only [Reader.start, Reader.step, Reader.takeValue] at stepped
          split at stepped
          · next bracket =>
              rcases eq_of_openFrame stepped with rfl
              exact ⟨_, _, final, .inl bracket, run, read⟩
          · split at stepped
            · next brace =>
                rcases eq_of_openFrame stepped with rfl
                exact ⟨_, _, final, .inr ⟨brace, rfl, rfl⟩, run, read⟩
            · cases stepped

/-- A text that is read as data begins as data does. -/
theorem startsData_of_read {strictness : Strictness} {first : Char}
    {text : List Char} {tree : Syntax}
    (plain : ∀ character ∈ text, isPlain character = true)
    (visible : isSpacing first = false)
    (read : Syntax.read strictness (first :: text) = .ok tree) :
    StartsData (first :: text) := by
  cases marked : isMark first with
  | false =>
      rcases scanLeaf_of_read visible marked read with ⟨rest, scanned, none⟩
      rcases atom_of_scanLeaf plain scanned with ⟨leaf, same, atom⟩
      have enough : rest.length ≤ text.length := by
        rw [same, List.length_append]
        exact Nat.le_add_left _ _
      rw [same, ← List.cons_append]
      exact .leaf atom (isSpacing_of_no_tokens enough none)
  | true =>
      rcases openFrame_of_read marked read with
        ⟨_, _, final, rfl | ⟨rfl, rfl, rfl⟩, run, finished⟩
      · exact .list
      · exact startsData_of_brace run finished

end RequestFlow.Condition
