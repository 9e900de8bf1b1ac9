import RequestFlow.Proofs.Endings

/-!
# Connectives that nothing follows

A connective wants an operand on either side.  Main statement: if the operands in
front of it do not decide the chain, an operand that is missing at the start or in
the middle is an error; but one that is missing at the end is not missed behind
two or more operands, and behind a single one the text is an error only because no
operand ends with a connective.
-/

namespace RequestFlow.Condition

open RequestFlow.Text

/-! ## Chains without their last operand -/

/-- The operators at which a text is divided when the operands of the connective
are found. -/
def Connective.dividing : Connective → List (List Char)
  | or => [orOperator]
  | and => [orOperator, andOperator]

/-- Operands with the connective behind each of them. -/
def dangling (connective : Connective) (operands : List (List Char)) : List Char :=
  operands.flatMap fun operand => operand ++ connective.operator

/-- A text that is one operand wherever it stands between connectives: it opens
nothing that it does not close, no connective is exposed in it, and it does not
end with a piece of one. -/
structure Divides (connective : Connective) (text : List Char) : Prop where
  closed : Place.outside.after text = .outside
  unexposed : ∀ operator ∈ connective.dividing, ¬ Exposes .outside operator text
  fenced :
    ∀ operator ∈ connective.dividing, ∀ last ∈ text.getLast?, last ∉ operator

/-- An operand has a value that leaves the chain open. -/
def Undecided (setting : Setting) (connective : Connective) (operand : List Char) :
    Prop :=
  ∃ value, evaluate setting (Expression.ofText operand) = .ok value ∧
    value.isTruthy ≠ connective.decisive

/-- An operand that is no chain of the connective or of a looser one, with a value
that leaves the chain open. -/
structure IsOperand (setting : Setting) (connective : Connective)
    (text : List Char) : Prop where
  shown : Shown text
  closed : Place.outside.after text = .outside
  unexposed : ∀ operator ∈ connective.dividing, ¬ Exposes .outside operator text
  fenced : ∀ last ∈ text.getLast?, last ∉ connective.operator
  undecided : Undecided setting connective text

section Chains

variable {connective : Connective} {text rest : List Char}
  {operands : List (List Char)}

/-- Dividing operators are operators, so the lemmas about cuts hold of them. -/
theorem Connective.mem_operators {operator : List Char}
    (member : operator ∈ connective.dividing) : operator ∈ operators := by
  cases connective <;> revert operator <;> decide

theorem Connective.operator_mem_dividing :
    connective.operator ∈ connective.dividing := by
  cases connective <;> decide

theorem Connective.operator_ne_nil : connective.operator ≠ [] := by
  cases connective <;> decide

theorem isBlank_of_mem_operator {operator : List Char}
    (member : operator ∈ operators) {sign : Char} (within : sign ∈ operator) :
    isBlank sign = false := by
  have visible :
      operators.all (fun operator => operator.all fun sign => !isBlank sign) =
        true := by
    decide
  simpa using List.all_eq_true.mp (List.all_eq_true.mp visible operator member)
    sign within

/-- The two connectives have no sign in common. -/
theorem apart_of_ne {other : Connective} (unlike : connective ≠ other) :
    ∀ sign ∈ connective.operator, sign ∉ other.operator := by
  intro sign member
  cases connective <;> cases other <;> first
    | exact (unlike rfl).elim
    | rcases List.mem_pair.mp member with rfl | rfl <;> decide

theorem dangling_cons (operand : List Char) :
    dangling connective (operand :: operands) =
      operand ++ (connective.operator ++ dangling connective operands) := by
  rw [dangling, List.flatMap_cons, List.append_assoc, ← dangling]

/-- An operator exposed in a text is exposed behind a front that leaves the place
as it is. -/
theorem Exposes.behind {place : Place} {operator front : List Char}
    (bare : place.after front = place) (exposes : Exposes place operator text) :
    Exposes place operator (front ++ text) := by
  rcases exposes with ⟨before, rest, rfl, outside⟩
  refine ⟨front ++ before, rest, by simp only [List.append_assoc], ?_⟩
  rw [Place.after_append, bare, outside]

theorem Divides.behind (before : Blanks)
    (divides : Divides connective (before.text ++ text)) :
    Divides connective text := by
  have bare (place : Place) : place.after before.text = place :=
    place.after_blanks before
  refine ⟨?_, ?_, ?_⟩
  · simpa only [Place.after_append, bare] using divides.closed
  · exact fun operator member exposes =>
      divides.unexposed operator member (exposes.behind (bare _))
  · intro operator member last final
    refine divides.fenced operator member last ?_
    rw [List.getLast?_append, Option.mem_def.mp final]
    rfl

/-- The first cut behind a dividing text is right behind it. -/
theorem Divides.cutAt_append (divides : Divides connective text)
    (rest : List Char) :
    cutAt connective.operator (text ++ (connective.operator ++ rest)) =
      some (text, rest) := by
  have member := connective.operator_mem_dividing
  have found :
      Place.outside.cut connective.operator (connective.operator ++ rest) =
        some ([], rest) :=
    connective.hides.cutAt_operator rest
  rw [cutAt_eq,
    cut_append (Connective.mem_operators member) (divides.unexposed _ member)
      (divides.fenced _ member), divides.closed, found, Option.map_some,
    List.append_nil]

/-- A chain comes apart behind each of its operands. -/
theorem partsAt_dangling
    (divide : ∀ operand ∈ operands, Divides connective operand) (rest : List Char)
    (steps : Nat) :
    partsAt connective.operator (steps + operands.length)
        (dangling connective operands ++ rest) =
      operands.map trim ++ partsAt connective.operator steps rest := by
  induction operands with
  | nil => rfl
  | cons operand operands hypothesis =>
      rcases List.forall_mem_cons.mp divide with ⟨first, others⟩
      have whole :
          dangling connective (operand :: operands) ++ rest =
            operand ++
              (connective.operator ++ (dangling connective operands ++ rest)) := by
        simp only [dangling_cons, List.append_assoc]
      have nonempty :
          operand ++
              (connective.operator ++ (dangling connective operands ++ rest)) ≠
            [] :=
        List.append_ne_nil_of_right_ne_nil _
          (List.append_ne_nil_of_left_ne_nil connective.operator_ne_nil _)
      rw [whole, List.length_cons, ← Nat.add_assoc, partsAt_succ nonempty,
        first.cutAt_append]
      dsimp only
      rw [hypothesis others, List.map_cons, List.cons_append]

/-- No looser connective is found in a chain if there is none behind it. -/
theorem cutAt_or_dangling (tight : connective = .and)
    (divide : ∀ operand ∈ operands, Divides connective operand)
    (absent : cutAt orOperator rest = none) :
    cutAt orOperator (dangling connective operands ++ rest) = none := by
  subst tight
  have member : orOperator ∈ operators := by decide
  induction operands with
  | nil => exact absent
  | cons operand operands hypothesis =>
      rcases List.forall_mem_cons.mp divide with ⟨first, others⟩
      have hidden : ¬ Exposes .outside orOperator andOperator :=
        (cutAt_eq_none_iff member).mp (by decide)
      have fenced : ∀ last ∈ andOperator.getLast?, last ∉ orOperator := by
        rintro _ ⟨⟩
        decide
      have bare : Place.outside.after andOperator = .outside := by decide
      have later :
          Place.outside.cut orOperator (dangling .and operands ++ rest) = none :=
        hypothesis others
      have behind :
          Place.outside.cut orOperator
              (andOperator ++ (dangling .and operands ++ rest)) = none := by
        rw [cut_append member hidden fenced, bare, later, Option.map_none]
      have whole : dangling .and (operand :: operands) ++ rest =
          operand ++ (andOperator ++ (dangling .and operands ++ rest)) := by
        simp only [dangling_cons, List.append_assoc, Connective.operator]
      rw [whole, cutAt_eq, cut_append member (first.unexposed _ (by decide))
        (first.fenced _ (by decide)), first.closed, behind, Option.map_none]

end Chains

/-! ## Blanks around a chain -/

section Blanks

variable {connective : Connective} {text rest : List Char}
  {operands : List (List Char)}

/-- A text is what trimming leaves of it behind blanks. -/
theorem exists_front (text : List Char) :
    ∃ before : Blanks, text = before.text ++ trimStart text :=
  ⟨⟨text.takeWhile isBlank, fun _ => List.mem_takeWhile_imp⟩,
    List.takeWhile_append_dropWhile.symm⟩

theorem exists_back (text : List Char) :
    ∃ after : Blanks, text = trimEnd text ++ after.text := by
  have blank :
      ∀ character ∈ (text.reverse.takeWhile isBlank).reverse,
        isBlank character = true :=
    fun _ member => List.mem_takeWhile_imp (List.mem_reverse.mp member)
  refine ⟨⟨_, blank⟩, ?_⟩
  rw [trimEnd, ← List.reverse_append, List.takeWhile_append_dropWhile,
    List.reverse_reverse]

/-- A text that shows something ends without a blank once its end is trimmed. -/
theorem Shown.ends_trimEnd (shown : Shown text) : Ends (trimEnd text) := by
  rcases shown with ⟨character, member, visible⟩
  rw [trimEnd]
  cases kept : text.reverse.dropWhile isBlank with
  | nil =>
      have blank :=
        List.dropWhile_eq_nil_iff.mp kept character (List.mem_reverse.mpr member)
      cases blank.symm.trans visible
  | cons last others =>
      have final := List.head?_dropWhile_not isBlank text.reverse
      rw [kept] at final
      rw [List.reverse_cons]
      exact .of_last others.reverse final

theorem trim_append_blanks (ends : Ends text) (last : Blanks) :
    trim (text ++ last.text) = trim text := by
  have blank : ∀ character ∈ last.text.reverse, isBlank character = true :=
    fun character member => last.blank character (List.mem_reverse.mp member)
  have shown : (text.dropWhile isBlank).isEmpty = false := by
    rcases ends with ⟨front, final, rfl, visible⟩
    rw [List.isEmpty_eq_false_iff, Ne, List.dropWhile_eq_nil_iff]
    intro all
    cases (all final (by simp)).symm.trans visible
  rw [trim, trim, trimStart, trimStart, List.dropWhile_append, shown,
    if_neg Bool.false_ne_true, trimEnd, List.reverse_append,
    List.dropWhile_append_of_pos blank, ← trimEnd]

theorem trim_trimStart (text : List Char) : trim (trimStart text) = trim text := by
  rw [trim, trim, trimStart_of_prefix List.prefix_rfl]

theorem Starts.behind_trimStart (starts : Starts rest) (text : List Char) :
    Starts (trimStart text ++ rest) := by
  cases kept : trimStart text with
  | nil => exact starts
  | cons first others =>
      have visible := List.head?_dropWhile_not isBlank text
      rw [← trimStart, kept] at visible
      exact ⟨first, others ++ rest, rfl, visible⟩

/-- What begins with a connective does not begin with a blank. -/
theorem Connective.starts_operator (more : List Char) :
    Starts (connective.operator ++ more) := by
  cases connective <;> exact ⟨_, _, rfl, rfl⟩

theorem endsWithSign_operator (connective : Connective) :
    EndsWithSign connective.operator := by
  cases connective <;> exact ⟨_, by decide, rfl⟩

theorem endsWithSign_dangling (nonempty : operands ≠ []) :
    EndsWithSign (dangling connective operands) := by
  induction operands with
  | nil => exact (nonempty rfl).elim
  | cons operand operands hypothesis =>
      rw [dangling_cons, ← List.append_assoc]
      cases operands with
      | nil =>
          rw [dangling, List.flatMap_nil, List.append_nil]
          exact (endsWithSign_operator connective).prepend operand
      | cons other operands =>
          exact (hypothesis (List.cons_ne_nil other operands)).prepend _

/-- A sign of a connective is no blank. -/
theorem ends_of_endsWithSign (ends : EndsWithSign text) : Ends text := by
  rcases ends with ⟨sign, member, last⟩
  rcases List.getLast?_eq_some_iff.mp last with ⟨front, rfl⟩
  exact .of_last front (not_of_mem_connectiveSigns (by decide) member)

/-- Blanks around a chain are blanks in front of its first operand and behind its
last one. -/
theorem ofText_chain {operand : List Char} (ends : rest = [] ∨ Ends rest)
    (last : Blanks) :
    Expression.ofText
        (dangling connective (operand :: operands) ++ rest ++ last.text) =
      Expression.ofTrimmed
        (dangling connective (trimStart operand :: operands) ++ rest) := by
  obtain ⟨before, front⟩ := exists_front operand
  have whole :
      dangling connective (operand :: operands) ++ rest =
        before.text ++
          (dangling connective (trimStart operand :: operands) ++ rest) := by
    calc
      _ =
        operand ++
          (connective.operator ++ dangling connective operands ++ rest) := by
        rw [dangling_cons, List.append_assoc]
      _ =
          before.text ++ trimStart operand ++
            (connective.operator ++ dangling connective operands ++ rest) := by
        rw [← front]
      _ = _ := by simp only [dangling_cons, List.append_assoc]
  have starts :
      Starts (dangling connective (trimStart operand :: operands) ++ rest) := by
    rw [dangling_cons, List.append_assoc, List.append_assoc]
    exact (connective.starts_operator _).behind_trimStart operand
  have closing :
      Ends (dangling connective (trimStart operand :: operands) ++ rest) := by
    rcases ends with rfl | ends
    · rw [List.append_nil]
      exact ends_of_endsWithSign (endsWithSign_dangling (List.cons_ne_nil _ _))
    · exact ends.prepend _
  rw [Expression.ofText_eq, whole, trim_pad starts closing]

end Blanks

/-! ## Values of chains -/

section Values

variable {setting : Setting} {connective : Connective} {text rest : List Char}
  {operands : List (List Char)}

/-- Operands that do not decide a chain are passed over. -/
theorem settle_append
    (undecided : ∀ operand ∈ operands, Undecided setting connective operand)
    (others : List Expression) :
    connective.settle setting (operands.map Expression.ofText ++ others) =
      connective.settle setting others := by
  induction operands with
  | nil => rfl
  | cons operand operands hypothesis =>
      rcases List.forall_mem_cons.mp undecided with
        ⟨⟨value, evaluated, goes⟩, later⟩
      rw [List.map_cons, List.cons_append, settle_cons, evaluated]
      exact (if_neg goes).trans (hypothesis later)

/-- Blanks in front neither open anything nor are part of an operator. -/
theorem Divides.trimStart (divides : Divides connective text) :
    Divides connective (trimStart text) := by
  obtain ⟨before, front⟩ := exists_front text
  rw [front] at divides
  exact divides.behind before

/-- There are at least as many characters as operands, which gives the steps that
settling takes. -/
theorem length_le_dangling (connective : Connective)
    (operands : List (List Char)) :
    operands.length ≤ (dangling connective operands).length := by
  induction operands with
  | nil => exact Nat.zero_le _
  | cons operand operands hypothesis =>
      have positive := List.length_pos_iff.mpr connective.operator_ne_nil
      rw [dangling_cons, List.length_cons, List.length_append, List.length_append]
      omega

/-- A chain has the value of its operands and of what is behind them, if there are
several in all. -/
theorem evaluate_chain (nonempty : operands ≠ []) (ends : rest = [] ∨ Ends rest)
    (last : Blanks) (divide : ∀ operand ∈ operands, Divides connective operand)
    (looser : connective = .and → cutAt orOperator rest = none)
    (several : 2 ≤ operands.length ∨ rest ≠ []) :
    ∃ steps,
      evaluate setting
          (Expression.ofText (dangling connective operands ++ rest ++ last.text)) =
        connective.settle setting
          (operands.map Expression.ofText ++
            (partsAt connective.operator steps rest).map Expression.ofText) := by
  rcases List.exists_cons_of_ne_nil nonempty with ⟨operand, operands, rfl⟩
  rcases List.forall_mem_cons.mp divide with ⟨first, others⟩
  have tight : ∀ other ∈ trimStart operand :: operands, Divides connective other :=
    List.forall_mem_cons.mpr ⟨first.trimStart, others⟩
  have bound := length_le_dangling connective (trimStart operand :: operands)
  rw [ofText_chain ends last]
  generalize whole : dangling connective (trimStart operand :: operands) ++ rest =
    text at *
  have room : (operands.length + 1) + rest.length ≤ text.length := by
    rw [← whole, List.length_append]
    exact Nat.add_le_add_right bound rest.length
  obtain ⟨steps, enough⟩ :
      ∃ steps, text.length + 1 = steps + 1 + (operands.length + 1) :=
    ⟨text.length - (operands.length + 1), by omega⟩
  have parts :
      partsAt connective.operator (text.length + 1) text =
        (trimStart operand :: operands).map trim ++
          partsAt connective.operator (steps + 1) rest := by
    rw [enough, ← whole]
    exact partsAt_dangling tight rest (steps + 1)
  have some : text ≠ [] := List.ne_nil_of_length_pos (by omega)
  have count :
      2 ≤ (partsAt connective.operator (text.length + 1) text).length := by
    rw [parts, List.length_append, List.length_map, List.length_cons]
    rcases several with more | more
    · rw [List.length_cons] at more
      omega
    · have :=
        List.length_pos_iff.mpr (partsAt_ne_nil connective.operator more steps)
      omega
  refine ⟨steps + 1, ?_⟩
  rw [ofTrimmed_of_several connective some ?_ count, evaluate_tree, parts,
    List.map_append]
  · simp only [List.map_cons, List.map_map, trim_trimStart, ofText_trim,
      Function.comp_def]
  · intro and
    rw [several_iff some, ← whole, cutAt_or_dangling and tight (looser and)]
    rintro ⟨before, rest, found, -⟩
    cases found

/-- An empty operand is an error. -/
theorem evaluate_ofText_blanks (blanks : Blanks) :
    evaluate setting (Expression.ofText blanks.text) =
      setting.error .emptyOperand := by
  have none : trim blanks.text = [] := by
    rw [trim, trimStart, List.dropWhile_eq_nil_iff.mpr blanks.blank, trimEnd_nil]
  rw [Expression.ofText_eq, none, Expression.ofTrimmed, List.isEmpty_nil,
    if_pos rfl, evaluate]

end Values

/-! ## A single operand -/

/-- The parts of a text that stand in front of an operator. -/
inductive InFront (operator : List Char) : List Char → List Char → Prop where
  | first {text before rest : List Char}
      (cutting : cutAt operator text = some (before, rest)) :
      InFront operator text before
  | later {text before rest part : List Char}
      (cutting : cutAt operator text = some (before, rest))
      (inFront : InFront operator rest part) : InFront operator text part

/-- A part of the text in front of a conjunction has a value that is false, so
that the rest of the text does not matter. -/
def Stops (setting : Setting) (text : List Char) : Prop :=
  ∃ part, InFront andOperator text part ∧
    ∃ value, evaluate setting (Expression.ofText part) = .ok value ∧
      value.isTruthy = false

section Single

variable {setting : Setting} {connective : Connective} {text more : List Char}

theorem mem_connectiveSigns_of_mem_operator (connective : Connective) {sign : Char}
    (member : sign ∈ connective.operator) : sign ∈ connectiveSigns := by
  cases connective <;> rcases List.mem_pair.mp member with rfl | rfl <;> decide

/-- A text that ends with a sign and exposes no connective trails. -/
theorem Trails.of_unexposed (ends : EndsWithSign text)
    (unexposed :
      ∀ connective : Connective, ¬ Exposes .outside connective.operator text) :
    Trails text :=
  ⟨ends, fun connective => .of_unexposed (unexposed connective)⟩

/-- An operand divides: with a sign of the looser connective at its end it would
have no value, so its end is fenced from every dividing operator. -/
theorem IsOperand.divides (operand : IsOperand setting connective text) :
    Divides connective text := by
  refine ⟨operand.closed, operand.unexposed, ?_⟩
  intro operator member last final sign
  cases connective with
  | or =>
      rcases List.mem_singleton.mp member with rfl
      exact operand.fenced last final sign
  | and =>
      rcases List.mem_pair.mp member with rfl | rfl
      · -- An operand with a bar at its end has no value.
        have trails : Trails text := by
          refine .of_unexposed
            ⟨last, mem_connectiveSigns_of_mem_operator .or sign, final⟩ ?_
          rintro (_ | _)
          · exact operand.unexposed _ (by decide)
          · exact operand.unexposed _ (by decide)
        rcases operand.undecided with ⟨value, evaluated, -⟩
        rcases trails.evaluate_ofText setting with ⟨failure, failed⟩
        cases evaluated.symm.trans failed
      · exact operand.fenced last final sign

/-- Behind an operand the connective stands at the very end. -/
theorem Divides.onlyLast (divides : Divides connective text) :
    OnlyLast connective.operator (text ++ connective.operator) := by
  intro before later whole bare
  have member := connective.operator_mem_dividing
  rw [List.append_assoc] at whole
  rcases List.append_eq_append_iff.mp whole with
    ⟨excess, rfl, same⟩ | ⟨inner, rfl, same⟩
  · have lengths := congrArg List.length same
    simp only [List.length_append] at lengths
    exact List.length_eq_zero_iff.mp (by omega)
  · rcases List.append_eq_append_iff.mp same with
      ⟨excess, rfl, -⟩ | ⟨excess, pieces, behind⟩
    · exact (divides.unexposed _ member
        ⟨before, excess, (List.append_assoc ..).symm, bare⟩).elim
    · rcases List.eq_nil_or_concat inner with rfl | ⟨front, last, rfl⟩
      · rw [List.nil_append] at pieces
        exact List.append_right_eq_self.mp (pieces ▸ behind).symm
      · -- The text would end with a piece of the connective.
        rw [List.concat_eq_append, ← List.append_assoc] at divides
        refine (divides.fenced _ member last (List.getLast?_concat ..) ?_).elim
        rw [pieces]
        simp

/-- A single operand of a conjunction has no value with the connective behind
it. -/
theorem trails_conjunction (divides : Divides .and text) :
    Trails (text ++ andOperator) := by
  refine ⟨(endsWithSign_operator .and).prepend text, ?_⟩
  rintro (_ | _)
  · have apart : ∀ character ∈ andOperator, character ∉ orOperator :=
      apart_of_ne (show Connective.and ≠ .or from nofun)
    have member : orOperator ∈ operators := by decide
    refine .of_unexposed fun exposes => ?_
    exact divides.unexposed orOperator (by decide)
      ((exposes_append_of_apart member apart).mp exposes)
  · exact divides.onlyLast

/-- Without a cut there is no part in front of a conjunction. -/
theorem not_stops_of_uncut (uncut : cutAt andOperator text = none) :
    ¬ Stops setting text := by
  rintro ⟨part, inFront, -⟩
  cases inFront with
  | first cutting => cases uncut.symm.trans cutting
  | later cutting _ => cases uncut.symm.trans cutting

/-- What is put behind an uncut text exposes no conjunction if it has none of its
signs, so the whole trails if it ends with another sign. -/
theorem trails_of_uncut (apart : ∀ character ∈ more, character ∉ andOperator)
    (ends : EndsWithSign more) (last : OnlyLast orOperator (text ++ more))
    (uncut : cutAt andOperator text = none) : Trails (text ++ more) := by
  have member : andOperator ∈ operators := by decide
  refine ⟨ends.prepend text, ?_⟩
  rintro (_ | _)
  · exact last
  · refine .of_unexposed fun exposes => ?_
    exact (cutAt_eq_none_iff member).mp uncut
      ((exposes_append_of_apart member apart).mp exposes)

/-- A first part that is true does not stop a conjunction, so it stops iff what is
behind that part does. -/
theorem stops_iff_of_true {before rest : List Char} {value : Value}
    (cutting : cutAt andOperator text = some (before, rest))
    (evaluated : evaluate setting (Expression.ofText before) = .ok value)
    (truth : value.isTruthy = true) : Stops setting text ↔ Stops setting rest := by
  constructor
  · rintro ⟨part, inFront, other, found, other_false⟩
    cases inFront with
    | first again =>
        cases again.symm.trans cutting
        cases found.symm.trans evaluated
        cases truth.symm.trans other_false
    | later again inFront =>
        cases again.symm.trans cutting
        exact ⟨part, inFront, other, found, other_false⟩
  · rintro ⟨part, inFront, other⟩
    exact ⟨part, .later cutting inFront, other⟩

/-- Nothing is open behind the conjunction at which a text is cut. -/
theorem after_behind_cut {before rest : List Char}
    (cutting : cutAt andOperator text = some (before, rest)) :
    Place.outside.after (before ++ andOperator) = .outside := by
  have bare : Place.outside.after before = .outside :=
    after_of_cut (by decide) cutting
  rw [Place.after_append, bare]
  rfl

/-- The value of a conjunction with something behind its last operand that makes
that no operand. -/
theorem settle_trailing (apart : ∀ character ∈ more, character ∉ andOperator)
    (ends : EndsWithSign more) (last : OnlyLast orOperator (text ++ more))
    {steps further : Nat} (enough : text.length < steps)
    (room : (text ++ more).length < further) {value : Value}
    (settled : Connective.and.settleText setting steps text = .ok value) :
    let answer := Connective.and.settleText setting further (text ++ more)
    (Stops setting text → answer = .ok (.ofBool false)) ∧
      (¬ Stops setting text → ∃ failure, answer = .error failure) := by
  induction steps generalizing text further with
  | zero => cases enough
  | succ steps hypothesis =>
      obtain ⟨further, rfl⟩ : ∃ fewer, further = fewer + 1 :=
        Nat.exists_eq_succ_of_ne_zero (by omega)
      have member : andOperator ∈ operators := by decide
      have filled : text ++ more ≠ [] := (ends.prepend text).ne_nil
      cases cutting : cutAt andOperator text with
      | none =>
          rcases (trails_of_uncut apart ends last cutting).evaluate_ofText
              setting with
            ⟨failure, failed⟩
          have uncut : cutAt andOperator (text ++ more) = none := by
            rw [cutAt_eq_none_iff member, exposes_append_of_apart member apart,
              ← cutAt_eq_none_iff member]
            exact cutting
          refine ⟨fun stops => (not_stops_of_uncut cutting stops).elim,
            fun _ => ⟨failure, ?_⟩⟩
          exact settleText_of_uncut .and filled uncut failed further
      | some parts =>
          rcases parts with ⟨before, rest⟩
          have inner : Place.outside.cut andOperator text = some (before, rest) :=
            cutting
          have found :
              cutAt andOperator (text ++ more) = some (before, rest ++ more) :=
            cut_append_of_found member inner more
          have whole : text = before ++ andOperator ++ rest :=
            eq_append_of_cutTopLevel cutting
          have nonempty : text ≠ [] := by
            rintro rfl
            cases cutting
          rw [settleText_of_cut .and nonempty cutting] at settled
          rw [settleText_of_cut .and filled found]
          rcases exists_first settled with ⟨first, evaluated⟩
          rw [evaluated] at settled ⊢
          cases truth : first.isTruthy with
          | false =>
              have stops : Stops setting text :=
                ⟨before, .first cutting, first, evaluated, truth⟩
              exact ⟨fun _ => if_pos truth, fun goes => (goes stops).elim⟩
          | true =>
              have goes : ¬ first.isTruthy = Connective.and.decisive := by
                rw [truth]
                exact nofun
              have later :
                  Connective.and.settleText setting steps rest = .ok value :=
                (if_neg goes).symm.trans settled
              have behind : OnlyLast orOperator (rest ++ more) := by
                rw [whole, List.append_assoc _ rest] at last
                exact last.behind (after_behind_cut cutting)
              have lengths : text.length = before.length + 2 + rest.length := by
                rw [whole, List.length_append, List.length_append]
                rfl
              have room : (rest ++ more).length < further := by
                rw [List.length_append] at room ⊢
                omega
              rcases hypothesis behind (by omega) room later with ⟨stopped, failed⟩
              rw [stops_iff_of_true cutting evaluated truth]
              refine ⟨fun stops => (if_neg goes).trans (stopped stops),
                fun still => ?_⟩
              rcases failed still with ⟨failure, error⟩
              exact ⟨failure, (if_neg goes).trans error⟩

/-- One operand with its connective is read without the blanks around it. -/
theorem ofText_single (connective : Connective) (text : List Char)
    (last : Blanks) :
    Expression.ofText (dangling connective [text] ++ last.text) =
      Expression.ofTrimmed (trimStart text ++ connective.operator) := by
  have chain :
      Expression.ofText (dangling connective [text] ++ [] ++ last.text) =
        Expression.ofTrimmed (dangling connective [trimStart text] ++ []) :=
    ofText_chain (.inl rfl) last
  rwa [List.append_nil, List.append_nil, dangling_cons (trimStart text), dangling,
    dangling, List.flatMap_nil, List.append_nil] at chain

/-- A conjunction that a connective trails at its end has no value. -/
theorem trails_of_cut_nil {before : List Char}
    (cutting : cutAt andOperator text = some (before, []))
    (unexposed : ¬ Exposes .outside orOperator text) : Trails text := by
  have whole : text = before ++ andOperator := by
    rw [eq_append_of_cutTopLevel cutting, List.append_nil]
  refine ⟨whole ▸ (endsWithSign_operator .and).prepend before, ?_⟩
  rintro (_ | _)
  · exact .of_unexposed unexposed
  · intro other later same bare
    have found : Place.outside.cut andOperator text = some (before, []) := cutting
    have first := length_le_of_cut (by decide) found same bare
    have lengths := congrArg List.length (whole.symm.trans same)
    simp only [List.length_append, Connective.operator] at lengths
    exact List.length_eq_zero_iff.mp (by omega)

/-- A conjunction with something behind it is settled from left to right, unless a
disjunction divides the text first. -/
theorem evaluate_conjunction {before rest : List Char}
    (cutting : cutAt andOperator text = some (before, rest)) (some : rest ≠ [])
    (last : OnlyLast orOperator text) :
    evaluate setting (Expression.ofTrimmed text) =
      Connective.and.settleText setting (text.length + 1) text := by
  have nonempty : text ≠ [] := by
    rintro rfl
    cases cutting
  have several := (several_iff nonempty).mpr ⟨before, rest, cutting, some⟩
  have joined : ¬ 2 ≤ (partsAt orOperator (text.length + 1) text).length := by
    rw [several_iff nonempty]
    rintro ⟨front, later, found, some⟩
    exact some (last.eq_nil_of_cutAt (by decide) found)
  rw [ofTrimmed_of_several .and nonempty (fun _ => joined) several, evaluate_tree]
  rfl

/-- A single operand has a value with a connective behind it only if a part of it
decides it before the connective is met. -/
theorem evaluate_trimmed {core : List Char} {after : Blanks}
    (divides : Divides .or (core ++ after.text)) (nonempty : core ≠ [])
    (evaluated :
      ∃ value, evaluate setting (Expression.ofTrimmed core) = .ok value) :
    let answer :=
      evaluate setting (Expression.ofTrimmed (core ++ (after.text ++ orOperator)))
    (Stops setting core → answer = .ok (.ofBool false)) ∧
      (¬ Stops setting core → ∃ failure, answer = .error failure) := by
  have apart :
      ∀ character ∈ after.text ++ orOperator, character ∉ andOperator := by
    refine List.forall_mem_append.mpr ⟨fun character member sign => ?_, ?_⟩
    · cases (after.blank character member).symm.trans
        (isBlank_of_mem_operator (by decide) sign)
    · exact apart_of_ne (show Connective.or ≠ .and from nofun)
  have ends : EndsWithSign (after.text ++ orOperator) :=
    (endsWithSign_operator .or).prepend after.text
  have last : OnlyLast orOperator (core ++ (after.text ++ orOperator)) := by
    rw [← List.append_assoc]
    exact divides.onlyLast
  have member : orOperator ∈ operators := by decide
  have unexposed : ¬ Exposes .outside orOperator core := by
    rintro ⟨before, rest, rfl, bare⟩
    exact divides.unexposed orOperator (by decide)
      ⟨before, rest ++ after.text, by simp, bare⟩
  rcases evaluated with ⟨value, evaluated⟩
  cases cutting : cutAt andOperator core with
  | none =>
      have trails := trails_of_uncut apart ends last cutting
      exact ⟨fun stops => (not_stops_of_uncut cutting stops).elim,
        fun _ => trails.evaluate_ofTrimmed setting⟩
  | some parts =>
      rcases parts with ⟨before, rest⟩
      have found : Place.outside.cut andOperator core = some (before, rest) :=
        cutting
      by_cases ended : rest = []
      · subst ended
        rcases (trails_of_cut_nil cutting unexposed).evaluate_ofTrimmed setting
          with ⟨failure, failed⟩
        cases evaluated.symm.trans failed
      · have foundAlso : cutAt andOperator (core ++ (after.text ++ orOperator)) =
            some (before, rest ++ (after.text ++ orOperator)) :=
          cut_append_of_found (by decide) found _
        have some : rest ++ (after.text ++ orOperator) ≠ [] :=
          List.append_ne_nil_of_left_ne_nil ended _
        rw [evaluate_conjunction cutting ended (.of_unexposed unexposed)]
          at evaluated
        rw [evaluate_conjunction foundAlso some last]
        exact settle_trailing apart ends last (Nat.lt_succ_self _)
          (Nat.lt_succ_self _) evaluated

/-- One operand with a connective behind it is no chain.  The text fails, unless
it is a disjunction and a false part stops a conjunction within the operand, which
makes it false. -/
theorem evaluate_single (operand : IsOperand setting connective text)
    (last : Blanks) :
    let answer :=
      evaluate setting
        (Expression.ofText (dangling connective [text] ++ last.text))
    (connective = .or ∧ Stops setting (trim text) → answer = .ok (.ofBool false)) ∧
      (¬ (connective = .or ∧ Stops setting (trim text)) →
        ∃ failure, answer = .error failure) := by
  have divides := operand.divides.trimStart
  rw [ofText_single]
  cases connective with
  | and =>
      refine ⟨fun both => (nomatch both.1), fun _ => ?_⟩
      exact (trails_conjunction divides).evaluate_ofTrimmed setting
  | or =>
      obtain ⟨after, back⟩ := exists_back (trimStart text)
      obtain ⟨value, evaluated, -⟩ := operand.undecided
      have core : trimStart text = trim text ++ after.text := back
      rw [core] at divides
      rw [Expression.ofText_eq] at evaluated
      have values :=
        evaluate_trimmed divides operand.shown.trim_ne_nil ⟨value, evaluated⟩
      rw [← List.append_assoc, ← core] at values
      simp only [true_and]
      exact values

end Single

/-! ## Missing operands -/

section Missing

variable {setting : Setting} {connective : Connective} {text rest : List Char}
  {operands : List (List Char)}

/-- Two operands and more make a chain, and the connective behind the last of them
is left unread: none of them decides, so the value is that of a chain that nothing
decides. -/
theorem evaluate_several
    (each : ∀ operand ∈ operands, IsOperand setting connective operand)
    (several : 2 ≤ operands.length) (last : Blanks) :
    evaluate setting
        (Expression.ofText (dangling connective operands ++ last.text)) =
      .ok (.ofBool !connective.decisive) := by
  have nonempty : operands ≠ [] :=
    List.ne_nil_of_length_pos (Nat.lt_of_succ_lt several)
  have divide : ∀ operand ∈ operands, Divides connective operand :=
    fun operand member => (each operand member).divides
  obtain ⟨steps, chain⟩ : ∃ steps, evaluate setting
      (Expression.ofText (dangling connective operands ++ [] ++ last.text)) =
        connective.settle setting (operands.map Expression.ofText ++
          (partsAt connective.operator steps []).map Expression.ofText) :=
    evaluate_chain nonempty (.inl rfl) last divide (fun _ => rfl) (.inl several)
  -- Nothing is found behind the last connective, not even an empty operand.
  have ended : partsAt connective.operator steps [] = [] := by cases steps <;> rfl
  rw [List.append_nil] at chain
  rw [chain, ended,
    settle_append fun operand member => (each operand member).undecided]
  exact settle_nil setting connective

/-- Blanks alone divide at every connective. -/
theorem Divides.of_blanks (blanks : Blanks) : Divides connective blanks.text := by
  have apart :
      ∀ operator ∈ connective.dividing, ∀ character ∈ blanks.text,
        character ∉ operator := by
    intro operator member character blank sign
    cases (blanks.blank character blank).symm.trans
      (isBlank_of_mem_operator (Connective.mem_operators member) sign)
  refine ⟨Place.outside.after_blanks blanks, ?_, ?_⟩
  · intro operator member exposes
    have known := Connective.mem_operators member
    rw [← List.nil_append blanks.text,
      exposes_append_of_apart known (apart operator member)] at exposes
    exact not_exposes_nil known _ exposes
  · intro operator member last final
    exact apart operator member last (List.mem_of_getLast? final)

/-- A connective right behind another one, or behind blanks, has no operand in
front of it, which is an error. -/
theorem evaluate_missing
    (each : ∀ operand ∈ operands, IsOperand setting connective operand)
    (blanks : Blanks) (shown : Shown rest)
    (looser : connective = .and → ¬ Exposes .outside orOperator rest) :
    evaluate setting
        (Expression.ofText
          (dangling connective operands ++
            (blanks.text ++ (connective.operator ++ rest)))) =
      setting.error .emptyOperand := by
  obtain ⟨after, back⟩ := exists_back rest
  have ends : Ends (trimEnd rest) := shown.ends_trimEnd
  have some : trimEnd rest ≠ [] := by
    rcases ends with ⟨before, last, same, -⟩
    exact same ▸ List.concat_ne_nil last before
  have absent (tight : connective = .and) :
      cutAt orOperator (trimEnd rest) = none := by
    rw [cutAt_eq_none_iff (by decide)]
    rintro ⟨before, later, whole, bare⟩
    refine looser tight ⟨before, later ++ after.text, ?_, bare⟩
    rw [back, whole, List.append_assoc]
  have divide : ∀ other ∈ operands ++ [blanks.text], Divides connective other := by
    refine List.forall_mem_append.mpr
      ⟨fun other member => (each other member).divides, ?_⟩
    exact List.forall_mem_singleton.mpr (.of_blanks blanks)
  have whole :
      dangling connective operands ++
          (blanks.text ++ (connective.operator ++ rest)) =
        dangling connective (operands ++ [blanks.text]) ++ trimEnd rest ++
          after.text := by
    rw [List.append_assoc, ← back]
    simp only [dangling, List.flatMap_append, List.flatMap_singleton,
      List.append_assoc]
  obtain ⟨steps, chain⟩ :=
    evaluate_chain (List.concat_ne_nil blanks.text operands) (.inr ends) after
      divide absent (.inr some)
  rw [whole, chain, List.map_append, List.append_assoc,
    settle_append fun other member => (each other member).undecided,
    List.map_singleton, List.singleton_append, settle_cons, evaluate_ofText_blanks]
  rfl

theorem unwrapped_of_endsWithSign (ends : EndsWithSign text) (last : Blanks) :
    Unwrapped (text ++ last.text) := by
  intro inner wrapped
  rw [trim_append_blanks (ends_of_endsWithSign ends)] at wrapped
  have trailing := ends.trim
  rw [wrapped] at trailing
  have closed : EndsShut wrapperEnd := .of_last ['}'] (by decide)
  exact trailing.not_endsShut (closed.prepend (by decide) (wrapperStart ++ inner))

/-- The evaluator takes no parentheses off what ends with a connective, and so
evaluates the text as it stands. -/
theorem evaluator_of_dangling (query : Query) (nonempty : operands ≠ [])
    (last : Blanks) :
    evaluator
        { query with
          text := String.ofList (dangling connective operands ++ last.text) } =
      evaluate ⟨query.line, query.bindings, query.typed⟩
        (Expression.ofText (dangling connective operands ++ last.text)) := by
  have ends : EndsWithSign (dangling connective operands) :=
    endsWithSign_dangling nonempty
  refine evaluator_of_unwrapped query (unwrapped_of_endsWithSign ends last) ?_
  rcases ends_of_endsWithSign ends with ⟨front, sign, same, visible⟩
  exact ⟨sign, by simp [same], visible⟩

end Missing

/-! ## The end of a chain -/

theorem evaluate_false (setting : Setting) {text : List Char}
    (word : trim text = ['f', 'a', 'l', 's', 'e']) :
    evaluate setting (Expression.ofText text) = .ok (.ofBool false) := by
  have begins : Begins beginsOperand (trim text) :=
    word ▸ .of_unbraced rfl (by decide) _
  have uncut : ∀ operator ∈ operators, cutAt operator (trim text) = none := by
    rw [word]
    decide
  rw [Expression.ofText_eq, ofTrimmed_of_uncut begins uncut, word]
  rfl

/-- The word for falsehood is an operand of a disjunction. -/
theorem isOperand_false (setting : Setting) :
    ∀ operand ∈ ["false ".toList, " false ".toList],
      IsOperand setting .or operand := by
  have operand {text : List Char} (word : trim text = ['f', 'a', 'l', 's', 'e'])
      (closed : Place.outside.after text = .outside)
      (uncut : cutAt orOperator text = none) {last : Char}
      (final : text.getLast? = some last) (fenced : last ∉ orOperator) :
      IsOperand setting .or text := by
    have unlike : ∀ last ∈ text.getLast?, last ∉ orOperator := by
      rw [final]
      rintro _ ⟨⟩
      exact fenced
    refine ⟨⟨'f', ?_, rfl⟩, closed, ?_, unlike, .ofBool false,
      evaluate_false setting word, nofun⟩
    · exact (trim_sublist text).mem (word ▸ List.mem_cons_self)
    · exact List.forall_mem_singleton.mpr
        ((cutAt_eq_none_iff (by decide)).mp uncut)
  simp only [List.forall_mem_cons, List.not_mem_nil, false_imp_iff, implies_true,
    and_true]
  exact ⟨operand (by decide) (by decide) (by decide) rfl (by decide),
    operand (by decide) (by decide) (by decide) rfl (by decide)⟩

/-- If the operands in front of it leave the chain open, a connective that nothing
follows is not missed behind two operands or more: the chain has the value that it
has without it.  Behind a single operand the text has no value, unless the
connective is `||` and a part of the operand is false in front of a conjunction;
then it is false.  But where another operand follows, the missing one is an
error. -/
theorem evaluator_dangling (query : Query) (connective : Connective)
    (operands : List (List Char)) (last : Blanks)
    (each : ∀ operand ∈ operands,
        IsOperand ⟨query.line, query.bindings, query.typed⟩ connective operand) :
    let setting : Setting := ⟨query.line, query.bindings, query.typed⟩
    let answer (text : List Char) :=
      evaluator { query with text := String.ofList text }
    let text := dangling connective operands ++ last.text
    (2 ≤ operands.length → answer text = .ok (.ofBool !connective.decisive)) ∧
    (∀ operand, operands = [operand] →
      (connective = .or ∧ Stops setting (trim operand) →
          answer text = .ok (.ofBool false)) ∧
        (¬ (connective = .or ∧ Stops setting (trim operand)) →
          ∃ failure, answer text = .error failure)) ∧
    (∀ rest, Shown rest → Unwrapped (text ++ (connective.operator ++ rest)) →
      (connective = .and → ¬ Exposes .outside orOperator rest) →
      answer (text ++ (connective.operator ++ rest)) =
        setting.error .emptyOperand) := by
  intro setting answer text
  refine ⟨?_, ?_, ?_⟩
  · intro several
    have nonempty : operands ≠ [] :=
      List.ne_nil_of_length_pos (Nat.lt_of_succ_lt several)
    have asked : answer text = evaluate setting (Expression.ofText text) :=
      evaluator_of_dangling query nonempty last
    rw [asked]
    exact evaluate_several each several last
  · rintro operand rfl
    have asked : answer text = evaluate setting (Expression.ofText text) :=
      evaluator_of_dangling query (List.cons_ne_nil operand []) last
    rw [asked]
    exact evaluate_single (each operand List.mem_cons_self) last
  · intro rest shown unwrapped looser
    rcases shown with ⟨character, member, visible⟩
    have asked :
        answer (text ++ (connective.operator ++ rest)) =
          evaluate setting
            (Expression.ofText (text ++ (connective.operator ++ rest))) :=
      evaluator_of_unwrapped query unwrapped ⟨character, by simp [member], visible⟩
    rw [asked, List.append_assoc]
    exact evaluate_missing each last ⟨character, member, visible⟩ looser

/-- An alternative that is false is an error with bars behind it or in front of
it, and two are not with bars behind them. -/
theorem evaluator_dangling_false :
    let answer (text : String) :=
      evaluator ⟨"", 1, .guard, 0, text, .empty, .empty⟩
    answer "false || false ||" = .ok (.ofBool false) ∧
      (∃ failure, answer "false || " = .error failure) ∧
      answer "|| false" = .error (.evaluation 0 "operand cannot be empty") := by
  intro answer
  let query : Query := ⟨"", 1, .guard, 0, "", .empty, .empty⟩
  let space : Blanks := ⟨[' '], List.forall_mem_singleton.mpr rfl⟩
  have each := isOperand_false ⟨0, .empty, .empty⟩
  have alone := List.forall_mem_singleton.mpr (each _ List.mem_cons_self)
  have unstopped : ¬ Stops ⟨0, .empty, .empty⟩ (trim "false ".toList) :=
    not_stops_of_uncut (by decide)
  rcases evaluator_dangling query .or _ .none each with ⟨two, -, -⟩
  rcases evaluator_dangling query .or _ space alone with ⟨-, one, -⟩
  rcases evaluator_dangling query .or [] .none (List.forall_mem_nil _) with
    ⟨-, -, missing⟩
  exact ⟨two (by decide), (one _ rfl).2 (fun both => unstopped both.2),
    missing " false".toList ⟨'f', by decide, rfl⟩ (.of_head (by decide)) nofun⟩

/-- Two alternatives that are false have a value with bars behind them. -/
theorem connective_unmissed_false :
    let answer (text : String) :=
      evaluator ⟨"", 1, .guard, 0, text, .empty, .empty⟩
    (∀ operand ∈ ["false ".toList, " false ".toList],
        IsOperand ⟨0, .empty, .empty⟩ .or operand) ∧
      answer "false || false ||" = .ok (.ofBool false) := by
  intro answer
  let query : Query := ⟨"", 1, .guard, 0, "", .empty, .empty⟩
  let text := dangling .or ["false ".toList, " false ".toList] ++ Blanks.none.text
  have each := isOperand_false ⟨0, .empty, .empty⟩
  have asked : evaluator { query with text := String.ofList text } =
      evaluate ⟨0, .empty, .empty⟩ (Expression.ofText text) :=
    evaluator_of_dangling query (List.cons_ne_nil _ _) .none
  exact ⟨each, asked.trans (evaluate_several each (by decide) .none)⟩

end RequestFlow.Condition
