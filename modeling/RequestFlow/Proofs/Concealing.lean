import RequestFlow.Proofs.Occurrences
import RequestFlow.Redaction

/-!
# Secrets behind a name

A line gives a value to a secret name, and nothing else in the text speaks of
secrets.  The value is hidden up to its first blank or comma, where the value of
an assignment ends, and shown from there on. Main statement: two values are
redacted alike exactly if they are the same, or none of them begins with a comma
and they are the same from the first blank or comma on.
-/

namespace RequestFlow.Redaction

open RequestFlow.Text

/-! ## Words up to folding -/

/-- Beginning with a word means that the folded text does. -/
theorem beginsWith_iff {word text : List Char} :
    beginsWith word text = true ↔ word <+: text.map fold := by
  rw [beginsWith, startsWith_iff, List.map_take, List.prefix_take_iff]
  exact and_iff_left (Nat.le_refl _)

theorem endsWith_iff {word text : List Char} :
    endsWith word text = true ↔ word <:+ text.map fold := by
  rw [endsWith, beginsWith_iff, List.map_reverse, List.reverse_prefix]

/-- A beginning without a mark does not reach beyond the mark. -/
theorem prefix_of_prefix_append_cons {word left right : List Char} {mark : Char}
    (outside : mark ∉ word) (begins : word <+: left ++ mark :: right) :
    word <+: left := by
  rcases List.prefix_or_prefix_of_prefix begins (List.prefix_append left _) with
    inside | ⟨rest, rfl⟩
  · exact inside
  · rw [List.prefix_append_right_inj] at begins
    cases rest with
    | nil =>
        rw [List.append_nil]
    | cons head rest =>
        rcases (List.cons_prefix_cons.mp begins).1 with rfl
        exact (outside (List.mem_append_right _ List.mem_cons_self)).elim

/-- The words that the searches look for. -/
def words : List String := ["authorization", "bearer", "basic"] ++ secretNames

/-- None of the words stands in a text, up to folding. -/
def Unspoken (text : List Char) : Prop :=
  ∀ word ∈ words, ¬ word.toList <:+: text.map fold

instance : DecidablePred Unspoken :=
  fun text =>
    inferInstanceAs (Decidable (∀ word ∈ words, ¬ word.toList <:+: text.map fold))

/-- A character that is neither in a name nor in one of the words. -/
def Limits (mark : Char) : Prop :=
  isNameChar mark = false ∧ ∀ word ∈ words, fold mark ∉ word.toList

instance : DecidablePred Limits :=
  fun mark =>
    inferInstanceAs (Decidable (isNameChar mark = false ∧ ∀ word ∈ words, _))

/-- A text is over, or goes on with such a character. -/
inductive Bounded : List Char → Prop where
  | nil : Bounded []
  | cons {mark : Char} (limits : Limits mark) (rest : List Char) :
      Bounded (mark :: rest)

section Words

variable {text rest : List Char} {word : String} {mark : Char}

/-- No word stands in a part of a text that has none. -/
theorem Unspoken.within {part : List Char} (unspoken : Unspoken text)
    (within : part <:+: text) : Unspoken part :=
  fun word member inside => unspoken word member (inside.trans (within.map fold))

/-- A word does not begin in a text that has none, also not one that reaches over
its end: a character that is in no word is behind it. -/
theorem Unspoken.not_begun (unspoken : Unspoken text) (bounded : Bounded rest)
    (member : word ∈ words) : ¬ word.toList <+: (text ++ rest).map fold := by
  intro begins
  rw [List.map_append] at begins
  refine unspoken word member ?_
  cases bounded with
  | nil =>
      rw [List.map_nil, List.append_nil] at begins
      exact begins.isInfix
  | cons limits rest =>
      exact (prefix_of_prefix_append_cons (limits.2 word member) begins).isInfix

/-- So texts with such a character between them have no word together. -/
theorem Unspoken.append (left : Unspoken text) (right : Unspoken rest)
    (bounded : Bounded rest) : Unspoken (text ++ rest) := by
  intro word member inside
  rcases List.infix_iff_prefix_suffix.mp inside with ⟨folded, begins, ends⟩
  rcases List.suffix_map_iff.mp ends with ⟨part, suffix, rfl⟩
  rcases List.suffix_or_suffix_of_suffix suffix (List.suffix_append text rest) with
    inRest | ⟨front, rfl⟩
  · exact right word member (begins.isInfix.trans (inRest.map fold).isInfix)
  · rcases suffix with ⟨before, whole⟩
    rw [← List.append_assoc] at whole
    have shorter : front <:+ text := ⟨before, List.append_cancel_right whole⟩
    exact (left.within shorter.isInfix).not_begun bounded member begins

theorem Unspoken.cons (limits : Limits mark) (unspoken : Unspoken text) :
    Unspoken (mark :: text) := by
  intro word member inside
  rw [List.map_cons, List.infix_cons_iff] at inside
  rcases inside with begins | inside
  · have nothing : Unspoken [] := unspoken.within List.nil_infix
    exact nothing.not_begun (.cons limits text) member begins
  · exact unspoken word member inside

end Words

/-! ## Where nothing is found -/

section Searches

variable {pattern : Pattern} {replacement text rest : List Char}
  {before : Option Char}

/-- Without an opening there is nothing to find. -/
theorem Pattern.find?_of_unopened
    (unopened : pattern.opening? before text = none) :
    pattern.find? before text = none := by
  rw [find?, unopened]
  rfl

/-- Each kind is opened by a word only, with a lemma for each. -/
theorem opening?_authorization
    (other : ¬ "authorization:".toList <+: text.map fold) :
    authorization.opening? before text = none := by
  rw [← beginsWith_iff] at other
  exact if_neg other

theorem opening?_credential {scheme : String} {isValueChar : Char → Bool}
    (other : ¬ scheme.toList <+: text.map fold) :
    (credential scheme isValueChar).opening? before text = none := by
  rw [← beginsWith_iff] at other
  refine if_neg ?_
  rw [Bool.and_eq_true]
  exact fun both => other both.2

theorem opening?_assignment
    (other : ∀ secret ∈ secretNames,
        ¬ secret.toList <:+ (text.takeWhile isNameChar).map fold) :
    assignment.opening? before text = none := by
  refine if_neg ?_
  rw [Bool.and_eq_true, List.any_eq_true]
  rintro ⟨-, secret, member, ends⟩
  exact other secret member (endsWith_iff.mp ends)

/-- The name that is read from a text ends at the latest where the text does. -/
theorem takeWhile_prefix_of_bounded (bounded : Bounded rest) :
    (text ++ rest).takeWhile isNameChar <+: text := by
  have none : rest.takeWhile isNameChar = [] := by
    cases bounded with
    | nil => rfl
    | cons limits rest =>
        exact List.takeWhile_cons_of_neg (Bool.not_eq_true _ ▸ limits.1)
  rw [List.takeWhile_append, none, List.append_nil]
  split
  · exact List.prefix_refl _
  · exact List.takeWhile_prefix _

/-- No search finds anything where none of the words begins. -/
theorem find?_of_unspoken (known : pattern ∈ patterns) (unspoken : Unspoken text)
    (bounded : Bounded rest) : pattern.find? before (text ++ rest) = none := by
  apply Pattern.find?_of_unopened
  simp only [patterns, List.mem_cons, List.not_mem_nil, or_false] at known
  rcases known with rfl | rfl | rfl | rfl
  · refine opening?_authorization fun begins => ?_
    have shorter : "authorization".toList <+: "authorization:".toList := by decide
    exact unspoken.not_begun bounded (by decide) (shorter.trans begins)
  · exact opening?_credential (unspoken.not_begun bounded (by decide))
  · exact opening?_credential (unspoken.not_begun bounded (by decide))
  · refine opening?_assignment fun secret member ends => ?_
    have within : (text ++ rest).takeWhile isNameChar <+: text :=
      takeWhile_prefix_of_bounded bounded
    exact unspoken secret (List.mem_append_right _ member)
      (ends.isInfix.trans (within.map fold).isInfix)

/-! ## What is passed over -/

/-- A finding is replaced, and the search goes on behind it. -/
theorem Pattern.replace_of_found {finding : Finding}
    (found : pattern.find? before text = some finding) :
    pattern.replace replacement before text = finding.kept ++ replacement ++
      pattern.replace replacement finding.secret.getLast? finding.rest := by
  rw [replace]
  split
  · next other same =>
      rcases Option.some.inj (found.symm.trans same) with rfl
      rfl
  · next missed => cases found.symm.trans missed

/-- Without a finding here the search goes on behind the next character. -/
theorem Pattern.replace_of_missed {character : Char}
    (missed : pattern.find? before (character :: rest) = none) :
    pattern.replace replacement before (character :: rest) =
      character :: pattern.replace replacement (some character) rest := by
  rw [replace]
  split
  · next finding found => cases missed.symm.trans found
  · rfl

theorem Pattern.find?_nil : pattern.find? before [] = none := by
  rw [find?]
  cases pattern.opening? before [] with
  | none => rfl
  | some count => simp

theorem Pattern.replace_nil : pattern.replace replacement before [] = [] := by
  rw [replace]
  split
  · next finding found => cases Pattern.find?_nil.symm.trans found
  · rfl

/-- Where nothing is found at any place of its front, a text keeps the front. -/
theorem Pattern.replace_append {front : List Char}
    (unfound : ∀ done part, front = done ++ part → part ≠ [] →
      pattern.find? (done.getLast?.or before) (part ++ rest) = none) :
    pattern.replace replacement before (front ++ rest) =
      front ++ pattern.replace replacement (front.getLast?.or before) rest := by
  induction front generalizing before with
  | nil => rfl
  | cons character front hypothesis =>
      have last (done : List Char) :
          (character :: done).getLast?.or before =
            done.getLast?.or (some character) := by
        rw [List.getLast?_cons]
        cases done.getLast? <;> rfl
      have here := unfound [] (character :: front) rfl (List.cons_ne_nil _ _)
      rw [List.getLast?_nil, Option.none_or] at here
      have later :
          ∀ done part, front = done ++ part → part ≠ [] →
            pattern.find? (done.getLast?.or (some character)) (part ++ rest) =
              none := by
        intro done part whole nonempty
        rw [← last]
        exact unfound (character :: done) part (congrArg (character :: ·) whole)
          nonempty
      rw [last, List.cons_append, List.cons_append, ← hypothesis later]
      exact replace_of_missed here

/-- A text without the words is passed over if it is over or a limit follows. -/
theorem replace_of_unspoken (known : pattern ∈ patterns) (unspoken : Unspoken text)
    (bounded : Bounded rest) :
    pattern.replace replacement before (text ++ rest) =
      text ++ pattern.replace replacement (text.getLast?.or before) rest := by
  refine Pattern.replace_append fun done part whole _ => ?_
  exact find?_of_unspoken known (unspoken.within ⟨done, [], by simp [whole]⟩)
    bounded

/-- No pattern changes anything in a text without words, by induction on the text
with the character before it. -/
theorem replace_unspoken (known : pattern ∈ patterns) (unspoken : Unspoken text) :
    pattern.replace replacement before text = text := by
  have whole : pattern.replace replacement before (text ++ []) = _ :=
    replace_of_unspoken known unspoken .nil
  rw [Pattern.replace_nil, List.append_nil] at whole
  exact whole

/-- Nothing is found within a text without the words that ends with a limit,
whatever follows. -/
theorem find?_of_limited (known : pattern ∈ patterns) (unspoken : Unspoken text)
    (limited : ∀ mark, text.getLast? = some mark → Limits mark)
    {done part : List Char} (whole : text = done ++ part) (nonempty : part ≠ []) :
    pattern.find? before (part ++ rest) = none := by
  rcases List.eq_nil_or_concat part with rfl | ⟨body, mark, rfl⟩
  · exact (nonempty rfl).elim
  · rw [List.concat_eq_append] at whole ⊢
    have last : text.getLast? = some mark := by
      rw [whole, ← List.append_assoc, List.getLast?_concat]
    have inside : body <:+: text :=
      ⟨done, [mark], by rw [whole, List.append_assoc]⟩
    rw [List.append_assoc]
    exact find?_of_unspoken known (unspoken.within inside)
      (.cons (limited mark last) rest)

/-- A text without the words that ends with a limit is passed over, whatever
follows. -/
theorem replace_of_limited (known : pattern ∈ patterns) (unspoken : Unspoken text)
    (limited : ∀ mark, text.getLast? = some mark → Limits mark) :
    pattern.replace replacement before (text ++ rest) =
      text ++ pattern.replace replacement (text.getLast?.or before) rest :=
  Pattern.replace_append fun _ _ whole nonempty =>
    find?_of_limited known unspoken limited whole nonempty

end Searches

/-! ## Names -/

section Names

variable {character : Char}

/-- What holds of the plain word characters is checked on all of them. -/
theorem forall_of_isPlainWordChar (holds : Char → Bool)
    (each : ∀ code < 0x80,
        isPlainWordChar (Char.ofNat code) = true → holds (Char.ofNat code) = true)
    (plain : isPlainWordChar character = true) : holds character = true := by
  have code := each character.toNat (code_lt_of_isPlainWordChar plain)
  rw [Char.ofNat_toNat] at code
  exact code plain

theorem isNameChar_of_isPlainWordChar (plain : isPlainWordChar character = true) :
    isNameChar character = true :=
  forall_of_isPlainWordChar isNameChar (by decide) plain

theorem isBlank_of_isPlainWordChar (plain : isPlainWordChar character = true) :
    isBlank character = false := by
  have visible :=
    forall_of_isPlainWordChar (fun letter => !isBlank letter) (by decide) plain
  exact Bool.not_eq_true' _ ▸ visible

theorem fold_ne_colon (plain : isPlainWordChar character = true) :
    fold character ≠ ':' := by
  have other :=
    forall_of_isPlainWordChar (fun letter => fold letter != ':') (by decide) plain
  exact bne_iff_ne.mp other

end Names

/-! ## The line of a secret -/

/-- A name whose value is secret, on a line of a text that does not speak of
secrets otherwise. -/
structure SecretLine where
  above : List Char
  /-- The number of spaces in front of the name. -/
  indentation : Nat
  key : List Char
  below : List Char
  complete : above = [] ∨ ∃ lines, above = lines ++ ['\n']
  separate : below = [] ∨ ∃ lines, below = '\n' :: lines
  unspoken : Unspoken above ∧ Unspoken below
  plain : ∀ character ∈ key, isPlainWordChar character = true
  secret : ∃ name ∈ secretNames, endsWith name.toList key = true

/-- A value that does not begin with a blank and does not speak of secrets. -/
structure IsValue (value : List Char) : Prop where
  visible : ∃ first rest, value = first :: rest ∧ isBlank first = false
  unspoken : Unspoken value

/-- A character of the value of an assignment. -/
def isHidden (character : Char) : Bool :=
  !isBlank character && character != ','

/-- The part of a value that is shown: from the first blank or comma on. -/
def shown (value : List Char) : List Char :=
  value.dropWhile isHidden

/-- What becomes of a value. -/
def masked (value : List Char) : List Char :=
  if value.head? = some ',' then value else usualReplacement.toList ++ shown value

namespace SecretLine

variable (line : SecretLine)

/-- What stands in front of the name. -/
def front : List Char :=
  line.above ++ List.replicate line.indentation ' '

/-- What stands behind the name. -/
def behind (value : List Char) : List Char :=
  ':' :: ' ' :: (value ++ line.below)

/-- The text with a value for the name. -/
def giving (value : List Char) : String :=
  String.ofList (line.front ++ (line.key ++ line.behind value))

variable {line}

theorem bounded_below : Bounded line.below := by
  rcases line.separate with none | ⟨lines, some⟩
  · rw [none]
    exact .nil
  · rw [some]
    exact .cons (by decide) lines

/-- Neither in front of the name nor behind the value is a word spoken. -/
theorem unspoken_front : Unspoken line.front := by
  have spaces : Unspoken (List.replicate line.indentation ' ') := by
    induction line.indentation with
    | zero => decide
    | succ count hypothesis => exact .cons (by decide) hypothesis
  have bounded : Bounded (List.replicate line.indentation ' ') := by
    cases line.indentation with
    | zero => exact .nil
    | succ count => exact .cons (by decide) _
  exact line.unspoken.1.append spaces bounded

theorem last_front {mark : Char} (last : line.front.getLast? = some mark) :
    mark = ' ' ∨ mark = '\n' := by
  rw [front, List.getLast?_append, List.getLast?_replicate] at last
  split at last
  · rcases line.complete with none | ⟨lines, some⟩
    · rw [none] at last
      cases last
    · rw [some, List.getLast?_concat] at last
      exact .inr (Option.some.inj last).symm
  · exact .inl (Option.some.inj last).symm

theorem limits_of_front {mark : Char} (last : line.front.getLast? = some mark) :
    Limits mark := by
  rcases last_front last with rfl | rfl <;> decide

/-- The name begins at the boundary of a word. -/
theorem isBoundary_front : isBoundary line.front.getLast? = true := by
  cases last : line.front.getLast? with
  | none => rfl
  | some mark => rcases last_front last with rfl | rfl <;> rfl

variable {value : List Char}

theorem unspoken_behind (sound : IsValue value) : Unspoken (line.behind value) :=
  .cons (by decide)
    (.cons (by decide) (sound.unspoken.append line.unspoken.2 bounded_below))

/-! ### The first three searches -/

section Key

variable {part : List Char} {before : Option Char}

theorem gap?_of_visible {first : Char} {rest : List Char}
    (visible : isBlank first = false) : gap? (first :: rest) = none := by
  have none : (first :: rest).takeWhile isBlank = [] :=
    List.takeWhile_cons_of_neg (Bool.eq_false_iff.mp visible)
  rw [gap?, none]
  rfl

/-- Behind the name of a scheme within the name of the line no blank follows. -/
theorem find?_credential {scheme : String} {isValueChar : Char → Bool}
    (unmarked : ':' ∉ scheme.toList) (suffix : part <:+ line.key) :
    (credential scheme isValueChar).find? before (part ++ line.behind value) =
      none := by
  by_cases begins : scheme.toList <+: (part ++ line.behind value).map fold
  · rw [List.map_append, behind, List.map_cons] at begins
    have within := (prefix_of_prefix_append_cons unmarked begins).length_le
    rw [List.length_map] at within
    have gap :
        gap? ((part ++ line.behind value).drop scheme.toList.length) = none := by
      rw [List.drop_append_of_le_length within]
      cases ahead : part.drop scheme.toList.length with
      | nil => exact gap?_of_visible rfl
      | cons first rest =>
          have member : first ∈ line.key :=
            suffix.subset (List.mem_of_mem_drop (ahead ▸ List.mem_cons_self))
          exact gap?_of_visible
            (isBlank_of_isPlainWordChar (line.plain first member))
    refine Pattern.find?_of_unopened ?_
    simp only [credential, gap, Option.map_none, ite_self]
  · exact Pattern.find?_of_unopened (opening?_credential begins)

/-- The name of the line does not end with the name of the header. -/
theorem find?_authorization (suffix : part <:+ line.key) :
    authorization.find? before (part ++ line.behind value) = none := by
  refine Pattern.find?_of_unopened (opening?_authorization ?_)
  rintro ⟨more, whole⟩
  have apart : ':' ∉ part.map fold := by
    intro member
    rcases List.mem_map.mp member with ⟨character, inside, same⟩
    exact fold_ne_colon (line.plain character (suffix.subset inside)) same
  have header : "authorization".toList = part.map fold := by
    rw [List.map_append, behind, List.map_cons] at whole
    exact (eq_of_append_cons (by decide) apart whole).1
  rcases line.secret with ⟨name, member, ends⟩
  have unlike :
      ∀ secret ∈ secretNames, ¬ secret.toList <:+ "authorization".toList ∧
        ¬ "authorization".toList <:+ secret.toList := by
    decide
  rcases List.suffix_or_suffix_of_suffix (endsWith_iff.mp ends)
      (suffix.map fold) with
    shorter | longer
  · exact (unlike name member).1 (header ▸ shorter)
  · exact (unlike name member).2 (header ▸ longer)

end Key

/-- The first three searches find nothing in the text. -/
theorem replace_giving {pattern : Pattern} {replacement : List Char}
    {before : Option Char} (known : pattern ∈ [authorization, bearer, basic])
    (sound : IsValue value) :
    pattern.replace replacement before
        (line.front ++ (line.key ++ line.behind value)) =
      line.front ++ (line.key ++ line.behind value) := by
  have among : pattern ∈ patterns := List.mem_append_left [assignment] known
  have unfound {part : List Char} {before : Option Char}
      (suffix : part <:+ line.key) :
      pattern.find? before (part ++ line.behind value) = none := by
    simp only [List.mem_cons, List.not_mem_nil, or_false] at known
    rcases known with rfl | rfl | rfl
    · exact find?_authorization suffix
    · exact find?_credential (by decide) suffix
    · exact find?_credential (by decide) suffix
  rw [replace_of_limited among unspoken_front fun _ => limits_of_front,
    Pattern.replace_append, replace_unspoken among (unspoken_behind sound)]
  intro done part whole _
  exact unfound ⟨done, whole.symm⟩

/-! ### The search for assignments -/

section Assignment

variable {before : Option Char}

theorem mem_patterns : assignment ∈ patterns :=
  List.mem_append_right [authorization, bearer, basic] (List.mem_singleton_self _)

/-- The name, the colon and the space lead up to the value. -/
theorem opening?_key (boundary : isBoundary before = true)
    (sound : IsValue value) :
    assignment.opening? before (line.key ++ line.behind value) =
      some (line.key.length + 2) := by
  have name : (line.key ++ line.behind value).takeWhile isNameChar = line.key := by
    rw [List.takeWhile_append_of_pos fun character member =>
      isNameChar_of_isPlainWordChar (line.plain character member)]
    exact List.append_nil _
  have secret :
      (secretNames.any fun name => endsWith name.toList line.key) = true :=
    List.any_eq_true.mpr line.secret
  have mark : assignmentMark? (line.behind value) = some 2 := by
    rcases sound.visible with ⟨first, rest, rfl, visible⟩
    have blank :
        (' ' :: (first :: rest ++ line.below)).takeWhile isBlank = [' '] := by
      rw [List.takeWhile_cons_of_pos rfl, List.cons_append,
        List.takeWhile_cons_of_neg (Bool.eq_false_iff.mp visible)]
    have colon :
        (':' :: ' ' :: (first :: rest ++ line.below)).takeWhile isBlank = [] :=
      rfl
    simp only [assignmentMark?, behind, colon, List.length_nil, List.drop_zero,
      blank]
    rfl
  simp only [assignment, name, boundary, secret, Bool.and_self, if_true,
    List.drop_left, mark, Option.map_some]

/-- Behind the name the value is hidden up to its first blank or comma. -/
theorem extent_assignment :
    assignment.extent (value ++ line.below) =
      (value.takeWhile isHidden).length := by
  have unseen : line.below.takeWhile isHidden = [] := by
    rcases line.separate with none | ⟨lines, some⟩
    · rw [none]
      rfl
    · rw [some]
      rfl
  show ((value ++ line.below).takeWhile isHidden).length = _
  rw [List.takeWhile_append, unseen, List.append_nil]
  split
  · next whole => exact whole.symm
  · rfl

/-- At the name the value is found up to its first blank or comma, unless there is
nothing before a comma. -/
theorem find?_key (boundary : isBoundary before = true) (sound : IsValue value) :
    assignment.find? before (line.key ++ line.behind value) =
      if value.head? = some ',' then none
      else
        some ⟨line.key ++ [':', ' '], value.takeWhile isHidden,
          shown value ++ line.below⟩ := by
  have whole : line.key ++ line.behind value =
      (line.key ++ [':', ' ']) ++ (value ++ line.below) := by
    rw [List.append_assoc]
    rfl
  have parts :
      value ++ line.below =
        value.takeWhile isHidden ++ (shown value ++ line.below) := by
    rw [← List.append_assoc, shown, List.takeWhile_append_dropWhile]
  have length : (line.key ++ [':', ' ']).length = line.key.length + 2 :=
    List.length_append
  have opening : (line.key ++ line.behind value).take (line.key.length + 2) =
      line.key ++ [':', ' '] := by
    rw [whole, List.take_left' length]
  have ahead :
      (line.key ++ line.behind value).drop (line.key.length + 2) =
        value ++ line.below := by
    rw [whole, List.drop_left' length]
  have hidden : (value ++ line.below).take (value.takeWhile isHidden).length =
      value.takeWhile isHidden := by
    rw [parts, List.take_left]
  have rest : (value ++ line.below).drop (value.takeWhile isHidden).length =
      shown value ++ line.below := by
    rw [parts, List.drop_left]
  simp only [Pattern.find?, opening?_key boundary sound, Option.bind_some, opening,
    ahead, extent_assignment, hidden, rest]
  rcases sound.visible with ⟨first, others, rfl, visible⟩
  by_cases comma : first = ','
  · subst comma
    rfl
  · have some : isHidden first = true := by
      rw [isHidden, visible, Bool.not_false, Bool.true_and]
      exact bne_iff_ne.mpr comma
    rw [List.takeWhile_cons_of_pos some, if_neg, if_neg]
    · rw [List.head?_cons, Option.some.injEq]
      exact comma
    · exact Bool.false_ne_true

/-- A value that begins with a comma is passed over with its name. -/
theorem replace_unhidden {replacement : List Char}
    (boundary : isBoundary before = true) (sound : IsValue value)
    (comma : value.head? = some ',') :
    assignment.replace replacement before (line.key ++ line.behind value) =
      line.key ++ line.behind value := by
  rw [Pattern.replace_append,
    replace_unspoken mem_patterns (unspoken_behind sound)]
  intro done part whole _
  rcases List.eq_nil_or_concat done with rfl | ⟨others, last, rfl⟩
  · have here : part = line.key := whole.symm
    rw [here, List.getLast?_nil, Option.none_or, find?_key boundary sound,
      if_pos comma]
  · -- Within the name no other name begins.
    rw [List.concat_eq_append] at whole ⊢
    have member : last ∈ line.key := by
      rw [whole]
      exact List.mem_append_left _
        (List.mem_append_right _ (List.mem_singleton_self _))
    have inner : isBoundary (some last) = false := by
      rw [isBoundary, Option.any_some,
        isWordChar_of_isPlainWordChar (line.plain last member)]
      rfl
    refine Pattern.find?_of_unopened ?_
    rw [List.getLast?_concat, Option.some_or]
    simp only [assignment, inner, Bool.false_and, Bool.false_eq_true, if_false]

/-- The search for assignments hides the value up to its first blank or comma. -/
theorem replace_assignment (sound : IsValue value) :
    assignment.replace usualReplacement.toList none
        (line.front ++ (line.key ++ line.behind value)) =
      line.front ++ (line.key ++ line.behind (masked value)) := by
  have boundary : isBoundary (line.front.getLast?.or none) = true := by
    rw [Option.or_none]
    exact isBoundary_front
  rw [replace_of_limited mem_patterns unspoken_front fun _ => limits_of_front]
  by_cases comma : value.head? = some ','
  · rw [replace_unhidden boundary sound comma, masked, if_pos comma]
  · have found : assignment.find? _ (line.key ++ line.behind value) = _ :=
      find?_key boundary sound
    rw [if_neg comma] at found
    have quiet : Unspoken (shown value ++ line.below) :=
      (sound.unspoken.within (List.dropWhile_suffix _).isInfix).append
        line.unspoken.2 bounded_below
    rw [masked, if_neg comma, Pattern.replace_of_found found,
      replace_unspoken mem_patterns quiet]
    simp only [behind, List.append_assoc, List.cons_append, List.nil_append]

end Assignment

/-- The text is redacted to the one with the masked value. -/
theorem redact_giving (sound : IsValue value) :
    redact (line.giving value) = line.giving (masked value) := by
  simp only [redact, redactWith, giving, String.toList_ofList, patterns,
    List.foldl_cons, List.foldl_nil]
  rw [replace_giving (by simp) sound, replace_giving (by simp) sound,
    replace_giving (by simp) sound, replace_assignment sound]

theorem giving_inj {first second : List Char} :
    line.giving first = line.giving second ↔ first = second := by
  simp only [giving, behind, String.ofList_inj, List.append_cancel_left_eq,
    List.cons.injEq, true_and, List.append_cancel_right_eq]

end SecretLine

/-- Values become alike exactly if they are the same, or both have something to
hide and the same to show. -/
theorem masked_eq_iff {first second : List Char} :
    masked first = masked second ↔
      first = second ∨
        (first.head? ≠ some ',' ∧ second.head? ≠ some ',' ∧
          shown first = shown second) := by
  have unlike (value other : List Char) (comma : value.head? = some ',') :
      value ≠ usualReplacement.toList ++ other := by
    rintro rfl
    cases comma
  by_cases comma :
      first.head? = some ',' <;> by_cases comma' : second.head? = some ','
  · simp [masked, comma, comma']
  · rw [masked, masked, if_pos comma, if_neg comma']
    refine iff_of_false (unlike _ _ comma) ?_
    rintro (rfl | ⟨other, -⟩)
    · exact comma' comma
    · exact other comma
  · rw [masked, masked, if_neg comma, if_pos comma']
    refine iff_of_false (unlike _ _ comma').symm ?_
    rintro (rfl | ⟨-, other, -⟩)
    · exact comma comma'
    · exact other comma'
  · rw [masked, masked, if_neg comma, if_neg comma', List.append_cancel_left_eq]
    constructor
    · exact fun same => .inr ⟨comma, comma', same⟩
    · rintro (rfl | ⟨-, -, same⟩)
      · rfl
      · exact same

/-- Two values of a secret name are redacted alike exactly if they are the same,
or none of them begins with a comma and they are the same from the first blank or
comma on. -/
theorem redacted_alike_iff (line : SecretLine) {first second : List Char}
    (sound : IsValue first) (sound' : IsValue second) :
    redact (line.giving first) = redact (line.giving second) ↔
      first = second ∨
        (first.head? ≠ some ',' ∧ second.head? ≠ some ',' ∧
          shown first = shown second) := by
  rw [SecretLine.redact_giving sound, SecretLine.redact_giving sound',
    SecretLine.giving_inj, masked_eq_iff]

/-- A password between two other lines of a text. -/
def passwordLine : SecretLine where
  above := "name: daily\n".toList
  indentation := 2
  key := "db_PASSWORD".toList
  below := "\nregion: eu".toList
  complete := .inr ⟨"name: daily".toList, rfl⟩
  separate := .inr ⟨"region: eu".toList, rfl⟩
  unspoken := by decide +kernel
  plain := List.all_eq_true.mp (by decide)
  secret := by decide

/-- Of two passwords the words behind the blank are shown, and these are the
same. -/
theorem redacted_alike_iff_passwordLine :
    let first := "blue horse".toList
    let second := "red horse".toList
    IsValue first ∧ IsValue second ∧
      redact (passwordLine.giving first) = redact (passwordLine.giving second) ∧
      redact (passwordLine.giving first) =
        "name: daily\n  db_PASSWORD: [REDACTED] horse\nregion: eu" := by
  intro first second
  have sound : IsValue first := ⟨⟨'b', _, rfl, by decide⟩, by decide +kernel⟩
  have sound' : IsValue second := ⟨⟨'r', _, rfl, by decide⟩, by decide +kernel⟩
  refine ⟨sound, sound',
    (redacted_alike_iff passwordLine sound sound').mpr (.inr ?_), ?_⟩
  · decide
  · decide +kernel

/-- What stands behind the blank of a password is not hidden. -/
theorem not_alike_passwordLine :
    let first := "correct horse".toList
    let second := "correct pony".toList
    IsValue first ∧ IsValue second ∧
      (∀ value ∈ [first, second],
        '\n' ∉ value ∧ value.getLast?.any isBlank = false) ∧
      redact (passwordLine.giving first) ≠
        redact (passwordLine.giving second) := by
  intro first second
  have sound : IsValue first := ⟨⟨'c', _, rfl, by decide⟩, by decide +kernel⟩
  have sound' : IsValue second := ⟨⟨'c', _, rfl, by decide⟩, by decide +kernel⟩
  exact ⟨sound, sound', by decide, by decide +kernel⟩

end RequestFlow.Redaction
