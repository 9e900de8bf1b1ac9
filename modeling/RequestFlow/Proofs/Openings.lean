import RequestFlow.Proofs.Concealing

/-!
# Openings

What leads up to a secret ends where the first character that is no blank stands:
a word and blanks, or a name, a mark of assignment and the blanks around it.  So
it can be told from the secret, does not stand within another one, and leads up to
whatever secret of its kind is put in place of the one behind it.
-/

namespace RequestFlow.Redaction

open RequestFlow.Text

/-- What stands for a secret. -/
def cover : List Char :=
  usualReplacement.toList

/-- The cover begins with a bracket, which no front of a secret has. -/
theorem cover_eq : cover = '[' :: "REDACTED]".toList := by
  decide

/-! ## Runs of characters -/

section Runs

variable {test : Char → Bool} {front back ahead rest : List Char}

/-- A run is as long as a front if it goes through the front and ends there. -/
theorem takeWhile_append_iff :
    ((front ++ back).takeWhile test).length = front.length ↔
      (∀ character ∈ front, test character = true) ∧
        ∀ character, back.head? = some character → test character = false := by
  induction front with
  | nil =>
      cases back with
      | nil => simp
      | cons character back =>
          cases decided : test character <;> simp [decided]
  | cons character front hypothesis =>
      cases decided : test character with
      | false => simp [decided]
      | true => simpa [List.takeWhile_cons, decided] using hypothesis

/-- Taking while a test holds stops between a front that passes and a back that
begins otherwise. -/
theorem takeWhile_append_eq
    (passes : ∀ character ∈ front, test character = true)
    (ends : ∀ character, back.head? = some character → test character = false) :
    (front ++ back).takeWhile test = front := by
  have length := takeWhile_append_iff.mpr ⟨passes, ends⟩
  have inside :=
    (List.takeWhile_prefix test).trans (List.prefix_refl (front ++ back))
  exact (List.prefix_of_prefix_length_le inside (List.prefix_append _ _)
    length.le).eq_of_length length

/-- A text is divided where a run of characters ends. -/
theorem exists_run (test : Char → Bool) (text : List Char) :
    ∃ front back,
      text = front ++ back ∧ (∀ character ∈ front, test character = true) ∧
        ∀ character, back.head? = some character → test character = false := by
  refine ⟨text.takeWhile test, text.dropWhile test,
    List.takeWhile_append_dropWhile.symm, List.all_eq_true.mp List.all_takeWhile,
    ?_⟩
  intro character first
  have fails := List.head?_dropWhile_not test text
  rw [first] at fails
  exact fails

theorem take_length_takeWhile (text : List Char) :
    text.take (text.takeWhile test).length = text.takeWhile test :=
  (List.prefix_iff_eq_take.mp (List.takeWhile_prefix test)).symm

theorem takeWhile_ne_nil_iff (test : Char → Bool) :
    ahead.takeWhile test ≠ [] ↔
      ∃ character more, ahead = character :: more ∧ test character = true := by
  cases ahead with
  | nil => simp
  | cons character more => cases decided : test character <;> simp [decided]

/-- A cover is taken for a secret as a whole if it stands in place of a whole
run. -/
theorem takeWhile_cover {secret more : List Char}
    (passes : ∀ character ∈ cover, test character = true)
    (run : (secret ++ rest).takeWhile test = secret)
    (same : more.head? = rest.head?) : (cover ++ more).takeWhile test = cover := by
  refine takeWhile_append_eq passes fun character first => ?_
  exact (takeWhile_append_iff.mp (congrArg List.length run)).2 character
    (same ▸ first)

end Runs

/-! ## Blank characters -/

section Blanks

variable {character : Char}

theorem isPlainWordChar_of_isBlank (blank : isBlank character = true) :
    isPlainWordChar character = false := by
  cases plain : isPlainWordChar character with
  | false => rfl
  | true =>
      exact (Bool.eq_false_iff.mp (isBlank_of_isPlainWordChar plain) blank).elim

/-- Blank characters are folded with no other ones. -/
theorem fold_of_isBlank (blank : isBlank character = true) :
    fold character = character := by
  have apart (special : Char) (visible : isBlank special = false) :
      (character == special) = false := by
    refine beq_eq_false_iff_ne.mpr ?_
    rintro rfl
    exact Bool.eq_false_iff.mp visible blank
  have small : character.toLower = character := by
    refine dif_neg fun capital => ?_
    have upper : character.isUpper = true := decide_eq_true capital
    have letter : character.isAlpha = true := by
      show (character.isUpper || character.isLower) = true
      rw [upper, Bool.true_or]
    have plain := isPlainWordChar_of_isBlank blank
    rw [isPlainWordChar, Char.isAlphanum, letter] at plain
    cases plain
  rw [fold, apart '\u017f' (by decide), apart '\u212a' (by decide)]
  exact small

theorem isBlank_of_isLineEnd (ends : isLineEnd character = true) :
    isBlank character = true := by
  rw [isLineEnd, Bool.or_eq_true, beq_iff_eq, beq_iff_eq] at ends
  rcases ends with rfl | rfl <;> rfl

theorem isNameChar_of_isBlank (blank : isBlank character = true) :
    isNameChar character = false := by
  rw [isNameChar, isLetterOrDigit, fold_of_isBlank blank]
  exact isPlainWordChar_of_isBlank blank

/-- Blanks separate a word from the text around it. -/
theorem limits_of_isBlank (blank : isBlank character = true) :
    Limits character := by
  refine ⟨isNameChar_of_isBlank blank, fun word member inside => ?_⟩
  have visible :
      ∀ word ∈ words, (word.toList.all fun letter => !isBlank letter) = true := by
    decide
  rw [fold_of_isBlank blank] at inside
  have letter := List.all_eq_true.mp (visible word member) character inside
  rw [blank] at letter
  cases letter

end Blanks

/-! ## What leads up to a secret -/

/-- A text does not begin with a blank. -/
def Visible (text : List Char) : Prop :=
  ∀ character, text.head? = some character → isBlank character = false

theorem visible_cons {character : Char} {rest : List Char}
    (visible : isBlank character = false) : Visible (character :: rest) := by
  rintro _ ⟨⟩
  exact visible

/-- A word, up to folding, and blanks. -/
def IsLead (word kept : List Char) : Prop :=
  ∃ name gap, kept = name ++ gap ∧ name.map fold = word ∧ gap ≠ [] ∧
    ∀ character ∈ gap, isBlank character = true

/-- A secret name and a mark of assignment with the blanks around it. -/
def IsAssigning (kept : List Char) : Prop :=
  ∃ name left mark right, kept = name ++ (left ++ mark :: right) ∧
    (∀ character ∈ name, isNameChar character = true) ∧
    (∃ secret ∈ secretNames, endsWith secret.toList name = true) ∧
    (∀ character ∈ left, isBlank character = true) ∧ (mark = '=' ∨ mark = ':') ∧
    ∀ character ∈ right, isBlank character = true

section Openings

variable {before : Option Char} {word kept ahead gap : List Char}

/-- A gap is found with its length exactly if it is of blanks only, is not empty,
and ends where the blanks do. -/
theorem gap?_append_iff :
    gap? (gap ++ ahead) = some gap.length ↔
      gap ≠ [] ∧ (∀ character ∈ gap, isBlank character = true) ∧
        Visible ahead := by
  rw [← List.length_pos_iff, Visible, ← takeWhile_append_iff, gap?]
  by_cases none : ((gap ++ ahead).takeWhile isBlank).length = 0
  · simp only [none, if_true]
    refine iff_of_false (fun equal => by cases equal) ?_
    rintro ⟨some, equal⟩
    omega
  · simp only [none, if_false, Option.some.injEq]
    omega

/-- A count that is that of a gap is its length, and the gap is not empty. -/
theorem eq_length_of_counted {count : Nat}
    (counted : (if count = 0 then none else some count) = some gap.length) :
    count = gap.length ∧ gap ≠ [] := by
  split at counted
  · cases counted
  · next some =>
      rcases Option.some.inj counted with rfl
      exact ⟨rfl, List.length_pos_iff.mp (Nat.pos_of_ne_zero some)⟩

/-- Blanks that lead up to a text on a line are followed by none, unless nothing
else follows. -/
theorem blank_of_gapBeforeLine?
    (counted : gapBeforeLine? (gap ++ ahead) = some gap.length) :
    gap ≠ [] ∧ (∀ character ∈ gap, isBlank character = true) ∧
      (Visible ahead ∨ ∀ character ∈ ahead, isBlank character = true) := by
  simp only [gapBeforeLine?] at counted
  split at counted
  · rcases eq_length_of_counted counted with ⟨length, nonempty⟩
    rcases takeWhile_append_iff.mp length with ⟨blank, visible⟩
    exact ⟨nonempty, blank, .inl visible⟩
  · next long =>
      rcases eq_length_of_counted counted with ⟨-, nonempty⟩
      have whole :=
        (List.takeWhile_prefix isBlank).eq_of_length_le (Nat.le_of_not_lt long)
      have blank : ∀ character ∈ gap ++ ahead, isBlank character = true := by
        rw [← whole]
        exact List.all_eq_true.mp List.all_takeWhile
      exact ⟨nonempty,
        fun character member => blank character (List.mem_append_left _ member),
        .inr fun character member =>
          blank character (List.mem_append_right _ member)⟩

/-- In front of a visible character the gap of a header is that of the other
kinds. -/
theorem gapBeforeLine?_append {character : Char} (nonempty : gap ≠ [])
    (blank : ∀ character ∈ gap, isBlank character = true)
    (visible : isBlank character = false) :
    gapBeforeLine? (gap ++ character :: ahead) = some gap.length := by
  have length :
      ((gap ++ character :: ahead).takeWhile isBlank).length = gap.length :=
    takeWhile_append_iff.mpr ⟨blank, visible_cons visible⟩
  have shorter : gap.length < (gap ++ character :: ahead).length := by
    rw [List.length_append, List.length_cons]
    omega
  simp only [gapBeforeLine?, length, if_pos shorter,
    if_neg (List.length_pos_iff.mpr nonempty).ne']

theorem beginsWith_of_folded {name : List Char} (folded : name.map fold = word) :
    beginsWith word (name ++ ahead) = true := by
  rw [beginsWith_iff, List.map_append, folded]
  exact List.prefix_append _ _

/-- Folding keeps the length, so a name can be cut off by the length of its
word. -/
theorem length_of_folded {name : List Char} (folded : name.map fold = word) :
    name.length = word.length := by
  rw [← folded, List.length_map]

/-- What is kept by a kind that looks for a word and a gap is such a word, up to
folding, and such a gap. -/
theorem exists_lead {gapOf : List Char → Option Nat}
    (begins : beginsWith word (kept ++ ahead) = true)
    (counted :
      (gapOf ((kept ++ ahead).drop word.length)).map (word.length + ·) =
        some kept.length) :
    ∃ name gap, kept = name ++ gap ∧ name.map fold = word ∧
      gapOf (gap ++ ahead) = some gap.length := by
  rcases Option.map_eq_some_iff.mp counted with ⟨count, counted, length⟩
  have within : word.length ≤ kept.length := by omega
  rw [List.drop_append_of_le_length within] at counted
  refine ⟨kept.take word.length, kept.drop word.length,
    (List.take_append_drop _ _).symm, ?_, ?_⟩
  · have front :=
      List.prefix_take_iff.mpr ⟨beginsWith_iff.mp begins, Nat.le_refl _⟩
    rw [← List.map_take, List.take_append_of_le_length within] at front
    exact (front.eq_of_length (by simp [within])).symm
  · rw [counted, List.length_drop]
    exact congrArg some (by omega)

/-- A credential is opened exactly by its scheme and a gap, at the boundary of a
word. -/
theorem opening?_credential_iff {scheme : String} {isValueChar : Char → Bool} :
    (credential scheme isValueChar).opening? before (kept ++ ahead) =
        some kept.length ↔
      isBoundary before = true ∧ IsLead scheme.toList kept ∧ Visible ahead := by
  constructor
  · intro opening
    simp only [credential, Bool.and_eq_true] at opening
    split at opening
    · next both =>
        rcases exists_lead both.2 opening with ⟨name, gap, rfl, folded, counted⟩
        rcases gap?_append_iff.mp counted with ⟨nonempty, blank, visible⟩
        exact ⟨both.1, ⟨name, gap, rfl, folded, nonempty, blank⟩, visible⟩
    · cases opening
  · rintro ⟨boundary, ⟨name, gap, rfl, folded, nonempty, blank⟩, visible⟩
    have length := length_of_folded folded
    simp only [credential, boundary, List.append_assoc,
      beginsWith_of_folded folded, Bool.and_self, if_true]
    rw [List.drop_left' length, gap?_append_iff.mpr ⟨nonempty, blank, visible⟩,
      Option.map_some, List.length_append, length]

/-- A header is opened by its name and a gap; the gap ends where the blanks do
unless nothing but blanks is left. -/
theorem lead_of_authorization
    (opening : authorization.opening? before (kept ++ ahead) = some kept.length) :
    IsLead "authorization:".toList kept ∧
      (Visible ahead ∨ ∀ character ∈ ahead, isBlank character = true) := by
  simp only [authorization] at opening
  split at opening
  · next begins =>
      rcases exists_lead begins opening with ⟨name, gap, rfl, folded, counted⟩
      rcases blank_of_gapBeforeLine? counted with ⟨nonempty, blank, ends⟩
      exact ⟨⟨name, gap, rfl, folded, nonempty, blank⟩, ends⟩
  · cases opening

theorem opening?_authorization_of_lead {character : Char}
    (lead : IsLead "authorization:".toList kept)
    (visible : isBlank character = false) :
    authorization.opening? before (kept ++ character :: ahead) =
      some kept.length := by
  rcases lead with ⟨name, gap, rfl, folded, nonempty, blank⟩
  have length := length_of_folded folded
  simp only [authorization, List.append_assoc, beginsWith_of_folded folded,
    if_true]
  rw [List.drop_left' length, gapBeforeLine?_append nonempty blank visible,
    Option.map_some, List.length_append, length]

/-- A mark is found behind blanks, and the blanks behind it are counted in. -/
theorem assignmentMark?_append {left right : List Char} {mark : Char}
    (before : ∀ character ∈ left, isBlank character = true)
    (visible : isBlank mark = false)
    (after : ∀ character ∈ right, isBlank character = true)
    (ends : Visible ahead) :
    assignmentMark? (left ++ mark :: (right ++ ahead)) =
      if mark == '=' || mark == ':' then some (left ++ mark :: right).length
      else none := by
  have first :
      ((left ++ mark :: (right ++ ahead)).takeWhile isBlank).length =
        left.length :=
    takeWhile_append_iff.mpr ⟨before, visible_cons visible⟩
  have second : ((right ++ ahead).takeWhile isBlank).length = right.length :=
    takeWhile_append_iff.mpr ⟨after, ends⟩
  simp only [assignmentMark?, first, List.drop_left, second, List.length_append,
    List.length_cons, Nat.add_assoc, Nat.add_comm 1]

/-- The blanks around a mark of assignment are followed by none. -/
theorem exists_mark {text : List Char} {count : Nat}
    (counted : assignmentMark? text = some count) :
    ∃ left mark right ahead, text = left ++ mark :: (right ++ ahead) ∧
      (∀ character ∈ left, isBlank character = true) ∧ (mark = '=' ∨ mark = ':') ∧
      (∀ character ∈ right, isBlank character = true) ∧ Visible ahead ∧
      count = (left ++ mark :: right).length := by
  rcases exists_run isBlank text with ⟨left, rest, rfl, before, visible⟩
  cases rest with
  | nil =>
      have whole : ((left ++ []).takeWhile isBlank).length = left.length :=
        takeWhile_append_iff.mpr ⟨before, visible⟩
      simp only [assignmentMark?, whole, List.drop_left] at counted
      cases counted
  | cons mark rest =>
      rcases exists_run isBlank rest with ⟨right, ahead, rfl, after, ends⟩
      rw [assignmentMark?_append before (visible mark rfl) after ends] at counted
      split at counted
      · next marks =>
          rw [Bool.or_eq_true, beq_iff_eq, beq_iff_eq] at marks
          exact ⟨left, mark, right, ahead, rfl, before, marks, after, ends,
            (Option.some.inj counted).symm⟩
      · cases counted

/-- A name ends in front of a mark of assignment with the blanks before it. -/
theorem takeWhile_name {name left rest : List Char} {mark : Char}
    (plain : ∀ character ∈ name, isNameChar character = true)
    (blank : ∀ character ∈ left, isBlank character = true)
    (ends : isNameChar mark = false) :
    (name ++ (left ++ mark :: rest)).takeWhile isNameChar = name := by
  refine takeWhile_append_eq plain fun character first => ?_
  cases left with
  | nil =>
      cases first
      exact ends
  | cons space left =>
      cases first
      exact isNameChar_of_isBlank (blank _ List.mem_cons_self)

/-- An assignment is opened exactly by a secret name and its mark, at the boundary
of a word. -/
theorem opening?_assignment_iff :
    assignment.opening? before (kept ++ ahead) = some kept.length ↔
      isBoundary before = true ∧ IsAssigning kept ∧ Visible ahead := by
  constructor
  · intro opening
    simp only [assignment, Bool.and_eq_true] at opening
    split at opening
    · next both =>
        rcases exists_run isNameChar (kept ++ ahead) with
          ⟨name, text, whole, plain, ends⟩
        rw [whole, takeWhile_append_eq plain ends, List.drop_left] at opening
        rw [whole, takeWhile_append_eq plain ends] at both
        rcases Option.map_eq_some_iff.mp opening with ⟨count, counted, length⟩
        rcases exists_mark counted with
          ⟨left, mark, right, rest, rfl, before', marks, after, visible, rfl⟩
        have parts :
            kept ++ ahead = (name ++ (left ++ mark :: right)) ++ rest := by
          simp only [whole, List.append_assoc, List.cons_append]
        have same : kept.length = (name ++ (left ++ mark :: right)).length :=
          length.symm.trans List.length_append.symm
        rcases List.append_inj parts same with ⟨rfl, rfl⟩
        exact ⟨both.1,
          ⟨name, left, mark, right, rfl, plain, List.any_eq_true.mp both.2,
            before', marks, after⟩, visible⟩
    · cases opening
  · rintro ⟨boundary,
      ⟨name, left, mark, right, rfl, plain, secret, before', marks, after⟩,
      visible⟩
    have parts : name ++ (left ++ mark :: right) ++ ahead =
        name ++ (left ++ mark :: (right ++ ahead)) := by
      simp only [List.append_assoc, List.cons_append]
    have apart : isNameChar mark = false ∧ isBlank mark = false := by
      rcases marks with rfl | rfl <;> decide
    have whole :
        (name ++ (left ++ mark :: (right ++ ahead))).takeWhile isNameChar = name :=
      takeWhile_name plain before' apart.1
    have some :
        (secretNames.any fun secret => endsWith secret.toList name) = true :=
      List.any_eq_true.mpr secret
    have marked : (mark == '=' || mark == ':') = true := by
      rw [Bool.or_eq_true, beq_iff_eq, beq_iff_eq]
      exact marks
    simp only [assignment, parts, whole, boundary, some, Bool.and_self, if_true,
      List.drop_left, assignmentMark?_append before' apart.2 after visible, marked,
      Option.map_some, List.length_append]

end Openings

/-! ## Patterns whose openings end where a secret begins -/

section Findings

variable {pattern : Pattern} {before : Option Char} {text kept ahead : List Char}
  {finding : Finding}

/-- A secret stands behind its opening and reaches as far as its kind does. -/
structure Pattern.Finds (pattern : Pattern) (before : Option Char)
    (text : List Char) (finding : Finding) : Prop where
  whole : text = finding.kept ++ (finding.secret ++ finding.rest)
  opening :
    pattern.opening? before (finding.kept ++ (finding.secret ++ finding.rest)) =
      some finding.kept.length
  nonempty : finding.secret ≠ []
  extent : (finding.secret ++ finding.rest).take
    (pattern.extent (finding.secret ++ finding.rest)) = finding.secret

/-- What a search finds is a finding in the sense of the specification. -/
theorem Pattern.finds_of_found (found : pattern.find? before text = some finding) :
    pattern.Finds before text finding := by
  rcases eq_of_find? found with ⟨whole, nonempty⟩
  rw [List.append_assoc] at whole
  rcases Option.bind_eq_some_iff.mp found with ⟨count, opening, found⟩
  simp only at found
  split at found
  · cases found
  · rw [Option.some.injEq] at found
    subst found
    have within : count ≤ text.length := by
      refine Nat.le_of_not_lt fun beyond => nonempty ?_
      rw [List.drop_eq_nil_of_le beyond.le, List.take_nil]
    have ahead :
        (text.drop count).take (pattern.extent (text.drop count)) ++
            (text.drop count).drop (pattern.extent (text.drop count)) =
          text.drop count :=
      List.take_append_drop _ _
    have length : (text.take count).length = count := by
      rw [List.length_take, Nat.min_eq_left within]
    refine ⟨?_, ?_, nonempty, ?_⟩
    · rw [ahead, List.take_append_drop]
    · rw [ahead, List.take_append_drop, length, opening]
    · rw [ahead]

/-- An opening with something behind it is a finding. -/
theorem Pattern.find?_of_opening
    (opening : pattern.opening? before (kept ++ ahead) = some kept.length)
    (nonempty : ahead.take (pattern.extent ahead) ≠ []) :
    pattern.find? before (kept ++ ahead) =
      some ⟨kept, ahead.take (pattern.extent ahead),
        ahead.drop (pattern.extent ahead)⟩ := by
  simp only [find?, opening, Option.bind_some, List.drop_left, List.take_left,
    List.isEmpty_eq_false_iff.mpr nonempty, Bool.false_eq_true, if_false]

end Findings

/-- Secrets of a kind stand behind fronts of a form, and begin with the first
character behind them that is no blank, if such a character can begin a secret of
this kind. -/
structure Pattern.Regular (pattern : Pattern) (IsFront : List Char → Prop)
    (begins : Char → Bool) : Prop where
  /-- What is in front of a secret has a form of its own. -/
  front :
    ∀ {before kept ahead},
      pattern.opening? before (kept ++ ahead) = some kept.length → IsFront kept
  /-- It takes all blanks, unless there is nothing but blanks behind it. -/
  visible :
    ∀ {before kept ahead},
      pattern.opening? before (kept ++ ahead) = some kept.length →
        (∃ character ∈ ahead, isBlank character = false) → Visible ahead
  /-- What is in front of one text is in front of any other one that begins with
  no blank. -/
  opens :
    ∀ {before kept ahead character} more,
      pattern.opening? before (kept ++ ahead) = some kept.length →
        isBlank character = false →
        pattern.opening? before (kept ++ character :: more) = some kept.length
  nonempty : ∀ {kept}, IsFront kept → kept ≠ []
  unmarked : ∀ {kept}, IsFront kept → '[' ∉ kept
  /-- It stands in no other one, unless at its end. -/
  inner :
    ∀ {kept before inner more}, IsFront kept → IsFront inner →
      kept = before ++ (inner ++ more) → Visible more → more = []
  /-- By its first character it is known whether a text begins with a secret. -/
  extent : ∀ {ahead}, ahead.take (pattern.extent ahead) ≠ [] ↔
    ∃ character more, ahead = character :: more ∧ begins character = true
  /-- A cover in place of a secret is a secret as a whole, if it begins with
  one. -/
  stops : ∀ {before text finding} more, pattern.find? before text = some finding →
    more.head? = finding.rest.head? →
      (cover ++ more).take (pattern.extent (cover ++ more)) ≠ [] →
        (cover ++ more).take (pattern.extent (cover ++ more)) = cover

section Fronts

variable {word kept part more before : List Char}

/-- A word that leads up to secrets. -/
structure IsWord (word : List Char) : Prop where
  nonempty : word ≠ []
  visible : ∀ character ∈ word, isBlank character = false
  unmarked : '[' ∉ word

/-- A name that folds to a word is one itself. -/
theorem IsWord.of_folded {name : List Char} (sound : IsWord (name.map fold)) :
    IsWord name where
  nonempty := fun empty => sound.nonempty (by rw [empty]; rfl)
  visible character member := by
    cases blank : isBlank character with
    | false => rfl
    | true =>
        have inside := sound.visible _ (List.mem_map_of_mem member)
        rw [fold_of_isBlank blank, blank] at inside
        exact inside
  unmarked := fun member => sound.unmarked (List.mem_map_of_mem (f := fold) member)

theorem isWord_header : IsWord "authorization:".toList where
  nonempty := by decide
  visible character member := by
    have visible :
        ("authorization:".toList.all fun letter => !isBlank letter) = true := by
      decide
    rw [← Bool.not_eq_true']
    exact List.all_eq_true.mp visible character member
  unmarked := by decide

theorem IsLead.nonempty (sound : IsWord word) (lead : IsLead word kept) :
    kept ≠ [] := by
  rcases lead with ⟨name, gap, rfl, rfl, nonempty, -⟩
  exact fun empty => nonempty (List.append_eq_nil_iff.mp empty).2

/-- Neither a word nor blanks have the bracket that a cover begins with. -/
theorem IsLead.unmarked (sound : IsWord word) (lead : IsLead word kept) :
    '[' ∉ kept := by
  rcases lead with ⟨name, gap, rfl, rfl, -, blank⟩
  intro member
  rcases List.mem_append.mp member with member | member
  · exact sound.of_folded.unmarked member
  · exact Bool.false_ne_true (blank _ member)

/-- A word with blanks behind it stands in no other one, unless at its end. -/
theorem IsLead.inner (sound : IsWord word) (lead : IsLead word kept)
    (lead' : IsLead word part) (whole : kept = before ++ (part ++ more))
    (visible : Visible more) : more = [] := by
  rcases lead with ⟨name, gap, rfl, folded, -, blank⟩
  rcases lead' with ⟨name', gap', rfl, -, nonempty, blank'⟩
  have clear : IsWord name := IsWord.of_folded (folded ▸ sound)
  cases more with
  | nil => rfl
  | cons first more =>
      rcases List.exists_cons_of_ne_nil nonempty with ⟨space, spaces, rfl⟩
      have first_visible : isBlank first = false := visible first rfl
      have parts :
          name ++ gap =
            (before ++ (name' ++ space :: spaces)) ++ first :: more := by
        simp only [whole, List.append_assoc]
      rcases List.append_eq_append_iff.mp parts with
        ⟨middle, -, tail⟩ | ⟨middle, front, -⟩
      · have member : first ∈ gap := by
          rw [tail]
          exact List.mem_append_right _ List.mem_cons_self
        exact (Bool.eq_false_iff.mp first_visible (blank first member)).elim
      · have member : space ∈ name := by
          rw [front]
          simp
        exact (Bool.eq_false_iff.mp (clear.visible space member)
          (blank' space List.mem_cons_self)).elim

/-- Nor does an assignment. -/
theorem IsAssigning.unmarked (assigning : IsAssigning kept) : '[' ∉ kept := by
  rcases assigning with
    ⟨name, left, mark, right, rfl, plain, -, before, marks, after⟩
  intro member
  simp only [List.mem_append, List.mem_cons] at member
  rcases member with member | member | same | member
  · exact Bool.false_ne_true (plain _ member)
  · exact Bool.false_ne_true (before _ member)
  · rcases marks with rfl | rfl <;> cases same
  · exact Bool.false_ne_true (after _ member)

/-- A mark of assignment with its name and its blanks stands in no other one,
unless at its end. -/
theorem IsAssigning.inner (assigning : IsAssigning kept)
    (assigning' : IsAssigning part) (whole : kept = before ++ (part ++ more))
    (visible : Visible more) : more = [] := by
  rcases assigning with
    ⟨name, left, mark, right, rfl, plain, -, before', marks, after⟩
  rcases assigning' with ⟨name', left', mark', right', rfl, -, -, -, marks', -⟩
  have outside : mark' ∉ name ++ left := by
    have apart : isNameChar mark' = false ∧ isBlank mark' = false := by
      rcases marks' with rfl | rfl <;> decide
    intro member
    rcases List.mem_append.mp member with member | member
    · exact Bool.eq_false_iff.mp apart.1 (plain _ member)
    · exact Bool.eq_false_iff.mp apart.2 (before' _ member)
  have inside : mark' ∈ before ++ (name' ++ (left' ++ mark' :: right')) := by simp
  cases more with
  | nil => rfl
  | cons first more =>
      have parts : (name ++ left) ++ mark :: right =
          (before ++ (name' ++ (left' ++ mark' :: right'))) ++ first :: more := by
        simp only [List.append_assoc] at whole ⊢
        exact whole
      rcases List.append_eq_append_iff.mp parts with
        ⟨middle, front, tail⟩ | ⟨middle, front, -⟩
      · cases middle with
        | nil =>
            rw [List.append_nil] at front
            exact (outside (front ▸ inside)).elim
        | cons head middle =>
            have member : first ∈ right := by
              rw [(List.cons.inj tail).2]
              exact List.mem_append_right _ List.mem_cons_self
            exact (Bool.eq_false_iff.mp (visible first rfl)
              (after first member)).elim
      · exact (outside (front ▸ List.mem_append_left _ inside)).elim

end Fronts

/-! ## Secrets by their characters -/

section Extents

variable {ahead rest : List Char}

/-- The credentials of a scheme are made of visible characters, letters and digits
among them. -/
structure IsScheme (scheme : String) (isValueChar : Char → Bool) : Prop where
  word : IsWord scheme.toList
  letters : ∀ character ∈ scheme.toList, character.isAlphanum = true
  hidden : ∀ character, isValueChar character = true → isHidden character = true
  unmarked : isValueChar '[' = false
  complete :
    ∀ character, isLetterOrDigit character = true → isValueChar character = true

theorem isBlank_of_isHidden {character : Char}
    (hidden : isHidden character = true) : isBlank character = false := by
  rw [isHidden, Bool.and_eq_true, Bool.not_eq_true'] at hidden
  exact hidden.1

/-- The characters of names are among those of values. -/
theorem isHidden_of_isNameChar {character : Char}
    (inside : isNameChar character = true) : isHidden character = true := by
  have visible : isBlank character = false := by
    cases blank : isBlank character with
    | false => rfl
    | true => exact inside.symm.trans (isNameChar_of_isBlank blank)
  have comma : character ≠ ',' := by
    rintro rfl
    exact Bool.false_ne_true inside
  rw [isHidden, visible, Bool.not_false, Bool.true_and]
  exact bne_iff_ne.mpr comma

theorem isHidden_of_isLetterOrDigit {character : Char}
    (letter : isLetterOrDigit character = true) : isHidden character = true :=
  isHidden_of_isNameChar (by rw [isNameChar, letter, Bool.true_or])

theorem isNameChar_of_shown {character : Char}
    (shown : isHidden character = false) : isNameChar character = false := by
  rw [Bool.eq_false_iff] at shown ⊢
  exact fun inside => shown (isHidden_of_isNameChar inside)

/-- Letters and digits make a word. -/
theorem isWord_of_letters {word : List Char} (nonempty : word ≠ [])
    (letters : ∀ character ∈ word, character.isAlphanum = true) : IsWord word where
  nonempty := nonempty
  visible character member := by
    refine isBlank_of_isPlainWordChar ?_
    rw [isPlainWordChar, letters character member, Bool.true_or]
  unmarked member := Bool.false_ne_true (letters _ member)

/-- A scheme of letters, whose credentials have letters, digits and marks that are
visible. -/
theorem isScheme_of_marks {scheme : String} {marks : List Char}
    (nonempty : scheme.toList ≠ [])
    (letters : scheme.toList.all Char.isAlphanum = true)
    (hidden : marks.all isHidden = true) (unmarked : marks.contains '[' = false) :
    IsScheme scheme fun character =>
      isLetterOrDigit character || marks.contains character where
  word := isWord_of_letters nonempty (List.all_eq_true.mp letters)
  letters := List.all_eq_true.mp letters
  hidden character value := by
    rcases Bool.or_eq_true_iff.mp value with letter | mark
    · exact isHidden_of_isLetterOrDigit letter
    · exact List.all_eq_true.mp hidden character (List.contains_iff_mem.mp mark)
  unmarked := by
    rw [unmarked]
    rfl
  complete character letter := by
    rw [letter]
    rfl

theorem isScheme_bearer : IsScheme "bearer" fun character =>
    isLetterOrDigit character || "-._~+/".toList.contains character :=
  isScheme_of_marks (by decide) (by decide) (by decide) (by decide)

theorem isScheme_basic : IsScheme "basic" fun character =>
    isLetterOrDigit character || "+/".toList.contains character :=
  isScheme_of_marks (by decide) (by decide) (by decide) (by decide)

/-- A credential takes its characters and the equals signs behind them, and
nothing if there is no character of its own. -/
theorem credentialExtent_append {isValueChar : Char → Bool}
    {value equals : List Char}
    (passes : ∀ character ∈ value, isValueChar character = true)
    (ends : ∀ character,
        (equals ++ rest).head? = some character → isValueChar character = false)
    (signs : ∀ character ∈ equals, (character == '=') = true)
    (stops :
      ∀ character, rest.head? = some character → (character == '=') = false) :
    credentialExtent isValueChar (value ++ (equals ++ rest)) =
      if value = [] then 0 else (value ++ equals).length := by
  simp only [credentialExtent, takeWhile_append_eq passes ends, List.drop_left,
    takeWhile_append_eq signs stops, List.isEmpty_iff, List.length_append]

/-- A credential has characters of its kind and then equals signs, as many as
there are. -/
theorem exists_credential {isValueChar : Char → Bool} {secret : List Char}
    (nonempty : secret ≠ [])
    (extent :
      (secret ++ rest).take (credentialExtent isValueChar (secret ++ rest)) =
        secret) :
    ∃ value equals, secret = value ++ equals ∧ value ≠ [] ∧
      (∀ character ∈ value, isValueChar character = true) ∧
      (∀ character,
        (equals ++ rest).head? = some character → isValueChar character = false) ∧
      ∀ character ∈ equals, character = '=' := by
  rcases exists_run isValueChar (secret ++ rest) with
    ⟨value, tail, whole, passes, ends⟩
  rcases exists_run (· == '=') tail with ⟨equals, later, rfl, signs, stops⟩
  rw [whole, credentialExtent_append passes ends signs stops] at extent
  split at extent
  · exact (nonempty (by rw [← extent, List.take_zero])).elim
  · next some =>
      rw [← List.append_assoc, List.take_left] at extent
      rw [← extent, List.append_assoc, List.append_cancel_left_eq,
        List.append_cancel_left_eq] at whole
      subst whole
      exact ⟨value, equals, extent.symm, some, passes, ends,
        fun character member =>
        eq_of_beq (signs character member)⟩

/-- So whether a credential begins here is seen from the first character. -/
theorem take_credentialExtent_ne_nil_iff {isValueChar : Char → Bool} :
    ahead.take (credentialExtent isValueChar ahead) ≠ [] ↔
      ∃ character more,
        ahead = character :: more ∧ isValueChar character = true := by
  rw [← takeWhile_ne_nil_iff isValueChar, credentialExtent]
  cases value : ahead.takeWhile isValueChar with
  | nil => simp
  | cons character more =>
      have nonempty : ahead ≠ [] := by
        rintro rfl
        cases value
      simp [nonempty]

end Extents

theorem not_isLineEnd_cover : ∀ character ∈ cover, (!isLineEnd character) = true :=
  List.all_eq_true.mp (by decide)

theorem isHidden_cover : ∀ character ∈ cover, isHidden character = true :=
  List.all_eq_true.mp (by decide)

/-- A header is secret up to the end of its line. -/
theorem take_authorization (text : List Char) :
    text.take (authorization.extent text) =
      text.takeWhile fun character => !isLineEnd character :=
  take_length_takeWhile text

/-- An assigned value is secret up to the first blank or comma. -/
theorem take_assignment (text : List Char) :
    text.take (assignment.extent text) = text.takeWhile isHidden :=
  take_length_takeWhile text

/-- Behind the name of the header and blanks the rest of the line is a secret. -/
theorem find?_authorization_of_lead {before : Option Char} {kept ahead : List Char}
    {character : Char} (lead : IsLead "authorization:".toList kept)
    (visible : isBlank character = false) :
    ∃ finding,
      authorization.find? before (kept ++ character :: ahead) = some finding ∧
        finding.secret =
          (character :: ahead).takeWhile fun character =>
            !isLineEnd character := by
  have begun : (!isLineEnd character) = true := by
    rw [Bool.not_eq_true', Bool.eq_false_iff]
    exact fun ends => Bool.eq_false_iff.mp visible (isBlank_of_isLineEnd ends)
  have nonempty :
      (character :: ahead).take (authorization.extent (character :: ahead)) ≠
        [] := by
    rw [take_authorization, takeWhile_ne_nil_iff]
    exact ⟨character, ahead, rfl, begun⟩
  exact ⟨_,
    Pattern.find?_of_opening (opening?_authorization_of_lead lead visible)
      nonempty, take_authorization _⟩

/-- The three kinds of patterns are regular, which is all that the theorems about
redaction use of them. -/
theorem regular_authorization :
    authorization.Regular (IsLead "authorization:".toList) fun character =>
      !isLineEnd character where
  front opening := (lead_of_authorization opening).1
  visible opening := by
    rintro ⟨character, member, visible⟩
    rcases (lead_of_authorization opening).2 with begins | blank
    · exact begins
    · exact (Bool.eq_false_iff.mp visible (blank character member)).elim
  opens _ opening visible :=
    opening?_authorization_of_lead (lead_of_authorization opening).1 visible
  nonempty := IsLead.nonempty isWord_header
  unmarked := IsLead.unmarked isWord_header
  inner := IsLead.inner isWord_header
  extent := by
    intro ahead
    rw [take_authorization, takeWhile_ne_nil_iff]
  stops more found same _ := by
    have run := (Pattern.finds_of_found found).extent
    rw [take_authorization] at run ⊢
    exact takeWhile_cover not_isLineEnd_cover run same

theorem regular_credential {scheme : String} {isValueChar : Char → Bool}
    (sound : IsScheme scheme isValueChar) :
    (credential scheme isValueChar).Regular (IsLead scheme.toList)
      isValueChar where
  front opening := (opening?_credential_iff.mp opening).2.1
  visible opening _ := (opening?_credential_iff.mp opening).2.2
  opens _ opening visible := by
    rcases opening?_credential_iff.mp opening with ⟨boundary, lead, -⟩
    exact opening?_credential_iff.mpr ⟨boundary, lead, visible_cons visible⟩
  nonempty := IsLead.nonempty sound.word
  unmarked := IsLead.unmarked sound.word
  inner := IsLead.inner sound.word
  extent := take_credentialExtent_ne_nil_iff
  stops more _ _ taken := by
    rcases take_credentialExtent_ne_nil_iff.mp taken with
      ⟨character, rest, whole, value⟩
    rw [cover_eq, List.cons_append] at whole
    rw [← (List.cons.inj whole).1, sound.unmarked] at value
    cases value

theorem regular_assignment : assignment.Regular IsAssigning isHidden where
  front opening := (opening?_assignment_iff.mp opening).2.1
  visible opening _ := (opening?_assignment_iff.mp opening).2.2
  opens _ opening visible := by
    rcases opening?_assignment_iff.mp opening with ⟨boundary, assigning, -⟩
    exact opening?_assignment_iff.mpr ⟨boundary, assigning, visible_cons visible⟩
  nonempty := by
    rintro _ ⟨name, left, mark, right, rfl, -⟩
    simp
  unmarked := IsAssigning.unmarked
  inner := IsAssigning.inner
  extent := by
    intro ahead
    rw [take_assignment, takeWhile_ne_nil_iff]
  stops more found same _ := by
    have run := (Pattern.finds_of_found found).extent
    rw [take_assignment] at run ⊢
    exact takeWhile_cover isHidden_cover run same

end RequestFlow.Redaction
