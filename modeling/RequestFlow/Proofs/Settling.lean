import RequestFlow.Proofs.Openings

/-!
# Redacting twice

A search covers the secrets of one kind, and the later searches go over the whole
text again, with the covers of the earlier ones in it.  A text is settled for a
kind of secrets if nothing but covers is recognised as such a secret at any of its
places.  The proof goes along a search: where it found nothing and in front of the
covers that it sets, nothing but covers is recognised afterwards, neither of its
own kind nor of an earlier one, because a cover begins with a character that no
opening has in it, ends with one that a word can begin behind, and stands where a
secret was.  Main statement: a redacted text is settled for all kinds of secrets,
so that redacting it again changes nothing.
-/

namespace RequestFlow.Redaction

open RequestFlow.Text

/-! ## Searches as inductions -/

namespace Pattern

variable {pattern other : Pattern} {before after : Option Char}
  {text rest : List Char} {finding : Finding}

/-- A search goes on behind a secret, or behind a character where it finds none. -/
theorem search_induction (pattern : Pattern)
    {motive : Option Char → List Char → Prop} (nil : ∀ before, motive before [])
    (found : ∀ before text finding, pattern.find? before text = some finding →
        motive finding.secret.getLast? finding.rest → motive before text)
    (missed :
      ∀ before character rest, pattern.find? before (character :: rest) = none →
        motive (some character) rest → motive before (character :: rest))
    (before : Option Char) (text : List Char) : motive before text := by
  cases search : pattern.find? before text with
  | some finding =>
      have := length_of_find? search
      exact found before text finding search
        (search_induction pattern nil found missed finding.secret.getLast?
          finding.rest)
  | none =>
      cases text with
      | nil => exact nil before
      | cons character rest =>
          exact missed before character rest search
            (search_induction pattern nil found missed (some character) rest)
termination_by text.length

/-- The text with its secrets covered. -/
def covered (pattern : Pattern) (before : Option Char) (text : List Char) :
    List Char :=
  pattern.replace cover before text

theorem covered_of_found (found : pattern.find? before text = some finding) :
    pattern.covered before text =
      finding.kept ++
        (cover ++ pattern.covered finding.secret.getLast? finding.rest) := by
  rw [covered, replace_of_found found, List.append_assoc]
  rfl

/-! ## Settled texts -/

/-- What is recognised as a secret at a place is covered. -/
def SettledAt (pattern : Pattern) (before : Option Char) (text : List Char) :
    Prop :=
  ∀ finding, pattern.find? before text = some finding → finding.secret = cover

theorem settledAt_of_missed (missed : pattern.find? before text = none) :
    pattern.SettledAt before text :=
  fun _ found => by cases missed.symm.trans found

/-- Something holds at every place of a text, given the character before the
place. -/
def Everywhere (holds : Option Char → List Char → Prop) (before : Option Char)
    (text : List Char) : Prop :=
  ∀ done part, text = done ++ part → holds (done.getLast?.or before) part

/-- What is recognised as a secret at any place of a text is covered. -/
def Settled (pattern : Pattern) : Option Char → List Char → Prop :=
  Everywhere pattern.SettledAt

section Places

variable {holds : Option Char → List Char → Prop} {front : List Char}

theorem getLast?_append_or (done more : List Char) :
    (done ++ more).getLast?.or before =
      more.getLast?.or (done.getLast?.or before) := by
  rw [List.getLast?_append, Option.or_assoc]

theorem Everywhere.here (everywhere : Everywhere holds before text) :
    holds before text :=
  everywhere [] text rfl

theorem Everywhere.drop (everywhere : Everywhere holds before (front ++ text)) :
    Everywhere holds (front.getLast?.or before) text := by
  intro done part whole
  rw [← getLast?_append_or]
  exact everywhere (front ++ done) part (by rw [whole, List.append_assoc])

theorem Everywhere.tail {character : Char}
    (everywhere : Everywhere holds before (character :: text)) :
    Everywhere holds (some character) text :=
  (show Everywhere holds before ([character] ++ text) from everywhere).drop

theorem everywhere_append (front : List Char)
    (places : ∀ done part, front = done ++ part → part ≠ [] →
      holds (done.getLast?.or before) (part ++ text))
    (everywhere : Everywhere holds (front.getLast?.or before) text) :
    Everywhere holds before (front ++ text) := by
  intro done part whole
  rcases List.append_eq_append_iff.mp whole.symm with
    ⟨inner, rfl, rfl⟩ | ⟨inner, rfl, rfl⟩
  · rcases List.eq_nil_or_concat inner with rfl | ⟨_, _, rfl⟩
    · rw [List.append_nil] at everywhere
      exact everywhere.here
    · exact places done _ rfl (by simp)
  · rw [getLast?_append_or]
    exact everywhere inner part rfl

theorem everywhere_cons {character : Char}
    (here : holds before (character :: text))
    (everywhere : Everywhere holds (some character) text) :
    Everywhere holds before (character :: text) := by
  refine everywhere_append [character] ?_ everywhere
  intro done part whole nonempty
  rcases List.singleton_eq_append_iff.mp whole with ⟨rfl, rfl⟩ | ⟨rfl, rfl⟩
  · exact here
  · exact (nonempty rfl).elim

/-- Behind a secret the character before is its last one. -/
theorem Everywhere.behind (everywhere : Everywhere holds before text)
    (found : pattern.find? before text = some finding) :
    Everywhere holds finding.secret.getLast? finding.rest := by
  rcases eq_of_find? found with ⟨whole, nonempty⟩
  rw [whole, List.append_assoc] at everywhere
  have later := everywhere.drop.drop
  rw [List.getLast?_eq_some_getLast nonempty, Option.some_or,
    ← List.getLast?_eq_some_getLast nonempty] at later
  exact later

end Places

/-- Covering the secrets of a settled text changes nothing. -/
theorem covered_of_settled (settled : pattern.Settled before text) :
    pattern.covered before text = text := by
  induction before, text using search_induction pattern with
  | nil before => exact replace_nil
  | found before text finding found hypothesis =>
      have secret : finding.secret = cover := settled.here finding found
      rw [covered_of_found found, hypothesis (settled.behind found),
        (eq_of_find? found).1, secret, List.append_assoc]
  | missed before character rest missed hypothesis =>
      exact (replace_of_missed missed).trans
        (congrArg (character :: ·) (hypothesis settled.tail))

/-! ## What is settled by a search -/

variable {IsFront IsFront' : List Char → Prop} {begins begins' : Char → Bool}
  {more : List Char}

theorem Regular.kept_isFront (regular : pattern.Regular IsFront begins)
    (found : pattern.find? before text = some finding) : IsFront finding.kept :=
  regular.front (finds_of_found found).opening

/-- The first character is never taken away. -/
theorem Regular.head?_covered (regular : pattern.Regular IsFront begins)
    (before : Option Char) (text : List Char) :
    (pattern.covered before text).head? = text.head? := by
  cases search : pattern.find? before text with
  | some finding =>
      rw [covered_of_found search, (finds_of_found search).whole]
      have nonempty := regular.nonempty (regular.kept_isFront search)
      rw [List.head?_append_of_ne_nil _ nonempty,
        List.head?_append_of_ne_nil _ nonempty]
  | none =>
      cases text with
      | nil => rw [covered, replace_nil]
      | cons character rest =>
          rw [covered, replace_of_missed search]
          rfl

/-- In front of a cover nothing but the cover is taken for a secret. -/
theorem Regular.settledAt_kept (regular : pattern.Regular IsFront begins)
    (found : pattern.find? before text = some finding) {front part : List Char}
    (whole : finding.kept = front ++ part)
    (same : more.head? = finding.rest.head?) :
    pattern.SettledAt after (part ++ (cover ++ more)) := by
  intro inner found'
  rcases finds_of_found found' with ⟨parts, opening, nonempty, secret⟩
  have isFront := regular.kept_isFront found'
  have ends :
      (inner.secret ++ inner.rest) = cover ++ more ∧ inner.kept = part := by
    -- An opening that reached into the cover would have its mark, and one that
    -- ended before the cover would stand within the opening that was found.
    rcases List.append_eq_append_iff.mp parts with
      ⟨middle, longer, tail⟩ | ⟨middle, shorter, tail⟩
    · cases middle with
      | nil => exact ⟨tail.symm, longer.trans (List.append_nil _)⟩
      | cons character middle =>
          rw [cover_eq, List.cons_append, List.cons_append] at tail
          rw [← (List.cons.inj tail).1] at longer
          exact (regular.unmarked isFront (longer ▸ by simp)).elim
    · have visible : Visible (inner.secret ++ inner.rest) :=
        regular.visible opening ⟨'[', by rw [tail, cover_eq]; simp, by decide⟩
      have none : middle = [] := by
        have inside : finding.kept = front ++ (inner.kept ++ middle) := by
          rw [whole, shorter]
        refine regular.inner (regular.kept_isFront found) isFront inside
          fun character first => ?_
        refine visible character ?_
        rw [tail, List.head?_append, first, Option.some_or]
      rw [none] at shorter tail
      exact ⟨tail, (shorter.trans (List.append_nil _)).symm⟩
  rw [ends.1] at secret
  rw [← secret]
  refine regular.stops more found same ?_
  rw [secret]
  exact nonempty

/-- It makes no difference to the openings of texts with a first character which
of two characters stands before them. -/
def Alike (pattern : Pattern) (before after : Option Char) (first : Option Char) :
    Prop :=
  ∀ text,
    text.head? = first → pattern.opening? before text = pattern.opening? after text

theorem Settled.congr (alike : pattern.Alike before after text.head?)
    (settled : pattern.Settled after text) : pattern.Settled before text := by
  intro done part whole
  have here := settled done part whole
  rcases List.eq_nil_or_concat done with rfl | ⟨front, last, rfl⟩
  · rcases whole with rfl
    rw [List.getLast?_nil, Option.none_or] at here ⊢
    intro finding found
    refine here finding ?_
    rw [find?, ← alike text rfl]
    exact found
  · rw [List.concat_eq_append, List.getLast?_concat, Option.some_or] at here ⊢
    exact here

theorem unspoken_cover : Unspoken cover := by
  decide +kernel

theorem limits_cover {mark : Char} (last : cover.getLast? = some mark) :
    Limits mark := by
  cases (show some ']' = some mark from last)
  decide +kernel

theorem settledAt_cover (known : pattern ∈ patterns) {done part : List Char}
    (whole : cover = done ++ part) (nonempty : part ≠ []) :
    pattern.SettledAt before (part ++ more) :=
  settledAt_of_missed
    (find?_of_limited known unspoken_cover (fun _ => limits_cover) whole nonempty)

/-- A text with its secrets of one kind covered is settled for another kind if
this is so where no secret was found and in front of each cover.  The other kind
may be the same one; `Given` is what is known of it at the places of the text as
it was. -/
theorem settled_covered (Given : Option Char → List Char → Prop)
    (known : other ∈ patterns) (regular : pattern.Regular IsFront begins)
    (alike : ∀ {before text finding}, pattern.find? before text = some finding →
        other.Alike (some ']') finding.secret.getLast? finding.rest.head?)
    (missed : ∀ {before text}, pattern.find? before text = none →
        Given before text → other.SettledAt before (pattern.covered before text))
    (kept : ∀ {before text finding front part after},
        pattern.find? before text = some finding → finding.kept = front ++ part →
          Given after (part ++ (finding.secret ++ finding.rest)) →
          other.SettledAt after
            (part ++
              (cover ++ pattern.covered finding.secret.getLast? finding.rest)))
    (given : Everywhere Given before text) :
    other.Settled before (pattern.covered before text) := by
  induction before, text using search_induction pattern with
  | nil before =>
      rw [covered, replace_nil]
      intro done part whole
      rcases List.append_eq_nil_iff.mp whole.symm with ⟨rfl, rfl⟩
      exact settledAt_of_missed find?_nil
  | found before text finding found hypothesis =>
      have later := hypothesis (given.behind found)
      rw [covered_of_found found]
      rw [(eq_of_find? found).1, List.append_assoc] at given
      -- A place is in the part that is kept, in the cover, or behind it.
      refine everywhere_append finding.kept ?_ (everywhere_append cover ?_ ?_)
      · intro done part whole _
        rw [whole, List.append_assoc] at given
        exact kept found whole given.drop.here
      · intro done part whole nonempty
        exact settledAt_cover known whole nonempty
      · refine Settled.congr ?_ later
        rw [regular.head?_covered]
        exact alike found
  | missed before character rest search hypothesis =>
      have here := missed search given.here
      rw [covered, replace_of_missed search] at here ⊢
      exact everywhere_cons here (hypothesis given.tail)

/-! ## What a covered text shows of the text -/

/-- What a covered text shows of a text from some place on: the place is one that
the search has come to, or one in front of a secret that it has found. -/
inductive Shows (pattern : Pattern) : List Char → List Char → Prop where
  | search (before : Option Char) (text : List Char) :
      Shows pattern text (pattern.covered before text)
  | kept {before : Option Char} {text : List Char} {finding : Finding}
      (found : pattern.find? before text = some finding) (front part : List Char)
      (whole : finding.kept = front ++ part) :
      Shows pattern (part ++ (finding.secret ++ finding.rest))
        (part ++ (cover ++ pattern.covered finding.secret.getLast? finding.rest))

/-- A kind of secrets that begin with a character that an assignment would hide.
A cover in front of the end of a line is found as a whole, and behind a secret a
credential is recognised exactly if it is recognised behind a cover. -/
structure Covert (pattern : Pattern) : Prop where
  hides :
    ∀ {before text finding}, pattern.find? before text = some finding →
      ∃ character more,
        finding.secret = character :: more ∧ isHidden character = true
  whole : ∀ {before text finding rest}, pattern.find? before text = some finding →
    (∀ character, rest.head? = some character → isLineEnd character = true) →
      finding.secret ++ finding.rest = cover ++ rest → finding.secret = cover
  alike :
    ∀ {before text finding scheme isValueChar},
      pattern.find? before text = some finding → IsScheme scheme isValueChar →
        (credential scheme isValueChar).Alike (some ']') finding.secret.getLast?
          finding.rest.head?

section Shown

variable {character : Char} {shown back front : List Char}

/-- A character that is no mark is shown because it is there. -/
theorem Shows.uncons (regular : pattern.Regular IsFront begins)
    (shows : pattern.Shows text shown) (whole : shown = character :: back)
    (unmarked : character ≠ '[') :
    ∃ later, text = character :: later ∧ pattern.Shows later back := by
  cases shows with
  | search before =>
      cases search : pattern.find? before text with
      | some finding =>
          rw [covered_of_found search] at whole
          rcases List.exists_cons_of_ne_nil
              (regular.nonempty (regular.kept_isFront search)) with
            ⟨first, part, kept⟩
          rw [kept, List.cons_append, List.cons.injEq] at whole
          rcases whole with ⟨rfl, rfl⟩
          refine ⟨part ++ (finding.secret ++ finding.rest), ?_,
            .kept search [first] part kept⟩
          rw [(finds_of_found search).whole, kept, List.cons_append]
      | none =>
          cases text with
          | nil =>
              rw [covered, replace_nil] at whole
              cases whole
          | cons first rest =>
              rw [covered, replace_of_missed search, List.cons.injEq] at whole
              rcases whole with ⟨rfl, rfl⟩
              exact ⟨rest, rfl, .search _ rest⟩
  | @kept before text finding found front part kept =>
      cases part with
      | nil =>
          rw [List.nil_append, cover_eq, List.cons_append, List.cons.injEq]
            at whole
          exact (unmarked whole.1.symm).elim
      | cons first part =>
          rw [List.cons_append, List.cons.injEq] at whole
          rcases whole with ⟨rfl, rfl⟩
          refine ⟨part ++ (finding.secret ++ finding.rest), List.cons_append,
            .kept found (front ++ [first]) part ?_⟩
          rw [kept, List.append_assoc, List.singleton_append]

/-- What is shown without a mark is there. -/
theorem Shows.drop (regular : pattern.Regular IsFront begins)
    (shows : pattern.Shows text (front ++ back)) (unmarked : '[' ∉ front) :
    ∃ later, text = front ++ later ∧ pattern.Shows later back := by
  induction front generalizing text with
  | nil => exact ⟨text, rfl, shows⟩
  | cons first front hypothesis =>
      rw [List.mem_cons, not_or] at unmarked
      rcases shows.uncons regular rfl (Ne.symm unmarked.1) with
        ⟨later, rfl, further⟩
      rcases hypothesis further unmarked.2 with ⟨rest, rfl, last⟩
      exact ⟨rest, rfl, last⟩

/-- A mark may stand for the first character of a secret, any other character
stands for itself. -/
theorem Shows.first (regular : pattern.Regular IsFront begins)
    (covert : pattern.Covert) (shows : pattern.Shows text shown)
    (whole : shown = character :: back) :
    ∃ first later, text = first :: later ∧
      (first = character ∨ character = '[' ∧ isHidden first = true) := by
  cases shows with
  | search before =>
      have head := regular.head?_covered before text
      rw [whole] at head
      rcases List.head?_eq_some_iff.mp head.symm with ⟨later, rfl⟩
      exact ⟨character, later, rfl, .inl rfl⟩
  | @kept before text finding found front part kept =>
      cases part with
      | nil =>
          rw [List.nil_append, cover_eq, List.cons_append, List.cons.injEq]
            at whole
          rcases covert.hides found with ⟨first, more, secret, hidden⟩
          refine ⟨first, more ++ finding.rest, ?_, .inr ⟨whole.1.symm, hidden⟩⟩
          rw [secret, List.nil_append, List.cons_append]
      | cons first part =>
          rw [List.cons_append, List.cons.injEq] at whole
          exact ⟨first, _, List.cons_append, .inl whole.1⟩

theorem Shows.eq_nil (regular : pattern.Regular IsFront begins)
    (shows : pattern.Shows text shown) (empty : shown = []) : text = [] := by
  cases shows with
  | search before =>
      have head := regular.head?_covered before text
      rw [empty] at head
      exact List.head?_eq_none_iff.mp head.symm
  | kept found whole =>
      rw [cover_eq] at empty
      simp at empty

/-- Where nothing is found in a text, nothing is found in what is shown of it: an
opening that is shown is there, and what it leads up to there begins with the same
character or with a hidden one. -/
theorem Shows.missed (regular : pattern.Regular IsFront begins)
    (covert : pattern.Covert) (regular' : other.Regular IsFront' begins')
    (visible : ∀ character, begins' character = true → isBlank character = false)
    (catches :
      begins' '[' = true →
        ∀ character, isHidden character = true → begins' character = true)
    (shows : pattern.Shows text shown) (missed : other.find? before text = none) :
    other.find? before shown = none := by
  cases search : other.find? before shown with
  | none => rfl
  | some finding =>
      rcases finds_of_found search with ⟨whole, opening, nonempty, secret⟩
      rw [← secret, regular'.extent] at nonempty
      rcases nonempty with ⟨character, more, ahead, begun⟩
      rw [whole] at shows
      rcases shows.drop regular (regular'.unmarked (regular'.front opening)) with
        ⟨later, rfl, further⟩
      rcases further.first regular covert ahead with ⟨first, rest, rfl, same⟩
      have begun' : begins' first = true := by
        rcases same with rfl | ⟨rfl, hidden⟩
        · exact begun
        · exact catches begun first hidden
      have found :=
        find?_of_opening (regular'.opens rest opening (visible first begun'))
          (regular'.extent.mpr ⟨first, rest, rfl, begun'⟩)
      cases missed.symm.trans found

/-- A cover in the text is shown as it is. -/
theorem Shows.of_cover (regular : pattern.Regular IsFront begins)
    (known : pattern ∈ patterns)
    (whole : ∀ {before text finding}, pattern.find? before text = some finding →
        finding.secret ++ finding.rest = cover ++ rest → finding.secret = cover)
    (shows : pattern.Shows text shown) (covers : text = cover ++ rest) :
    ∃ more, shown = cover ++ more ∧ more.head? = rest.head? := by
  cases shows with
  | search before =>
      refine ⟨pattern.covered (cover.getLast?.or before) rest, ?_,
        regular.head?_covered _ _⟩
      rw [covers]
      exact replace_of_limited known unspoken_cover fun _ => limits_cover
  | @kept before text finding found front part kept =>
      cases part with
      | nil =>
          have secret : finding.secret = cover := whole found covers
          rw [List.nil_append, secret, List.append_cancel_left_eq] at covers
          refine ⟨_, rfl, ?_⟩
          rw [regular.head?_covered, covers]
      | cons first part =>
          rw [cover_eq, List.cons_append, List.cons_append, List.cons.injEq]
            at covers
          have unmarked := regular.unmarked (regular.kept_isFront found)
          rw [kept, covers.1] at unmarked
          exact (unmarked (List.mem_append_right _ List.mem_cons_self)).elim

/-- Behind a settled header there is a cover up to the end of the line. -/
theorem SettledAt.exists_cover {kept : List Char}
    (settled : authorization.SettledAt before (kept ++ character :: rest))
    (lead : IsLead "authorization:".toList kept)
    (visible : isBlank character = false) :
    ∃ tail, character :: rest = cover ++ tail ∧
      ∀ character, tail.head? = some character → isLineEnd character = true := by
  rcases find?_authorization_of_lead lead visible with ⟨finding, found, secret⟩
  rcases exists_run (fun character => !isLineEnd character)
      (character :: rest) with
    ⟨run, tail, whole, passes, ends⟩
  rw [settled finding found, whole, takeWhile_append_eq passes ends] at secret
  refine ⟨tail, by rw [whole, secret], fun character head => ?_⟩
  have stops := ends character head
  rw [Bool.not_eq_false'] at stops
  exact stops

/-- A covered header stays so where something else is covered. -/
theorem Shows.settledAt_authorization (regular : pattern.Regular IsFront begins)
    (covert : pattern.Covert) (known : pattern ∈ patterns)
    (shows : pattern.Shows text shown)
    (settled : authorization.SettledAt before text) :
    authorization.SettledAt before shown := by
  intro finding found
  rcases finds_of_found found with ⟨parts, opening, nonempty, secret⟩
  have unmarked :=
    regular_authorization.unmarked (regular_authorization.front opening)
  rw [parts] at shows
  rcases shows.drop regular unmarked with ⟨later, rfl, further⟩
  rcases (lead_of_authorization opening).2 with visible | blank
  · rw [← secret, regular_authorization.extent] at nonempty
    rcases nonempty with ⟨character, more, ahead, -⟩
    rcases further.first regular covert ahead with ⟨first, rest, rfl, same⟩
    have visible' : isBlank first = false := by
      rcases same with rfl | ⟨-, hidden⟩
      · exact visible first (by rw [ahead]; rfl)
      · exact isBlank_of_isHidden hidden
    rcases settled.exists_cover (lead_of_authorization opening).1 visible' with
      ⟨tail, whole, ends⟩
    rcases further.of_cover regular known (fun found => covert.whole found ends)
        whole with
      ⟨more', shown', head⟩
    rw [← secret, shown', take_authorization]
    refine takeWhile_append_eq not_isLineEnd_cover fun character first => ?_
    rw [ends character (head ▸ first)]
    rfl
  · -- Behind the header there is nothing but blanks, so nothing else was covered
    -- there.
    have plain : '[' ∉ finding.secret ++ finding.rest := fun member =>
      Bool.false_ne_true (blank _ member)
    rw [← List.append_nil (finding.secret ++ finding.rest)] at further
    rcases further.drop regular plain with ⟨last, rfl, ends⟩
    rcases ends.eq_nil regular rfl with rfl
    refine settled finding ?_
    rw [List.append_nil, ← parts]
    exact found

end Shown

end Pattern

/-! ## Credentials and assignments -/

section Kinds

variable {scheme : String} {isValueChar : Char → Bool}
  {before after first : Option Char} {text : List Char} {finding : Finding}

/-- A credential begins with one of its characters and ends with one that a word
can begin behind, unless no letter and no digit follows. -/
theorem credential_of_found (sound : IsScheme scheme isValueChar)
    (found : (credential scheme isValueChar).find? before text = some finding) :
    (∃ character more,
        finding.secret = character :: more ∧ isValueChar character = true) ∧
      (finding.secret.getLast? = some '=' ∨
        ∀ character, finding.rest.head? = some character →
          isLetterOrDigit character = false) := by
  rcases Pattern.finds_of_found found with ⟨-, -, nonempty, extent⟩
  rcases exists_credential nonempty extent with
    ⟨value, equals, whole, some, passes, ends, signs⟩
  constructor
  · rcases List.exists_cons_of_ne_nil some with ⟨character, more, rfl⟩
    exact ⟨character, more ++ equals, whole, passes character List.mem_cons_self⟩
  · rcases List.eq_nil_or_concat equals with rfl | ⟨others, last, rfl⟩
    · refine .inr fun character head => ?_
      cases letter : isLetterOrDigit character with
      | false => rfl
      | true =>
          exact (sound.complete character letter).symm.trans (ends character head)
    · rw [List.concat_eq_append] at whole signs
      refine .inl ?_
      rw [whole, ← List.append_assoc, List.getLast?_concat, signs last (by simp)]

/-- A cover is no credential, so that nothing at all is recognised at a settled
place. -/
theorem missed_of_settledAt (sound : IsScheme scheme isValueChar)
    (settled : (credential scheme isValueChar).SettledAt before text) :
    (credential scheme isValueChar).find? before text = none := by
  cases search : (credential scheme isValueChar).find? before text with
  | none => rfl
  | some finding =>
      rcases (credential_of_found sound search).1 with
        ⟨character, more, whole, value⟩
      rw [settled finding search, cover_eq] at whole
      rw [← (List.cons.inj whole).1, sound.unmarked] at value
      cases value

/-- The value of an assignment is a whole run of hidden characters. -/
theorem assignment_of_found (found : assignment.find? before text = some finding) :
    (∀ character ∈ finding.secret, isHidden character = true) ∧
      ∀ character,
        finding.rest.head? = some character → isHidden character = false := by
  have run := (Pattern.finds_of_found found).extent
  rw [take_assignment] at run
  exact takeWhile_append_iff.mp (congrArg List.length run)

theorem alike_credential_of_boundary
    (same : isBoundary before = isBoundary after) :
    (credential scheme isValueChar).Alike before after first := by
  intro text _
  simp only [credential, same]

theorem alike_credential_of_head (sound : IsScheme scheme isValueChar)
    (head :
      ∀ character, first = some character → isLetterOrDigit character = false) :
    (credential scheme isValueChar).Alike before after first := by
  rintro text rfl
  have other : ¬ scheme.toList <+: text.map fold := by
    intro begins
    rcases List.exists_cons_of_ne_nil sound.word.nonempty with
      ⟨letter, letters, whole⟩
    have plain := sound.letters letter (whole ▸ List.mem_cons_self)
    cases text with
    | nil =>
        rw [whole] at begins
        cases List.prefix_nil.mp begins
    | cons character text =>
        rw [whole, List.map_cons, List.cons_prefix_cons] at begins
        have letter := head character rfl
        rw [isLetterOrDigit, ← begins.1, plain] at letter
        cases letter
  rw [opening?_credential other, opening?_credential other]

theorem alike_assignment_of_head
    (head : ∀ character, first = some character → isNameChar character = false) :
    assignment.Alike before after first := by
  rintro text rfl
  have name : text.takeWhile isNameChar = [] := by
    cases text with
    | nil => rfl
    | cons character text =>
        exact List.takeWhile_cons_of_neg
          (Bool.eq_false_iff.mp (head character rfl))
  have other :
      ∀ secret ∈ secretNames,
        ¬ secret.toList <:+ (text.takeWhile isNameChar).map fold := by
    rw [name]
    decide
  rw [opening?_assignment other, opening?_assignment other]

theorem covert_credential (sound : IsScheme scheme isValueChar) :
    (credential scheme isValueChar).Covert where
  hides found := by
    rcases (credential_of_found sound found).1 with ⟨character, more, whole, value⟩
    exact ⟨character, more, whole, sound.hidden character value⟩
  whole found _ same := by
    rcases (credential_of_found sound found).1 with ⟨character, more, whole, value⟩
    rw [whole, cover_eq, List.cons_append, List.cons_append] at same
    rw [(List.cons.inj same).1, sound.unmarked] at value
    cases value
  alike found sound' := by
    rcases (credential_of_found sound found).2 with last | head
    · rw [last]
      exact alike_credential_of_boundary rfl
    · exact alike_credential_of_head sound' head

theorem covert_assignment : assignment.Covert where
  hides found := by
    rcases List.exists_cons_of_ne_nil (Pattern.eq_of_find? found).2 with
      ⟨character, more, whole⟩
    exact ⟨character, more, whole,
      (assignment_of_found found).1 character (whole ▸ List.mem_cons_self)⟩
  whole found ends same := by
    rcases assignment_of_found found with ⟨passes, stops⟩
    have run := takeWhile_append_eq passes stops
    rw [same, takeWhile_append_eq isHidden_cover] at run
    · exact run.symm
    · intro character head
      rw [isHidden, isBlank_of_isLineEnd (ends character head)]
      rfl
  alike found sound := by
    refine alike_credential_of_head sound fun character head => ?_
    exact (Bool.or_eq_false_iff.mp
      (isNameChar_of_shown ((assignment_of_found found).2 character head))).1

theorem alike_assignment (found : assignment.find? before text = some finding) :
    assignment.Alike (some ']') finding.secret.getLast? finding.rest.head? :=
  alike_assignment_of_head fun character head =>
    isNameChar_of_shown ((assignment_of_found found).2 character head)

end Kinds

/-! ## Headers without a value -/

section Headers

variable {before : Option Char} {name text : List Char}

theorem unspoken_of_blank (blank : ∀ character ∈ text, isBlank character = true) :
    Unspoken text := by
  induction text with
  | nil => decide
  | cons character text hypothesis =>
      rw [List.forall_mem_cons] at blank
      exact .cons (limits_of_isBlank blank.1) (hypothesis blank.2)

/-- The name of a header in front of blanks is passed over if it is no header with
a value. -/
theorem covered_of_blank (folded : name.map fold = "authorization:".toList)
    (blank : ∀ character ∈ text, isBlank character = true)
    (missed : authorization.find? before (name ++ text) = none) :
    authorization.covered before (name ++ text) = name ++ text := by
  rw [Pattern.covered, Pattern.replace_append,
    replace_unspoken List.mem_cons_self (unspoken_of_blank blank)]
  intro done part whole nonempty
  cases done with
  | nil =>
      rw [List.nil_append] at whole
      exact whole ▸ missed
  | cons first done =>
      refine Pattern.find?_of_unopened (opening?_authorization fun begins => ?_)
      have within : "authorization:".toList <+: part.map fold := by
        rw [List.map_append] at begins
        cases text with
        | nil =>
            rw [List.map_nil, List.append_nil] at begins
            exact begins
        | cons space text =>
            rw [List.forall_mem_cons] at blank
            rw [List.map_cons, fold_of_isBlank blank.1] at begins
            refine prefix_of_prefix_append_cons (fun member => ?_) begins
            exact Bool.eq_false_iff.mp (isWord_header.visible space member) blank.1
      have length := within.length_le
      rw [← folded, whole, List.length_map, List.length_map, List.length_append,
        List.length_cons] at length
      omega

/-- Where no header with a value was found, there is none when the secrets behind
are covered. -/
theorem settledAt_covered_authorization
    (missed : authorization.find? before text = none) :
    authorization.SettledAt before (authorization.covered before text) := by
  intro finding found
  rcases Pattern.finds_of_found found with ⟨parts, opening, -, -⟩
  have shows :
      authorization.Shows text
        (finding.kept ++ (finding.secret ++ finding.rest)) :=
    parts ▸ Pattern.Shows.search before text
  have lead := regular_authorization.front opening
  rcases shows.drop regular_authorization
      (regular_authorization.unmarked lead) with
    ⟨later, rfl, -⟩
  rcases lead with ⟨name, gap, kept, folded, nonempty, blank⟩
  rcases exists_run isBlank later with ⟨blanks, back, rfl, blank', ends⟩
  cases back with
  | nil =>
      have whole : finding.kept ++ (blanks ++ []) = name ++ (gap ++ blanks) := by
        rw [kept, List.append_nil, List.append_assoc]
      rw [whole] at missed found
      have blanks : ∀ character ∈ gap ++ blanks, isBlank character = true :=
        List.forall_mem_append.mpr ⟨blank, blank'⟩
      rw [covered_of_blank folded blanks missed] at found
      cases missed.symm.trans found
  | cons character more =>
      have visible : isBlank character = false := ends character rfl
      have lead : IsLead "authorization:".toList (finding.kept ++ blanks) :=
        ⟨name, gap ++ blanks, by rw [kept, List.append_assoc], folded,
          by simp [nonempty], List.forall_mem_append.mpr ⟨blank, blank'⟩⟩
      rcases find?_authorization_of_lead lead visible with ⟨other, there, -⟩
      rw [List.append_assoc] at there
      cases missed.symm.trans there

end Headers

/-! ## All searches -/

theorem bearer_mem_patterns : bearer ∈ patterns := by
  simp [patterns]

theorem basic_mem_patterns : basic ∈ patterns := by
  simp [patterns]

namespace Pattern

section Kept

variable {pattern : Pattern} {IsFront : List Char → Prop} {begins : Char → Bool}
  {before : Option Char} {text : List Char} {scheme : String}
  {isValueChar : Char → Bool}

/-- The search itself settles a text if it finds nothing new where it found
nothing. -/
theorem Regular.settled_covered_self (regular : pattern.Regular IsFront begins)
    (known : pattern ∈ patterns)
    (alike : ∀ {before text finding}, pattern.find? before text = some finding →
      pattern.Alike (some ']') finding.secret.getLast? finding.rest.head?)
    (missed : ∀ {before text}, pattern.find? before text = none →
      pattern.SettledAt before (pattern.covered before text)) :
    pattern.Settled before (pattern.covered before text) := by
  refine settled_covered (fun _ _ => True) known regular alike
    (fun none _ => missed none) ?_ fun _ _ _ =>
      trivial
  intro before text finding front part after found whole _
  exact regular.settledAt_kept found whole (regular.head?_covered _ _)

theorem Shows.missed_credential {shown : List Char}
    (shows : pattern.Shows text shown) (regular : pattern.Regular IsFront begins)
    (covert : pattern.Covert) (sound : IsScheme scheme isValueChar)
    (missed : (credential scheme isValueChar).find? before text = none) :
    (credential scheme isValueChar).find? before shown = none := by
  refine shows.missed regular covert (regular_credential sound) ?_ ?_ missed
  · exact fun character value => isBlank_of_isHidden (sound.hidden character value)
  · exact fun mark => (Bool.eq_false_iff.mp sound.unmarked mark).elim

/-- Where no credential is recognised, none is when other secrets are covered. -/
theorem Covert.settled_credential (covert : pattern.Covert)
    (regular : pattern.Regular IsFront begins)
    (sound : IsScheme scheme isValueChar)
    (known : credential scheme isValueChar ∈ patterns)
    (settled : (credential scheme isValueChar).Settled before text) :
    (credential scheme isValueChar).Settled before
      (pattern.covered before text) := by
  refine settled_covered
    (fun before text => (credential scheme isValueChar).find? before text = none)
    known regular (fun found => covert.alike found sound) ?_ ?_ ?_
  · intro before text _ missed
    exact settledAt_of_missed
      ((Shows.search before text).missed_credential regular covert sound missed)
  · intro before text finding front part after found whole missed
    exact settledAt_of_missed
      ((Shows.kept found front part whole).missed_credential regular covert sound
        missed)
  · intro done part whole
    exact missed_of_settledAt sound (settled done part whole)

/-- A header whose value is covered stays so when other secrets are covered. -/
theorem Covert.settled_authorization (covert : pattern.Covert)
    (regular : pattern.Regular IsFront begins) (known : pattern ∈ patterns)
    (settled : authorization.Settled before text) :
    authorization.Settled before (pattern.covered before text) := by
  refine settled_covered authorization.SettledAt List.mem_cons_self regular
    (fun _ _ _ => rfl) ?_ ?_ settled
  · intro before text _
    exact (Shows.search before text).settledAt_authorization regular covert known
  · intro before text finding front part after found whole
    exact (Shows.kept found front part whole).settledAt_authorization regular
      covert known

end Kept

end Pattern

section All

variable {pattern : Pattern} {before : Option Char} {text : List Char}

theorem settled_covered_credential {scheme : String} {isValueChar : Char → Bool}
    (sound : IsScheme scheme isValueChar)
    (known : credential scheme isValueChar ∈ patterns) :
    (credential scheme isValueChar).Settled before
      ((credential scheme isValueChar).covered before text) := by
  have regular := regular_credential sound
  have covert := covert_credential sound
  refine regular.settled_covered_self known (fun found => covert.alike found sound)
    fun missed => ?_
  exact Pattern.settledAt_of_missed
    ((Pattern.Shows.search _ _).missed_credential regular covert sound missed)

theorem settled_covered_assignment :
    assignment.Settled before (assignment.covered before text) := by
  refine regular_assignment.settled_covered_self SecretLine.mem_patterns
    alike_assignment ?_
  intro before text missed
  exact Pattern.settledAt_of_missed
    ((Pattern.Shows.search before text).missed regular_assignment covert_assignment
      regular_assignment (fun _ => isBlank_of_isHidden) (fun _ _ => id) missed)

theorem settled_covered_authorization :
    authorization.Settled before (authorization.covered before text) :=
  regular_authorization.settled_covered_self List.mem_cons_self (fun _ _ _ => rfl)
    settledAt_covered_authorization

/-- A text that is searched for one kind of secrets is settled for it. -/
theorem settled_covered_self (known : pattern ∈ patterns) :
    pattern.Settled before (pattern.covered before text) := by
  have all :
      ∀ pattern ∈ patterns,
        pattern.Settled before (pattern.covered before text) := by
    simp only [patterns, List.forall_mem_cons, List.not_mem_nil, false_implies,
      implies_true, and_true]
    exact ⟨settled_covered_authorization,
      settled_covered_credential isScheme_bearer bearer_mem_patterns,
      settled_covered_credential isScheme_basic basic_mem_patterns,
      settled_covered_assignment⟩
  exact all pattern known

/-- A text that is settled for one kind of secrets stays so in the searches for
the later ones. -/
theorem settled_covered_later : patterns.Pairwise fun earlier later =>
    ∀ {text}, earlier.Settled none text →
      earlier.Settled none (later.covered none text) := by
  have bearers : bearer.Covert := covert_credential isScheme_bearer
  have basics : basic.Covert := covert_credential isScheme_basic
  have regular := regular_credential isScheme_basic
  simp only [patterns, List.pairwise_cons, List.forall_mem_cons, List.not_mem_nil,
    false_implies, implies_true, List.Pairwise.nil, and_true]
  refine ⟨⟨?_, ?_, ?_⟩, ⟨?_, ?_⟩, ?_⟩
  · exact bearers.settled_authorization (regular_credential isScheme_bearer)
      bearer_mem_patterns
  · exact basics.settled_authorization regular basic_mem_patterns
  · exact covert_assignment.settled_authorization regular_assignment
      SecretLine.mem_patterns
  · exact basics.settled_credential regular isScheme_bearer bearer_mem_patterns
  · exact covert_assignment.settled_credential regular_assignment isScheme_bearer
      bearer_mem_patterns
  · exact covert_assignment.settled_credential regular_assignment isScheme_basic
      basic_mem_patterns

/-- After all searches a text is settled for all kinds of secrets. -/
theorem settled_foldl {kinds : List Pattern}
    (self : ∀ pattern ∈ kinds, ∀ {text},
        pattern.Settled none (pattern.covered none text))
    (later : kinds.Pairwise fun earlier later =>
      ∀ {text}, earlier.Settled none text →
        earlier.Settled none (later.covered none text)) :
    ∀ pattern ∈ kinds,
      pattern.Settled none
        (kinds.foldl (fun text pattern => pattern.covered none text) text) := by
  induction kinds using List.reverseRecOn with
  | nil =>
      intro pattern member
      cases member
  | append_singleton kinds last hypothesis =>
      rw [List.pairwise_append] at later
      rw [List.forall_mem_append, List.forall_mem_singleton] at self
      rw [List.foldl_append, List.foldl_cons, List.foldl_nil,
        List.forall_mem_append, List.forall_mem_singleton]
      refine ⟨fun pattern member => ?_, self.2⟩
      exact later.2.2 pattern member last List.mem_cons_self
        (hypothesis self.1 later.1 pattern member)

theorem foldl_of_settled {kinds : List Pattern}
    (settled : ∀ pattern ∈ kinds, pattern.Settled none text) :
    kinds.foldl (fun text pattern => pattern.covered none text) text = text := by
  induction kinds with
  | nil => rfl
  | cons pattern kinds hypothesis =>
      rw [List.forall_mem_cons] at settled
      rw [List.foldl_cons, Pattern.covered_of_settled settled.1,
        hypothesis settled.2]

theorem toList_redact (text : String) :
    (redact text).toList =
      patterns.foldl (fun text pattern => pattern.covered none text) text.toList :=
  String.toList_ofList

/-- A redacted text is settled for all kinds of secrets. -/
theorem settled_redact (text : String) : ∀ pattern ∈ patterns,
    pattern.Settled none (redact text).toList := by
  rw [toList_redact]
  exact settled_foldl (fun _ known => settled_covered_self known)
    settled_covered_later

end All

/-- Redacting a redacted text changes nothing: at no place of it a credential of a
bearer or a user is recognised, and what is recognised as the value of a header or
of a secret name is the mark that stands for a secret. -/
theorem redact_redact (text : String) :
    redact (redact text) = redact text ∧
      (∀ done part, (redact text).toList = done ++ part →
        bearer.find? done.getLast? part = none ∧
          basic.find? done.getLast? part = none) ∧
      ∀ pattern ∈ [authorization, assignment], ∀ done part,
        (redact text).toList = done ++ part →
          ∀ finding, pattern.find? done.getLast? part = some finding →
            finding.secret = usualReplacement.toList := by
  have settled {pattern : Pattern} (known : pattern ∈ patterns)
      {done part : List Char} (whole : (redact text).toList = done ++ part) :
      pattern.SettledAt done.getLast? part := by
    have there := settled_redact text pattern known done part whole
    rw [Option.or_none] at there
    exact there
  refine ⟨?_, fun done part whole => ⟨?_, ?_⟩,
    fun pattern member done part whole => ?_⟩
  · refine String.toList_injective ?_
    rw [toList_redact, foldl_of_settled (settled_redact text)]
  · exact missed_of_settledAt isScheme_bearer (settled bearer_mem_patterns whole)
  · exact missed_of_settledAt isScheme_basic (settled basic_mem_patterns whole)
  · have known : pattern ∈ patterns := by
      simp only [List.mem_cons, List.not_mem_nil, or_false] at member
      rcases member with rfl | rfl
      · exact List.mem_cons_self
      · exact SecretLine.mem_patterns
    exact settled known whole

/-- The last search takes for the value of a name what the earlier ones have read
as a scheme, and leaves alone what stands behind it. -/
example :
    redact "token: bearer abc" = "token: [REDACTED] [REDACTED]" ∧
      redact "token: [REDACTED] [REDACTED]" = "token: [REDACTED] [REDACTED]" := by
  decide +kernel

end RequestFlow.Redaction
