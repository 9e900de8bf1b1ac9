import RequestFlow.Proofs.Exposure
import RequestFlow.Proofs.Operands
import RequestFlow.Proofs.Rereading

/-!
# Encoded texts under a search

A search for operators takes an escaped quote for a quote, and finds no operator
in an escape.  Main statements: an operator is exposed in the encoding of a text
exactly if it is exposed in the text, put between double quotes as it is; and
whatever follows an encoding, nothing but the encoding can be read from there on.
-/

namespace RequestFlow

/-! ## Escapes -/

namespace Json

/-- The characters that may stand behind the backslash of an escape. -/
def escapeLetters : List Char :=
  "\"\\nrtbfu0123456789abcdef".toList

theorem hexDigit_mem_escapeLetters :
    ∀ value < 16, hexDigit value ∈ escapeLetters := by
  decide

/-- A character is written as it is, or with a backslash in front. -/
theorem escape_cases (character : Char) :
    escape character = [character] ∨
      ∃ letters, escape character = '\\' :: letters ∧ letters ⊆ escapeLetters := by
  rw [escape]
  iterate 7
    split
    · exact .inr ⟨_, rfl, by decide⟩
  split
  · next control =>
      refine .inr ⟨_, rfl, ?_⟩
      simp only [List.cons_subset]
      exact ⟨by decide, by decide, by decide,
        hexDigit_mem_escapeLetters _ (by omega),
        hexDigit_mem_escapeLetters _ (by omega), List.nil_subset _⟩
  · exact .inl rfl

/-! ## Reading -/

section Reading

variable {strictness : Strictness} {text rest : List Char} {code : Nat}

theorem length_of_mapM {Source Target : Type} {read : Source → Option Target}
    {sources : List Source} {targets : List Target}
    (each : sources.mapM read = some targets) :
    targets.length = sources.length := by
  induction sources generalizing targets with
  | nil =>
      cases each
      rfl
  | cons source sources hypothesis =>
      rw [List.mapM_cons, Option.bind_eq_bind, Option.bind_eq_some_iff] at each
      rcases each with ⟨target, -, each⟩
      rw [Option.bind_eq_bind, Option.bind_eq_some_iff] at each
      rcases each with ⟨others, rest, equal⟩
      cases equal
      rw [List.length_cons, List.length_cons, hypothesis rest]

theorem scanHex_append (scanned : scanHex text = .ok (code, rest))
    (more : List Char) : scanHex (text ++ more) = .ok (code, rest ++ more) := by
  simp only [scanHex] at scanned ⊢
  split at scanned
  · next first second third fourth digits =>
      have long : 4 ≤ text.length := by
        have lengths := length_of_mapM digits
        rw [List.length_take] at lengths
        exact Nat.le_of_not_lt fun short => by simp at lengths; omega
      cases scanned
      rw [List.take_append_of_le_length long, digits,
        List.drop_append_of_le_length long]
  · split at scanned <;> cases scanned

theorem scanTrailing_append {leading : Nat}
    (scanned : scanTrailing leading text = .ok (code, rest)) (more : List Char) :
    scanTrailing leading (text ++ more) = .ok (code, rest ++ more) := by
  rw [scanTrailing.eq_def] at scanned
  split at scanned
  · cases scanned
  · cases scanned
  · split at scanned
    · cases scanned
    · next trailing middle found =>
        rw [List.cons_append, List.cons_append, scanTrailing, scanHex_append found]
        split at scanned
        · next paired =>
            cases scanned
            simp only [paired, if_true]
        · cases scanned
  · cases scanned
  · cases scanned

theorem scanEscape_append (scanned : scanEscape strictness text = .ok (code, rest))
    (more : List Char) :
    scanEscape strictness (text ++ more) = .ok (code, rest ++ more) := by
  rw [scanEscape.eq_def] at scanned
  split at scanned
  · cases scanned
  · split at scanned
    · cases scanned
    · next unit middle found =>
        rw [List.cons_append, scanEscape, scanHex_append found]
        dsimp only
        split at scanned
        · next lenient =>
            cases scanned
            rw [if_pos lenient]
        · next strict =>
            rw [if_neg strict]
            split at scanned
            · cases scanned
            · next alone =>
                rw [if_neg alone]
                split at scanned
                · next pair =>
                    rw [if_pos pair]
                    exact scanTrailing_append scanned more
                · next single =>
                    cases scanned
                    rw [if_neg single]
  · next letter others unlike =>
      split at scanned
      · next known =>
          cases scanned
          rw [List.cons_append, scanEscape, known]
          exact unlike
      · cases scanned

/-- A text that is read to its closing quote is read so whatever follows. -/
theorem scanText_append {codes : List Nat}
    (scanned : scanText strictness text = .ok (codes, rest)) (more : List Char) :
    scanText strictness (text ++ more) = .ok (codes, rest ++ more) := by
  fun_induction scanText strictness text generalizing codes rest with
  | case1 => cases scanned
  | case2 text =>
      cases scanned
      rw [List.cons_append, scanText]
  | case3 => cases scanned
  | case4 => cases scanned
  | case5 text code middle found shorter codes later read hypothesis =>
      cases scanned
      rw [List.cons_append, scanText_backslash (scanEscape_append found more),
        hypothesis read]
      rfl
  | case6 => cases scanned
  | case7 => cases scanned
  | case8 character text plain straight large codes later read hypothesis =>
      cases scanned
      rw [List.cons_append,
        scanText_ordinary plain straight (Nat.le_of_not_lt large), hypothesis read]
      rfl

/-- A text that is read as a value of its own has nothing but spacing behind its
closing quote. -/
theorem exists_scan_of_read {inside : List Char} {value : Json}
    (read : Json.read ('"' :: inside) = .ok value) :
    ∃ codes following, scanText .strict inside = .ok (codes, following) ∧
      (following.length ≤ inside.length →
        ∀ character ∈ following, isSpacing character = true) := by
  rw [Json.read] at read
  split at read
  · cases read
  · next tree parsed =>
      rcases Condition.scanLeaf_of_read rfl rfl parsed with ⟨left, scanned, none⟩
      rw [scanLeaf, if_pos rfl] at scanned
      cases closed : scanText .strict inside with
      | error failure =>
          rw [closed] at scanned
          cases scanned
      | ok scan =>
          rcases scan with ⟨codes, following⟩
          rw [closed] at scanned
          cases scanned
          exact ⟨codes, following, rfl, fun shorter =>
            Condition.isSpacing_of_no_tokens shorter none⟩

/-- Of an encoding and what follows it, nothing can be read from the front that
does not end with a blank but the encoding. -/
theorem eq_quote_of_read {text : String} {front more : List Char} {value : Json}
    (begins : front <+: quote text ++ more) (ends : Condition.Ends front)
    (read : Json.read front = .ok value) : front = quote text := by
  rcases begins with ⟨rest, whole⟩
  cases front with
  | nil => cases read
  | cons first inside =>
      have opened (tail : List Char) :
          quote text ++ tail =
            '"' :: (text.toList.flatMap escape ++ '"' :: tail) := by
        rw [quote, List.cons_append, List.append_assoc, List.singleton_append]
      rcases List.cons.inj (whole.trans (opened more)) with ⟨rfl, split⟩
      have split : inside ++ rest = text.toList.flatMap escape ++ '"' :: more :=
        split
      rcases exists_scan_of_read read with ⟨codes, following, closed, spacing⟩
      -- What is behind the closing quote in the front is what follows the
      -- encoding there.
      have same := scanText_append closed rest
      rw [split, scanText_quoted] at same
      rcases Prod.mk.inj (Except.ok.inj same) with ⟨-, rfl⟩
      have cut : inside = text.toList.flatMap escape ++ '"' :: following := by
        rw [← List.cons_append, ← List.append_assoc] at split
        exact List.append_cancel_right split
      have shorter : following.length ≤ inside.length := by
        rw [cut, List.length_append, List.length_cons]
        omega
      rw [cut, ← opened] at ends ⊢
      rw [ends.eq_nil_of_isSpacing (spacing shorter), List.append_nil]

theorem read_quote (text : String) :
    Json.read (quote text) = .ok (.string text) := by
  have read : Syntax.read .strict (quote text) = .ok (.string (some text)) :=
    Syntax.read_of_lexes (.text text)
      (fun _ => (by decide : 0 < Reader.levelLimit)) (.leaf (readsLeaf_quote text))
  rw [Json.read, read]
  rfl

end Reading

end Json

namespace Condition

open RequestFlow.Text

theorem isNeutral_of_control {character : Char}
    (control : character.toNat < 0x20) : isNeutral character = true := by
  have excludes : (quotes ++ openers ++ closers ++ ['|', '&', '=', '!']).all
      (fun special => !decide (special.toNat < 0x20)) = true := by decide
  exact isNeutral_of_isOrdinary (isOrdinary_of excludes (decide_eq_true control))

/-- An escape takes a search where the character takes it. -/
theorem Place.after_escape (place : Place) (character : Char) :
    place.after (Json.escape character) = place.next character := by
  have neutral {letters : List Char} (all : letters.all isNeutral = true)
      (own : isNeutral character = true) :
      place.after letters = place.next character := by
    rw [after_of_isNeutral (List.all_eq_true.mp all), next_of_isNeutral own]
  rw [Json.escape]
  split
  · next quote =>
      subst quote
      rw [after_cons, next_of_isNeutral (by decide)]
      rfl
  iterate 6
    split
    · next same =>
        subst same
        exact neutral (by decide) (by decide)
  split
  · next control =>
      have digit (value : Nat) (small : value < 16) :
          isNeutral (Json.hexDigit value) = true :=
        (show ∀ value < 16, isNeutral (Json.hexDigit value) = true by decide) value
          small
      refine neutral (List.all_eq_true.mpr ?_) (isNeutral_of_control control)
      simp only [List.forall_mem_cons]
      exact ⟨by decide, by decide, by decide, by decide, digit _ (by omega),
        digit _ (by omega), List.forall_mem_nil _⟩
  · rfl

theorem Place.after_escaped (place : Place) (text : List Char) :
    place.after (text.flatMap Json.escape) = place.after text := by
  induction text generalizing place with
  | nil => rfl
  | cons character text hypothesis =>
      rw [List.flatMap_cons, after_append, after_escape, hypothesis, after_cons]

section Escaped

variable {operator text : List Char}

theorem escape_of_mem_operators (member : operator ∈ operators) :
    ∀ character ∈ operator, Json.escape character = [character] := by
  revert operator
  simp [operators, orOperator, andOperator, differentOperator, equalOperator,
    membershipOperator, Json.escape]

theorem prefix_escaped_iff
    (plain : ∀ character ∈ operator, Json.escape character = [character]) :
    operator <+: text.flatMap Json.escape ++ ['"'] ↔ operator <+: text := by
  induction operator generalizing text with
  | nil => exact iff_of_true (List.nil_prefix) (List.nil_prefix)
  | cons first operator hypothesis =>
      rcases List.forall_mem_cons.mp plain with ⟨own, others⟩
      have unquoted : first ≠ '"' := by
        rintro rfl
        cases own
      have straight : first ≠ '\\' := by
        rintro rfl
        cases own
      cases text with
      | nil =>
          rw [List.flatMap_nil, List.nil_append, List.cons_prefix_cons]
          exact iff_of_false (fun same => unquoted same.1)
            fun empty => List.cons_ne_nil _ _ (List.prefix_nil.mp empty)
      | cons character text =>
          rw [List.flatMap_cons, List.append_assoc, List.cons_prefix_cons]
          rcases Json.escape_cases character with same | ⟨letters, same, -⟩
          · rw [same, List.singleton_append, List.cons_prefix_cons,
              hypothesis others]
          · rw [same, List.cons_append, List.cons_prefix_cons]
            refine iff_of_false (fun begins => straight begins.1) ?_
            rintro ⟨rfl, -⟩
            exact straight (List.cons.inj (own.symm.trans same)).1

/-- The operator begins with no character of the text. -/
theorem exposes_append_iff {place : Place} {rest : List Char}
    (member : operator ∈ operators)
    (unbegun : ∀ character ∈ text, operator.head? ≠ some character) :
    Exposes place operator (text ++ rest) ↔
      Exposes (place.after text) operator rest := by
  induction text generalizing place with
  | nil => exact Iff.rfl
  | cons character text hypothesis =>
      rcases List.forall_mem_cons.mp unbegun with ⟨own, others⟩
      rw [List.cons_append, exposes_cons_iff, Place.after_cons,
        ← hypothesis others]
      refine or_iff_right ?_
      rintro ⟨-, begins⟩
      rcases exists_cons_of_mem_operators member with ⟨first, letters, rfl, -⟩
      rcases List.cons_prefix_cons.mp begins with ⟨rfl, -⟩
      exact own rfl

theorem head?_ne_of_mem_operators (member : operator ∈ operators) :
    ∀ letter ∈ Json.escapeLetters, operator.head? ≠ some letter := by
  have apart : (operators.all fun operator =>
      Json.escapeLetters.all fun letter =>
        operator.head? != some letter) = true := by decide
  intro letter within
  exact bne_iff_ne.mp
    (List.all_eq_true.mp (List.all_eq_true.mp apart operator member) letter within)

/-- Escapes neither hide an operator nor make one. -/
theorem exposes_escaped_iff (member : operator ∈ operators) {place : Place} :
    Exposes place operator (text.flatMap Json.escape ++ ['"']) ↔
      Exposes place operator text := by
  have plain := escape_of_mem_operators member
  have unbegun := head?_ne_of_mem_operators member
  induction text generalizing place with
  | nil =>
      have quote : ∀ character ∈ ['"'], operator.head? ≠ some character :=
        List.forall_mem_singleton.mpr (unbegun '"' (by decide))
      exact iff_of_false
        (fun exposes =>
          not_exposes_nil member _ ((exposes_append_iff member quote).mp exposes))
        (not_exposes_nil member place)
  | cons character text hypothesis =>
      have further :
          Exposes (place.next character) operator
              (text.flatMap Json.escape ++ ['"']) ↔
            Exposes (place.next character) operator text :=
        hypothesis
      rw [List.flatMap_cons, List.append_assoc, exposes_cons_iff, ← further]
      rcases Json.escape_cases character with same | ⟨letters, same, within⟩
      · have begins :
            operator <+: (character :: text).flatMap Json.escape ++ ['"'] ↔
              operator <+: character :: text :=
          prefix_escaped_iff plain
        rw [List.flatMap_cons, List.append_assoc, same, List.singleton_append]
          at begins
        rw [same, List.singleton_append, exposes_cons_iff, begins]
      · have whole :
            ∀ letter ∈ Json.escape character, operator.head? ≠ some letter := by
          rw [same]
          exact List.forall_mem_cons.mpr ⟨unbegun '\\' (by decide),
            fun letter listed => unbegun letter (within listed)⟩
        rw [exposes_append_iff member whole, Place.after_escape]
        refine (or_iff_right ?_).symm
        rintro ⟨-, begins⟩
        rcases exists_cons_of_mem_operators member with ⟨first, others, rfl, -⟩
        rcases List.cons_prefix_cons.mp begins with ⟨rfl, -⟩
        -- The operator begins with the character, which is escaped.
        have own := plain first List.mem_cons_self
        rw [own] at same
        rcases List.cons.inj same with ⟨rfl, -⟩
        cases own

end Escaped

/-! ## Encodings -/

/-- What is exposed in the encoding of a text is exposed in the text behind a
double quote. -/
theorem exposes_quote_iff {operator : List Char} (member : operator ∈ operators)
    (text : String) :
    Exposes .outside operator (Json.quote text) ↔
      Exposes .inDouble operator text.toList := by
  rw [Json.quote, exposes_cons_iff]
  have quoted :
      ¬ operator <+: '"' :: (text.toList.flatMap Json.escape ++ ['"']) := by
    intro begins
    rcases exists_cons_of_mem_operators member with ⟨first, others, rfl, unquoted⟩
    rcases List.cons_prefix_cons.mp begins with ⟨rfl, -⟩
    exact unquoted (by decide)
  rw [or_iff_right fun begins => quoted begins.2]
  exact exposes_escaped_iff member

/-- Nothing is open behind the encoding of a text exactly if its last quote closes
the first one. -/
theorem after_quote_iff (text : String) :
    Place.outside.after (Json.quote text) = .outside ↔
      Place.inDouble.after text.toList = .inDouble := by
  have first : Place.outside.next '"' = .inDouble := rfl
  rw [Json.quote, Place.after_cons, first, Place.after_append, Place.after_escaped,
    Place.after_cons, Place.after_nil, Place.next_quote_eq_outside_iff]

end Condition

end RequestFlow
