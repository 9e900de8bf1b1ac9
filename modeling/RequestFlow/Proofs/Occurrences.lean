import Mathlib.Data.List.Infix
import RequestFlow.Text.Search

/-!
# First occurrences

A text is divided at the first place where a pattern occurs.  Main statement:
`cut` finds a division exactly if the pattern does not occur any earlier, and it
finds none exactly if the pattern does not occur at all.
-/

namespace RequestFlow.Text

variable {pattern text before rest : List Char}

/-- A beginning can be taken off exactly where the text has it. -/
theorem isSome_dropStart?_iff {start text : List Char} :
    (dropStart? start text).isSome = true ↔ start <+: text := by
  constructor
  · intro found
    rcases Option.isSome_iff_exists.mp found with ⟨rest, equal⟩
    exact ⟨rest, (eq_append_of_dropStart? equal).symm⟩
  · rintro ⟨rest, rfl⟩
    rw [dropStart?_append]
    rfl

/-- A text starts with another one exactly if that is a prefix of it. -/
theorem startsWith_iff {start text : List Char} :
    startsWith start text = true ↔ start <+: text :=
  isSome_dropStart?_iff

/-- A pattern is found exactly if it occurs somewhere in the text. -/
theorem isSome_cut_iff {pattern text : List Char} :
    (cut pattern text).isSome = true ↔ pattern <:+: text := by
  induction text with
  | nil =>
      rw [cut, List.infix_nil]
      cases pattern <;> simp
  | cons character text hypothesis =>
      rw [cut, List.infix_cons_iff, ← isSome_dropStart?_iff, ← hypothesis]
      cases dropStart? pattern (character :: text) <;> simp

/-- Containment is decided by a search. -/
theorem contains_eq (text pattern : List Char) :
    contains text pattern = decide (pattern <:+: text) := by
  rw [contains, Bool.eq_iff_iff, isSome_cut_iff, decide_eq_true_eq]

theorem cut_eq_none_iff : cut pattern text = none ↔ ¬ pattern <:+: text := by
  rw [← isSome_cut_iff, Bool.not_eq_true, Option.isSome_eq_false_iff,
    Option.isNone_iff_eq_none]

/-- The pattern occurs between two parts of the text, and nowhere earlier. -/
structure FirstCut (pattern text before rest : List Char) : Prop where
  whole : text = before ++ pattern ++ rest
  earliest :
    ∀ other later, text = other ++ pattern ++ later → before.length ≤ other.length

/-- A search finds the first occurrence. -/
theorem firstCut_of_cut (found : cut pattern text = some (before, rest)) :
    FirstCut pattern text before rest := by
  refine ⟨eq_append_of_cut found, ?_⟩
  induction text generalizing before with
  | nil =>
      intro other later whole
      rw [cut] at found
      split at found
      · cases found
        exact Nat.zero_le _
      · cases found
  | cons character text hypothesis =>
      intro other later whole
      rw [cut] at found
      split at found
      · cases found
        exact Nat.zero_le _
      · next missed =>
          rcases Option.map_eq_some_iff.mp found with
            ⟨⟨first, second⟩, inner, equal⟩
          cases equal
          cases other with
          | nil =>
              rw [whole, List.nil_append, dropStart?_append] at missed
              cases missed
          | cons begin other =>
              rcases List.cons.inj whole with ⟨-, whole⟩
              exact Nat.succ_le_succ (hypothesis inner other later whole)

/-- There is only one first occurrence. -/
theorem FirstCut.eq {other later : List Char}
    (left : FirstCut pattern text before rest)
    (right : FirstCut pattern text other later) :
    before = other ∧ rest = later := by
  have lengths : before.length = other.length :=
    Nat.le_antisymm (left.earliest _ _ right.whole) (right.earliest _ _ left.whole)
  have whole := left.whole.symm.trans right.whole
  rw [List.append_assoc, List.append_assoc] at whole
  rcases List.append_inj whole lengths with ⟨same, others⟩
  exact ⟨same, List.append_cancel_left others⟩

/-- The parts that a search yields are those around the first occurrence, and no
others. -/
theorem cut_eq_some_iff :
    cut pattern text = some (before, rest) ↔
      FirstCut pattern text before rest := by
  refine ⟨firstCut_of_cut, ?_⟩
  intro first
  have occurs : pattern <:+: text := ⟨before, rest, first.whole.symm⟩
  rcases Option.isSome_iff_exists.mp (isSome_cut_iff.mpr occurs) with
    ⟨⟨other, later⟩, found⟩
  rcases first.eq (firstCut_of_cut found) with ⟨rfl, rfl⟩
  exact found

/-! ## Two signs in a row -/

section Signs

variable {sign : Char} {front : List Char}

/-- A search for two equal signs in a row passes over the text, whatever
follows. -/
def PassedBy (sign : Char) (front : List Char) : Prop :=
  ∀ text, cut [sign, sign] (front ++ text) =
    (cut [sign, sign] text).map fun parts => (front ++ parts.1, parts.2)

theorem PassedBy.nil : PassedBy sign [] := by
  intro text
  rw [List.nil_append]
  exact Option.map_id'.symm

/-- Two texts that are passed over are passed over in a row. -/
theorem PassedBy.append {more : List Char} (left : PassedBy sign front)
    (right : PassedBy sign more) : PassedBy sign (front ++ more) := by
  intro text
  rw [List.append_assoc, left, right, Option.map_map]
  simp only [Function.comp_def, List.append_assoc]

/-- A character is passed over if no pair begins with it. -/
theorem PassedBy.cons {character : Char}
    (missed :
      ∀ text, dropStart? [sign, sign] (character :: (front ++ text)) = none)
    (later : PassedBy sign front) : PassedBy sign (character :: front) := by
  intro text
  rw [List.cons_append, cut, missed, later, Option.map_map]
  rfl

/-- A text without the sign is passed over. -/
theorem PassedBy.of_not_mem (absent : sign ∉ front) : PassedBy sign front := by
  induction front with
  | nil => exact .nil
  | cons character front hypothesis =>
      rw [List.mem_cons, not_or] at absent
      refine .cons ?_ (hypothesis absent.2)
      intro text
      rw [dropStart?, if_neg absent.1]

/-- What stands before the first two signs in a row does not end with the sign. -/
theorem PassedBy.of_cut (found : cut [sign, sign] text = some (before, rest)) :
    PassedBy sign before := by
  induction text generalizing before with
  | nil => cases found
  | cons character text hypothesis =>
      rw [cut] at found
      split at found
      · cases found
        exact .nil
      · next missed =>
          rcases Option.map_eq_some_iff.mp found with
            ⟨⟨first, second⟩, inner, equal⟩
          cases equal
          refine .cons ?_ (hypothesis inner)
          intro following
          rw [dropStart?]
          split
          · next same =>
              -- The character is the sign, so the next one is another: the search
              -- went on behind it.
              rw [dropStart?, if_pos same, eq_append_of_cut inner] at missed
              cases first with
              | nil => cases (if_pos rfl).symm.trans missed
              | cons next first =>
                  rw [List.append_assoc, List.cons_append, dropStart?] at missed
                  rw [List.cons_append, dropStart?]
                  split
                  · next again => cases (if_pos again).symm.trans missed
                  · rfl
          · rfl

/-- Behind a text that is passed over a pair of signs is found at once. -/
theorem PassedBy.cut_append (passed : PassedBy sign front) (rest : List Char) :
    cut [sign, sign] (front ++ [sign, sign] ++ rest) = some (front, rest) := by
  have begins : cut [sign, sign] ([sign, sign] ++ rest) = some ([], rest) := by
    rw [List.cons_append, cut, ← List.cons_append, dropStart?_append]
  rw [List.append_assoc, passed, begins, Option.map_some, List.append_nil]

end Signs

end RequestFlow.Text
