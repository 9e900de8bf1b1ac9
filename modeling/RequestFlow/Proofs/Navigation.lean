import RequestFlow.Proofs.Operands

/-!
# Paths as they are written

A path is written with names, indexes in brackets and dots, and its moves lead
from a value to one within it.  Main statements: the texts that are read as paths
are the texts of written paths and no others; and a path is followed from a value
to where its moves lead, or to null if they lead nowhere, with the moves left out
whose indexes are beyond 64 bits.
-/

namespace RequestFlow.Condition

open RequestFlow.Text

/-! ## Written paths -/

/-- A name and the digits of the indexes behind it. -/
structure WrittenSegment where
  name : List Char
  indexes : List (List Char)
  named : name ≠ [] ∧ ∀ character ∈ name, isNameCharacter character = true
  numbered :
    ∀ digits ∈ indexes, digits ≠ [] ∧ ∀ digit ∈ digits, digit.isDigit = true

/-- A path: its first segment and those behind it. -/
structure WrittenPath where
  head : WrittenSegment
  tail : List WrittenSegment

/-- The text of indexes. -/
def bracketed (indexes : List (List Char)) : List Char :=
  indexes.flatMap fun digits => '[' :: digits ++ [']']

/-- The text of pieces with dots between them. -/
def dotted (first : List Char) (others : List (List Char)) : List Char :=
  first ++ others.flatMap fun piece => '.' :: piece

namespace WrittenSegment

def text (written : WrittenSegment) : List Char :=
  written.name ++ bracketed written.indexes

/-- What a segment is read as: an index beyond 64 bits is left out. -/
def segment (written : WrittenSegment) : PathSegment :=
  ⟨written.name, written.indexes.filterMap indexValue?⟩

/-- A name alone. -/
def ofLetters (letters : List Char) (nonempty : letters ≠ [])
    (nameable : letters.all isNameCharacter = true) : WrittenSegment :=
  ⟨letters, [], ⟨nonempty, List.all_eq_true.mp nameable⟩, List.forall_mem_nil _⟩

end WrittenSegment

namespace WrittenPath

def text (written : WrittenPath) : List Char :=
  dotted written.head.text (written.tail.map WrittenSegment.text)

def path (written : WrittenPath) : Path :=
  ⟨written.head.segment, written.tail.map WrittenSegment.segment⟩

end WrittenPath

/-! ## Reading indexes -/

/-- Digits up to a closing bracket are added to those of the index that is
open. -/
theorem indexDigits?_digits {digits : List Char}
    (numbered : ∀ digit ∈ digits, digit.isDigit = true) (opened : List Char)
    (present : opened ++ digits ≠ []) (rest : List Char) :
    indexDigits? (some opened) (digits ++ ']' :: rest) =
      (indexDigits? none rest).map ((opened.reverse ++ digits) :: ·) := by
  induction digits generalizing opened with
  | nil =>
      rw [List.append_nil] at present
      rw [List.nil_append, indexDigits?, if_pos rfl, if_neg, List.append_nil]
      rwa [List.isEmpty_iff]
  | cons digit digits hypothesis =>
      rcases List.forall_mem_cons.mp numbered with ⟨first, others⟩
      have unclosed : digit ≠ ']' := by
        rintro rfl
        cases first
      rw [List.cons_append, indexDigits?, if_neg unclosed, if_pos first,
        hypothesis others _ (List.cons_ne_nil _ _), List.reverse_cons,
        List.append_assoc, List.singleton_append]

/-- The text of indexes is read back as their digits. -/
theorem indexDigits?_bracketed {indexes : List (List Char)}
    (numbered :
      ∀ digits ∈ indexes, digits ≠ [] ∧ ∀ digit ∈ digits, digit.isDigit = true) :
    indexDigits? none (bracketed indexes) = some indexes := by
  induction indexes with
  | nil => rfl
  | cons digits indexes hypothesis =>
      rcases List.forall_mem_cons.mp numbered with ⟨⟨present, first⟩, others⟩
      have text :
          bracketed (digits :: indexes) =
            '[' :: (digits ++ ']' :: bracketed indexes) := by
        simp only [bracketed, List.flatMap_cons, List.cons_append,
          List.append_assoc, List.nil_append]
      have read : indexDigits? (some []) (digits ++ ']' :: bracketed indexes) =
          (indexDigits? none (bracketed indexes)).map (digits :: ·) :=
        indexDigits?_digits first [] present _
      rw [text, indexDigits?, read, hypothesis others]
      rfl

/-- Where an index was begun, its digits so far stand in front. -/
theorem eq_bracketed_of_indexDigits? {opened : Option (List Char)}
    {text : List Char} {indexes : List (List Char)}
    (read : indexDigits? opened text = some indexes) :
    (opened.map fun digits => '[' :: digits.reverse).getD [] ++ text =
        bracketed indexes ∧
      ((∀ digits ∈ opened, ∀ digit ∈ digits, digit.isDigit = true) →
        ∀ digits ∈ indexes,
          digits ≠ [] ∧ ∀ digit ∈ digits, digit.isDigit = true) := by
  fun_induction indexDigits? opened text generalizing indexes with
  | case1 =>
      cases read
      exact ⟨rfl, fun _ => List.forall_mem_nil _⟩
  | case2 text hypothesis =>
      rcases hypothesis read with ⟨whole, numbered⟩
      refine ⟨whole, fun _ => numbered ?_⟩
      rintro _ ⟨⟩ digit member
      cases member
  | case3 => cases read
  | case4 => cases read
  | case5 => cases read
  | case6 digits text some hypothesis =>
      rcases Option.map_eq_some_iff.mp read with ⟨others, inner, rfl⟩
      rcases hypothesis inner with ⟨whole, numbered⟩
      constructor
      · simp only [bracketed, List.flatMap_cons] at whole ⊢
        rw [← whole]
        simp
      · intro before
        refine List.forall_mem_cons.mpr ⟨⟨?_, ?_⟩, numbered (by rintro _ ⟨⟩)⟩
        · simpa using some
        · intro digit member
          exact before digits rfl digit (List.mem_reverse.mp member)
  | case7 digits character text unclosed digit hypothesis =>
      rcases hypothesis read with ⟨whole, numbered⟩
      constructor
      · rw [← whole]
        simp
      · intro before
        refine numbered ?_
        rintro _ ⟨⟩
        exact List.forall_mem_cons.mpr ⟨digit, before digits rfl⟩
  | case8 => cases read

/-! ## Reading segments -/

/-- A bracket is no character of a name, so a name ends where its indexes
begin. -/
theorem takeWhile_dropWhile_bracketed {name : List Char}
    (named : ∀ character ∈ name, isNameCharacter character = true)
    (indexes : List (List Char)) :
    (name ++ bracketed indexes).takeWhile isNameCharacter = name ∧
      (name ++ bracketed indexes).dropWhile isNameCharacter =
        bracketed indexes := by
  rw [List.takeWhile_append_of_pos named, List.dropWhile_append_of_pos named]
  cases indexes with
  | nil => exact ⟨List.append_nil _, rfl⟩
  | cons digits indexes => exact ⟨List.append_nil _, rfl⟩

/-- A segment is read back from its text. -/
theorem WrittenSegment.ofText?_text (written : WrittenSegment) :
    PathSegment.ofText? written.text = some written.segment := by
  rcases takeWhile_dropWhile_bracketed written.named.2 written.indexes with
    ⟨taken, dropped⟩
  rw [PathSegment.ofText?, text, taken, dropped,
    indexDigits?_bracketed written.numbered, if_neg]
  · rfl
  · rw [List.isEmpty_iff]
    exact written.named.1

/-- Only texts of segments are read as segments. -/
theorem exists_writtenSegment {text : List Char} {segment : PathSegment}
    (read : PathSegment.ofText? text = some segment) :
    ∃ written : WrittenSegment,
      written.text = text ∧ written.segment = segment := by
  rw [PathSegment.ofText?] at read
  split at read
  · cases read
  · next some =>
      rcases Option.map_eq_some_iff.mp read with ⟨indexes, inner, rfl⟩
      rcases eq_bracketed_of_indexDigits? inner with ⟨whole, numbered⟩
      refine ⟨⟨text.takeWhile isNameCharacter, indexes, ⟨?_, ?_⟩,
        numbered (by rintro _ ⟨⟩)⟩, ?_, rfl⟩
      · rwa [List.isEmpty_iff] at some
      · exact fun _ => List.mem_takeWhile_imp
      · rw [WrittenSegment.text, ← whole]
        exact List.takeWhile_append_dropWhile

/-- The characters of a segment are those of a path, and there is no dot among
them. -/
theorem WrittenSegment.characters (written : WrittenSegment) :
    ∀ character ∈ written.text,
      isPathCharacter character = true ∧ character ≠ '.' := by
  have name (character : Char) (named : isNameCharacter character = true) :
      isPathCharacter character = true ∧ character ≠ '.' := by
    refine ⟨isPathCharacter_of_isNameCharacter named, ?_⟩
    rintro rfl
    cases named
  intro character member
  rcases List.mem_append.mp member with member | member
  · exact name character (written.named.2 character member)
  · rcases List.mem_flatMap.mp member with ⟨digits, listed, member⟩
    simp only [List.cons_append, List.mem_cons, List.mem_append, List.not_mem_nil,
      or_false] at member
    rcases member with rfl | member | rfl
    · decide
    · have digit := (written.numbered digits listed).2 character member
      exact name character (by simp [isNameCharacter, Char.isAlphanum, digit])
    · decide

/-! ## Reading paths -/

theorem splitAt_undotted {piece : List Char} (undotted : '.' ∉ piece) :
    splitAt (· == '.') piece = [piece] := by
  apply splitAt_eq_singleton
  intro character member
  apply beq_eq_false_iff_ne.mpr
  rintro rfl
  exact undotted member

/-- Names and indices that are joined by points are found again between the
points. -/
theorem splitAt_dotted {first : List Char} {others : List (List Char)}
    (undotted : ∀ piece ∈ first :: others, '.' ∉ piece) :
    splitAt (· == '.') (dotted first others) = first :: others := by
  induction others generalizing first with
  | nil =>
      rw [dotted, List.flatMap_nil, List.append_nil]
      exact splitAt_undotted (undotted first List.mem_cons_self)
  | cons second others hypothesis =>
      rcases List.forall_mem_cons.mp undotted with ⟨own, later⟩
      have text :
          dotted first (second :: others) =
            first ++ '.' :: dotted second others := by
        simp only [dotted, List.flatMap_cons, List.cons_append]
      rw [text, splitAt_append_cons rfl, splitAt_undotted own, hypothesis later]
      rfl

/-- A text is its pieces with the dots back between them. -/
theorem eq_dotted_of_splitAt {text first : List Char} {others : List (List Char)}
    (split : splitAt (· == '.') text = first :: others) :
    text = dotted first others := by
  induction others generalizing text first with
  | nil =>
      rcases eq_append_of_splitAt split with ⟨-, rfl⟩ | ⟨dot, later, -, -, none⟩
      · rw [dotted, List.flatMap_nil, List.append_nil]
      · exact (splitAt_ne_nil _ _ none).elim
  | cons second others hypothesis =>
      rcases eq_append_of_splitAt split with
        ⟨⟨⟩, -⟩ | ⟨dot, later, separates, rfl, rest⟩
      rcases eq_of_beq separates with rfl
      rw [hypothesis rest]
      simp only [dotted, List.flatMap_cons, List.cons_append]

/-- Segments are read back one by one. -/
theorem mapM_ofText? (segments : List WrittenSegment) :
    (segments.map WrittenSegment.text).mapM PathSegment.ofText? =
      some (segments.map WrittenSegment.segment) := by
  induction segments with
  | nil => rfl
  | cons segment segments hypothesis =>
      rw [List.map_cons, List.mapM_cons, segment.ofText?_text, hypothesis]
      rfl

/-- Pieces that are all read as segments are all texts of segments. -/
theorem exists_writtenSegments {pieces : List (List Char)}
    {segments : List PathSegment}
    (read : pieces.mapM PathSegment.ofText? = some segments) :
    ∃ written : List WrittenSegment, written.map WrittenSegment.text = pieces ∧
      written.map WrittenSegment.segment = segments := by
  induction pieces generalizing segments with
  | nil =>
      cases read
      exact ⟨[], rfl, rfl⟩
  | cons piece pieces hypothesis =>
      rw [List.mapM_cons, Option.bind_eq_bind, Option.bind_eq_some_iff] at read
      rcases read with ⟨segment, first, read⟩
      rw [Option.bind_eq_bind, Option.bind_eq_some_iff] at read
      rcases read with ⟨others, rest, equal⟩
      cases equal
      rcases exists_writtenSegment first with ⟨head, rfl, rfl⟩
      rcases hypothesis rest with ⟨tail, rfl, rfl⟩
      exact ⟨head :: tail, rfl, rfl⟩

theorem isBlank_of_isPathCharacter {character : Char}
    (part : isPathCharacter character = true) : isBlank character = false := by
  rcases Bool.or_eq_true_iff.mp part with named | sign
  · exact isBlank_of_beginsOperand (by rw [beginsOperand, named, Bool.true_or])
  · simp only [List.contains_eq_mem, List.mem_cons, List.not_mem_nil, or_false,
      decide_eq_true_eq] at sign
    rcases sign with rfl | rfl | rfl <;> rfl

namespace WrittenPath

/-- Names, dots, digits and brackets are the only characters of a path. -/
theorem characters (written : WrittenPath) :
    ∀ character ∈ written.text, isPathCharacter character = true := by
  intro character member
  rcases List.mem_append.mp member with member | member
  · exact (written.head.characters character member).1
  · rcases List.mem_flatMap.mp member with ⟨piece, listed, member⟩
    rcases List.mem_map.mp listed with ⟨segment, -, rfl⟩
    rcases List.mem_cons.mp member with rfl | member
    · rfl
    · exact (segment.characters character member).1

/-- No segment has a dot in it, so a path splits into the texts of its
segments. -/
theorem splitAt_text (written : WrittenPath) :
    splitAt (· == '.') written.text =
      (written.head :: written.tail).map WrittenSegment.text := by
  refine splitAt_dotted ?_
  intro piece listed dot
  rcases List.mem_map.mp (List.map_cons ▸ listed) with ⟨segment, -, rfl⟩
  exact (segment.characters '.' dot).2 rfl

/-- A text is read as a path exactly if it is written as one. -/
theorem ofText?_eq_some_iff {text : List Char} {path : Path} :
    Path.ofText? text = some path ↔
      ∃ written : WrittenPath, written.text = text ∧ written.path = path := by
  constructor
  · intro read
    rw [Path.ofText?] at read
    split at read
    · cases read
    · split at read
      · next head tail segments =>
          cases read
          rcases exists_writtenSegments segments with ⟨written, pieces, equal⟩
          cases written with
          | nil => cases equal
          | cons first others =>
              cases equal
              exact ⟨⟨first, others⟩, (eq_dotted_of_splitAt pieces.symm).symm, rfl⟩
      · cases read
  · rintro ⟨written, rfl, rfl⟩
    have visible : written.text.any isBlank = false := by
      rw [List.any_eq_false]
      intro character member
      rw [isBlank_of_isPathCharacter (written.characters character member)]
      exact Bool.false_ne_true
    rw [Path.ofText?, visible, written.splitAt_text, mapM_ofText?]
    rfl

end WrittenPath

/-! ## Moves -/

/-- A move from a value to one within it. -/
inductive Move where
  | field (name : String)
  | item (index : Nat)

/-- Moves lead from a value to another one. -/
inductive Leads : Json → List Move → Json → Prop where
  | arrived (value : Json) : Leads value [] value
  | field {fields : List (String × Json)} {name : String} {inner target : Json}
      {moves : List Move} (found : fields.lookup name = some inner)
      (further : Leads inner moves target) :
      Leads (.object fields) (.field name :: moves) target
  | item {items : List Json} {index : Nat} {inner target : Json}
      {moves : List Move} (found : items[index]? = some inner)
      (further : Leads inner moves target) :
      Leads (.array items) (.item index :: moves) target

/-- Moves arrive where they lead, and at null if they lead nowhere. -/
def Arrives (value : Json) (moves : List Move) (target : Json) : Prop :=
  Leads value moves target ∨ (target = .null ∧ ∀ other, ¬ Leads value moves other)

/-- The value that a move goes to. -/
def Move.from? (value : Json) : Move → Option Json
  | field name => value.field? name
  | item index => value.item? index

/-- Following moves one by one finds where they lead. -/
theorem leads_iff {value target : Json} {moves : List Move} :
    Leads value moves target ↔ moves.foldlM Move.from? value = some target := by
  constructor
  · intro leads
    induction leads with
    | arrived value => rfl
    | field found further hypothesis =>
        rw [List.foldlM_cons, Move.from?, Json.field?, found]
        exact hypothesis
    | item found further hypothesis =>
        rw [List.foldlM_cons, Move.from?, Json.item?, found]
        exact hypothesis
  · intro gone
    induction moves generalizing value with
    | nil =>
        cases gone
        exact .arrived _
    | cons move moves hypothesis =>
        rw [List.foldlM_cons, Option.bind_eq_bind, Option.bind_eq_some_iff] at gone
        rcases gone with ⟨inner, first, further⟩
        cases move with
        | field name =>
            cases value with
            | object fields => exact .field first (hypothesis further)
            | _ => cases first
        | item index =>
            cases value with
            | array items => exact .item first (hypothesis further)
            | _ => cases first

/-- Following them with null for a missing value finds where they arrive. -/
theorem arrives_iff {value target : Json} {moves : List Move} :
    Arrives value moves target ↔
      target = (moves.foldlM Move.from? value).getD .null := by
  simp only [Arrives, leads_iff]
  cases moves.foldlM Move.from? value with
  | none => simp
  | some inner => simp [eq_comm]

/-! ## Following -/

/-- An index that a move goes to is within 64 bits. -/
def Move.isWithin : Move → Bool
  | field _ => true
  | item index => index < twoTo 64

namespace WrittenSegment

/-- The moves along the indexes of a segment. -/
def items (written : WrittenSegment) : List Move :=
  written.indexes.map fun digits => .item (Json.digitsValue digits)

/-- The moves to a field and along its indexes. -/
def moves (written : WrittenSegment) : List Move :=
  .field (String.ofList written.name) :: written.items

/-- The indexes of a segment are within 64 bits. -/
def IsWithin (written : WrittenSegment) : Prop :=
  ∀ digits ∈ written.indexes, Json.digitsValue digits < twoTo 64

variable (written : WrittenSegment)

theorem isWithin_iff :
    written.IsWithin ↔ ∀ move ∈ written.items, move.isWithin = true := by
  simp only [IsWithin, items, List.forall_mem_map, Move.isWithin,
    decide_eq_true_eq]

theorem isWithin_iff_moves :
    written.IsWithin ↔ ∀ move ∈ written.moves, move.isWithin = true := by
  rw [moves, List.forall_mem_cons, isWithin_iff]
  exact (and_iff_right rfl).symm

/-- The indexes of a segment as it is read are those of its moves that are within
64 bits. -/
theorem filter_items :
    written.items.filter Move.isWithin = written.segment.indexes.map .item := by
  rw [items, segment]
  dsimp only
  induction written.indexes with
  | nil => rfl
  | cons digits indexes hypothesis =>
      rw [List.map_cons, List.filter_cons, List.filterMap_cons, indexValue?,
        Move.isWithin, hypothesis]
      by_cases within : Json.digitsValue digits < twoTo 64 <;> simp [within]

/-- The program follows the indexes that are within 64 bits, and no others. -/
theorem followIndexes_eq (value : Json) :
    followIndexes value written.segment.indexes =
      (written.items.filter Move.isWithin).foldlM Move.from? value := by
  rw [filter_items, List.foldlM_map]
  rfl

/-- A segment is followed along its moves without the indexes beyond 64 bits. -/
theorem follow_eq (value : Json) :
    written.segment.follow value =
      (written.moves.filter Move.isWithin).foldlM Move.from? value := by
  rw [PathSegment.follow, moves, List.filter_cons_of_pos rfl, List.foldlM_cons,
    Option.bind_eq_bind]
  congr 1
  funext field
  exact written.followIndexes_eq field

end WrittenSegment

namespace WrittenPath

def firstName (written : WrittenPath) : String :=
  String.ofList written.head.name

/-- The moves of a path from the value of its first name. -/
def moves (written : WrittenPath) : List Move :=
  written.head.items ++ written.tail.flatMap WrittenSegment.moves

def IsWithin (written : WrittenPath) : Prop :=
  ∀ segment ∈ written.head :: written.tail, segment.IsWithin

/-- The same of segments one behind the other. -/
theorem foldlM_follow (segments : List WrittenSegment) (value : Json) :
    (segments.map WrittenSegment.segment).foldlM PathSegment.follow value =
      ((segments.flatMap WrittenSegment.moves).filter Move.isWithin).foldlM
        Move.from? value := by
  induction segments generalizing value with
  | nil => rfl
  | cons segment segments hypothesis =>
      rw [List.map_cons, List.foldlM_cons, List.flatMap_cons, List.filter_append,
        List.foldlM_append, segment.follow_eq]
      congr 1
      funext inner
      exact hypothesis inner

variable {written : WrittenPath}

theorem isWithin_iff :
    written.IsWithin ↔ ∀ move ∈ written.moves, move.isWithin = true := by
  rw [IsWithin, List.forall_mem_cons, written.head.isWithin_iff, moves,
    List.forall_mem_append, List.forall_mem_flatMap]
  exact and_congr_right'
    (forall₂_congr fun segment _ => segment.isWithin_iff_moves)

/-- A path is followed to where its moves arrive that are within 64 bits, and
nowhere else. -/
theorem arrives_filter_iff_follow {value target : Json} :
    Arrives value (written.moves.filter Move.isWithin) target ↔
      target = written.path.follow value := by
  rw [arrives_iff, Path.follow, path, moves, List.filter_append,
    List.foldlM_append, Option.bind_eq_bind, written.head.followIndexes_eq]
  simp only [foldlM_follow]

/-- A path within 64 bits is followed to where its moves arrive, and nowhere
else. -/
theorem arrives_iff_follow (within : written.IsWithin) {value target : Json} :
    Arrives value written.moves target ↔ target = written.path.follow value := by
  rw [← arrives_filter_iff_follow,
    List.filter_eq_self.mpr (isWithin_iff.mp within)]

/-- A path whose text is its first name is read as this name alone. -/
theorem path_of_text_eq (whole : String.ofList written.text = written.firstName) :
    written.path = ⟨⟨written.head.name, []⟩, []⟩ := by
  have lengths := congrArg List.length (String.ofList_injective whole)
  rcases written with ⟨⟨name, indexes, named, numbered⟩, tail⟩
  cases indexes with
  | cons digits indexes =>
      simp only [text, dotted, WrittenSegment.text, bracketed, List.flatMap_cons,
        List.length_append, List.length_cons] at lengths
      omega
  | nil =>
      cases tail with
      | nil => rfl
      | cons segment tail =>
          simp only [text, dotted, WrittenSegment.text, bracketed, List.map_cons,
            List.flatMap_cons, List.length_append, List.length_cons] at lengths
          omega

end WrittenPath

end RequestFlow.Condition
