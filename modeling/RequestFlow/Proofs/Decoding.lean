import RequestFlow.Proofs.Operands

/-!
# Texts that are data

The text of a variable is decoded by its first character and by whether it can be
read.  Main statement: what comes of it is the list or the object that the text
writes, blanks at its ends left out, and in all other cases the text as it is.
-/

namespace RequestFlow

namespace Json

/-! ## Lists and objects -/

/-- A list or an object. -/
def IsCollection : Json → Prop
  | array _ | object _ => True
  | _ => False

/-- A list or an object as it is written. -/
def Syntax.IsCollection : Syntax → Prop
  | array _ | object _ => True
  | _ => False

/-- A tree stands for a list or an object exactly if it is written as one. -/
theorem isCollection_toJson {tree : Syntax} :
    tree.toJson.IsCollection ↔ tree.IsCollection := by
  cases tree with
  | null => rw [Syntax.toJson]; rfl
  | bool value => rw [Syntax.toJson]; rfl
  | number value => cases value <;> rw [Syntax.toJson] <;> rfl
  | string value => cases value <;> rw [Syntax.toJson] <;> rfl
  | array items => rw [Syntax.toJson]; rfl
  | object fields => rw [Syntax.toJson]; rfl

/-! ## Reading a list or an object -/

section Reading

variable {strictness : Strictness} {reader next : Reader} {token : Token}

/-- What is read is part of a list or an object, or is one. -/
def Reader.Collects (reader : Reader) : Prop :=
  reader.stack ≠ [] ∨
    ∃ value, reader.expected = .afterValue value ∧ value.IsCollection

theorem Reader.Collects.of_frame (frame : Frame) (stack : List Frame)
    (expected : Expected) : Reader.Collects ⟨frame :: stack, expected⟩ :=
  .inl (List.cons_ne_nil _ _)

theorem Reader.Collects.of_items (items : List Syntax) (stack : List Frame) :
    Reader.Collects ⟨stack, .afterValue (.array items)⟩ :=
  .inr ⟨_, rfl, trivial⟩

theorem Reader.Collects.of_fields (fields : List (Option String × Syntax))
    (stack : List Frame) : Reader.Collects ⟨stack, .afterValue (.object fields)⟩ :=
  .inr ⟨_, rfl, trivial⟩

theorem collects_of_openFrame {frame : Frame} {expected : Expected}
    (opened : reader.openFrame strictness frame expected token = .ok next) :
    next.Collects := by
  rcases Condition.eq_of_openFrame opened with rfl
  exact .of_frame _ _ _

/-- A value inside of a collection leaves the reader in one. -/
theorem collects_of_takeValue (within : reader.stack ≠ [])
    (taken : reader.takeValue strictness token = .ok next) : next.Collects := by
  rw [Reader.takeValue] at taken
  split at taken
  · cases taken
    exact .inl within
  · cases taken
  · split at taken
    · exact collects_of_openFrame taken
    · split at taken
      · exact collects_of_openFrame taken
      · cases taken

theorem collects_of_takeName (taken : reader.takeName token = .ok next) :
    next.Collects := by
  rw [Reader.takeName] at taken
  split at taken
  · cases taken
    exact .of_frame _ _ _
  · split at taken <;> cases taken
  · cases taken

/-- What follows a value in a collection leaves the reader in one, or closes
it. -/
theorem collects_of_takeAfter {value : Syntax}
    (taken : reader.takeAfter value token = .ok next) : next.Collects := by
  rw [Reader.takeAfter.eq_def] at taken
  split at taken
  · cases taken
  · split at taken
    · cases taken
      exact .of_frame _ _ _
    · split at taken
      · cases taken
        exact .of_items _ _
      · cases taken
  · cases taken
  · split at taken
    · cases taken
      exact .of_frame _ _ _
    · split at taken
      · cases taken
        exact .of_fields _ _
      · cases taken
  · cases taken

/-- A reader that has begun a collection does not leave it but by closing it. -/
theorem Reader.Collects.step (collects : reader.Collects)
    (read : reader.step strictness token = .ok next) : next.Collects := by
  -- Where nothing is open, a list or an object is complete.
  have within (unfinished : ∀ value, reader.expected ≠ .afterValue value) :
      reader.stack ≠ [] := by
    rcases collects with some | ⟨value, finished, -⟩
    · exact some
    · exact (unfinished value finished).elim
  rw [Reader.step] at read
  split at read
  · next expected =>
      have some := within (by rw [expected]; rintro _ ⟨⟩)
      split at read
      · split at read
        · cases read
        · exact collects_of_takeValue some read
      · exact collects_of_takeValue some read
  · next expected =>
      split at read
      · cases read
        exact .of_items _ _
      · exact collects_of_takeValue (within (by rw [expected]; rintro _ ⟨⟩)) read
  · split at read
    · cases read
      exact .of_fields _ _
    · exact collects_of_takeName read
  · split at read
    · cases read
    · exact collects_of_takeName read
  · next expected =>
      split at read
      · cases read
        exact .inl (within (by rw [expected]; rintro _ ⟨⟩))
      · cases read
  · exact collects_of_takeAfter read

/-- So it is over all tokens of a text. -/
theorem Reader.Collects.run {tokens : List Token} (collects : reader.Collects)
    (read : reader.run strictness tokens = .ok next) : next.Collects := by
  induction tokens generalizing reader with
  | nil =>
      cases read
      exact collects
  | cons token tokens hypothesis =>
      rw [Reader.run] at read
      split at read
      · cases read
      · next following stepped => exact hypothesis (collects.step stepped) read

/-- A text that is over by then was that of a collection. -/
theorem Reader.Collects.finish {tree : Syntax} (collects : reader.Collects)
    (finished : reader.finish = .ok tree) : tree.IsCollection := by
  rw [Reader.finish.eq_def] at finished
  split at finished
  · next value expected none =>
      cases finished
      rcases collects with some | ⟨other, same, collection⟩
      · exact (some none).elim
      · cases same.symm.trans expected
        exact collection
  all_goals cases finished

end Reading

/-- A single leaf is no collection. -/
theorem not_isCollection_of_scanLeaf {strictness : Strictness} {first : Char}
    {text rest : List Char} {leaf : Syntax}
    (scanned : scanLeaf strictness first text = .ok (leaf, rest)) :
    ¬ leaf.IsCollection := by
  have word {value : Syntax} {found : Except Failure (List Char)}
      (single : ¬ value.IsCollection)
      (read : found.map (fun rest => (value, rest)) = .ok (leaf, rest)) :
      ¬ leaf.IsCollection := by
    cases found with
    | error failure => cases read
    | ok rest =>
        cases read
        exact single
  rw [scanLeaf] at scanned
  split at scanned
  · cases found : scanText strictness text with
    | error failure =>
        rw [found] at scanned
        cases scanned
    | ok parts =>
        rw [found] at scanned
        cases scanned
        exact id
  · split at scanned
    · split at scanned
      · cases scanned
      · split at scanned
        · split at scanned <;> cases scanned
          exact id
        · cases scanned
          exact id
    · split at scanned
      · exact word id scanned
      · split at scanned
        · exact word id scanned
        · split at scanned
          · exact word id scanned
          · cases scanned

/-- A text that can be read is a list or an object exactly if it begins like
one. -/
theorem isCollection_iff_of_read {first : Char} {text : List Char} {value : Json}
    (visible : isSpacing first = false)
    (read : Json.read (first :: text) = .ok value) :
    value.IsCollection ↔ first = '[' ∨ first = '{' := by
  rw [Json.read] at read
  split at read
  · cases read
  · next tree parsed =>
      cases read
      rw [isCollection_toJson]
      cases marked : isMark first with
      | false =>
          rcases Condition.scanLeaf_of_read visible marked parsed with
            ⟨rest, scanned, -⟩
          refine iff_of_false (not_isCollection_of_scanLeaf scanned) ?_
          rintro (rfl | rfl) <;> cases marked
      | true =>
          rcases Condition.openFrame_of_read marked parsed with
            ⟨_, _, final, begins, run, finished⟩
          have collects := (Reader.Collects.of_frame _ _ _).run run
          exact iff_of_true (collects.finish finished) (begins.imp_right And.left)

end Json

namespace Condition

open RequestFlow.Text

/-! ## Decoding -/

/-- What a text stands for: the list or the object that it writes, else itself. -/
inductive Decodes (text : String) : Value → Prop where
  | collection {value : Json} (read : Json.read (trim text.toList) = .ok value)
      (collection : value.IsCollection) : Decodes text (.data value)
  | text
      (other :
        ∀ value, Json.read (trim text.toList) = .ok value → ¬ value.IsCollection) :
      Decodes text (.ofText text)

/-- What a text is decoded to is what it stands for. -/
theorem decodes_decode (text : String) : Decodes text (decode text) := by
  rw [decode]
  cases trimmed : trim text.toList with
  | nil =>
      refine .text ?_
      rw [trimmed]
      intro value read
      cases read
  | cons first rest =>
      have visible : Json.isSpacing first = false := by
        rw [← Bool.not_eq_true]
        intro spacing
        have tight : trim (first :: rest) = first :: rest :=
          trimmed ▸ trim_trim text.toList
        cases (isBlank_of_isSpacing spacing).symm.trans (tight_of_trim tight).1
      have starts (value : Json) (read : Json.read (first :: rest) = .ok value) :
          value.IsCollection ↔ first = '[' ∨ first = '{' :=
        Json.isCollection_iff_of_read visible read
      simp only [List.head?_cons, Bool.or_eq_true, beq_iff_eq, Option.some.injEq]
      split
      · next begins =>
          cases read : Json.read (first :: rest) with
          | ok value =>
              exact .collection (trimmed ▸ read) ((starts value read).mpr begins)
          | error failure =>
              refine .text ?_
              rw [trimmed, read]
              exact nofun
      · next differs =>
          refine .text ?_
          rw [trimmed]
          exact fun value read collection =>
            differs ((starts value read).mp collection)

/-- A text stands for one value only. -/
theorem Decodes.eq {text : String} {left right : Value} (first : Decodes text left)
    (second : Decodes text right) : left = right := by
  cases first with
  | collection read collection =>
      cases second with
      | collection again _ =>
          cases read.symm.trans again
          rfl
      | text other => exact (other _ read collection).elim
  | text other =>
      cases second with
      | collection read collection => exact (other _ read collection).elim
      | text _ => rfl

/-- A text stands for the value that it is decoded to, and for no other. -/
theorem decodes_iff {text : String} {value : Value} :
    Decodes text value ↔ value = decode text := by
  constructor
  · exact fun decodes => decodes.eq (decodes_decode text)
  · rintro rfl
    exact decodes_decode text

end Condition

end RequestFlow
