import RequestFlow.Proofs.Rereading

/-!
# Data on one line

A list or an object is written on one line without blanks, each part where the
reader expects it.  Main statement: data whose numbers are integers is read back
from its text, whatever its texts hold, as long as it is nested less deep than the
reader goes.
-/

namespace RequestFlow.Json

/-! ## Data and its tree -/

/-- Data with integers for numbers, the fields of each object in the order of
their names, and lists and objects nested at most so many levels. -/
inductive Plain : Nat → Json → Prop where
  | null {depth : Nat} : Plain depth .null
  | bool {depth : Nat} (value : Bool) : Plain depth (.bool value)
  | integer {depth : Nat} {value : Int} (within : Number.InRange value) :
      Plain depth (.number (.integer value))
  | string {depth : Nat} (text : String) : Plain depth (.string text)
  | array {depth : Nat} {items : List Json}
      (each : ∀ item ∈ items, Plain depth item) : Plain (depth + 1) (.array items)
  | object {depth : Nat} {fields : List (String × Json)}
      (ordered : fields.Pairwise fun earlier later => earlier.1 < later.1)
      (each : ∀ field ∈ fields, Plain depth field.2) :
      Plain (depth + 1) (.object fields)

namespace Syntax

theorem ofItems_eq_map (items : List Json) : ofItems items = items.map ofJson := by
  induction items with
  | nil => rfl
  | cons item items hypothesis => rw [ofItems, hypothesis, List.map_cons]

theorem ofFields_eq_map (fields : List (String × Json)) :
    ofFields fields = fields.map fun field => (some field.1, ofJson field.2) := by
  induction fields with
  | nil => rfl
  | cons field fields hypothesis => rw [ofFields, hypothesis, List.map_cons]

theorem toItems_eq_map (items : List Syntax) :
    toItems items = items.map toJson := by
  induction items with
  | nil => rfl
  | cons item items hypothesis => rw [toItems, hypothesis, List.map_cons]

theorem toFields_eq_map (fields : List (Option String × Syntax)) :
    toFields fields =
      fields.map fun field => (field.1.getD "", field.2.toJson) := by
  induction fields with
  | nil => rfl
  | cons field fields hypothesis => rw [toFields, hypothesis, List.map_cons]

end Syntax

/-- Plain data is within the depth that a reader allows. -/
theorem Plain.readable {depth : Nat} {value : Json} (plain : value.Plain depth) :
    (Syntax.ofJson value).Readable depth := by
  induction plain with
  | null => exact .null
  | bool value => exact .bool value
  | integer within => exact .integer within
  | string text => exact .text text
  | array each hypothesis =>
      rw [Syntax.ofJson, Syntax.ofItems_eq_map]
      exact .array (List.forall_mem_map.mpr hypothesis)
  | object ordered each hypothesis =>
      rw [Syntax.ofJson, Syntax.ofFields_eq_map]
      exact .object (List.forall_mem_map.mpr fun _ _ => rfl)
        (List.forall_mem_map.mpr hypothesis)

/-- A name behind all others is written last. -/
theorem putField_of_greatest {name : String} {value : Json}
    {fields : List (String × Json)} (greatest : ∀ field ∈ fields, field.1 < name) :
    putField name value fields = fields ++ [(name, value)] := by
  induction fields with
  | nil => rfl
  | cons field fields hypothesis =>
      rcases List.forall_mem_cons.mp greatest with ⟨less, others⟩
      rw [putField, if_neg (String.lt_asymm less), if_neg (String.ne_of_lt less),
        hypothesis others]
      rfl

/-- Fields in order are put one behind the other, so an object is read back with
its fields as they were. -/
theorem foldl_putField_of_ordered {sorted fields : List (String × Json)}
    (ordered :
      (sorted ++ fields).Pairwise fun earlier later => earlier.1 < later.1) :
    fields.foldl (fun sorted field => putField field.1 field.2 sorted) sorted =
      sorted ++ fields := by
  induction fields generalizing sorted with
  | nil => exact (List.append_nil _).symm
  | cons field fields hypothesis =>
      have greatest : ∀ other ∈ sorted, other.1 < field.1 := fun other member =>
        (List.pairwise_append.mp ordered).2.2 other member field List.mem_cons_self
      rw [List.append_cons] at ordered ⊢
      rw [List.foldl_cons, putField_of_greatest greatest]
      exact hypothesis ordered

/-- Fields in the order of their names are kept as they are. -/
theorem ofFields_of_ordered {fields : List (String × Json)}
    (ordered : fields.Pairwise fun earlier later => earlier.1 < later.1) :
    ofFields fields = .object fields := by
  have kept :=
    foldl_putField_of_ordered (show ([] ++ fields).Pairwise _ from ordered)
  rw [ofFields, kept, List.nil_append]

/-- The tree that writes a value stands for it. -/
theorem Plain.toJson_ofJson {depth : Nat} {value : Json}
    (plain : value.Plain depth) : (Syntax.ofJson value).toJson = value := by
  induction plain with
  | null => rfl
  | bool value => rfl
  | integer within => rfl
  | string text => rfl
  | @array depth items each hypothesis =>
      have same : items.map (Syntax.toJson ∘ Syntax.ofJson) = items :=
        (List.map_congr_left hypothesis).trans items.map_id
      rw [Syntax.ofJson, Syntax.toJson, Syntax.ofItems_eq_map,
        Syntax.toItems_eq_map, List.map_map, same]
  | @object depth fields ordered each hypothesis =>
      have same :
          (fields.map fun field => (some field.1, Syntax.ofJson field.2)).map
              (fun field => (field.1.getD "", field.2.toJson)) = fields := by
        rw [List.map_map]
        refine (List.map_congr_left fun field member => ?_).trans fields.map_id
        exact Prod.ext rfl (hypothesis field member)
      rw [Syntax.ofJson, Syntax.toJson, Syntax.ofFields_eq_map,
        Syntax.toFields_eq_map, same, ofFields_of_ordered ordered]

/-! ## The text of a value -/

section Writing

variable {strictness : Strictness}

/-- The text of items is read as their tokens with commas between them; the
induction is on the items. -/
theorem lexes_compactItems {item : Json} {items : List Json}
    (each : ∀ member ∈ item :: items,
        Lexes strictness member.compact (Syntax.ofJson member).kinds) :
    Lexes strictness (compactItems (item :: items))
      ((Syntax.ofJson item).kinds ++
        Syntax.kindsOfItems (items.map Syntax.ofJson)) := by
  induction items generalizing item with
  | nil =>
      rw [compactItems]
      refine Lexes.append (each item List.mem_cons_self) (Lexes.mark rfl Lexes.nil)
        ?_
      exact fun _ => Fenced.cons rfl _
  | cons next items hypothesis =>
      rcases List.forall_mem_cons.mp each with ⟨first, others⟩
      rw [compactItems]
      exact Lexes.append first (Lexes.mark rfl (hypothesis others)) fun _ =>
        Fenced.cons rfl _

/-- The text of fields is read as their names and values; the induction is on the
fields. -/
theorem lexes_compactFields {field : String × Json} {fields : List (String × Json)}
    (each : ∀ member ∈ field :: fields,
        Lexes strictness member.2.compact (Syntax.ofJson member.2).kinds) :
    Lexes strictness (compactFields (field :: fields))
      (.leaf (.string (some field.1)) :: .mark ':' ::
        ((Syntax.ofJson field.2).kinds ++
          Syntax.kindsOfFields
            (fields.map fun field => (some field.1, Syntax.ofJson field.2)))) := by
  induction fields generalizing field with
  | nil =>
      have value : Lexes strictness (field.2.compact ++ ['}'])
          ((Syntax.ofJson field.2).kinds ++ [.mark '}']) :=
        Lexes.append (each field List.mem_cons_self) (Lexes.mark rfl Lexes.nil)
          fun _ => Fenced.cons rfl _
      rw [compactFields, List.append_assoc]
      exact Lexes.append (Lexes.leaf (readsLeaf_quote field.1))
        (Lexes.mark rfl value) fun _ =>
          Fenced.cons rfl _
  | cons next fields hypothesis =>
      rcases List.forall_mem_cons.mp each with ⟨first, others⟩
      have value :
          Lexes strictness
            (field.2.compact ++ ',' :: compactFields (next :: fields))
            ((Syntax.ofJson field.2).kinds ++ .mark ',' :: _) :=
        Lexes.append first (Lexes.mark rfl (hypothesis others)) fun _ =>
          Fenced.cons rfl _
      rw [compactFields, List.append_assoc]
      exact Lexes.append (Lexes.leaf (readsLeaf_quote field.1))
        (Lexes.mark rfl value) fun _ =>
          Fenced.cons rfl _

/-- A value is written with the tokens of its tree. -/
theorem Plain.lexes_compact {depth : Nat} {value : Json}
    (plain : value.Plain depth) :
    Lexes strictness value.compact (Syntax.ofJson value).kinds := by
  induction plain with
  | null => exact Lexes.leaf readsLeaf_null
  | bool value =>
      have text : compact (.bool value) =
          if value then ['t', 'r', 'u', 'e'] else ['f', 'a', 'l', 's', 'e'] := by
        cases value <;> rfl
      rw [text]
      exact Lexes.leaf (readsLeaf_bool value)
  | integer within => exact Lexes.leaf (readsLeaf_integer within)
  | string text => exact Lexes.leaf (readsLeaf_quote text)
  | @array depth items each hypothesis =>
      rw [compact, Syntax.ofJson, Syntax.ofItems_eq_map]
      cases items with
      | nil => exact Lexes.mark rfl (Lexes.mark rfl Lexes.nil)
      | cons item items => exact Lexes.mark rfl (lexes_compactItems hypothesis)
  | @object depth fields ordered each hypothesis =>
      rw [compact, Syntax.ofJson, Syntax.ofFields_eq_map]
      cases fields with
      | nil => exact Lexes.mark rfl (Lexes.mark rfl Lexes.nil)
      | cons field fields => exact Lexes.mark rfl (lexes_compactFields hypothesis)

end Writing

/-- A value that is not nested too deep is read from its text. -/
theorem Plain.read_compact {depth : Nat} {value : Json} (plain : value.Plain depth)
    (shallow : depth < Reader.levelLimit) : read value.compact = .ok value := by
  rw [read,
    Syntax.read_of_lexes plain.readable (fun _ => shallow) plain.lexes_compact]
  exact congrArg Except.ok plain.toJson_ofJson

/-! ## The ends of a text -/

theorem exists_compactItems (items : List Json) :
    ∃ front, compactItems items = front ++ [']'] := by
  induction items with
  | nil => exact ⟨[], rfl⟩
  | cons item items hypothesis =>
      cases items with
      | nil => exact ⟨item.compact, rfl⟩
      | cons next items =>
          rcases hypothesis with ⟨front, same⟩
          rw [compactItems, same]
          exact ⟨item.compact ++ ',' :: front, by simp⟩

theorem exists_compactFields (fields : List (String × Json)) :
    ∃ front, compactFields fields = front ++ ['}'] := by
  induction fields with
  | nil => exact ⟨[], rfl⟩
  | cons field fields hypothesis =>
      cases fields with
      | nil => exact ⟨_, rfl⟩
      | cons next fields =>
          rcases hypothesis with ⟨front, same⟩
          rw [compactFields, same]
          exact ⟨quote field.1 ++ ':' :: field.2.compact ++ ',' :: front, by simp⟩

end RequestFlow.Json
