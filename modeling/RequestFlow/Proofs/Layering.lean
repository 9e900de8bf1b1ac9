import RequestFlow.Proofs.Persistence

/-!
# Variables in layers

Writing one dictionary over another is a monoid, places of keys included.  The
variables of a dispatch are four dictionaries written over each other.  Main
statement: under each key they have the text of the loop item, else what the step
declares there, else what the run has and else what is ambient; and what the step
declares is filled over the three other layers alone, so that the order of its
variables does not matter.
-/

namespace RequestFlow

/-! ## Dictionaries over dictionaries -/

/-- An entry is found exactly under the keys of the entries. -/
theorem exists_findEntry_iff {Item : Type} {entries : List (String × Item)}
    {key : String} :
    (∃ value, findEntry key entries = some value) ↔
      key ∈ entries.map Prod.fst := by
  induction entries with
  | nil => simp [findEntry]
  | cons entry entries hypothesis =>
      by_cases same : entry.1 = key
      · simp [findEntry, same]
      · simp [findEntry, same, Ne.symm same, hypothesis]

/-- Of entries with distinct keys those with the same keys and values in order are
the same. -/
theorem eq_of_findEntry {Item : Type} {left right : List (String × Item)}
    (distinct : (left.map Prod.fst).Nodup)
    (keys : left.map Prod.fst = right.map Prod.fst)
    (values : ∀ key, findEntry key left = findEntry key right) : left = right := by
  have distinct' : (right.map Prod.fst).Nodup := keys ▸ distinct
  -- Both lists have one key at each place, and under this key each has the value
  -- of the place.
  refine List.ext_getElem? ?_
  intro place
  have key := congrArg (fun keys : List String => keys[place]?) keys
  simp only [List.getElem?_map] at key
  cases atLeft : left[place]? with
  | none =>
      rw [atLeft, Option.map_none] at key
      exact (Option.map_eq_none_iff.mp key.symm).symm
  | some entry =>
      rw [atLeft, Option.map_some] at key
      rcases Option.map_eq_some_iff.mp key.symm with ⟨other, atRight, same⟩
      have here := values entry.1
      rw [(Dictionary.findEntry_eq_some_iff distinct).mpr
          (List.mem_of_getElem? atLeft)] at here
      rw [← same,
        (Dictionary.findEntry_eq_some_iff distinct').mpr
          (List.mem_of_getElem? atRight)] at here
      rw [atRight, Prod.ext same.symm (Option.some.inj here)]

namespace Dictionary

variable {Item : Type}

theorem mem_keys_iff {dictionary : Dictionary Item} {key : String} :
    key ∈ dictionary.keys ↔ ∃ value, dictionary.get? key = some value :=
  exists_findEntry_iff.symm

theorem contains_iff {dictionary : Dictionary Item} {key : String} :
    dictionary.contains key = true ↔ key ∈ dictionary.keys := by
  rw [contains, mem_keys_iff, Option.isSome_iff_exists]

theorem mem_keys_ofList {entries : List (String × Item)} {key : String} :
    key ∈ (ofList entries).keys ↔ key ∈ entries.map Prod.fst := by
  rw [mem_keys_iff, get?_ofList, exists_findEntry_iff, List.map_reverse,
    List.mem_reverse]

theorem get?_of_not_mem_keys {dictionary : Dictionary Item} {key : String}
    (absent : key ∉ dictionary.keys) : dictionary.get? key = none := by
  rw [mem_keys_iff, ← Option.isSome_iff_exists, Option.not_isSome_iff_eq_none]
    at absent
  exact absent

/-- Dictionaries with the same keys in the same order and the same values are
equal. -/
theorem ext_get? {left right : Dictionary Item} (keys : left.keys = right.keys)
    (values : ∀ key, left.get? key = right.get? key) : left = right :=
  ext_entries (eq_of_findEntry left.distinct keys values)

/-- Entries with distinct keys add those of their keys that were not there, in
order. -/
theorem keys_insertAll {dictionary : Dictionary Item}
    {entries : List (String × Item)} (distinct : (entries.map Prod.fst).Nodup) :
    (dictionary.insertAll entries).keys =
      dictionary.keys ++
        (entries.map Prod.fst).filter fun key => key ∉ dictionary.keys := by
  induction entries generalizing dictionary with
  | nil => simp
  | cons entry entries hypothesis =>
      rcases List.nodup_cons.mp distinct with ⟨absent, distinct⟩
      rw [insertAll_cons, hypothesis distinct, keys_insert, List.map_cons]
      by_cases there : entry.1 ∈ dictionary.keys
      · rw [if_pos there, List.filter_cons_of_neg (by simpa using there)]
      · rw [if_neg there, List.filter_cons_of_pos (by simpa using there),
          List.append_assoc, List.singleton_append]
        congr 2
        apply List.filter_congr
        intro key member
        have other : key ≠ entry.1 := fun same => absent (same ▸ member)
        simp [other]

/-- The keys of the lower dictionary keep their places, and those only in the
upper one follow. -/
theorem keys_overlay (lower upper : Dictionary Item) :
    (lower.overlay upper).keys =
      lower.keys ++ upper.keys.filter fun key => key ∉ lower.keys :=
  keys_insertAll upper.distinct

@[simp]
theorem overlay_empty (lower : Dictionary Item) : lower.overlay .empty = lower :=
  rfl

/-- Nor does the empty dictionary change anything below another one. -/
@[simp]
theorem empty_overlay (upper : Dictionary Item) : empty.overlay upper = upper := by
  apply ext_get?
  · rw [keys_overlay]
    simp
  · intro key
    rw [get?_overlay, get?_empty, Option.or_none]

/-- Of three dictionaries it does not matter which two are put together first. -/
theorem overlay_assoc (lower middle upper : Dictionary Item) :
    (lower.overlay middle).overlay upper =
      lower.overlay (middle.overlay upper) := by
  apply ext_get?
  · rw [keys_overlay, keys_overlay, keys_overlay, keys_overlay, List.filter_append,
      List.filter_filter, List.append_assoc]
    congr 2
    apply List.filter_congr
    intro key member
    by_cases below : key ∈ lower.keys <;> simp [below]
  · intro key
    rw [get?_overlay, get?_overlay, get?_overlay, get?_overlay, Option.or_assoc]

end Dictionary

/-! ## Layers of a dispatch -/

/-- The text that a loop item has under a key, if it is bound there. -/
def LoopBinding.textAt? (binding : Option LoopBinding) (key : String) :
    Option String :=
  binding.bind fun item => if key ∈ item.keys then some item.text else none

/-- A loop has the text of its item under each key of the item, and nothing under
any other. -/
theorem LoopBinding.textAt?_eq_some_iff {binding : Option LoopBinding}
    {key text : String} :
    textAt? binding key = some text ↔
      ∃ item, binding = some item ∧ key ∈ item.keys ∧ item.text = text := by
  simp only [textAt?, Option.bind_eq_some_iff, Option.ite_none_right_eq_some,
    Option.some.injEq]

theorem LoopBinding.textAt?_eq_none {binding : Option LoopBinding} {key : String}
    (unbound : ∀ item, binding = some item → key ∉ item.keys) :
    textAt? binding key = none := by
  rw [textAt?, Option.bind_eq_none_iff]
  intro item present
  exact if_neg (unbound item present)

namespace Scope

/-- The scope of a workflow has the keys of its bindings, each in the namespace of
the workflow. -/
theorem mem_keys_ofWorkflow {bindings : Dictionary String} {key : String} :
    key ∈ (ofWorkflow bindings).keys ↔ key ∈ bindings.keys.map workflowKey := by
  rw [ofWorkflow, Dictionary.mem_keys_ofList]
  simp only [Dictionary.keys, List.map_map, Function.comp_def]

/-- The variables of the run begin under its keys. -/
theorem isWorkflowKey_of_mem_ofWorkflow {bindings : Dictionary String}
    {key : String} (member : key ∈ (ofWorkflow bindings).keys) :
    isWorkflowKey key = true := by
  rw [mem_keys_ofWorkflow] at member
  rcases List.mem_map.mp member with ⟨name, _, rfl⟩
  exact isWorkflowKey_workflowKey name

/-- What the variables of a step are filled over: the ambient ones, those of the
run and the loop item. -/
def around (ambient workflow : Scope) (binding : Option LoopBinding) : Scope :=
  (ambient.overlay workflow).overlay (DispatchScope.loopLayer binding)

theorem get?_loopLayer_eq (binding : Option LoopBinding) (key : String) :
    (DispatchScope.loopLayer binding).get? key =
      LoopBinding.textAt? binding key := by
  cases binding with
  | none => rfl
  | some item => exact get?_loopLayer item key

/-- Around the variables of a step are the item of the loop, the workflow and the
ambient scope, in this order. -/
theorem get?_around (ambient workflow : Scope) (binding : Option LoopBinding)
    (key : String) :
    (around ambient workflow binding).get? key =
      (LoopBinding.textAt? binding key).or
        ((workflow.get? key).or (ambient.get? key)) := by
  rw [around, Dictionary.get?_overlay, Dictionary.get?_overlay, get?_loopLayer_eq]

/-- With the variables of the step among them, below the loop and above the
workflow. -/
theorem get?_build (ambient workflow : Scope) (step : Dictionary String)
    (binding : Option LoopBinding) (key : String) :
    (DispatchScope.build ambient workflow step binding).bindings.get? key =
      (LoopBinding.textAt? binding key).or
        ((declared? (around ambient workflow binding) step key).or
          ((workflow.get? key).or (ambient.get? key))) := by
  rw [DispatchScope.build, Dictionary.get?_overlay, Dictionary.get?_overlay,
    Dictionary.get?_overlay, get?_stepLayer, get?_loopLayer_eq]
  rfl

/-- A dispatch has the keys of all its layers. -/
theorem mem_keys_build_iff {ambient workflow : Scope} {step : Dictionary String}
    {binding : Option LoopBinding} {key : String} :
    key ∈ (DispatchScope.build ambient workflow step binding).bindings.keys ↔
      (∃ item, binding = some item ∧ key ∈ item.keys) ∨
        key ∈ step.keys.map scopedKey ∨ key ∈ workflow.keys ∨
        key ∈ ambient.keys := by
  have bound : (LoopBinding.textAt? binding key).isSome = true ↔
      ∃ item, binding = some item ∧ key ∈ item.keys := by
    simp only [Option.isSome_iff_exists, LoopBinding.textAt?_eq_some_iff]
    constructor
    · rintro ⟨text, item, present, member, same⟩
      exact ⟨item, present, member⟩
    · rintro ⟨item, present, member⟩
      exact ⟨item.text, item, present, member, rfl⟩
  rw [Dictionary.mem_keys_iff, ← Option.isSome_iff_exists, get?_build,
    Option.isSome_or, Option.isSome_or, Option.isSome_or, Bool.or_eq_true,
    Bool.or_eq_true, Bool.or_eq_true, bound, isSome_declared?_iff,
    Option.isSome_iff_exists, Option.isSome_iff_exists, ← Dictionary.mem_keys_iff,
    ← Dictionary.mem_keys_iff]

/-- Where no two variables of a step have one key, each of them counts. -/
theorem declared?_eq_some_iff {others : Scope} {step : Dictionary String}
    (distinct : (step.keys.map scopedKey).Nodup) {key value : String} :
    declared? others step key = some value ↔
      ∃ entry ∈ step.entries,
        scopedKey entry.1 = key ∧ Template.fill others entry.2 = value := by
  have keys : ((step.entries.reverse.map fun entry =>
      (scopedKey entry.1, Template.fill others entry.2)).map Prod.fst).Nodup := by
    simp only [Dictionary.keys, List.map_map, Function.comp_def] at distinct
    simp only [List.map_reverse, List.map_map, Function.comp_def]
    rw [(List.reverse_perm _).nodup_iff]
    exact distinct
  rw [← get?_stepLayer, DispatchScope.stepLayer, Dictionary.get?_ofList,
    ← List.map_reverse, Dictionary.findEntry_eq_some_iff keys]
  simp

/-- The order of a step's variables does not matter if no two of them have one
key. -/
theorem declared?_perm {others : Scope} {step permuted : Dictionary String}
    (same : permuted.entries.Perm step.entries)
    (distinct : (step.keys.map scopedKey).Nodup) (key : String) :
    declared? others permuted key = declared? others step key := by
  have distinct' : (permuted.keys.map scopedKey).Nodup :=
    ((same.map Prod.fst).map scopedKey).nodup_iff.mpr distinct
  apply Option.ext
  intro value
  rw [declared?_eq_some_iff distinct', declared?_eq_some_iff distinct]
  simp only [same.mem_iff]

/-- What has the same values under all keys gives every name the same value. -/
theorem lookup_congr {left right : Scope}
    (values : ∀ key, left.get? key = right.get? key) (name : String) :
    left.lookup name = right.lookup name := by
  simp only [lookup, values]

end Scope

open Scope in
/-- The variables of a dispatch have the keys of its four layers, and under each
key the value of the highest one.  What the step declares is filled over the other
three, and in any order.  Layers can be put together in groups, and a layer
without variables changes nothing. -/
theorem layers_of_build (ambient workflow : Scope) (step : Dictionary String)
    (binding : Option LoopBinding) :
    let scope := (DispatchScope.build ambient workflow step binding).bindings
    let others := around ambient workflow binding
    (∀ key,
      scope.contains key = true ↔
        (∃ item, binding = some item ∧ key ∈ item.keys) ∨
          key ∈ step.keys.map scopedKey ∨ workflow.contains key = true ∨
          ambient.contains key = true) ∧
    (∀ key,
      scope.get? key =
        (LoopBinding.textAt? binding key).or
          ((declared? others step key).or
            ((workflow.get? key).or (ambient.get? key)))) ∧
    (∀ key,
      others.get? key =
        (LoopBinding.textAt? binding key).or
          ((workflow.get? key).or (ambient.get? key))) ∧
    (∀ permuted : Dictionary String, permuted.entries.Perm step.entries →
      (step.keys.map scopedKey).Nodup →
        let other :=
          (DispatchScope.build ambient workflow permuted binding).bindings
        (∀ key, other.get? key = scope.get? key) ∧
          ∀ name, other.lookup name = scope.lookup name) ∧
    (∀ lower middle upper : Scope,
      (lower.overlay middle).overlay upper =
        lower.overlay (middle.overlay upper)) ∧
    ∀ layer : Scope,
      Dictionary.empty.overlay layer = layer ∧ layer.overlay .empty = layer := by
  intro scope others
  refine ⟨?_, get?_build ambient workflow step binding,
    get?_around ambient workflow binding, ?_, Dictionary.overlay_assoc, ?_⟩
  · intro key
    rw [Dictionary.contains_iff, Dictionary.contains_iff, Dictionary.contains_iff]
    exact mem_keys_build_iff
  · intro permuted same distinct other
    have values (key : String) : other.get? key = scope.get? key := by
      rw [get?_build, get?_build, declared?_perm same distinct]
    exact ⟨values, lookup_congr values⟩
  · intro layer
    exact ⟨Dictionary.empty_overlay layer, Dictionary.overlay_empty layer⟩

/-- A variable of a step is filled with an ambient one although the step declares
another of this name, before it or behind it. -/
theorem layers_of_build_token :
    let ambient : Scope := .ofList [("token", "low")]
    let authorization := ("authorization", "Bearer \x7b\x7btoken\x7d\x7d")
    let step : Dictionary String := .ofList [("token", "high"), authorization]
    let permuted : Dictionary String := .ofList [authorization, ("token", "high")]
    let scope := (DispatchScope.build ambient .empty step none).bindings
    let other := (DispatchScope.build ambient .empty permuted none).bindings
    (∀ name, other.lookup name = scope.lookup name) ∧
      scope.lookup "authorization" = some "Bearer low" ∧
      scope.lookup "token" = some "high" := by
  intro ambient authorization step permuted scope other
  have same : permuted.entries.Perm step.entries := by decide +kernel
  have distinct : (step.keys.map Scope.scopedKey).Nodup := by decide +kernel
  rcases layers_of_build ambient .empty step none with
    ⟨keys, values, below, order, rest⟩
  exact ⟨(order permuted same distinct).2, by decide +kernel⟩

end RequestFlow
