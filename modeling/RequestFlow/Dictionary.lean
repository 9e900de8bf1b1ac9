/-!
# Dictionaries in order of insertion

A dictionary maps texts to values and remembers the order in which its keys came
in.  Writing a key again replaces its value and leaves its place.  `overlay`
writes the entries of one dictionary into another.  The main statements give
`get?` and `keys` after a write.
-/

namespace RequestFlow

/-- The value under a key. -/
def findEntry {Item : Type} (key : String) : List (String × Item) → Option Item
  | [] => none
  | entry :: entries =>
      if entry.1 = key then some entry.2 else findEntry key entries

/-- Writes a value under a key: in place if the key is there, else at the end. -/
def writeEntry {Item : Type} (key : String) (value : Item) :
    List (String × Item) → List (String × Item)
  | [] => [(key, value)]
  | entry :: entries =>
      if entry.1 = key then (key, value) :: entries
      else entry :: writeEntry key value entries

/-- A key that is there keeps its place, and a new one goes to the end. -/
theorem map_fst_writeEntry {Item : Type} (key : String) (value : Item)
    (entries : List (String × Item)) :
    (writeEntry key value entries).map Prod.fst =
      if key ∈ entries.map Prod.fst then entries.map Prod.fst
      else entries.map Prod.fst ++ [key] := by
  induction entries with
  | nil => simp [writeEntry]
  | cons entry entries hypothesis =>
      by_cases same : entry.1 = key
      · simp [writeEntry, same]
      · have other : ¬ key = entry.1 := fun equal => same equal.symm
        simp only [writeEntry, if_neg same, List.map_cons, hypothesis,
          List.mem_cons, other, false_or]
        split <;> simp

/-- A dictionary from texts to values, in order of insertion. -/
structure Dictionary (Item : Type) where
  /-- The entries in order. -/
  entries : List (String × Item)
  /-- No key occurs twice. -/
  distinct : (entries.map Prod.fst).Nodup

namespace Dictionary

variable {Item : Type}

/-- A dictionary is its entries; that its keys differ is a proposition. -/
theorem ext_entries {left right : Dictionary Item}
    (equal : left.entries = right.entries) : left = right := by
  cases left
  cases right
  simpa using equal

instance [DecidableEq Item] : DecidableEq (Dictionary Item) := fun left right =>
  if equal : left.entries = right.entries then isTrue (ext_entries equal)
  else isFalse fun whole => equal (congrArg entries whole)

/-- The dictionary without entries. -/
def empty : Dictionary Item :=
  ⟨[], List.nodup_nil⟩

instance : EmptyCollection (Dictionary Item) := ⟨empty⟩

instance : Inhabited (Dictionary Item) := ⟨empty⟩

/-- The keys in order. -/
def keys (dictionary : Dictionary Item) : List String :=
  dictionary.entries.map Prod.fst

/-- The number of entries. -/
def size (dictionary : Dictionary Item) : Nat :=
  dictionary.entries.length

/-- The value under a key. -/
def get? (dictionary : Dictionary Item) (key : String) : Option Item :=
  findEntry key dictionary.entries

/-- The key has a value. -/
def contains (dictionary : Dictionary Item) (key : String) : Bool :=
  (dictionary.get? key).isSome

/-- Writes a value under a key. -/
def insert (dictionary : Dictionary Item) (key : String) (value : Item) :
    Dictionary Item :=
  ⟨writeEntry key value dictionary.entries, by
    rw [map_fst_writeEntry]
    split
    · exact dictionary.distinct
    · next absent =>
        simp only [List.nodup_append, dictionary.distinct, true_and,
          List.mem_singleton, forall_eq]
        exact ⟨by simp, fun key' member equal => absent (equal ▸ member)⟩⟩

/-- Writes entries one after the other. -/
def insertAll (dictionary : Dictionary Item) (entries : List (String × Item)) :
    Dictionary Item :=
  entries.foldl (fun dictionary entry => dictionary.insert entry.1 entry.2)
    dictionary

/-- The dictionary of a list of entries; the last value of a key wins, at the
key's first place. -/
def ofList (entries : List (String × Item)) : Dictionary Item :=
  empty.insertAll entries

/-- The dictionary `lower` with the entries of `upper` written into it. -/
def overlay (lower upper : Dictionary Item) : Dictionary Item :=
  lower.insertAll upper.entries

/-- The entries whose key satisfies a test. -/
def filterKeys (dictionary : Dictionary Item) (test : String → Bool) :
    Dictionary Item :=
  ⟨dictionary.entries.filter fun entry => test entry.1,
    (List.filter_sublist.map Prod.fst).nodup dictionary.distinct⟩

/-- The same keys with changed values. -/
def mapValues {Other : Type} (dictionary : Dictionary Item)
    (change : Item → Other) : Dictionary Other :=
  ⟨dictionary.entries.map fun entry => (entry.1, change entry.2), by
    simpa [List.map_map, Function.comp_def] using dictionary.distinct⟩

@[simp] theorem entries_empty : (empty : Dictionary Item).entries = [] := rfl

@[simp] theorem keys_empty : (empty : Dictionary Item).keys = [] := rfl

@[simp]
theorem get?_empty (key : String) : (empty : Dictionary Item).get? key = none :=
  rfl

theorem keys_insert (dictionary : Dictionary Item) (key : String) (value : Item) :
    (dictionary.insert key value).keys =
      if key ∈ dictionary.keys then dictionary.keys
      else dictionary.keys ++ [key] :=
  map_fst_writeEntry key value dictionary.entries

/-- A written entry is found under its key, and every other key as before. -/
theorem findEntry_writeEntry (key : String) (value : Item)
    (entries : List (String × Item)) (sought : String) :
    findEntry sought (writeEntry key value entries) =
      if sought = key then some value else findEntry sought entries := by
  induction entries with
  | nil =>
      by_cases same : sought = key
      · simp [writeEntry, findEntry, same]
      · simp [writeEntry, findEntry, same, Ne.symm same]
  | cons entry entries hypothesis =>
      by_cases found : entry.1 = key
      · by_cases same : sought = key
        · simp [writeEntry, findEntry, found, same]
        · simp [writeEntry, findEntry, found, same, Ne.symm same]
      · by_cases same : entry.1 = sought
        · have other : ¬ sought = key := fun equal => found (same.trans equal)
          simp [writeEntry, findEntry, same, other]
        · simp [writeEntry, findEntry, found, same, hypothesis]

@[simp]
theorem get?_insert (dictionary : Dictionary Item) (key : String) (value : Item)
    (sought : String) :
    (dictionary.insert key value).get? sought =
      if sought = key then some value else dictionary.get? sought :=
  findEntry_writeEntry key value dictionary.entries sought

@[simp]
theorem insertAll_nil (dictionary : Dictionary Item) :
    dictionary.insertAll [] = dictionary :=
  rfl

@[simp]
theorem insertAll_cons (dictionary : Dictionary Item) (entry : String × Item)
    (entries : List (String × Item)) :
    dictionary.insertAll (entry :: entries) =
      (dictionary.insert entry.1 entry.2).insertAll entries :=
  rfl

theorem insertAll_append (dictionary : Dictionary Item)
    (first second : List (String × Item)) :
    dictionary.insertAll (first ++ second) =
      (dictionary.insertAll first).insertAll second :=
  List.foldl_append

theorem findEntry_append (sought : String) (first second : List (String × Item)) :
    findEntry sought (first ++ second) =
      (findEntry sought first).or (findEntry sought second) := by
  induction first with
  | nil => rfl
  | cons entry first hypothesis =>
      rw [List.cons_append, findEntry, findEntry]
      split
      · rfl
      · exact hypothesis

/-- The first entry with a key among named items. -/
theorem findEntry_map {Source : Type} (name : Source → String)
    (change : Source → Item) (sources : List Source) (key : String) :
    findEntry key (sources.map fun source => (name source, change source)) =
      (sources.find? fun source => name source = key).map change := by
  induction sources with
  | nil => rfl
  | cons source sources hypothesis =>
      by_cases same : name source = key
      · simp [findEntry, same]
      · simp [findEntry, same, hypothesis]

/-- Of several entries with a key the last one that is written counts. -/
theorem get?_insertAll (dictionary : Dictionary Item)
    (entries : List (String × Item)) (sought : String) :
    (dictionary.insertAll entries).get? sought =
      (findEntry sought entries.reverse).or (dictionary.get? sought) := by
  induction entries generalizing dictionary with
  | nil => rfl
  | cons entry entries hypothesis =>
      rw [insertAll_cons, hypothesis, get?_insert, List.reverse_cons,
        findEntry_append, Option.or_assoc]
      congr 1
      by_cases same : sought = entry.1
      · simp [findEntry, same]
      · simp [findEntry, same, Ne.symm same]

/-- Of entries with the same key the last one is kept. -/
theorem get?_ofList (entries : List (String × Item)) (sought : String) :
    (ofList entries).get? sought = findEntry sought entries.reverse := by
  rw [ofList, get?_insertAll, get?_empty, Option.or_none]

/-- An entry that is there is found, if no other one has its key. -/
theorem findEntry_eq_some_iff {entries : List (String × Item)}
    (distinct : (entries.map Prod.fst).Nodup) {sought : String} {value : Item} :
    findEntry sought entries = some value ↔ (sought, value) ∈ entries := by
  induction entries with
  | nil => simp [findEntry]
  | cons entry entries hypothesis =>
      rcases entry with ⟨key, first⟩
      rw [List.map_cons, List.nodup_cons] at distinct
      rcases distinct with ⟨absent, distinct⟩
      rw [findEntry, List.mem_cons, Prod.mk.injEq]
      by_cases same : key = sought
      · subst same
        have other : (key, value) ∉ entries := fun member =>
          absent (List.mem_map.mpr ⟨_, member, rfl⟩)
        simp [other, eq_comm]
      · simp [same, Ne.symm same, hypothesis distinct]

/-- The upper dictionary hides the lower one. -/
theorem get?_overlay (lower upper : Dictionary Item) (sought : String) :
    (lower.overlay upper).get? sought =
      (upper.get? sought).or (lower.get? sought) := by
  have distinct : (upper.entries.reverse.map Prod.fst).Nodup := by
    rw [List.map_reverse]
    exact List.pairwise_reverse.mpr (upper.distinct.imp Ne.symm)
  have same : findEntry sought upper.entries.reverse = upper.get? sought := by
    apply Option.ext
    intro value
    rw [get?, findEntry_eq_some_iff distinct, findEntry_eq_some_iff upper.distinct,
      List.mem_reverse]
  rw [overlay, get?_insertAll, same]

end Dictionary

end RequestFlow
