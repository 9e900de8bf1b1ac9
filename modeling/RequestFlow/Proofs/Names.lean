import RequestFlow.Workflow.Resolution

/-!
# Requests by name

A request goes by its name, whatever the case of the letters and the blanks around
it.  A document is searched for the first request of a name, a resolved workflow
has the last one in its table.  Main statements: both are found among the requests
that go by the name, but the search passes over those that are declared with
blanks around their names.
-/

namespace RequestFlow

/-! ## Blanks and letters -/

namespace Text

theorem isBlank_toLower (character : Char) :
    isBlank character.toLower = isBlank character := by
  by_cases capital : 65 ≤ character.toNat ∧ character.toNat ≤ 90
  · have code : character.toLower.toNat = character.toNat + 32 := by
      rcases capital with ⟨low, high⟩
      have between : character.val ≥ 'A'.val ∧ character.val ≤ 'Z'.val :=
        ⟨UInt32.le_iff_toNat_le.mpr low, UInt32.le_iff_toNat_le.mpr high⟩
      have size : character.val.toNat = character.toNat := rfl
      have lowered : character.toLower = ⟨character.val + 32, _⟩ := dif_pos between
      rw [lowered]
      show (character.val + 32).toNat = _
      rw [UInt32.toNat_add, size]
      exact Nat.mod_eq_of_lt (by simp; omega)
    rw [Bool.eq_iff_iff]
    unfold isBlank
    simp only [code, Bool.or_eq_true, Bool.and_eq_true, decide_eq_true_eq,
      beq_iff_eq]
    omega
  · have small : ¬ (character.val ≥ 'A'.val ∧ character.val ≤ 'Z'.val) := by
      rintro ⟨low, high⟩
      exact capital ⟨UInt32.le_iff_toNat_le.mp low, UInt32.le_iff_toNat_le.mp high⟩
    have same : character.toLower = character := dif_neg small
    rw [same]

theorem trim_map_toLower (text : List Char) :
    trim (text.map Char.toLower) = (trim text).map Char.toLower := by
  have same : isBlank ∘ Char.toLower = isBlank := funext isBlank_toLower
  simp only [trim, trimStart, trimEnd, List.dropWhile_map, same,
    ← List.map_reverse]

/-- The two steps of a table key can be taken in either order. -/
theorem lower_trimmed (text : String) :
    lower (trimmed text) = trimmed (lower text) := by
  apply String.toList_injective
  simp [trimmed, trim_map_toLower]

@[simp]
theorem trimmed_trimmed (text : String) :
    trimmed (trimmed text) = trimmed text := by
  rw [trimmed, trimmed, String.toList_ofList, trim_trim]

end Text

open Text

@[simp]
theorem requestTableKey_trimmed (name : String) :
    requestTableKey (trimmed name) = requestTableKey name := by
  rw [requestTableKey, trimmed_trimmed, requestTableKey]

/-- Names that differ in case only have the same key. -/
theorem requestTableKey_congr {left right : String}
    (same : lower left = lower right) :
    requestTableKey left = requestTableKey right := by
  rw [requestTableKey, requestTableKey, lower_trimmed, lower_trimmed, same]

/-- Lower case alone gives the key exactly of a name without blanks around it. -/
theorem lower_eq_requestTableKey_iff (name : String) :
    lower name = requestTableKey name ↔ trimmed name = name := by
  constructor
  · intro same
    have length := congrArg (fun text => text.toList.length) same
    simp only [requestTableKey, toList_lower, List.length_map, trimmed,
      String.toList_ofList] at length
    apply String.toList_injective
    rw [trimmed, String.toList_ofList]
    exact (trim_sublist name.toList).eq_of_length length.symm
  · intro same
    rw [requestTableKey, same]

/-- A name agrees with a trimmed one exactly if the two have one key and the name
itself has no blanks around it. -/
theorem sameLetters_trimmed_iff (own name : String) :
    sameLetters own (trimmed name) = true ↔
      requestTableKey own = requestTableKey name ∧ trimmed own = own := by
  rw [sameLetters_iff, ← lower_eq_requestTableKey_iff]
  constructor
  · intro same
    have key : requestTableKey own = requestTableKey name := by
      rw [requestTableKey_congr same, requestTableKey_trimmed]
    refine ⟨key, ?_⟩
    rw [same, key, requestTableKey]
  · rintro ⟨key, whole⟩
    rw [whole, key, requestTableKey]

/-! ## Namesakes -/

/-- A request that is declared without blanks around its name. -/
def Request.isTrimmed (request : Request) : Bool :=
  trimmed request.name == request.name

namespace Document

/-- The requests that go by a name, in order. -/
def namesakes (document : Document) (name : String) : List Request :=
  document.requests.filter fun request =>
    requestTableKey request.name = requestTableKey name

/-- The namesakes of a name are the requests with its key. -/
@[simp]
theorem mem_namesakes {document : Document} {name : String} {request : Request} :
    request ∈ document.namesakes name ↔
      request ∈ document.requests ∧
        requestTableKey request.name = requestTableKey name := by
  simp [namesakes]

/-- The search takes the first request of a name that is declared without blanks
around it. -/
theorem findRequest?_eq (document : Document) (name : String) :
    document.findRequest? name =
      (document.namesakes name).find? Request.isTrimmed := by
  have same :
      (fun request : Request => sameLetters request.name (trimmed name)) =
        fun request =>
      decide (decide (requestTableKey request.name = requestTableKey name) = true ∧
        request.isTrimmed = true) := by
    funext request
    rw [Bool.eq_iff_iff, sameLetters_trimmed_iff, decide_eq_true_eq,
      decide_eq_true_eq, Request.isTrimmed, beq_iff_eq]
  rw [findRequest?, same, namesakes, List.find?_filter]

/-- The table has the last request of a name. -/
theorem get?_requestTable (document : Document) (name : String) :
    document.requestTable.get? (requestTableKey name) =
      (document.namesakes name).getLast? := by
  rw [requestTable, Dictionary.get?_ofList, ← List.map_reverse,
    Dictionary.findEntry_map
      (fun request : Request => requestTableKey request.name)
      (fun request => request) document.requests.reverse, Option.map_id',
    namesakes, List.getLast?_filter]

/-- What is found in the table of a document has the key it was looked up by. -/
theorem key_of_get?_requestTable {document : Document} {name : String}
    {request : Request}
    (found : document.requestTable.get? (requestTableKey name) = some request) :
    requestTableKey request.name = requestTableKey name := by
  rw [get?_requestTable] at found
  exact (mem_namesakes.mp (List.mem_of_getLast? found)).2

/-- A request that the table has under some name it has under the request's own
name. -/
theorem get?_requestTable_name {document : Document} {name : String}
    {request : Request}
    (found : document.requestTable.get? (requestTableKey name) = some request) :
    document.requestTable.get? (requestTableKey request.name) = some request := by
  rw [key_of_get?_requestTable found]
  exact found

/-- The two look-ups agree where the last request of a name is the first one that
is declared without blanks around it. -/
theorem findRequest?_eq_get?_requestTable_iff (document : Document)
    (name : String) :
    document.findRequest? name =
        document.requestTable.get? (requestTableKey name) ↔
      document.namesakes name = [] ∨
        ∃ request,
          (document.namesakes name).find? Request.isTrimmed = some request ∧
            (document.namesakes name).getLast? = some request := by
  rw [findRequest?_eq, get?_requestTable]
  constructor
  · intro same
    cases last : (document.namesakes name).getLast? with
    | none => exact .inl (List.getLast?_eq_none_iff.mp last)
    | some request => exact .inr ⟨request, same.trans last, rfl⟩
  · rintro (none | ⟨request, first, last⟩)
    · rw [none]
      rfl
    · rw [first, last]

/-- The two look-ups agree on every name if all requests are declared without
blanks around their names, and no two of them go by one name. -/
theorem findRequest?_eq_get?_requestTable {document : Document}
    (trim : ∀ request ∈ document.requests, request.isTrimmed = true)
    (distinct : document.requests.Pairwise fun first second =>
      requestTableKey first.name ≠ requestTableKey second.name) (name : String) :
    document.findRequest? name =
      document.requestTable.get? (requestTableKey name) := by
  rw [findRequest?_eq_get?_requestTable_iff]
  have apart :=
    distinct.filter fun request =>
      requestTableKey request.name = requestTableKey name
  rw [← namesakes] at apart
  have each (request : Request) (member : request ∈ document.namesakes name) :=
    mem_namesakes.mp member
  cases shape : document.namesakes name with
  | nil => exact .inl rfl
  | cons request others =>
      rw [shape] at apart each
      rcases each request List.mem_cons_self with ⟨declared, key⟩
      have alone : others = [] := by
        apply List.eq_nil_iff_forall_not_mem.mpr
        intro other member
        refine (List.pairwise_cons.mp apart).1 other member ?_
        rw [key, (each other (List.mem_cons_of_mem _ member)).2]
      refine .inr ⟨request, ?_, ?_⟩
      · rw [List.find?_cons_of_pos (trim request declared)]
      · rw [alone]
        rfl

end Document

end RequestFlow
