import RequestFlow.Proofs.Agreement

/-!
# Paths into loop items

A path that begins with the name of a loop variable is walked within the value
that is bound to it.  Main statement: every such path has a value, which is where
its moves lead, or null if they lead nowhere, once the indexes beyond 64 bits are
left out.  So an index that no list has is not always answered with null.
-/

namespace RequestFlow.Condition

/-- No list within a value has more items than 64 bits can number. -/
def Short (value : Json) : Prop :=
  ∀ moves items, Leads value moves (.array items) → items.length ≤ twoTo 64

theorem Leads.isWithin {value target : Json} {moves : List Move}
    (leads : Leads value moves target) (short : Short value) :
    ∀ move ∈ moves, move.isWithin = true := by
  induction leads with
  | arrived value => exact List.forall_mem_nil _
  | field found further hypothesis =>
      refine List.forall_mem_cons.mpr ⟨rfl, hypothesis ?_⟩
      exact fun moves items inner => short _ items (.field found inner)
  | item found further hypothesis =>
      refine List.forall_mem_cons.mpr ⟨?_, hypothesis ?_⟩
      · rcases List.getElem?_eq_some_iff.mp found with ⟨listed, -⟩
        exact decide_eq_true (Nat.lt_of_lt_of_le listed (short [] _ (.arrived _)))
      · exact fun moves items inner => short _ items (.item found inner)

/-- Left out moves make no difference if there are none, or if what is left leads
to null. -/
theorem arrives_iff_of_filter {value target : Json} {moves : List Move}
    (short : Short value)
    (kept : Arrives value (moves.filter Move.isWithin) target) :
    Arrives value moves target ↔
      (∀ move ∈ moves, move.isWithin = true) ∨ target = .null := by
  constructor
  · rintro (leads | ⟨null, -⟩)
    · exact .inl (leads.isWithin short)
    · exact .inr null
  · intro either
    by_cases within : ∀ move ∈ moves, move.isWithin = true
    · rwa [List.filter_eq_self.mpr within] at kept
    · have null : target = .null := either.resolve_left within
      exact .inr ⟨null, fun other leads => within (leads.isWithin short)⟩

/-- A path from a loop variable has the value within the item to which the moves
lead that are within 64 bits, or null if they lead nowhere.  Among lists of a
length that memory can hold, that is the value to which the whole path leads
exactly if every index of the path is within 64 bits, or it is null. -/
theorem evaluator_path (query : Query) (sought : VariablePath) {value : Json}
    (typed : query.typed.get? sought.written.firstName = some (.data value)) :
    let moves := sought.written.moves
    ∃ target, evaluator { query with text := sought.name } = .ok (.data target) ∧
      Arrives value (moves.filter Move.isWithin) target ∧
      (Short value →
        (Arrives value moves target ↔
          (∀ move ∈ moves, move.isWithin = true) ∨ target = .null)) := by
  intro moves
  have kept :
      Arrives value (moves.filter Move.isWithin)
        (sought.written.path.follow value) :=
    WrittenPath.arrives_filter_iff_follow.mpr rfl
  refine ⟨sought.written.path.follow value, ?_, kept,
    fun short => arrives_iff_of_filter short kept⟩
  rw [sought.evaluator_name]
  exact variableValue_of_typed typed

/-- The path from `item` along one index. -/
def itemAt (digits : List Char) (present : digits ≠ [])
    (numbered : digits.all Char.isDigit = true) : VariablePath where
  written :=
    ⟨⟨"item".toList, [digits], ⟨by decide, List.all_eq_true.mp (by decide)⟩,
        List.forall_mem_singleton.mpr ⟨present, List.all_eq_true.mp numbered⟩⟩, []⟩
  named := by
    rintro _ _ ⟨⟩
    decide
  unreserved := ⟨nofun, nofun, nofun⟩

theorem short_singleton (number : Json.Number) :
    Short (.array [.number number]) := by
  rintro moves items (_ | _ | @⟨_, index, inner, _, moves, found, further⟩)
  · exact Nat.one_le_two_pow
  · -- Within a number there are no lists.
    rcases List.getElem?_eq_some_iff.mp found with ⟨listed, same⟩
    rcases List.mem_singleton.mp (same ▸ List.getElem_mem listed) with rfl
    cases further

/-- The first item of a list is found, and the one behind it is null. -/
theorem evaluator_path_item :
    let list : Json := .array [.number (.integer 1)]
    let answer (text : String) := evaluator
      ⟨"", 1, .guard, 0, text, .empty, .ofList [("item", .data list)]⟩
    answer "item[0]" = .ok (.data (.number (.integer 1))) ∧
      Arrives list [.item 0] (.number (.integer 1)) ∧
      answer "item[1]" = .ok (.data .null) := by
  intro list answer
  let query : Query :=
    ⟨"", 1, .guard, 0, "", .empty, .ofList [("item", .data list)]⟩
  rcases evaluator_path query (itemAt ['0'] (by decide) (by decide)) rfl with
    ⟨target, first, arrives, whole⟩
  rcases evaluator_path query (itemAt ['1'] (by decide) (by decide)) rfl with
    ⟨other, second, nowhere, -⟩
  have found : target = .number (.integer 1) := arrives_iff.mp arrives
  have none : other = .null := arrives_iff.mp nowhere
  subst found none
  exact ⟨first, (whole (short_singleton _)).mpr (.inl (by decide)), second⟩

/-- An index beyond 64 bits is no index of the list, and is passed over. -/
theorem index_unread_list :
    let list : Json := .array [.number (.integer 1)]
    let answer :=
      evaluator ⟨"", 1, .guard, 0, "item[18446744073709551616]", .empty,
        .ofList [("item", .data list)]⟩
    Arrives list [.item 18446744073709551616] .null ∧
      answer = .ok (.data list) := by
  intro list answer
  let query : Query :=
    ⟨"", 1, .guard, 0, "", .empty, .ofList [("item", .data list)]⟩
  let sought : VariablePath :=
    itemAt "18446744073709551616".toList (by decide) (by decide)
  have read : answer = .ok (.data (sought.written.path.follow list)) :=
    (sought.evaluator_name query).trans (variableValue_of_typed rfl)
  have kept : sought.written.moves.filter Move.isWithin = [] := by decide +kernel
  have stays : Arrives list (sought.written.moves.filter Move.isWithin) list := by
    rw [kept]
    exact .inl (.arrived list)
  exact ⟨arrives_iff.mpr rfl,
    by rw [read, ← WrittenPath.arrives_filter_iff_follow.mp stays]⟩

end RequestFlow.Condition
