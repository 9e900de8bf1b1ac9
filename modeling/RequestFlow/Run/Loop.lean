import RequestFlow.Run.Result
import RequestFlow.Scope.Layers

/-!
# Loops

A loop walks once through its items, which were computed before it began.  It
knows how many items are behind it and which are still ahead, so the place of the
current item and the number of all items are at hand and the walk comes to an end.
-/

namespace RequestFlow

/-- A loop under way. -/
structure Loop where
  /-- The number of items that are done. -/
  done : Nat
  /-- The current item and those after it. -/
  ahead : List Value
  /-- The loop variable as authored. -/
  name : String
  /-- The keys that the item's text is bound under. -/
  keys : List String

namespace Loop

/-- Begins a loop; without items there is none. -/
def start? (items : List Value) (name : String) (promote : Bool) : Option Loop :=
  if items.isEmpty then none
  else some ⟨0, items, name, Scope.loopKeys name promote⟩

/-- The number of all items. -/
def size (loop : Loop) : Nat :=
  loop.done + loop.ahead.length

/-- The current item. -/
def current? (loop : Loop) : Option Value :=
  loop.ahead.head?

/-- The place of the current item; after the last one it stays there. -/
def iteration (loop : Loop) : Iteration :=
  ⟨min (loop.done + 1) loop.size, loop.size⟩

/-- Nothing is ahead. -/
def isExhausted (loop : Loop) : Bool :=
  loop.ahead.isEmpty

/-- Goes on to the next item, if there is one. -/
def advance (loop : Loop) : Loop :=
  match loop.ahead with
  | [] => loop
  | _ :: ahead => { loop with done := loop.done + 1, ahead := ahead }

@[simp] theorem size_advance (loop : Loop) : loop.advance.size = loop.size := by
  unfold advance size
  split
  · rfl
  · next ahead equal =>
      simp only [equal, List.length_cons]
      omega

end Loop

end RequestFlow
