/-! Changes to a sequence. -/

namespace BuildScript.Sequence

variable {α : Type}

/-- Some elements put before the element at a place, or at the end. -/
def insertAt (place : Nat) (inserted elements : List α) : List α :=
  elements.take place ++ inserted ++ elements.drop place

/-- The elements from a place on, at most `count`. -/
def slice (place count : Nat) (elements : List α) : List α := (elements.drop place).take count

/-- Without the elements from a place on, at most `count`. -/
def eraseRange (place count : Nat) (elements : List α) : List α :=
  elements.take place ++ elements.drop (place + count)

/-- One step of a removal: the elements kept so far, last first, and how many were removed. -/
def removeStep (unwanted : α → Bool) (limit : Nat) (state : List α × Nat) (element : α)
    : List α × Nat :=
  if state.2 < limit && unwanted element then (state.1, state.2 + 1)
  else (element :: state.1, state.2)

/-- Without the first unwanted elements, at most `limit`, and how many they were. -/
def removeFirst (unwanted : α → Bool) (limit : Nat) (elements : List α) : List α × Nat :=
  let (kept, removed) := elements.foldl (removeStep unwanted limit) ([], 0)
  (kept.reverse, removed)

/-- A walk from a place back to the first element, which takes out unwanted elements until `limit`
are removed: what is left, and how many were removed.
-/
def removeBackwards (unwanted : α → Bool) (limit : Nat) : Nat → List α × Nat → List α × Nat
  | 0, state => state
  | place + 1, (elements, removed) =>
    if removed < limit then
      if elements[place]?.any unwanted then
        removeBackwards unwanted limit place (elements.eraseIdx place, removed + 1)
      else removeBackwards unwanted limit place (elements, removed)
    else (elements, removed)

/-- Without the last unwanted elements, at most `limit`, and how many they were. -/
def removeLast (unwanted : α → Bool) (limit : Nat) (elements : List α) : List α × Nat :=
  removeBackwards unwanted limit elements.length (elements, 0)

end BuildScript.Sequence
