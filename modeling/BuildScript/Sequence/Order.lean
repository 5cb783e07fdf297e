/-! Order in a sequence. -/

namespace BuildScript.Sequence

variable {α : Type}

/-- Puts an element into a sequence that is sorted from last to first, before all that are not
greater.
-/
def insertSorted (less : α → α → Bool) (element : α) : List α → List α
  | [] => [element]
  | last :: rest =>
    if less element last then last :: insertSorted less element rest
    else element :: last :: rest

/-- A sequence in ascending order. Elements neither of which is less keep their order. -/
def sort (less : α → α → Bool) (elements : List α) : List α :=
  (elements.foldl (fun sorted element => insertSorted less element sorted) []).reverse

/-- The first element that no later one surpasses when the sequence is gone through. -/
def best? (better : α → α → Bool) : List α → Option α
  | [] => none
  | first :: rest => some
      (rest.foldl (fun best element => if better element best then element else best) first)

end BuildScript.Sequence
