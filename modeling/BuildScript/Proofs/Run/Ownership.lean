import BuildScript.Proofs.Run.OperationWork

/-! Who owns the cells of a heap. A cell belongs to one value that it is a part of, or to one
handle, or to nobody any more, and no value is a part of itself, however deep.
-/

namespace BuildScript

namespace Heap

variable {heap : Heap} {roots : List CellId}

/-- (PartOf heap part whole) says that a cell is a part of the value in another one. -/
def PartOf (heap : Heap) (part whole : CellId) : Prop := part ∈ (heap.value whole).parts

/-- (Owned heap roots) says that no cell is a root twice, a part twice or both, that roots and
parts are cells of the heap, and that parts of parts come to an end.
-/
structure Owned (heap : Heap) (roots : List CellId) : Prop where
  counted : ∀ cell : CellId, roots.count cell + heap.parts.count cell ≤
    if cell.index < heap.cells.size then 1 else 0
  founded : WellFounded heap.PartOf

namespace Owned

theorem empty : Heap.empty.Owned [] where
  counted cell := by simp [Heap.empty, parts]
  founded := ⟨fun cell => ⟨cell, fun part held => by
    rw [PartOf, value, read_beyond (Nat.zero_le _)] at held
    exact absurd held List.not_mem_nil⟩⟩

theorem closed (owned : heap.Owned roots) : heap.Closed := by
  intro cell member
  have counted := owned.counted cell
  have some := List.count_pos_iff.mpr member
  split at counted
  · assumption
  · omega

/-- Roots may be given up. -/
theorem fewer {rest : List CellId} (owned : heap.Owned roots)
    (less : ∀ cell, rest.count cell ≤ roots.count cell)
    : heap.Owned rest where
  counted cell := Nat.le_trans (Nat.add_le_add_right (less cell) _) (owned.counted cell)
  founded := owned.founded

/-- A root is a cell of the heap. -/
theorem present {cell : CellId} (owned : heap.Owned roots) (root : cell ∈ roots)
    : cell.index < heap.cells.size := by
  have counted := owned.counted cell
  have some := List.count_pos_iff.mpr root
  split at counted
  · assumption
  · omega

/-- A root is no part of anything. -/
theorem free {cell : CellId} (owned : heap.Owned roots) (root : cell ∈ roots)
    : cell ∉ heap.parts := by
  intro member
  have counted := owned.counted cell
  have asRoot := List.count_pos_iff.mpr root
  have asPart := List.count_pos_iff.mpr member
  split at counted <;> omega

/-- What becomes of a well-founded heap when cells are added or written. It is enough that new
parts come to an end, by induction over the parts that were there.
-/
theorem founded_of {after : Heap} (owned : heap.Owned roots)
    (fresh : ∀ cell : CellId, heap.cells.size ≤ cell.index → Acc after.PartOf cell)
    (held : ∀ cell : CellId, cell.index < heap.cells.size →
      ∀ part, after.PartOf part cell → heap.PartOf part cell ∨ heap.cells.size ≤ part.index)
    : WellFounded after.PartOf := by
  refine ⟨fun cell => ?_⟩
  induction owned.founded.apply cell with
  | intro cell _ ih =>
      by_cases old : cell.index < heap.cells.size
      · refine ⟨cell, fun part holds => ?_⟩
        rcases held cell old part holds with before | new
        · exact ih part before
        · exact fresh part new
      · exact fresh cell (Nat.le_of_not_lt old)

end Owned

/-- Work on a heap leaves the roots alone, and what it makes may become roots. -/
theorem Works.owned {allowed : Nat → Prop} {written made : List CellId} {after : Heap}
    (works : Works allowed written heap after made) (owned : heap.Owned roots)
    : after.Owned (made ++ roots) where
  counted cell := by
    have added := works.counted cell
    have before := owned.counted cell
    have grown := works.grows
    rw [List.count_append]
    split at added <;> split at before <;> split <;> omega
  founded := by
    refine owned.founded_of (fun cell new => ?_) works.held
    -- New cells have parts of smaller places only.
    obtain ⟨index⟩ := cell
    induction index using Nat.strongRecOn with
    | ind index ih =>
        refine ⟨_, fun part holds => ?_⟩
        obtain ⟨newer, below⟩ := works.fresh ⟨index⟩ new part holds
        exact ih part.index below newer

namespace Owned

/-- Roots may become the parts of a new value. -/
theorem alloc {cells rest : List CellId} (owned : heap.Owned (cells ++ rest)) (object : Object)
    (parts : ∀ cell, object.value.parts.count cell ≤ cells.count cell)
    : (heap.alloc object).2.Owned ((heap.alloc object).1 :: rest) where
  counted cell := by
    have before := owned.counted cell
    have taken := parts cell
    have one := count_alloc heap object cell
    rw [List.count_append] at before
    rw [parts_alloc, size_alloc, List.count_append, ← List.singleton_append, List.count_append,
      one]
    by_cases last : cell.index = heap.cells.size
    · rw [if_neg (by omega)] at before
      rw [if_pos last, if_pos (by omega)]
      omega
    · rw [if_neg last]
      split at before <;> split <;> omega
  founded := by
    have unchanged (cell : CellId) (old : cell.index < heap.cells.size) (part : CellId)
        (holds : (heap.alloc object).2.PartOf part cell)
        : heap.PartOf part cell := by
      rw [PartOf, value_alloc, if_neg (Nat.ne_of_lt old)] at holds
      exact holds
    have older (cell : CellId) (old : cell.index < heap.cells.size)
        : Acc (heap.alloc object).2.PartOf cell := by
      induction owned.founded.apply cell with
      | intro cell _ ih =>
          refine ⟨cell, fun part holds => ?_⟩
          have before := unchanged cell old part holds
          exact ih part before (owned.closed part (mem_parts before))
    refine owned.founded_of (fun cell new => ⟨cell, fun part holds => older part ?_⟩)
      fun cell old part holds => .inl (unchanged cell old part holds)
    rw [PartOf, value_alloc] at holds
    split at holds
    · have taken := Nat.lt_of_lt_of_le (List.count_pos_iff.mpr holds) (parts part)
      exact owned.present (List.mem_append_left rest (List.count_pos_iff.mp taken))
    · rw [value, read_beyond new] at holds
      exact absurd holds List.not_mem_nil

/-- A root may become a part of the value of another one. -/
theorem write {target : CellId} {cells rest : List CellId} {value : Value}
    (owned : heap.Owned (target :: cells ++ rest))
    (parts : ∀ cell, value.parts.count cell ≤
      cells.count cell + (heap.value target).parts.count cell)
    : (heap.write target value).Owned (target :: rest) := by
  have root : target ∈ target :: cells ++ rest := List.mem_cons_self
  have free := owned.free root
  have present := owned.present root
  have apart : target ∉ value.parts := by
    intro member
    have counted := owned.counted target
    have limited := parts target
    have some := List.count_pos_iff.mpr member
    have within := count_value_le heap target target
    rw [List.count_append, List.count_cons_self] at counted
    split at counted <;> omega
  refine ⟨fun cell => ?_, ?_⟩
  · have before := owned.counted cell
    have exchanged := count_parts_write present value cell
    have limited := parts cell
    have within := count_value_le heap target cell
    rw [size_write]
    rw [List.count_append] at before
    simp only [List.count_cons] at before ⊢
    omega
  · -- Nothing holds the written cell, so that all others have the parts that they had.
    have other (cell : CellId) (different : cell ≠ target)
        : Acc (heap.write target value).PartOf cell := by
      induction owned.founded.apply cell with
      | intro cell _ ih =>
          refine ⟨cell, fun part holds => ?_⟩
          rw [PartOf, Heap.value, read_write_of_ne different] at holds
          exact ih part holds fun same => free (same ▸ mem_parts holds)
    refine ⟨fun cell => ?_⟩
    by_cases same : cell = target
    · subst same
      refine ⟨cell, fun part holds => other part fun same => ?_⟩
      rw [PartOf, value_write_self present] at holds
      exact apart (same ▸ holds)
    · exact other cell same

end Owned

end Heap

end BuildScript
