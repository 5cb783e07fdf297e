import BuildScript.Run.Heap

/-! What work on a heap may do. Cells are only added, a part is a part once, and what holds new
parts is new itself or was written on purpose. Copies and defaults are made of new cells alone.
-/

namespace BuildScript

/-- The numbers of the members that a value has. -/
def Value.slots (value : Value) : List Nat := (value.members?.getD []).map (·.1)

namespace Heap

/-- The parts of all values in a heap, each as often as it is one. -/
def parts (heap : Heap) : List CellId := heap.cells.toList.flatMap (·.value.parts)

/-- A heap is closed when its cells hold no parts but cells of its own. -/
def Closed (heap : Heap) : Prop := ∀ part ∈ heap.parts, part.index < heap.cells.size

/-- (Slotted allowed heap) says that the objects in a heap have members of allowed numbers only.
-/
def Slotted (allowed : Nat → Prop) (heap : Heap) : Prop :=
  ∀ cell, ∀ index ∈ (heap.value cell).slots, allowed index

variable {heap : Heap} {cell : CellId}

-----------------------------------------------------------------------------------------
-- Reading what was added or written
-----------------------------------------------------------------------------------------

/-- There is nothing at a place without a cell. -/
theorem read_beyond (beyond : heap.cells.size ≤ cell.index) : heap.read cell = default := by
  rw [read, Array.getD_eq_getD_getElem?, Array.getElem?_eq_none beyond, Option.getD_none]

theorem read_alloc (heap : Heap) (object : Object) (cell : CellId)
    : (heap.alloc object).2.read cell =
        if cell.index = heap.cells.size then object else heap.read cell := by
  simp only [read, alloc, Array.getD_eq_getD_getElem?, Array.getElem?_push]
  split <;> simp_all

theorem value_alloc (heap : Heap) (object : Object) (cell : CellId)
    : (heap.alloc object).2.value cell =
        if cell.index = heap.cells.size then object.value else heap.value cell := by
  rw [value, read_alloc]
  split <;> rfl

theorem count_alloc (heap : Heap) (object : Object) (cell : CellId)
    : [(heap.alloc object).1].count cell = if cell.index = heap.cells.size then 1 else 0 := by
  obtain ⟨index⟩ := cell
  by_cases last : index = heap.cells.size
  · subst last
    simp [alloc]
  · have other : (⟨heap.cells.size⟩ : CellId) ≠ ⟨index⟩ := fun same =>
      last (CellId.mk.inj same).symm
    simp [alloc, last, other]

@[simp]
theorem size_alloc (heap : Heap) (object : Object)
    : (heap.alloc object).2.cells.size = heap.cells.size + 1 :=
  Array.size_push ..

@[simp]
theorem size_write (heap : Heap) (cell : CellId) (value : Value)
    : (heap.write cell value).cells.size = heap.cells.size :=
  Array.size_modify ..

/-- A write changes the value in its own cell only, if there is such a cell. -/
theorem read_write (heap : Heap) (target : CellId) (value : Value) (cell : CellId)
    : (heap.write target value).read cell =
        if cell = target ∧ target.index < heap.cells.size then
          { heap.read cell with value }
        else heap.read cell := by
  obtain ⟨index⟩ := cell
  obtain ⟨place⟩ := target
  simp only [read, write, Array.getD_eq_getD_getElem?, Array.getElem?_modify, CellId.mk.injEq]
  by_cases same : place = index
  · subst same
    by_cases inside : place < heap.cells.size
    · simp [inside]
    · simp [inside]
  · simp [same, Ne.symm same]

theorem value_write_self {target : CellId} (inside : target.index < heap.cells.size)
    (value : Value)
    : (heap.write target value).value target = value := by
  rw [Heap.value, read_write, if_pos ⟨rfl, inside⟩]

theorem read_write_of_ne {target : CellId} (other : cell ≠ target) (value : Value)
    : (heap.write target value).read cell = heap.read cell := by
  rw [read_write, if_neg fun same => other same.1]

/-- The type in a cell stays when its value is replaced. -/
theorem type_write (heap : Heap) (target : CellId) (value : Value) (cell : CellId)
    : ((heap.write target value).read cell).type = (heap.read cell).type := by
  rw [read_write]
  split <;> rfl

-----------------------------------------------------------------------------------------
-- Parts
-----------------------------------------------------------------------------------------

theorem mem_parts {part : CellId} (held : part ∈ (heap.value cell).parts)
    : part ∈ heap.parts := by
  rw [value, read, Array.getD_eq_getD_getElem?] at held
  cases found : heap.cells[cell.index]? with
  | none =>
      rw [found] at held
      exact nomatch held
  | some object =>
      rw [found] at held
      exact List.mem_flatMap.mpr
        ⟨object, Array.mem_toList_iff.mpr (Array.mem_of_getElem? found), held⟩

/-- A cell is no more often a part of one value than of all. -/
theorem count_value_le (heap : Heap) (cell part : CellId)
    : (heap.value cell).parts.count part ≤ heap.parts.count part := by
  rw [value, read, Array.getD_eq_getD_getElem?]
  cases found : heap.cells[cell.index]? with
  | none => exact Nat.zero_le _
  | some object =>
      refine List.Sublist.count_le part ?_
      exact List.sublist_flatten_of_mem
        (List.mem_map_of_mem (Array.mem_toList_iff.mpr (Array.mem_of_getElem? found)))

theorem parts_alloc (heap : Heap) (object : Object)
    : (heap.alloc object).2.parts = heap.parts ++ object.value.parts := by
  simp [parts, alloc]

/-- A write exchanges the parts of the old value for those of the new one. -/
theorem count_parts_write {target : CellId} (inside : target.index < heap.cells.size)
    (value : Value) (part : CellId)
    : (heap.write target value).parts.count part + (heap.value target).parts.count part =
        heap.parts.count part + value.parts.count part := by
  obtain ⟨⟨cells⟩⟩ := heap
  obtain ⟨place⟩ := target
  simp only [List.size_toArray] at inside
  have split : cells = cells.take place ++ cells[place] :: cells.drop (place + 1) := by simp
  have written : (Heap.write ⟨⟨cells⟩⟩ ⟨place⟩ value).cells.toList =
      cells.take place ++ { cells[place] with value } :: cells.drop (place + 1) := by
    simp [write, List.modify_eq_take_cons_drop inside]
  have old : Heap.value ⟨⟨cells⟩⟩ ⟨place⟩ = cells[place].value := by
    simp [Heap.value, read, inside]
  rw [parts, parts, written, old]
  conv => rhs; rw [split]
  simp only [List.flatMap_append, List.flatMap_cons, List.count_append]
  omega

-----------------------------------------------------------------------------------------
-- Work
-----------------------------------------------------------------------------------------

/-- (Works allowed written before after made) says that work on a heap made some new cells, which
nothing holds yet, and wrote to some cells. It kept all others and the types of all, gave the
cells that were there no parts but new ones, and gave new cells only parts that are newer than
the heap and older than themselves. Nothing became a part or was made twice, and the members of
objects have allowed numbers if they had such numbers before.
-/
structure Works (allowed : Nat → Prop) (written : List CellId) (before after : Heap)
    (made : List CellId)
    : Prop where
  grows : before.cells.size ≤ after.cells.size
  new : ∀ cell ∈ made, before.cells.size ≤ cell.index ∧ cell.index < after.cells.size
  kept : ∀ cell : CellId, cell.index < before.cells.size → cell ∉ written →
    after.read cell = before.read cell
  typed : ∀ cell : CellId, cell.index < before.cells.size →
    (after.read cell).type = (before.read cell).type
  held : ∀ cell : CellId, cell.index < before.cells.size →
    ∀ part ∈ (after.value cell).parts,
      part ∈ (before.value cell).parts ∨ before.cells.size ≤ part.index
  fresh : ∀ cell : CellId, before.cells.size ≤ cell.index →
    ∀ part ∈ (after.value cell).parts,
      before.cells.size ≤ part.index ∧ part.index < cell.index
  counted : ∀ cell : CellId, made.count cell + after.parts.count cell ≤
    before.parts.count cell +
      if before.cells.size ≤ cell.index ∧ cell.index < after.cells.size then 1 else 0
  slotted : before.Slotted allowed → after.Slotted allowed

namespace Works

variable {allowed : Nat → Prop} {written : List CellId} {before middle after : Heap}
  {made : List CellId}

theorem refl (allowed : Nat → Prop) (heap : Heap) : Works allowed [] heap heap [] where
  grows := Nat.le_refl _
  new _ member := nomatch member
  kept _ _ _ := rfl
  typed _ _ := rfl
  held _ _ _ holds := .inl holds
  fresh cell beyond part holds := by
    rw [value, read_beyond beyond] at holds
    exact nomatch holds
  counted cell := by simp
  slotted slots := slots

/-- What is made need not be made use of. -/
theorem forget {fewer : List CellId} (works : Works allowed written before after made)
    (less : ∀ cell, fewer.count cell ≤ made.count cell)
    : Works allowed written before after fewer :=
  { works with
    new := fun cell member =>
      works.new cell (List.count_pos_iff.mp
        (Nat.lt_of_lt_of_le (List.count_pos_iff.mpr member) (less cell)))
    counted := fun cell =>
      Nat.le_trans (Nat.add_le_add_right (less cell) _) (works.counted cell) }

/-- Work that writes to some cells may write to more. -/
theorem widen {more : List CellId} (works : Works allowed written before after made)
    (wider : ∀ cell ∈ written, cell ∈ more)
    : Works allowed more before after made :=
  { works with
    kept := fun cell inside untouched =>
      works.kept cell inside fun member => untouched (wider cell member) }

/-- A heap stays closed. -/
theorem closed (works : Works allowed written before after made) (closed : before.Closed)
    : after.Closed := by
  intro cell member
  have counted := works.counted cell
  have some := List.count_pos_iff.mpr member
  by_cases old : cell ∈ before.parts
  · exact Nat.lt_of_lt_of_le (closed cell old) works.grows
  · rw [List.count_eq_zero.mpr old] at counted
    split at counted
    · next fresh => exact fresh.2
    · omega

/-- Work goes on with more work, which writes to cells that were there at the beginning only. -/
theorem trans {more : List CellId} (first : Works allowed written before middle made)
    (inside : ∀ cell ∈ written, cell.index < before.cells.size)
    (later : Works allowed written middle after more)
    : Works allowed written before after (more ++ made) where
  grows := Nat.le_trans first.grows later.grows
  new cell member := by
    have lower := first.grows
    have upper := later.grows
    rcases List.mem_append.mp member with new | new
    · have placed := later.new cell new
      omega
    · have placed := first.new cell new
      omega
  kept cell old untouched := by
    rw [later.kept cell (Nat.lt_of_lt_of_le old first.grows) untouched,
      first.kept cell old untouched]
  typed cell old := by
    rw [later.typed cell (Nat.lt_of_lt_of_le old first.grows), first.typed cell old]
  held cell old part holds := by
    rcases later.held cell (Nat.lt_of_lt_of_le old first.grows) part holds with held | newer
    · exact first.held cell old part held
    · exact .inr (Nat.le_trans first.grows newer)
  fresh cell new part holds := by
    by_cases beyond : middle.cells.size ≤ cell.index
    · obtain ⟨newer, below⟩ := later.fresh cell beyond part holds
      exact ⟨Nat.le_trans first.grows newer, below⟩
    · have unwritten : cell ∉ written := fun member =>
        Nat.not_lt_of_le new (inside cell member)
      rw [value, later.kept cell (Nat.lt_of_not_le beyond) unwritten] at holds
      exact first.fresh cell new part holds
  counted cell := by
    have made := first.counted cell
    have added := later.counted cell
    have lower := first.grows
    have upper := later.grows
    rw [List.count_append]
    split at made <;> split at added <;> split <;> omega
  slotted slots := later.slotted (first.slotted slots)

/-- What was made may go into a new cell. -/
theorem alloc (works : Works allowed written before after made) (object : Object)
    (parts : ∀ cell, object.value.parts.count cell ≤ made.count cell)
    (slots : before.Slotted allowed → ∀ index ∈ object.value.slots, allowed index)
    : Works allowed written before (after.alloc object).2 [(after.alloc object).1] := by
  have lower := works.grows
  have elsewhere {cell : CellId} (old : cell.index < before.cells.size)
      : (after.alloc object).2.read cell = after.read cell := by
    rw [read_alloc, if_neg (by omega)]
  refine {
    grows := by rw [size_alloc]; omega
    new := fun cell member => ?_
    kept := fun cell old untouched => (elsewhere old).trans (works.kept cell old untouched)
    typed := fun cell old => by rw [elsewhere old, works.typed cell old]
    held := fun cell old part holds => ?_
    fresh := fun cell new part holds => ?_
    counted := fun cell => ?_
    slotted := fun allSlots cell index member => ?_
  }
  · rw [List.mem_singleton.mp member, size_alloc]
    exact ⟨lower, Nat.lt_succ_self _⟩
  · rw [Heap.value, elsewhere old] at holds
    exact works.held cell old part holds
  · rw [value_alloc] at holds
    split at holds
    · next last =>
        have taken := works.new part (List.count_pos_iff.mp
          (Nat.lt_of_lt_of_le (List.count_pos_iff.mpr holds) (parts part)))
        rw [last]
        exact taken
    · exact works.fresh cell new part holds
  · have counted := works.counted cell
    have taken := parts cell
    have unmade (last : cell.index = after.cells.size) : made.count cell = 0 :=
      List.count_eq_zero.mpr fun member =>
        absurd (works.new cell member).2 (by rw [last]; exact Nat.lt_irrefl _)
    rw [parts_alloc, List.count_append, size_alloc, count_alloc]
    by_cases last : cell.index = after.cells.size
    · have none := unmade last
      rw [if_pos last]
      split at counted <;> split <;> omega
    · rw [if_neg last]
      split at counted <;> split <;> omega
  · rw [value_alloc] at member
    split at member
    · exact slots allSlots index member
    · exact works.slotted allSlots cell index member

/-- What was made may go into a cell that was there, in place of parts of its own. -/
theorem write {target : CellId} {value : Value} {left : List CellId}
    (works : Works allowed written before after made) (permitted : target ∈ written)
    (inside : target.index < before.cells.size)
    (parts : ∀ cell, left.count cell + value.parts.count cell ≤
      made.count cell + (after.value target).parts.count cell)
    (unheld : ∀ cell, left.count cell ≤ made.count cell)
    (slots : before.Slotted allowed → ∀ index ∈ value.slots, allowed index)
    : Works allowed written before (after.write target value) left := by
  have lower := works.grows
  have present : target.index < after.cells.size := Nat.lt_of_lt_of_le inside lower
  have left := works.forget unheld
  have elsewhere {cell : CellId} (other : cell ≠ target)
      : (after.write target value).value cell = after.value cell := by
    rw [Heap.value, read_write_of_ne other, Heap.value]
  refine {
    grows := by rw [size_write]; exact lower
    new := fun cell member => by rw [size_write]; exact left.new cell member
    kept := fun cell old untouched => ?_
    typed := fun cell old => by rw [type_write, works.typed cell old]
    held := fun cell old part holds => ?_
    fresh := fun cell new part holds => ?_
    counted := fun cell => ?_
    slotted := fun allSlots cell index member => ?_
  }
  · have other : cell ≠ target := fun same => untouched (same ▸ permitted)
    rw [read_write_of_ne other, works.kept cell old untouched]
  · by_cases same : cell = target
    · subst same
      rw [value_write_self present] at holds
      have counted := parts part
      have some := List.count_pos_iff.mpr holds
      by_cases new : part ∈ made
      · exact .inr (works.new part new).1
      · rw [List.count_eq_zero.mpr new] at counted
        exact works.held cell old part (List.count_pos_iff.mp (by omega))
    · rw [elsewhere same] at holds
      exact works.held cell old part holds
  · have other : cell ≠ target := fun same => Nat.not_lt_of_le new (same ▸ inside)
    rw [elsewhere other] at holds
    exact works.fresh cell new part holds
  · have counted := works.counted cell
    have exchanged := count_parts_write present value cell
    have limited := parts cell
    have among := count_value_le after target cell
    rw [size_write]
    omega
  · by_cases same : cell = target
    · subst same
      rw [value_write_self present] at member
      exact slots allSlots index member
    · rw [elsewhere same] at member
      exact works.slotted allSlots cell index member

end Works

end Heap

end BuildScript
