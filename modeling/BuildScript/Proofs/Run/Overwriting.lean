import BuildScript.Proofs.Run.HeapWork
import BuildScript.Run.Effect

/-! Copying values. Copies and defaults are made of new cells alone: nothing that was in a heap
changes, and a copy shares no cell with what it was made from. When a value is copied into another
one, an object takes over the members that the copied object has, each in a new cell, and keeps the
others where they are.
-/

namespace BuildScript

-----------------------------------------------------------------------------------------
-- Copies
-----------------------------------------------------------------------------------------

variable {allowed : Nat → Prop}

namespace Heap

variable {α β : Type}

/-- (Makes allowed action cells) says that an action writes to no cell and makes some of what it
gives.
-/
def Makes (allowed : Nat → Prop) (action : StateM Heap α) (cells : α → List CellId) : Prop :=
  ∀ heap, Works allowed [] heap (action heap).2 (cells (action heap).1)

theorem Makes.new {type : TypeId} {value : Value} (leaf : value.parts = [])
    (slotless : value.slots = [])
    : Makes allowed (Heap.new type value) fun cell => [cell] := by
  intro heap
  refine (Works.refl allowed heap).alloc ⟨type, value⟩ ?_ ?_
  · simp [leaf]
  · simp [slotless]

/-- Actions on the elements of a list make what each of them makes, by induction over the list.
-/
theorem Makes.mapM {change : α → StateM Heap β} (cell : β → CellId)
    (makes : ∀ element, Makes allowed (change element) fun changed => [cell changed])
    (elements : List α)
    : Makes allowed (elements.mapM change) (List.map cell) := by
  induction elements with
  | nil => exact Works.refl allowed
  | cons first rest ih =>
      intro heap
      rw [List.mapM_cons]
      have works := (makes first heap).trans (by simp) (ih (change first heap).2)
      exact works.forget fun _ => Nat.le_of_eq ((List.perm_append_singleton ..).count_eq _).symm

/-- Numbered cells keep their numbers when the cells are made one after the other. -/
theorem mapM_numbers (number : α → Nat) (change : α → StateM Heap CellId) (elements : List α)
    (heap : Heap)
    : ((elements.mapM fun element => (number element, ·) <$> change element) heap).1.map (·.1) =
        elements.map number := by
  induction elements generalizing heap with
  | nil => rfl
  | cons first rest ih =>
      rw [List.mapM_cons]
      exact congrArg (number first :: ·) (ih _)

end Heap

namespace Value

open Heap

/-- The members keep their numbers when their cells are replaced. -/
theorem slots_mapParts (change : CellId → StateM Heap CellId) (value : Value) (heap : Heap)
    : (value.mapParts change heap).1.slots = value.slots := by
  cases value with
  | object members => exact mapM_numbers (·.1) (change ·.2) members heap
  | external value? => cases value? <;> rfl
  | _ => rfl

/-- Replacing the parts of a value by new cells makes the parts of a new value. -/
theorem mapParts_makes {change : CellId → StateM Heap CellId}
    (makes : ∀ cell, Makes allowed (change cell) fun changed => [changed]) (value : Value)
    : Makes allowed (value.mapParts change) parts := by
  intro heap
  cases value with
  | list elements =>
      have works := Makes.mapM id makes elements heap
      rw [List.map_id] at works
      exact works
  | external value? =>
      cases value? with
      | none => exact Works.refl allowed heap
      | some cell => exact makes cell heap
  | object members =>
      have makes (member : Nat × CellId)
          : Makes allowed ((member.1, ·) <$> change member.2) fun changed => [changed.2] :=
        makes member.2
      exact Makes.mapM Prod.snd makes members heap
  | _ => exact Works.refl allowed heap

end Value

namespace Heap

/-- What was made of the parts of a value goes into a cell of its own. -/
theorem Makes.remake {change : CellId → StateM Heap CellId}
    (makes : ∀ cell, Makes allowed (change cell) fun changed => [changed]) {heap : Heap}
    {type : TypeId} {value : Value}
    (slots : heap.Slotted allowed → ∀ index ∈ value.slots, allowed index)
    : Works allowed [] heap
        ((value.mapParts change heap).2.alloc ⟨type, (value.mapParts change heap).1⟩).2
        [((value.mapParts change heap).2.alloc ⟨type, (value.mapParts change heap).1⟩).1] := by
  refine (Value.mapParts_makes makes value heap).alloc ⟨type, _⟩ (fun _ => Nat.le_refl _) ?_
  intro slotted index member
  rw [Value.slots_mapParts] at member
  exact slots slotted index member

/-- A cell is copied to a new one, by induction over the depth. -/
theorem Makes.copyWithin (depth : Nat) (cell : CellId)
    : Makes allowed (Heap.copyWithin depth cell) fun copy => [copy] := by
  induction depth generalizing cell with
  | zero => exact Makes.new rfl rfl
  | succ depth ih => exact fun heap => Makes.remake ih fun slotted => slotted cell

theorem Makes.copyValue (value : Value) : Makes allowed (Heap.copyValue value) Value.parts :=
  fun heap => Value.mapParts_makes (Makes.copyWithin heap.cells.size) value heap

/-- A copied value has members of the same numbers. -/
theorem slots_copyValue (value : Value) (heap : Heap)
    : (Heap.copyValue value heap).1.slots = value.slots :=
  Value.slots_mapParts _ value heap

theorem Makes.copy (cell : CellId) : Makes allowed (Heap.copy cell) fun copy => [copy] :=
  fun _ => Makes.remake (Makes.copyWithin _) fun slotted => slotted cell

/-- The part of a value that belongs to a class has no members but those of the value. -/
theorem slots_sliceValue (registry : Registry) (base : TypeId) (value : Value) {index : Nat}
    (member : index ∈ (sliceValue registry base value).slots)
    : index ∈ value.slots := by
  cases value with
  | object members =>
      obtain ⟨kept, among, rfl⟩ := List.mem_map.mp member
      exact List.mem_map_of_mem ((List.mem_filter.mp among).1)
  | _ => exact member

theorem Makes.slicedCopy (registry : Registry) (base : TypeId) (cell : CellId)
    : Makes allowed (Heap.slicedCopy registry base cell) fun copy => [copy] :=
  fun _ => Makes.remake (Makes.copyWithin _) fun slotted index member =>
    slotted cell index (slots_sliceValue registry base _ member)

/-- A default of a type is made of new cells, by induction over the depth, where members have
allowed numbers.
-/
theorem Makes.defaultWithin {registry : Registry}
    (members : ∀ type, ∀ member ∈ registry.allMembers type, allowed member.index) (depth : Nat)
    (type : TypeId)
    : Makes allowed (Heap.defaultWithin registry depth type) fun cell => [cell] := by
  induction depth generalizing type with
  | zero => exact Makes.new rfl rfl
  | succ depth ih =>
      rw [Heap.defaultWithin]
      split
      case h_14 =>
        intro heap
        have makes (member : Member)
            : Makes allowed ((member.index, ·) <$> Heap.defaultWithin registry depth
                (registry.decayed member.type)) fun made => [made.2] :=
          ih _
        have made := Makes.mapM Prod.snd makes (registry.allMembers type) heap
        refine made.alloc ⟨type, .object _⟩ (fun _ => Nat.le_refl _) ?_
        intro slotted index member
        have numbered : index ∈ (registry.allMembers type).map (·.index) :=
          mapM_numbers (·.index) _ (registry.allMembers type) heap ▸ member
        obtain ⟨origin, among, rfl⟩ := List.mem_map.mp numbered
        exact members type origin among
      all_goals exact Makes.new rfl rfl

theorem Makes.createDefault {registry : Registry}
    (members : ∀ type, ∀ member ∈ registry.allMembers type, allowed member.index)
    (type : TypeId)
    : Makes allowed (Heap.createDefault registry type) fun cell => [cell] :=
  Makes.defaultWithin members _ _

end Heap

namespace Value

/-- What becomes of a value when a copy is put into it. -/
def overwritten (old copied : Value) : Value :=
  match old, copied with
  | object members, object overwriting =>
    object
      (overwriting.foldl (fun members member => setMember member.1 member.2 members) members)
  | _, copied => copied

-----------------------------------------------------------------------------------------
-- Members and work
-----------------------------------------------------------------------------------------

/-- A member that is set adds its cell and may take the place of another one, by induction over
the members.
-/
theorem count_setMember_le (index : Nat) (cell : CellId) (members : List (Nat × CellId))
    (part : CellId)
    : ((setMember index cell members).map (·.2)).count part ≤
        [cell].count part + (members.map (·.2)).count part := by
  induction members with
  | nil => exact Nat.le_refl _
  | cons first rest ih =>
      rw [setMember]
      simp only [List.count_singleton] at ih ⊢
      split
      · simp only [List.map_cons, List.count_cons]
        omega
      · split
        · simp only [List.map_cons, List.count_cons]
          omega
        · simp only [List.map_cons, List.count_cons]
          omega

/-- A member that is set is there, and so are the others, by induction over the members. -/
theorem mem_setMember {index other : Nat} {cell : CellId} {members : List (Nat × CellId)}
    (member : other ∈ (setMember index cell members).map (·.1))
    : other = index ∨ other ∈ members.map (·.1) := by
  induction members with
  | nil => exact .inl (List.mem_singleton.mp member)
  | cons first rest ih =>
      rw [setMember] at member
      split at member
      · exact List.mem_cons.mp member
      · split at member
        · exact (List.mem_cons.mp member).imp id (List.mem_cons_of_mem _)
        · rcases List.mem_cons.mp member with same | among
          · exact .inr (same ▸ List.mem_cons_self)
          · exact (ih among).imp id (List.mem_cons_of_mem _)

/-- The cells of an overwritten value are those of the copy and cells that it had before. -/
theorem count_overwritten_le (old copied : Value) (part : CellId)
    : (old.overwritten copied).parts.count part ≤
        copied.parts.count part + old.parts.count part := by
  have taken (overwriting members : List (Nat × CellId))
      : ((overwriting.foldl (fun members member => setMember member.1 member.2 members)
            members).map (·.2)).count part ≤
          (overwriting.map (·.2)).count part + (members.map (·.2)).count part := by
    induction overwriting generalizing members with
    | nil => simp
    | cons first rest ih =>
        have later := ih (setMember first.1 first.2 members)
        have step := count_setMember_le first.1 first.2 members part
        rw [List.count_singleton] at step
        simp only [List.foldl_cons, List.map_cons, List.count_cons] at *
        omega
  unfold overwritten
  split
  · exact taken _ _
  · exact Nat.le_add_right _ _

/-- The member that is set is found, by induction over the members. -/
theorem lookup_setMember (index other : Nat) (cell : CellId) (members : List (Nat × CellId))
    : (setMember index cell members).lookup other =
        if other = index then some cell else members.lookup other := by
  have found (rest : List (Nat × CellId))
      : ((index, cell) :: rest).lookup other =
          if other = index then some cell else rest.lookup other := by
    rw [List.lookup_cons]
    by_cases same : other = index
    · rw [if_pos same, same, beq_self_eq_true]
    · rw [if_neg same, beq_eq_false_iff_ne.mpr same]
  induction members with
  | nil => exact found []
  | cons first rest ih =>
      obtain ⟨place, old⟩ := first
      rw [setMember]
      split
      · exact found _
      · split
        · next same =>
            -- The member of that number is replaced.
            rw [found, List.lookup_cons]
            by_cases wanted : other = index
            · rw [if_pos wanted, if_pos wanted]
            · rw [if_neg wanted, if_neg wanted, beq_eq_false_iff_ne.mpr
                fun equal => wanted (equal.trans (eq_of_beq same).symm)]
        · next different =>
            rw [List.lookup_cons, List.lookup_cons, ih]
            by_cases first : other = place
            · have apart : ¬ place = index := fun equal => different (beq_iff_eq.mpr equal.symm)
              rw [first, beq_self_eq_true, if_neg apart, if_neg apart]
            · rw [beq_eq_false_iff_ne.mpr first]

/-- The members of an overwritten object are those that it takes over, each in a cell of the copy,
and the others where they were, by induction over the members that are set.
-/
theorem member?_overwritten (members overwriting : List (Nat × CellId)) (index : Nat)
    : (∃ cell, (index, cell) ∈ overwriting
          ∧ ((object members).overwritten (object overwriting)).member? index = some cell)
        ∨ index ∉ overwriting.map (·.1)
          ∧ ((object members).overwritten (object overwriting)).member? index =
            (object members).member? index := by
  show (∃ cell, (index, cell) ∈ overwriting ∧ (overwriting.foldl
      (fun members member => setMember member.1 member.2 members) members).lookup index = some cell)
    ∨ index ∉ overwriting.map (·.1) ∧ (overwriting.foldl
      (fun members member => setMember member.1 member.2 members) members).lookup index =
        members.lookup index
  induction overwriting generalizing members with
  | nil => exact .inr ⟨List.not_mem_nil, rfl⟩
  | cons first rest ih =>
      rw [List.foldl_cons]
      rcases ih (setMember first.1 first.2 members) with ⟨cell, among, found⟩ | ⟨absent, found⟩
      · exact .inl ⟨cell, List.mem_cons_of_mem first among, found⟩
      · rw [lookup_setMember] at found
        by_cases same : index = first.1
        · rw [if_pos same] at found
          exact .inl ⟨first.2, same ▸ List.mem_cons_self, found⟩
        · rw [if_neg same] at found
          exact .inr ⟨fun among => (List.mem_cons.mp among).elim same absent, found⟩

/-- The members of an overwritten value are members of the copy or were there before. -/
theorem mem_slots_overwritten {old copied : Value} {index : Nat}
    (member : index ∈ (old.overwritten copied).slots)
    : index ∈ copied.slots ∨ index ∈ old.slots := by
  have taken (overwriting members : List (Nat × CellId))
      (member : index ∈ (overwriting.foldl
        (fun members member => setMember member.1 member.2 members) members).map (·.1))
      : index ∈ overwriting.map (·.1) ∨ index ∈ members.map (·.1) := by
    induction overwriting generalizing members with
    | nil => exact .inr member
    | cons first rest ih =>
        rcases ih _ member with among | among
        · exact .inl (List.mem_cons_of_mem _ among)
        · exact (mem_setMember among).imp (fun same => List.mem_cons.mpr (.inl same)) id
  unfold overwritten at member
  split at member
  · exact taken _ _ member
  · exact .inl member

end Value

namespace Effect

/-- Copying a value into another one always succeeds, and gives a reference to where the copy
went, which sees it as it was seen before.
-/
theorem overwrite_run (target source : Handle) (environment : Environment) (store : Store)
    : overwrite target source environment store =
        (.ok target.toReference,
          { store with
            heap :=
              let copied := Heap.copyValue (store.heap.value source.cell) store.heap
              copied.2.write target.cell
                ((store.heap.value target.cell).overwritten copied.1) }) :=
  rfl

end Effect

/-- Copying a value into another one writes to the cell of that only. -/
theorem Heap.Works.overwrite {base heap : Heap} {cells : List CellId} {target : CellId}
    (works : Works allowed [] base heap cells) (inside : target.index < base.cells.size)
    (source : Value) (slots : heap.Slotted allowed → ∀ index ∈ source.slots, allowed index)
    : Works allowed [target] base
        ((Heap.copyValue source heap).2.write target
          ((heap.value target).overwritten (Heap.copyValue source heap).1))
        [] := by
  have copying : Makes allowed (Heap.copyValue source) Value.parts := .copyValue source
  have copied := works.trans (by simp) (copying heap)
  have same : (Heap.copyValue source heap).2.value target = heap.value target := by
    rw [value, (copying heap).kept target (Nat.lt_of_lt_of_le inside works.grows) (by simp),
      value]
  refine (copied.widen (by simp)).write (List.mem_singleton.mpr rfl) inside ?_ (by simp) ?_
  · intro cell
    rw [same, List.count_append]
    have limited := Value.count_overwritten_le (heap.value target)
      (Heap.copyValue source heap).1 cell
    simp only [List.count_nil]
    omega
  · intro slotted index member
    have slotted := works.slotted slotted
    rcases Value.mem_slots_overwritten member with new | old
    · exact slots slotted index (slots_copyValue source heap ▸ new)
    · exact slotted target index old

end BuildScript
