import BuildScript.Proofs.Run.HeapRenaming
import Mathlib.Data.List.Forall2
import Mathlib.Logic.Function.Basic

/-! Copies hold the same as their originals, however deep, in cells that were not there before. -/

namespace BuildScript

namespace Heap

variable {base middle after heap : Heap}

-----------------------------------------------------------------------------------------
-- Replicas
-----------------------------------------------------------------------------------------

/-- (Replica base after original copy) says that a cell of a later heap is new and holds the same as
a cell of an earlier one, with new cells for all parts.
-/
inductive Replica (base after : Heap) : CellId → CellId → Prop where
  | intro {original copy : CellId} (names : CellId → CellId)
      (new : base.cells.size ≤ copy.index ∧ copy.index < after.cells.size)
      (same : after.read copy = (base.read original).rename names)
      (parts : ∀ part ∈ (base.value original).parts, Replica base after part (names part))
      : Replica base after original copy

/-- A copy is in a new cell. -/
theorem Replica.new {original copy : CellId} (replica : base.Replica after original copy)
    : base.cells.size ≤ copy.index ∧ copy.index < after.cells.size := by
  cases replica with
  | intro _ new _ _ => exact new

/-- Copies stay copies as long as new cells stay as they are, by induction over the copy. -/
theorem Replica.mono {original copy : CellId} (replica : base.Replica middle original copy)
    (grows : middle.cells.size ≤ after.cells.size)
    (kept : ∀ cell : CellId, base.cells.size ≤ cell.index → cell.index < middle.cells.size →
      after.read cell = middle.read cell)
    : base.Replica after original copy := by
  induction replica with
  | intro names new same _ ih =>
      exact .intro names ⟨new.1, Nat.lt_of_lt_of_le new.2 grows⟩
        ((kept _ new.1 new.2).trans same) ih

/-- (Grown base heap) says that a heap has the cells of another one, and new ones that were made
since.
-/
def Grown (base heap : Heap) : Prop := ∃ made, Works (fun _ => True) [] base heap made

namespace Grown

theorem refl (heap : Heap) : heap.Grown heap := ⟨[], .refl _ heap⟩

/-- A heap goes on growing when more cells are made. -/
theorem makes {α : Type} {action : StateM Heap α} {cells : α → List CellId}
    (grown : base.Grown heap) (makes : Makes (fun _ => True) action cells)
    : base.Grown (action heap).2 :=
  grown.elim fun _ works => ⟨_, works.trans (by simp) (makes heap)⟩

theorem size_le (grown : base.Grown heap) : base.cells.size ≤ heap.cells.size :=
  grown.elim fun _ works => works.grows

theorem read (grown : base.Grown heap) {cell : CellId} (present : cell.index < base.cells.size)
    : heap.read cell = base.read cell :=
  grown.elim fun _ works => works.kept cell present List.not_mem_nil

end Grown

/-- Copies stay copies when more cells are made. -/
theorem Replica.makes {original copy : CellId} {α : Type} {action : StateM Heap α}
    {cells : α → List CellId} (replica : base.Replica heap original copy)
    (makes : Makes (fun _ => True) action cells)
    : base.Replica (action heap).2 original copy :=
  replica.mono (makes heap).grows fun cell _ inside => (makes heap).kept cell inside
    List.not_mem_nil

section

variable {α β : Type}

/-- What is made of some elements one after the other is related to them in the end, if it is so at
first and stays so, by induction over the elements.
-/
theorem mapM_related (change : α → StateM Heap β) (Related : Heap → α → β → Prop)
    {elements : List α}
    (each : ∀ element ∈ elements, ∀ heap, base.Grown heap →
      Related (change element heap).2 element (change element heap).1)
    (grows : ∀ element heap, base.Grown heap → base.Grown (change element heap).2)
    (stays : ∀ element heap other made, Related heap other made →
      Related (change element heap).2 other made)
    (grown : base.Grown heap)
    : List.Forall₂ (Related (elements.mapM change heap).2) elements
        (elements.mapM change heap).1 := by
  induction elements generalizing heap with
  | nil => exact .nil
  | cons first rest ih =>
      have later (middle : Heap) (remaining : List α) (other : α) (made : β)
          (related : Related middle other made)
          : Related (remaining.mapM change middle).2 other made := by
        induction remaining generalizing middle with
        | nil => exact related
        | cons next remaining ih =>
            rw [List.mapM_cons]
            exact ih _ (stays next middle other made related)
      rw [List.mapM_cons]
      refine .cons (later _ rest first _ (each first List.mem_cons_self heap grown)) ?_
      exact ih (fun element among => each element (List.mem_cons_of_mem first among))
        (grows first heap grown)

end

/-- What different cells are related to are other names for them. -/
theorem exists_names {Related : CellId → CellId → Prop} {cells copies : List CellId}
    (related : List.Forall₂ Related cells copies) (distinct : cells.Nodup)
    : ∃ names : CellId → CellId, copies = cells.map names
        ∧ ∀ cell ∈ cells, Related cell (names cell) := by
  induction related with
  | nil => exact ⟨id, rfl, fun _ among => nomatch among⟩
  | @cons cell copy cells copies here _ ih =>
      obtain ⟨other, distinct⟩ := List.nodup_cons.mp distinct
      obtain ⟨names, rfl, named⟩ := ih distinct
      have elsewhere : ∀ later ∈ cells, Function.update names cell copy later = names later :=
        fun later among =>
          Function.update_of_ne (ne_of_mem_of_not_mem among other) copy names
      refine ⟨Function.update names cell copy, ?_, fun later among => ?_⟩
      · rw [List.map_cons, Function.update_self, List.map_congr_left elsewhere]
      · rcases List.mem_cons.mp among with rfl | among
        · rw [Function.update_self]
          exact here
        · rw [elsewhere later among]
          exact named later among

/-- A value whose parts are replaced one after the other is the value with other names for its
parts, by cases on how it is made.
-/
theorem mapParts_names {change : CellId → StateM Heap CellId}
    {Related : Heap → CellId → CellId → Prop} (value : Value) (distinct : value.parts.Nodup)
    (each : ∀ part ∈ value.parts, ∀ heap, base.Grown heap →
      Related (change part heap).2 part (change part heap).1)
    (grows : ∀ part heap, base.Grown heap → base.Grown (change part heap).2)
    (stays : ∀ part heap other copy, Related heap other copy →
      Related (change part heap).2 other copy)
    (grown : base.Grown heap)
    : ∃ names, (value.mapParts change heap).1 = value.rename names
        ∧ ∀ part ∈ value.parts, Related (value.mapParts change heap).2 part (names part) := by
  cases value with
  | list elements =>
      obtain ⟨names, named, related⟩ := exists_names
        (mapM_related change Related each grows stays grown) distinct
      exact ⟨names, congrArg Value.list named, related⟩
  | external value? =>
      cases value? with
      | none => exact ⟨id, rfl, fun _ among => nomatch among⟩
      | some cell =>
          have related := each cell (List.mem_singleton_self cell) heap grown
          refine ⟨fun _ => (change cell heap).1, rfl, fun part among => ?_⟩
          rw [List.mem_singleton.mp among]
          exact related
  | object members =>
      let make (member : Nat × CellId) : StateM Heap (Nat × CellId) :=
        (member.1, ·) <$> change member.2
      have pairs := mapM_related make
        (fun heap member made => Related heap member.2 made.2)
        (fun member among => each member.2 (List.mem_map_of_mem among))
        (fun member => grows member.2)
        (fun member heap other made => stays member.2 heap other.2 made.2) grown
      obtain ⟨names, named, related⟩ := exists_names
        (List.forall₂_map_left_iff.mpr (List.forall₂_map_right_iff.mpr pairs)) distinct
      have numbered := mapM_numbers (·.1) (change ·.2) members heap
      refine ⟨names, congrArg Value.object ?_, related⟩
      have paired : members.map (fun member => (member.1, names member.2)) =
          (members.map (·.1)).zip ((members.map (·.2)).map names) := by
        rw [List.map_map, List.zip_map']
        rfl
      rw [paired, ← named, ← numbered, ← List.unzip_fst, ← List.unzip_snd, List.zip_unzip]
      rfl
  | _ => exact ⟨id, rfl, fun _ among => nomatch among⟩

-----------------------------------------------------------------------------------------
-- Types of new values
-----------------------------------------------------------------------------------------

/-- (Types action type) says that what an action makes is of a type. -/
def Types (action : StateM Heap CellId) (type : TypeId) : Prop :=
  ∀ heap, ((action heap).2.read (action heap).1).type = type

theorem Types.new (type : TypeId) (value : Value) : Types (Heap.new type value) type :=
  fun _ => congrArg Object.type ((read_alloc ..).trans (if_pos rfl))

/-- A default is of the type that it is a default of, by cases on the kind of the type. -/
theorem Types.defaultWithin (registry : Registry) (depth : Nat) (type : TypeId)
    : Types (Heap.defaultWithin registry depth type) type := by
  cases depth with
  | zero => exact .new type _
  | succ depth =>
      rw [Heap.defaultWithin]
      split
      case h_14 => exact fun heap => Types.new type _ _
      all_goals exact .new type _

theorem Types.createDefault (registry : Registry) (type : TypeId)
    : Types (Heap.createDefault registry type) (registry.decayed type) :=
  .defaultWithin registry _ _

-----------------------------------------------------------------------------------------
-- Copies and parts of objects
-----------------------------------------------------------------------------------------

theorem Shallow.mono {depth more : Nat} {cell : CellId} (shallow : heap.Shallow depth cell)
    (deeper : depth ≤ more)
    : heap.Shallow more cell := by
  induction deeper with
  | refl => exact shallow
  | step _ ih => exact ih.deeper

/-- No cell is a part of a value twice. -/
theorem Tidy.nodup_parts (tidy : heap.Tidy) (cell : CellId) : (heap.value cell).parts.Nodup := by
  obtain ⟨roots, owned⟩ := tidy
  refine List.nodup_iff_count_le_one.mpr fun part => ?_
  have counted := owned.counted part
  have among := count_value_le heap cell part
  split at counted <;> omega

namespace Replica

/-- A cell that is made of replaced parts of a value holds the value with copies of its parts, if
these are copies.
-/
theorem remakeValue {change : CellId → StateM Heap CellId}
    (makes : ∀ cell, Makes (fun _ => True) (change cell) fun made => [made]) (value : Value)
    (distinct : value.parts.Nodup)
    (each : ∀ part ∈ value.parts, ∀ heap, base.Grown heap →
      base.Replica (change part heap).2 part (change part heap).1)
    (grown : base.Grown heap) (type : TypeId)
    : let made := value.mapParts change heap
      let placed := made.2.alloc ⟨type, made.1⟩
      ∃ names, (base.cells.size ≤ placed.1.index ∧ placed.1.index < placed.2.cells.size)
        ∧ placed.2.read placed.1 = ⟨type, value.rename names⟩
        ∧ ∀ part ∈ value.parts, base.Replica placed.2 part (names part) := by
  obtain ⟨names, named, parts⟩ := mapParts_names value distinct each
    (fun part _ grown => grown.makes (makes part))
    (fun part _ _ _ replica => replica.makes (makes part)) grown
  have grown := grown.makes (Value.mapParts_makes makes value)
  generalize value.mapParts change heap = made at *
  refine ⟨names, ⟨grown.size_le, ?_⟩, ?_, fun part among => (parts part among).mono ?_ ?_⟩
  · rw [size_alloc]
    exact Nat.lt_succ_self _
  · exact (read_alloc ..).trans ((if_pos rfl).trans (by rw [named]))
  · rw [size_alloc]
    exact Nat.le_succ _
  · intro inner _ inside
    rw [read_alloc, if_neg (Nat.ne_of_lt inside)]

/-- A cell that is made of replaced parts is a copy if they are. -/
theorem remake (tidy : base.Tidy) {change : CellId → StateM Heap CellId}
    (makes : ∀ cell, Makes (fun _ => True) (change cell) fun made => [made]) {cell : CellId}
    (each : ∀ part ∈ (base.value cell).parts, ∀ heap, base.Grown heap →
      base.Replica (change part heap).2 part (change part heap).1)
    (grown : base.Grown heap)
    : let made := (base.read cell).value.mapParts change heap
      base.Replica (made.2.alloc ⟨(base.read cell).type, made.1⟩).2 cell
        (made.2.alloc ⟨(base.read cell).type, made.1⟩).1 := by
  obtain ⟨names, new, same, parts⟩ := remakeValue makes (base.value cell) (tidy.nodup_parts cell)
    each grown (base.read cell).type
  exact .intro names new same parts

/-- What is copied down to a depth that it does not reach is copied whole, by induction over the
depth.
-/
theorem copyWithin (tidy : base.Tidy) {depth : Nat} {cell : CellId}
    (shallow : base.Shallow depth cell) (grown : base.Grown heap)
    : base.Replica (Heap.copyWithin depth cell heap).2 cell
        (Heap.copyWithin depth cell heap).1 := by
  induction depth generalizing cell heap with
  | zero => exact shallow.elim
  | succ depth ih =>
      obtain ⟨present, parts⟩ := shallow
      have replica := remake tidy (Makes.copyWithin depth)
        (fun part held heap grown => ih (parts part held) grown) grown
      rw [← grown.read present] at replica
      exact replica

theorem copy (tidy : base.Tidy) {cell : CellId} (present : cell.index < base.cells.size)
    (grown : base.Grown heap)
    : base.Replica (Heap.copy cell heap).2 cell (Heap.copy cell heap).1 := by
  have parts (part : CellId) (held : part ∈ (base.value cell).parts)
      : base.Shallow heap.cells.size part :=
    (tidy.part held).mono grown.size_le
  have replica := remake tidy (Makes.copyWithin heap.cells.size)
    (fun part held _ grown => copyWithin tidy (parts part held) grown) grown
  rw [← grown.read present] at replica
  exact replica

/-- A copy is of the same type. -/
theorem type {after : Heap} {original copy : CellId} (replica : base.Replica after original copy)
    : (after.read copy).type = (base.read original).type := by
  cases replica with
  | intro names new same parts => rw [same, Object.rename]

/-- A copy of an object has members of the same numbers. -/
theorem slots {after : Heap} {original copy : CellId} (replica : base.Replica after original copy)
    : (after.value copy).slots = (base.value original).slots := by
  cases replica with
  | intro names new same parts =>
      rw [Heap.value, same]
      exact Value.slots_rename names _

/-- A copy holds the same number, if it is one. -/
theorem asInt {after : Heap} {original copy : CellId} (replica : base.Replica after original copy)
    : (after.value copy).asInt = (base.value original).asInt := by
  cases replica with
  | intro names new same parts =>
      rw [Heap.value, same]
      exact Value.asInt_rename names _

/-- The parts of a value are copied with it. -/
theorem copyValue (tidy : base.Tidy) (cell : CellId)
    : ∃ names, (Heap.copyValue (base.value cell) base).1 = (base.value cell).rename names
        ∧ ∀ part ∈ (base.value cell).parts,
            base.Replica (Heap.copyValue (base.value cell) base).2 part (names part) :=
  mapParts_names (base.value cell) (tidy.nodup_parts cell)
    (fun _ held _ grown => copyWithin tidy (tidy.part held) grown)
    (fun part _ grown => grown.makes (.copyWithin _ part))
    (fun part _ _ _ replica => replica.makes (.copyWithin _ part)) (.refl base)

/-- Some cells are copied one after the other. -/
theorem copies (tidy : base.Tidy) {cells : List CellId}
    (present : ∀ cell ∈ cells, cell.index < base.cells.size) (grown : base.Grown heap)
    : List.Forall₂ (base.Replica (cells.mapM Heap.copy heap).2) cells
        (cells.mapM Heap.copy heap).1 :=
  mapM_related Heap.copy (fun heap => base.Replica heap)
    (fun cell among _ grown => copy tidy (present cell among) grown)
    (fun cell _ grown => grown.makes (.copy cell))
    (fun cell _ _ _ replica => replica.makes (.copy cell)) grown

end Replica

/-- (Slice registry type base after original copy) says that a cell of a later heap is new, is of a
type, and holds copies of those members of an object that belong to the type.
-/
def Slice (registry : Registry) (type : TypeId) (base after : Heap) (original copy : CellId)
    : Prop :=
  let seen := sliceValue registry type (base.value original)
  ∃ names, (base.cells.size ≤ copy.index ∧ copy.index < after.cells.size)
    ∧ after.read copy = ⟨type, seen.rename names⟩
    ∧ ∀ part ∈ seen.parts, base.Replica after part (names part)

/-- The parts of a slice are parts of the whole, in the same order. -/
theorem parts_sliceValue (registry : Registry) (type : TypeId) (value : Value)
    : (sliceValue registry type value).parts.Sublist value.parts := by
  cases value with
  | object members => exact List.filter_sublist.map _
  | _ => exact List.Sublist.refl _

theorem Slice.slicedCopy (registry : Registry) (type : TypeId) (tidy : base.Tidy) (cell : CellId)
    : Slice registry type base (Heap.slicedCopy registry type cell base).2 cell
        (Heap.slicedCopy registry type cell base).1 := by
  have within := parts_sliceValue registry type (base.value cell)
  exact Replica.remakeValue (Makes.copyWithin base.cells.size) _
    (within.nodup (tidy.nodup_parts cell))
    (fun part held _ grown =>
      Replica.copyWithin tidy (tidy.part (within.subset held)) grown) (.refl base) type

end Heap

end BuildScript
