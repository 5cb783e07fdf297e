import BuildScript.Proofs.Run.Ownership
import Mathlib.Data.Finset.Card
import Mathlib.Logic.Relation

/-! Heaps whose cells have other places. A heap mirrors another one under a renaming of cells when
it holds the same under the new names, and whatever else it has is held by nothing. Copies, defaults
and comparisons are then the same in both, since no value is deeper than its heap is large.
-/

namespace BuildScript

-----------------------------------------------------------------------------------------
-- Renamed values
-----------------------------------------------------------------------------------------

/-- What is looked up among renamed values is the renamed value. -/
theorem lookup_rename {α β : Type} (change : α → β) (bindings : List (Nat × α)) (index : Nat)
    : (bindings.map fun binding => (binding.1, change binding.2)).lookup index =
        (bindings.lookup index).map change := by
  induction bindings with
  | nil => rfl
  | cons first rest ih =>
      rw [List.map_cons, List.lookup_cons, List.lookup_cons]
      split
      · rfl
      · exact ih

namespace Value

variable (names : CellId → CellId) (value : Value)

/-- (rename names value) is a value whose parts are in renamed cells. -/
def rename (names : CellId → CellId) : Value → Value
  | list elements => list (elements.map names)
  | external value? => external (value?.map names)
  | object members => object (members.map fun member => (member.1, names member.2))
  | value => value

@[simp]
theorem rename_int (number : Int64) : (int number).rename names = int number := rfl

@[simp]
theorem rename_double (number : Float) : (double number).rename names = double number := rfl

@[simp]
theorem rename_string (text : String) : (string text).rename names = string text := rfl

@[simp]
theorem rename_list (elements : List CellId)
    : (list elements).rename names = list (elements.map names) :=
  rfl

@[simp]
theorem asBool_rename : (value.rename names).asBool = value.asBool := by cases value <;> rfl

@[simp]
theorem asInt_rename : (value.rename names).asInt = value.asInt := by cases value <;> rfl

@[simp]
theorem asDouble_rename : (value.rename names).asDouble = value.asDouble := by
  cases value <;> rfl

@[simp]
theorem asString_rename : (value.rename names).asString = value.asString := by
  cases value <;> rfl

@[simp]
theorem asVersion_rename : (value.rename names).asVersion = value.asVersion := by
  cases value <;> rfl

@[simp]
theorem asEnumerator_rename : (value.rename names).asEnumerator = value.asEnumerator := by
  cases value <;> rfl

@[simp]
theorem elements_rename : (value.rename names).elements = value.elements.map names := by
  cases value <;> rfl

theorem members?_rename
    : (value.rename names).members? =
        value.members?.map (List.map fun member => (member.1, names member.2)) := by
  cases value <;> rfl

@[simp]
theorem member?_rename (index : Nat)
    : (value.rename names).member? index = (value.member? index).map names := by
  unfold member?
  rw [members?_rename]
  cases value.members? with
  | none => rfl
  | some members => exact lookup_rename names members index

@[simp]
theorem slots_rename : (value.rename names).slots = value.slots := by
  cases value with
  | object members =>
      show (members.map fun member => (member.1, names member.2)).map (·.1) = members.map (·.1)
      rw [List.map_map]
      rfl
  | _ => rfl

/-- The elements of a value are among its parts. -/
theorem mem_parts_of_elements {value : Value} {cell : CellId} (among : cell ∈ value.elements)
    : cell ∈ value.parts := by
  cases value with
  | list elements => exact among
  | _ => exact absurd among List.not_mem_nil

theorem setMember_rename (index : Nat) (cell : CellId) (members : List (Nat × CellId))
    : setMember index (names cell) (members.map fun member => (member.1, names member.2)) =
        (setMember index cell members).map fun member => (member.1, names member.2) := by
  induction members with
  | nil => rfl
  | cons member rest ih =>
      simp only [List.map_cons, setMember]
      split
      · rfl
      · split
        · rfl
        · rw [ih, List.map_cons]

/-- Two lists agree element by element under new names if the cells in them do. -/
theorem all_zip_rename {α : Type} {same other : CellId → CellId → Bool} (cell : α → CellId)
    (label : α → Nat) (moved : α → α)
    (cells : ∀ element, cell (moved element) = names (cell element))
    (labels : ∀ element, label (moved element) = label element) (first second : List α)
    (agree : ∀ element ∈ first, ∀ another,
      other (names (cell element)) (names another) = same (cell element) another)
    : (((first.map moved).zip (second.map moved)).all fun pair =>
          label pair.1 == label pair.2 && other (cell pair.1) (cell pair.2)) =
        (first.zip second).all fun pair =>
          label pair.1 == label pair.2 && same (cell pair.1) (cell pair.2) := by
  induction first generalizing second with
  | nil => rfl
  | cons head rest ih =>
      cases second with
      | nil => rfl
      | cons head' rest' =>
          obtain ⟨here, later⟩ := List.forall_mem_cons.mp agree
          simp only [List.map_cons, List.zip_cons_cons, List.all_cons, cells, labels, here,
            ih rest' later]

/-- Values are made the same way under new names if their parts are the same under them. -/
theorem sameBy_rename {same other : CellId → CellId → Bool} (a b : Value)
    (agree : ∀ part ∈ a.parts, ∀ cell, other (names part) (names cell) = same part cell)
    : sameBy other (a.rename names) (b.rename names) = sameBy same a b := by
  cases a with
  | list first =>
      cases b with
      | list second =>
          have pairs := all_zip_rename names id (fun _ => 0) names (fun _ => rfl) (fun _ => rfl)
            first second agree
          simp only [beq_self_eq_true, Bool.true_and, id] at pairs
          simp only [rename, sameBy, List.length_map, pairs]
      | _ => rfl
  | external first? =>
      cases first? with
      | none =>
          cases b with
          | external second? => cases second? <;> rfl
          | _ => rfl
      | some first =>
          cases b with
          | external second? =>
              cases second? with
              | none => rfl
              | some second => exact agree first (List.mem_singleton_self first) second
          | _ => rfl
  | object first =>
      cases b with
      | object second =>
          have pairs := all_zip_rename names (·.2) (·.1) (fun member => (member.1, names member.2))
            (fun _ => rfl) (fun _ => rfl) first second
            fun member among => agree member.2 (List.mem_map_of_mem among)
          simp only [rename, sameBy, List.length_map, pairs]
      | _ => rfl
  | _ => cases b <;> rfl

@[simp]
theorem rename_id : value.rename id = value := by
  cases value with
  | list elements => simp [rename]
  | external value? => simp [rename]
  | object members => simp [rename]
  | _ => rfl

/-- Names matter for the parts of a value only. -/
theorem rename_congr {value : Value} {names other : CellId → CellId}
    (agree : ∀ part ∈ value.parts, other part = names part)
    : value.rename other = value.rename names := by
  cases value with
  | list elements => exact congrArg list (List.map_congr_left agree)
  | external value? =>
      cases value? with
      | none => rfl
      | some cell => exact congrArg (external ∘ some) (agree cell (List.mem_singleton_self cell))
  | object members =>
      refine congrArg object (List.map_congr_left fun member among => ?_)
      rw [agree member.2 (List.mem_map_of_mem among)]
  | _ => rfl

end Value

/-- (rename names object) is what a renamed cell holds. -/
def Object.rename (names : CellId → CellId) (object : Object) : Object :=
  ⟨object.type, object.value.rename names⟩

namespace Handle

variable (names : CellId → CellId) (handle : Handle)

/-- (rename names handle) is a handle on a renamed cell. -/
def rename (names : CellId → CellId) : Handle → Handle
  | owned cell => owned (names cell)
  | reference cell base? => reference (names cell) base?

@[simp]
theorem cell_rename : (handle.rename names).cell = names handle.cell := by
  cases handle <;> rfl

@[simp]
theorem base?_rename : (handle.rename names).base? = handle.base? := by cases handle <;> rfl

@[simp]
theorem toReference_rename
    : (handle.rename names).toReference = handle.toReference.rename names := by
  cases handle <;> rfl

@[simp]
theorem toReferenceAs_rename (base : TypeId)
    : (handle.rename names).toReferenceAs base = (handle.toReferenceAs base).rename names := by
  cases handle <;> rfl

@[simp]
theorem rename_id : handle.rename id = handle := by cases handle <;> rfl

end Handle

namespace Heap

-----------------------------------------------------------------------------------------
-- How deep values are
-----------------------------------------------------------------------------------------

/-- (Shallow heap depth cell) says that a cell is one of the heap, and that its parts come to an
end in the heap before they are `depth` deep.
-/
def Shallow (heap : Heap) : Nat → CellId → Prop
  | 0, _ => False
  | depth + 1, cell => cell.index < heap.cells.size
    ∧ ∀ part, heap.PartOf part cell → heap.Shallow depth part

/-- A cell is as deep as there are cells in it at most, by induction over their number: none of
its parts holds the cell itself.
-/
theorem shallow_of_count {heap : Heap} (founded : WellFounded heap.PartOf) (closed : heap.Closed)
    (depth : Nat) {cell : CellId} (present : cell.index < heap.cells.size)
    (inner : Finset CellId)
    (holds : ∀ part, Relation.ReflTransGen heap.PartOf part cell → part ∈ inner)
    (few : inner.card ≤ depth)
    : heap.Shallow depth cell := by
  induction depth generalizing cell inner with
  | zero =>
      rw [Nat.le_zero, Finset.card_eq_zero] at few
      exact absurd (holds cell .refl) (few ▸ Finset.notMem_empty cell)
  | succ depth ih =>
      refine ⟨present, fun part held => ?_⟩
      refine ih (closed part (mem_parts held)) (inner.erase cell) (fun deeper within => ?_) ?_
      · refine Finset.mem_erase.mpr ⟨?_, holds deeper (within.tail held)⟩
        rintro rfl
        have circle : Relation.TransGen heap.PartOf deeper deeper := .tail' within held
        exact founded.transGen.asymmetric _ _ circle circle
      · rw [Finset.card_erase_of_mem (holds cell .refl)]
        exact Nat.sub_le_of_le_add few

/-- (Tidy heap) says that the cells of a heap belong to one owner each. -/
def Tidy (heap : Heap) : Prop := ∃ roots, heap.Owned roots

namespace Tidy

variable {heap after : Heap}

theorem closed (tidy : heap.Tidy) : heap.Closed := tidy.elim fun _ owned => owned.closed

/-- No value in a tidy heap is deeper than there are cells. -/
theorem shallow (tidy : heap.Tidy) {cell : CellId} (present : cell.index < heap.cells.size)
    : heap.Shallow heap.cells.size cell := by
  obtain ⟨roots, owned⟩ := tidy
  refine shallow_of_count owned.founded owned.closed _ present
    ((Finset.range heap.cells.size).map ⟨CellId.mk, fun _ _ => CellId.mk.inj⟩) ?_ (by simp)
  intro part within
  have inside : part.index < heap.cells.size := by
    rcases Relation.ReflTransGen.cases_head within with same | ⟨whole, held, _⟩
    · exact same ▸ present
    · exact owned.closed part (mem_parts held)
  exact Finset.mem_map.mpr ⟨part.index, Finset.mem_range.mpr inside, rfl⟩

theorem part (tidy : heap.Tidy) {cell part : CellId} (held : heap.PartOf part cell)
    : heap.Shallow heap.cells.size part :=
  tidy.shallow (tidy.closed part (mem_parts held))

/-- A heap stays tidy when cells are made in it. -/
theorem works {allowed : Nat → Prop} {made : List CellId} (tidy : heap.Tidy)
    (works : Works allowed [] heap after made)
    : after.Tidy :=
  tidy.elim fun _ owned => ⟨_, works.owned owned⟩

end Tidy

/-- Cells stay as deep as they are when others are made. -/
theorem Works.shallow {heap after : Heap} {allowed : Nat → Prop} {made : List CellId}
    (works : Works allowed [] heap after made) {depth : Nat} {cell : CellId}
    (shallow : heap.Shallow depth cell)
    : after.Shallow depth cell := by
  induction depth generalizing cell with
  | zero => exact shallow
  | succ depth ih =>
      obtain ⟨present, parts⟩ := shallow
      refine ⟨Nat.lt_of_lt_of_le present works.grows, fun part held => ih (parts part ?_)⟩
      rw [PartOf, value, works.kept cell present List.not_mem_nil] at held
      exact held

namespace Shallow

variable {heap : Heap} {depth : Nat} {cell : CellId}

/-- Cells stay as deep as they are when others are copied. -/
theorem copyWithin (shallow : heap.Shallow depth cell) (limit : Nat) (copied : CellId)
    : (Heap.copyWithin limit copied heap).2.Shallow depth cell := by
  have makes : Makes (fun _ => True) (Heap.copyWithin limit copied) fun cell => [cell] :=
    Makes.copyWithin limit copied
  exact (makes heap).shallow shallow

theorem deeper (shallow : heap.Shallow depth cell)
    : heap.Shallow (depth + 1) cell := by
  induction depth generalizing cell with
  | zero => exact shallow.elim
  | succ depth ih => exact ⟨shallow.1, fun part held => ih (shallow.2 part held)⟩

end Shallow

-----------------------------------------------------------------------------------------
-- Mirrored heaps
-----------------------------------------------------------------------------------------

/-- (Mirrors names heap twin) says that a heap holds in renamed cells what another one holds,
and that new cells of both will be renamed into each other.
-/
structure Mirrors (names : CellId → CellId) (heap twin : Heap) : Prop where
  injective : Function.Injective names
  read : ∀ cell, twin.read (names cell) = (heap.read cell).rename names
  fresh : ∀ count, names ⟨heap.cells.size + count⟩ = ⟨twin.cells.size + count⟩
  larger : heap.cells.size ≤ twin.cells.size

namespace Mirrors

variable {names : CellId → CellId} {heap twin : Heap}

theorem refl (heap : Heap) : heap.Mirrors id heap where
  injective := Function.injective_id
  read cell := by rw [Object.rename, Value.rename_id, id]
  fresh _ := rfl
  larger := Nat.le_refl _

/-- A heap that mirrors another one without new names is the same. -/
theorem eq_of_id (mirrors : heap.Mirrors id twin) : twin = heap := by
  have size : twin.cells.size = heap.cells.size :=
    (Nat.add_right_cancel (CellId.mk.inj (mirrors.fresh 0))).symm
  have cells : twin.cells = heap.cells := by
    refine Array.ext size fun index inside present => ?_
    have same := mirrors.read ⟨index⟩
    simp only [id, Object.rename, Value.rename_id, Heap.read, Array.getD_eq_getD_getElem?,
      Array.getElem?_eq_getElem inside, Array.getElem?_eq_getElem present,
      Option.getD_some] at same
    exact same
  cases twin
  cases heap
  exact congrArg Heap.mk cells

theorem value (mirrors : heap.Mirrors names twin) (cell : CellId)
    : twin.value (names cell) = (heap.value cell).rename names :=
  congrArg Object.value (mirrors.read cell)

theorem type (mirrors : heap.Mirrors names twin) (cell : CellId)
    : (twin.read (names cell)).type = (heap.read cell).type := by
  rw [mirrors.read, Object.rename]

/-- The next cells of both heaps are renamed into each other. -/
theorem next (mirrors : heap.Mirrors names twin)
    : names ⟨heap.cells.size⟩ = ⟨twin.cells.size⟩ :=
  mirrors.fresh 0

/-- What is put into new cells of both heaps may be renamed, too. -/
theorem alloc (mirrors : heap.Mirrors names twin) (object : Object)
    : (heap.alloc object).2.Mirrors names (twin.alloc (object.rename names)).2 where
  injective := mirrors.injective
  read cell := by
    rw [read_alloc, read_alloc]
    have last : (names cell).index = twin.cells.size ↔ cell.index = heap.cells.size := by
      obtain ⟨index⟩ := cell
      constructor
      · intro same
        exact CellId.mk.inj (mirrors.injective ((congrArg CellId.mk same).trans mirrors.next.symm))
      · rintro rfl
        rw [mirrors.next]
    by_cases new : cell.index = heap.cells.size
    · rw [if_pos new, if_pos (last.mpr new)]
    · rw [if_neg new, if_neg (mt last.mp new), mirrors.read]
  fresh count := by
    rw [size_alloc, size_alloc, Nat.add_assoc, Nat.add_assoc]
    exact mirrors.fresh (1 + count)
  larger := by
    rw [size_alloc, size_alloc]
    exact Nat.succ_le_succ mirrors.larger

/-- What is no cell of a heap is renamed to what is no cell of its mirror. -/
theorem beyond_iff (mirrors : heap.Mirrors names twin) (cell : CellId)
    : twin.cells.size ≤ (names cell).index ↔ heap.cells.size ≤ cell.index := by
  constructor
  · intro beyond
    obtain ⟨count, more⟩ := Nat.le.dest beyond
    have same : names cell = names ⟨heap.cells.size + count⟩ := by
      rw [mirrors.fresh, more]
    rw [mirrors.injective same]
    exact Nat.le_add_right _ _
  · intro beyond
    obtain ⟨count, more⟩ := Nat.le.dest beyond
    obtain ⟨index⟩ := cell
    obtain rfl : heap.cells.size + count = index := more
    rw [mirrors.fresh]
    exact Nat.le_add_right _ _

/-- What is written to a cell and to the renamed one may be renamed, too. -/
theorem write (mirrors : heap.Mirrors names twin) (target : CellId) (value : Value)
    : (heap.write target value).Mirrors names
        (twin.write (names target) (value.rename names)) where
  injective := mirrors.injective
  read cell := by
    have same : names cell = names target ↔ cell = target := mirrors.injective.eq_iff
    have inside : (names target).index < twin.cells.size ↔ target.index < heap.cells.size := by
      rw [← not_iff_not, Nat.not_lt, Nat.not_lt]
      exact mirrors.beyond_iff target
    simp only [read_write, same, inside, mirrors.read]
    split <;> rfl
  fresh count := by
    rw [size_write, size_write]
    exact mirrors.fresh count
  larger := by
    rw [size_write, size_write]
    exact mirrors.larger

end Mirrors

/-- (skipping size names) is names after one more cell was made in the mirror of a heap of that
size: cells to come are renamed to the ones behind.
-/
def skipping (size : Nat) (names : CellId → CellId) (cell : CellId) : CellId :=
  if cell.index < size then names cell else ⟨(names cell).index + 1⟩

theorem skipping_below {size : Nat} {cell : CellId} (below : cell.index < size)
    (names : CellId → CellId)
    : skipping size names cell = names cell :=
  if_pos below

namespace Mirrors

variable {names : CellId → CellId} {heap twin : Heap}

/-- What is a cell of a heap is renamed to one that its mirror had before. -/
theorem skipping_inside_iff (mirrors : heap.Mirrors names twin) (cell : CellId)
    : (skipping heap.cells.size names cell).index < twin.cells.size ↔
        cell.index < heap.cells.size := by
  have inside := not_congr (mirrors.beyond_iff cell)
  rw [Nat.not_le, Nat.not_le] at inside
  unfold skipping
  split
  · next below => exact inside
  · next beyond =>
      have outside := mt inside.mp beyond
      simp only [beyond, iff_false, Nat.not_lt]
      omega

/-- A cell that is made in the mirror of a heap only is skipped by new names. -/
theorem skip (mirrors : heap.Mirrors names twin) (closed : heap.Closed) (object : Object)
    : heap.Mirrors (skipping heap.cells.size names) (twin.alloc object).2 where
  injective first second same := by
    have side := mirrors.skipping_inside_iff second
    rw [← same, mirrors.skipping_inside_iff first] at side
    by_cases below : first.index < heap.cells.size
    · rw [skipping_below below, skipping_below (side.mp below)] at same
      exact mirrors.injective same
    · rw [skipping, skipping, if_neg below, if_neg (mt side.mpr below)] at same
      exact mirrors.injective (congrArg CellId.mk (Nat.succ.inj (CellId.mk.inj same)))
  read cell := by
    have side := mirrors.skipping_inside_iff cell
    by_cases below : cell.index < heap.cells.size
    · have inside := side.mpr below
      rw [read_alloc, if_neg (Nat.ne_of_lt inside), skipping_below below, mirrors.read]
      refine congrArg (Object.mk _) (Value.rename_congr fun part held => ?_).symm
      exact skipping_below (closed part (mem_parts held)) names
    · have beyond := (mirrors.beyond_iff cell).mpr (Nat.le_of_not_lt below)
      rw [read_beyond (Nat.le_of_not_lt below), skipping, if_neg below, read_beyond]
      · rfl
      · rw [size_alloc]
        exact Nat.succ_le_succ beyond
  fresh count := by
    rw [skipping, if_neg (Nat.not_lt.mpr (Nat.le_add_right _ count)), mirrors.fresh, size_alloc,
      Nat.add_right_comm]
  larger := by
    rw [size_alloc]
    exact Nat.le_succ_of_le mirrors.larger

/-- A heap has not lost cells if names that skip one are still good. -/
theorem size_le_of_skipping {after twin' : Heap} (mirrors : heap.Mirrors names twin)
    (later : after.Mirrors (skipping heap.cells.size names) twin')
    : heap.cells.size ≤ after.cells.size := by
  refine Nat.le_of_not_lt fun less => ?_
  -- The last cell of the heap before and the one behind it would have had the same name.
  obtain ⟨count, more⟩ := Nat.exists_eq_add_of_lt less
  have last := later.fresh count
  have behind := later.fresh (count + 1)
  rw [skipping_below (by simp only; omega)] at last
  rw [← Nat.add_assoc, ← more, skipping, if_neg (Nat.lt_irrefl _), mirrors.next] at behind
  have same : names ⟨after.cells.size + count⟩ = names ⟨heap.cells.size⟩ := by
    rw [last, mirrors.next]
    exact congrArg CellId.mk (Nat.succ.inj (CellId.mk.inj behind)).symm
  have place := CellId.mk.inj (mirrors.injective same)
  omega

end Mirrors

-----------------------------------------------------------------------------------------
-- Actions and comparisons in mirrored heaps
-----------------------------------------------------------------------------------------

/-- (Mirrored names heap twin change action other) says that an action on a heap and another one on
its mirror give the same under new names, and leave heaps that are mirrors again.
-/
structure Mirrored {α β : Type} (names : CellId → CellId) (heap twin : Heap) (change : α → β)
    (action : StateM Heap α) (other : StateM Heap β)
    : Prop where
  result : (other twin).1 = change (action heap).1
  heap : (action heap).2.Mirrors names (other twin).2

namespace Mirrored

variable {names : CellId → CellId} {heap twin : Heap} {α β γ δ : Type}

theorem new (mirrors : heap.Mirrors names twin) (type : TypeId) (value : Value)
    : Mirrored names heap twin names (Heap.new type value) (Heap.new type (value.rename names)) :=
  ⟨mirrors.next.symm, mirrors.alloc ⟨type, value⟩⟩

theorem map {action : StateM Heap α} {other : StateM Heap β} {change : α → β} {change' : γ → δ}
    {first : α → γ} {second : β → δ} (made : Mirrored names heap twin change action other)
    (agree : ∀ value, second (change value) = change' (first value))
    : Mirrored names heap twin change' (first <$> action) (second <$> other) :=
  ⟨(congrArg second made.result).trans (agree _), made.heap⟩

/-- Actions on the elements of two lists are mirrored together, by induction over the lists. What is
known of the elements stays while others have their turn.
-/
theorem mapM (change : α → StateM Heap β) (other : γ → StateM Heap δ) (moved : α → γ)
    (given : β → δ) (known : α → Heap → Prop)
    (each : ∀ element heap twin, known element heap → heap.Mirrors names twin →
      Mirrored names heap twin given (change element) (other (moved element)))
    (stays : ∀ element another heap, known another heap → known another (change element heap).2)
    (elements : List α) (all : ∀ element ∈ elements, known element heap)
    (mirrors : heap.Mirrors names twin)
    : Mirrored names heap twin (List.map given) (elements.mapM change)
        ((elements.map moved).mapM other) := by
  induction elements generalizing heap twin with
  | nil => exact ⟨rfl, mirrors⟩
  | cons first rest ih =>
      obtain ⟨here, later⟩ := List.forall_mem_cons.mp all
      obtain ⟨result, after⟩ := each first heap twin here mirrors
      obtain ⟨results, ended⟩ :=
        ih (fun element among => stays first element heap (later element among))
        after
      rw [List.map_cons, List.mapM_cons, List.mapM_cons]
      refine ⟨?_, ended⟩
      show (other (moved first) twin).1 :: _ = given (change first heap).1 :: _
      rw [result]
      exact congrArg _ results

/-- Replacing the parts of a value is mirrored when the parts are replaced so. -/
theorem mapParts {change other : CellId → StateM Heap CellId} (known : CellId → Heap → Prop)
    (each : ∀ cell heap twin, known cell heap → heap.Mirrors names twin →
      Mirrored names heap twin names (change cell) (other (names cell)))
    (stays : ∀ cell another heap, known another heap → known another (change cell heap).2)
    {value : Value} (all : ∀ part ∈ value.parts, known part heap)
    (mirrors : heap.Mirrors names twin)
    : Mirrored names heap twin (Value.rename names) (value.mapParts change)
        ((value.rename names).mapParts other) := by
  cases value with
  | list elements =>
      exact (mapM change other names names known each stays elements all mirrors).map fun _ => rfl
  | external value? =>
      cases value? with
      | none => exact ⟨rfl, mirrors⟩
      | some cell =>
          have made := each cell heap twin (all cell (List.mem_singleton_self cell)) mirrors
          exact ⟨congrArg (fun cell => Value.external (some cell)) made.result, made.heap⟩
  | object members =>
      let moved (member : Nat × CellId) := (member.1, names member.2)
      let within (change : CellId → StateM Heap CellId) (member : Nat × CellId) :=
        (member.1, ·) <$> change member.2
      have made := mapM (within change) (within other) moved moved (fun member => known member.2)
        (fun member heap twin here mirrors =>
          (each member.2 heap twin here mirrors).map fun _ => rfl)
        (fun member another heap => stays member.2 another.2 heap) members
        (fun member among => all member.2 (List.mem_map_of_mem among)) mirrors
      exact made.map fun _ => rfl
  | _ => exact ⟨rfl, mirrors⟩

/-- Putting a value into a new cell is mirrored when making the value is. -/
theorem newOf {make other : StateM Heap Value}
    (made : Mirrored names heap twin (Value.rename names) make other) {type type' : TypeId}
    (same : type' = type)
    : Mirrored names heap twin names (do Heap.new type (← make)) (do Heap.new type' (← other)) := by
  have stored := new made.heap type (make heap).1
  rw [← made.result] at stored
  rw [same]
  exact ⟨stored.result, stored.heap⟩

/-- Copying a cell down to a depth that it does not reach is mirrored, by induction over the depth.
-/
theorem copyWithin {depth more : Nat} {cell : CellId} (shallow : heap.Shallow depth cell)
    (deeper : depth ≤ more) (mirrors : heap.Mirrors names twin)
    : Mirrored names heap twin names (Heap.copyWithin depth cell)
        (Heap.copyWithin more (names cell)) := by
  induction depth generalizing more cell heap twin with
  | zero => exact shallow.elim
  | succ depth ih =>
      cases more with
      | zero => exact absurd deeper (Nat.not_succ_le_zero depth)
      | succ more =>
          have parts := mapParts (fun cell heap => heap.Shallow depth cell)
            (fun cell heap twin shallow => ih shallow (Nat.le_of_succ_le_succ deeper))
            (fun cell _ _ shallow => shallow.copyWithin depth cell)
            shallow.2 mirrors
          have made := newOf parts (mirrors.type cell)
          rw [← mirrors.value] at made
          exact ⟨made.result, made.heap⟩

/-- Copying a value of a tidy heap is mirrored. -/
theorem copyValue (value : Value) (tidy : heap.Tidy)
    (present : ∀ part ∈ value.parts, part.index < heap.cells.size)
    (mirrors : heap.Mirrors names twin)
    : Mirrored names heap twin (Value.rename names) (Heap.copyValue value)
        (Heap.copyValue (value.rename names)) :=
  have made := mapParts (fun cell heap' => heap'.Shallow heap.cells.size cell)
    (fun _ _ _ shallow => copyWithin shallow mirrors.larger)
    (fun cell _ _ shallow => shallow.copyWithin _ cell)
    (fun part among => tidy.shallow (present part among)) mirrors
  ⟨made.result, made.heap⟩

/-- Copying a cell of a tidy heap is mirrored. -/
theorem copy (tidy : heap.Tidy) (mirrors : heap.Mirrors names twin) (cell : CellId)
    : Mirrored names heap twin names (Heap.copy cell) (Heap.copy (names cell)) := by
  have parts := copyValue (heap.value cell) tidy
    (fun part held => tidy.closed part (mem_parts held)) mirrors
  have made := newOf parts (mirrors.type cell)
  rw [← mirrors.value] at made
  exact ⟨made.result, made.heap⟩

theorem sliceValue_rename (registry : Registry) (base : TypeId) (value : Value)
    : sliceValue registry base (value.rename names) =
        (sliceValue registry base value).rename names := by
  cases value with
  | object members =>
      simp only [Value.rename, sliceValue, List.filter_map]
      rfl
  | _ => rfl

/-- Copying the part of an object that belongs to a class is mirrored. -/
theorem slicedCopy (tidy : heap.Tidy) (mirrors : heap.Mirrors names twin) (registry : Registry)
    (base : TypeId) (cell : CellId)
    : Mirrored names heap twin names (Heap.slicedCopy registry base cell)
        (Heap.slicedCopy registry base (names cell)) := by
  have fewer (part : CellId) (held : part ∈ (sliceValue registry base (heap.value cell)).parts)
      : part.index < heap.cells.size := by
    refine tidy.closed part (mem_parts (?_ : part ∈ (heap.value cell).parts))
    cases found : heap.value cell with
    | object members =>
        rw [found] at held
        exact List.Sublist.subset (List.Sublist.map Prod.snd List.filter_sublist) held
    | _ => rwa [found] at held
  have parts := copyValue _ tidy fewer mirrors
  have made := newOf parts (rfl : base = base)
  rw [← sliceValue_rename, ← mirrors.value] at made
  exact ⟨made.result, made.heap⟩

/-- Making a default of a type is mirrored, by induction over the depth. -/
theorem defaultWithin (mirrors : heap.Mirrors names twin) (registry : Registry) (depth : Nat)
    (type : TypeId)
    : Mirrored names heap twin names (Heap.defaultWithin registry depth type)
        (Heap.defaultWithin registry depth type) := by
  induction depth generalizing heap twin type with
  | zero => exact new mirrors type .void
  | succ depth ih =>
      unfold Heap.defaultWithin
      split
      case h_14 =>
        let make (member : Member) : StateM Heap (Nat × CellId) :=
          (member.index, ·) <$> Heap.defaultWithin registry depth (registry.decayed member.type)
        have members := mapM make make id (fun member => (member.1, names member.2))
          (fun _ _ => True)
          (fun member _ _ _ mirrors =>
            (ih mirrors (registry.decayed member.type)).map fun _ => rfl)
          (fun _ _ _ known => known) (registry.allMembers type) (fun _ _ => trivial) mirrors
        rw [List.map_id] at members
        have objects : Mirrored names heap twin (Value.rename names) (.object <$> _)
            (.object <$> _) :=
          members.map fun _ => rfl
        have made := newOf objects (rfl : type = type)
        exact ⟨made.result, made.heap⟩
      all_goals exact new mirrors type _

theorem createDefault (mirrors : heap.Mirrors names twin) (registry : Registry) (type : TypeId)
    : Mirrored names heap twin names (Heap.createDefault registry type)
        (Heap.createDefault registry type) :=
  defaultWithin mirrors registry _ _

end Mirrored

namespace Mirrors

variable {names : CellId → CellId} {heap twin : Heap}

/-- Comparing cells down to a depth that the first one does not reach gives the same in mirrored
heaps, by induction over the depth.
-/
theorem sameWithin (mirrors : heap.Mirrors names twin) {depth more : Nat} {a : CellId}
    (shallow : heap.Shallow depth a) (deeper : depth ≤ more) (b : CellId)
    : twin.sameWithin more (names a) (names b) = heap.sameWithin depth a b := by
  induction depth generalizing more a b with
  | zero => exact shallow.elim
  | succ depth ih =>
      cases more with
      | zero => exact absurd deeper (Nat.not_succ_le_zero depth)
      | succ more =>
          unfold Heap.sameWithin
          simp only [mirrors.read, Object.rename]
          rw [Value.sameBy_rename names (heap.read a).value (heap.read b).value
            fun part held cell =>
            ih (shallow.2 part held) (Nat.le_of_succ_le_succ deeper) cell]

/-- Whether two cells hold the same is the same in mirrored heaps. -/
theorem same (mirrors : heap.Mirrors names twin) (tidy : heap.Tidy) {a : CellId}
    (present : a.index < heap.cells.size) (b : CellId)
    : twin.same (names a) (names b) = heap.same a b :=
  mirrors.sameWithin (tidy.shallow present).deeper (Nat.succ_le_succ mirrors.larger) b

/-- The order of two values is the same in mirrored heaps. -/
theorem compare? (mirrors : heap.Mirrors names twin) (tidy : heap.Tidy) {a : Value}
    (present : ∀ part ∈ a.parts, part.index < heap.cells.size) (b : Value)
    : twin.compare? (a.rename names) (b.rename names) = heap.compare? a b := by
  have equal : twin.sameValue (a.rename names) (b.rename names) = heap.sameValue a b :=
    Value.sameBy_rename names a b fun part held cell =>
      mirrors.sameWithin (tidy.shallow (present part held)) mirrors.larger cell
  cases a <;> cases b <;> first
    | rfl
    | exact congrArg (fun same : Bool => if same then some Ordering.eq else none) equal

end Mirrors

end Heap

end BuildScript
