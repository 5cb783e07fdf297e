import BuildScript.Proofs.Run.HeapRenaming
import BuildScript.Proofs.Run.ValueSemantics
import BuildScript.Proofs.Sequence.Elements
import Mathlib.Data.List.Forall2

/-! The removal of equal elements from a list. As many are removed as the given limit allows,
beginning at one end of the list, and the removals from both ends are mirror images of each other.
Where nothing limits a removal, nothing is left to be found.
-/

namespace BuildScript.ListRemoval

open Effect Heap

variable {environment : Environment} {result : TypeId} {store : Store} {self wanted most : Handle}
  {elements kept : List CellId}

-----------------------------------------------------------------------------------------
-- Elements that are removed
-----------------------------------------------------------------------------------------

/-- (equals store wanted cell) says whether a cell holds the same as a value in use. -/
def equals (store : Store) (wanted : Handle) (cell : CellId) : Bool :=
  store.heap.same cell wanted.cell

/-- (limit store most) is the number of elements that may be removed at most. -/
def limit (store : Store) (most : Handle) : Nat := (store.heap.value most.cell).asInt.toInt.toNat

theorem limit_le_unlimited (store : Store) (most : Handle)
    : limit store most ≤ unlimited.toNat :=
  Int.toNat_le_toNat (Int64.toInt_le _)

-----------------------------------------------------------------------------------------
-- Outcomes
-----------------------------------------------------------------------------------------

/-- (Leaves self kept number outcome) says that an operation has left some elements in a list and
has given a number.
-/
def Leaves (self : Handle) (kept : List CellId) (number : Int)
    (outcome : Except Fault Handle × Store)
    : Prop :=
  ∃ given value, outcome.1 = .ok given
    ∧ outcome.2.heap.value self.cell = .list kept
    ∧ outcome.2.heap.value given.cell = .int value ∧ value.toInt = number

/-- (Alike heap first second) says that two outcomes are the same but for the places of new cells:
both operations have given the same, left the same in all cells of a heap, and asked for the same.
-/
structure Alike (heap : Heap) (first second : Except Fault Handle × Store) : Prop where
  given : ∃ handle handle', first.1 = .ok handle ∧ second.1 = .ok handle'
    ∧ second.2.heap.read handle'.cell = first.2.heap.read handle.cell
  left : ∀ cell : CellId, cell.index < heap.cells.size →
    second.2.heap.read cell = first.2.heap.read cell
  system : second.2.system = first.2.system

/-- (nothing environment) is what an operation gives that gives nothing. -/
def nothing (environment : Environment) : Object := ⟨environment.builtins.void, .void⟩

/-- (number environment count) is what an operation gives that counts something. -/
def number (environment : Environment) (count : Nat) : Object :=
  ⟨environment.builtins.int, .int (Int64.ofNat count)⟩

/-- (next store) is a handle on the cell that is made next. -/
def next (store : Store) : Handle := .owned ⟨store.heap.cells.size⟩

/-- (edited store self elements given) is a store in which the elements of a list were replaced and
a new value was made.
-/
def edited (store : Store) (self : Handle) (elements : List CellId) (given : Object) : Store :=
  ⟨((store.heap.write self.cell (.list elements)).alloc given).2, store.system⟩

/-- Replacing the elements of a list and making a new value ends in an edited store. -/
theorem run_edited (given : Object)
    : ((.ok (.owned ((store.heap.write self.cell (.list kept)).alloc given).1),
          ⟨((store.heap.write self.cell (.list kept)).alloc given).2, store.system⟩) :
        Except Fault Handle × Store) =
        (.ok (next store), edited store self kept given) := by
  rw [alloc, size_write]
  rfl

theorem size_edited (given : Object)
    : (edited store self kept given).heap.cells.size = store.heap.cells.size + 1 := by
  rw [edited, size_alloc, size_write]

theorem read_edited (inside : self.cell.index < store.heap.cells.size) (given : Object)
    (cell : CellId)
    : (edited store self kept given).heap.read cell =
        if cell.index = store.heap.cells.size then given
        else if cell = self.cell then { store.heap.read cell with value := .list kept }
        else store.heap.read cell := by
  rw [edited, read_alloc, size_write, read_write]
  simp only [inside, and_true]

/-- Of the cells that were there, an edit changes the one of its list only. -/
theorem read_edited_old (inside : self.cell.index < store.heap.cells.size) (given : Object)
    {cell : CellId} (old : cell.index < store.heap.cells.size)
    : (edited store self kept given).heap.read cell =
        if cell = self.cell then { store.heap.read cell with value := .list kept }
        else store.heap.read cell :=
  (read_edited inside given cell).trans (if_neg (Nat.ne_of_lt old))

/-- Of two edits of one list the later one counts. -/
theorem read_edited_edited (inside : self.cell.index < store.heap.cells.size)
    (given later : Object) {cell : CellId} (old : cell.index < store.heap.cells.size + 1)
    : (edited (edited store self elements given) self kept later).heap.read cell =
        (edited store self kept given).heap.read cell := by
  have inside' : self.cell.index < (edited store self elements given).heap.cells.size := by
    rw [size_edited]
    exact Nat.lt_succ_of_lt inside
  rw [read_edited inside', size_edited, if_neg (Nat.ne_of_lt old), read_edited inside,
    read_edited inside]
  split
  · next same =>
      have other : cell.index ≠ store.heap.cells.size := by
        rw [same]
        exact Nat.ne_of_lt inside
      rw [if_neg other, if_neg other]
  · rfl

theorem value_edited (inside : self.cell.index < store.heap.cells.size) (given : Object)
    : (edited store self kept given).heap.value self.cell = .list kept := by
  rw [Heap.value, read_edited_old inside given inside, if_pos rfl]

theorem read_next (inside : self.cell.index < store.heap.cells.size) (given : Object)
    : (edited store self kept given).heap.read (next store).cell = given :=
  (read_edited inside given _).trans (if_pos rfl)

theorem edited_leaves (inside : self.cell.index < store.heap.cells.size) {count : Nat}
    (limited : count ≤ unlimited.toNat)
    : Leaves self kept count
        (.ok (next store), edited store self kept (number environment count)) := by
  have fits : (Int64.ofNat count).toInt = count := by
    rw [unlimited, Int64.toInt_maxValue] at limited
    exact Int64.toInt_ofNat_of_lt (by omega)
  exact ⟨_, Int64.ofNat count, rfl, value_edited inside _,
    congrArg Object.value (read_next inside _), fits⟩

-----------------------------------------------------------------------------------------
-- What the operations do
-----------------------------------------------------------------------------------------

/-- A value with elements is a list. -/
theorem list_of_elements {value : Value} (some : value.elements ≠ [])
    : value = .list value.elements := by
  cases value with
  | list elements => rfl
  | _ => exact absurd rfl some

section

variable (list : store.heap.value self.cell = .list elements)

include list

theorem elements_of : (store.heap.read self.cell).value.elements = elements :=
  congrArg Value.elements list

/-- A list is in a cell of its heap. -/
theorem list_inside : self.cell.index < store.heap.cells.size := by
  refine Nat.lt_of_not_le fun beyond => ?_
  rw [Heap.value, read_beyond beyond] at list
  cases list

theorem perform_reverse
    : ListOperation.reverse.perform self [] result environment store =
        (.ok (next store), edited store self elements.reverse (nothing environment)) := by
  rw [← elements_of list]
  exact run_edited _

theorem perform_removeFirst
    : ListOperation.removeFirst.perform self [wanted, most] result environment store =
        let removal := Sequence.removeFirst (equals store wanted) (limit store most) elements
        (.ok (next store), edited store self removal.1 (number environment removal.2)) := by
  rw [← elements_of list]
  exact run_edited _

theorem perform_removeLast
    : ListOperation.removeLast.perform self [wanted, most] result environment store =
        let removal := Sequence.removeLast (equals store wanted) (limit store most) elements
        (.ok (next store), edited store self removal.1 (number environment removal.2)) := by
  rw [← elements_of list]
  exact run_edited _

theorem perform_remove
    : ListOperation.remove.perform self [wanted] result environment store =
        let removal := Sequence.removeFirst (equals store wanted) unlimited.toNat elements
        (.ok (next store), edited store self removal.1 (number environment removal.2)) := by
  rw [← elements_of list]
  exact run_edited _

/-- A search that finds nothing gives minus one. -/
theorem perform_find_none (none : ∀ element ∈ elements, equals store wanted element = false)
    : ListOperation.find.perform self [wanted] result environment store =
        (.ok (next store),
          ⟨(store.heap.alloc ⟨environment.builtins.int, .int (-1)⟩).2, store.system⟩) := by
  have nowhere : elements.findIdx? (equals store wanted) = Option.none :=
    List.findIdx?_eq_none_iff.mpr none
  have performed : ListOperation.find.perform self [wanted] result environment store =
      Effect.place (((store.heap.read self.cell).value.elements.findIdx?
        (equals store wanted)).map (0 + ·)) environment store :=
    rfl
  rw [performed, elements_of list, nowhere]
  rfl

/-- Work on a list does not change which of the elements that it keeps are the same as another
value.
-/
theorem equals_after (tidy : store.heap.Tidy) (operation : ListOperation)
    (operands : List Handle) {outcome : Except Fault Handle} {after : Store}
    (performed : operation.perform self operands result environment store = (outcome, after))
    (present : wanted.cell.index < store.heap.cells.size)
    (left : after.heap.value self.cell = .list kept) {element : CellId} (among : element ∈ elements)
    (still : element ∈ kept)
    : equals after wanted element = equals store wanted element := by
  have held : store.heap.PartOf element self.cell := by
    rw [PartOf, list]
    exact among
  obtain ⟨made, works⟩ := (Operation.list operation).works self operands result environment store
    tidy.closed held.present
  rw [Operation.perform_list, performed] at works
  refine works.same tidy held ?_ present
  rw [PartOf, left]
  exact still

end

-----------------------------------------------------------------------------------------
-- Removals
-----------------------------------------------------------------------------------------

/-- Removes equal elements from the front of the reversed list, and reverses it again. -/
def removeReversed (self wanted most : Handle) (result : TypeId) : Effect Handle := do
  let _ ← ListOperation.reverse.perform self [] result
  let number ← ListOperation.removeFirst.perform self [wanted, most] result
  let _ ← ListOperation.reverse.perform self [] result
  return number

/-- Removes all equal elements, and searches for one of them. -/
def findRemoved (self wanted : Handle) (result : TypeId) : Effect Handle := do
  let _ ← ListOperation.remove.perform self [wanted] result
  ListOperation.find.perform self [wanted] result

section

variable (list : store.heap.value self.cell = .list elements)

include list

theorem removeFirst_leaves
    : ∃ front back, elements = front ++ back
        ∧ front.countP (equals store wanted) =
            min (limit store most) (elements.countP (equals store wanted))
        ∧ Leaves self (front.filter (!equals store wanted ·) ++ back)
            (front.countP (equals store wanted))
            (ListOperation.removeFirst.perform self [wanted, most] result environment store) := by
  obtain ⟨front, back, split, counted, removal⟩ :=
    Sequence.removeFirst_eq (equals store wanted) (limit store most) elements
  refine ⟨front, back, split, counted, ?_⟩
  rw [perform_removeFirst list, removal, counted]
  exact edited_leaves (list_inside list)
    (Nat.le_trans (Nat.min_le_left _ _) (limit_le_unlimited store most))

theorem removeLast_leaves
    : ∃ front back, elements = front ++ back
        ∧ back.countP (equals store wanted) =
            min (limit store most) (elements.countP (equals store wanted))
        ∧ Leaves self (front ++ back.filter (!equals store wanted ·))
            (back.countP (equals store wanted))
            (ListOperation.removeLast.perform self [wanted, most] result environment store) := by
  obtain ⟨front, back, split, counted, removal⟩ :=
    Sequence.removeLast_eq (equals store wanted) (limit store most) elements
  refine ⟨front, back, split, counted, ?_⟩
  rw [perform_removeLast list, removal, counted]
  exact edited_leaves (list_inside list)
    (Nat.le_trans (Nat.min_le_left _ _) (limit_le_unlimited store most))

variable (few : (elements.length : Int) ≤ unlimited)

include few

/-- All equal elements are removed from a list that is not longer than the greatest limit. -/
theorem perform_remove_all
    : ListOperation.remove.perform self [wanted] result environment store =
        (.ok (next store), edited store self (elements.filter (!equals store wanted ·))
          (number environment (elements.countP (equals store wanted)))) := by
  have bound : elements.countP (equals store wanted) ≤ elements.length := List.countP_le_length
  rw [perform_remove list, Sequence.removeFirst_all (by omega)]

theorem remove_leaves
    : Leaves self (elements.filter (!equals store wanted ·))
        (elements.countP (equals store wanted))
        (ListOperation.remove.perform self [wanted] result environment store) := by
  have bound : elements.countP (equals store wanted) ≤ elements.length := List.countP_le_length
  rw [perform_remove_all list few]
  exact edited_leaves (list_inside list) (by omega)

/-- Nothing is found after all equal elements have been removed. -/
theorem findRemoved_leaves (tidy : store.heap.Tidy)
    (present : wanted.cell.index < store.heap.cells.size)
    : Leaves self (elements.filter (!equals store wanted ·)) (-1)
        (findRemoved self wanted result environment store) := by
  have inside := list_inside list
  have removed : ListOperation.remove.perform self [wanted] result environment store = _ :=
    perform_remove_all list few
  generalize ends : edited store self (elements.filter (!equals store wanted ·)) _ = after
    at removed
  have left : after.heap.value self.cell = .list (elements.filter (!equals store wanted ·)) :=
    ends ▸ value_edited inside _
  have none : ∀ element ∈ elements.filter (!equals store wanted ·),
      equals after wanted element = false := by
    intro element among
    obtain ⟨old, different⟩ := List.mem_filter.mp among
    rw [equals_after list tidy .remove [wanted] removed present left old among]
    simpa using different
  rw [findRemoved, run_bind, removed]
  show Leaves _ _ _ (ListOperation.find.perform self [wanted] result environment after)
  rw [perform_find_none left none]
  have inside' := list_inside left
  refine ⟨next after, -1, rfl, ?_, ?_, rfl⟩
  · rw [value_alloc, if_neg (Nat.ne_of_lt inside'), left]
  · exact (value_alloc ..).trans (if_pos rfl)

end

/-- Reversing a list leaves a limit as it is, even if the limit is the list. -/
theorem limit_edited (list : store.heap.value self.cell = .list elements) (given : Object)
    (present : most.cell.index < store.heap.cells.size)
    : limit (edited store self kept given) most = limit store most := by
  rw [limit, limit, Heap.value, read_edited_old (list_inside list) given present]
  split
  · next same =>
      rw [same, list]
      rfl
  · rfl

/-- The removal from the front of the reversed list, step by step. -/
theorem removeReversed_run (tidy : store.heap.Tidy)
    (list : store.heap.value self.cell = .list elements)
    (present : wanted.cell.index < store.heap.cells.size)
    (given : most.cell.index < store.heap.cells.size)
    : removeReversed self wanted most result environment store =
        let removal :=
          Sequence.removeFirst (equals store wanted) (limit store most) elements.reverse
        let middle := edited store self elements.reverse (nothing environment)
        let last := edited middle self removal.1 (number environment removal.2)
        (.ok (next middle), edited last self removal.1.reverse (nothing environment)) := by
  have reversed : ListOperation.reverse.perform self [] result environment store = _ :=
    perform_reverse list
  have list' : (edited store self elements.reverse (nothing environment)).heap.value self.cell =
      .list elements.reverse :=
    value_edited (list_inside list) _
  have agree : ∀ element ∈ elements.reverse,
      equals (edited store self elements.reverse (nothing environment)) wanted element =
        equals store wanted element := fun element among =>
    equals_after list tidy .reverse [] reversed present list' (List.mem_reverse.mp among) among
  rw [removeReversed, run_bind, reversed]
  dsimp only
  rw [run_bind, perform_removeFirst list', Sequence.removeFirst_congr _ agree,
    limit_edited list _ given]
  dsimp only
  rw [run_bind, perform_reverse (value_edited (list_inside list') _)]
  rfl

/-- Removing from the back is removing from the front of the reversed list. -/
theorem removeReversed_alike (tidy : store.heap.Tidy)
    (list : store.heap.value self.cell = .list elements)
    (present : wanted.cell.index < store.heap.cells.size)
    (given : most.cell.index < store.heap.cells.size)
    : Alike store.heap
        (ListOperation.removeLast.perform self [wanted, most] result environment store)
        (removeReversed self wanted most result environment store) := by
  rw [perform_removeLast list, Sequence.removeLast_eq_reverse,
    removeReversed_run tidy list present given]
  generalize Sequence.removeFirst (equals store wanted) (limit store most) elements.reverse =
    removal
  have inside := list_inside list
  have inside' : self.cell.index <
      (edited store self elements.reverse (nothing environment)).heap.cells.size := by
    rw [size_edited]
    exact Nat.lt_succ_of_lt inside
  refine ⟨⟨_, _, rfl, rfl, ?_⟩, fun cell old => ?_, rfl⟩
  · exact (read_edited_edited inside' _ _ (Nat.lt_succ_self _)).trans
      ((read_next inside' _).trans (read_next inside _).symm)
  · refine (read_edited_edited inside' _ _ ?_).trans
      ((read_edited_edited inside _ _ (Nat.lt_succ_of_lt old)).trans ?_)
    · rw [size_edited]
      omega
    · exact (read_edited_old inside _ old).trans (read_edited_old inside _ old).symm

/-- Removing equal elements from the two ends of a list is the same but for the direction. As many
elements as there are equal ones, and as the limit allows, are removed from one end, the others
stay in their order, and their number is given. Removing from the back is removing from the front
between two reversals of the list. Removing without a limit is removing with one that is not reached
or is the greatest of all. If the list has no more elements than that, then all equal ones are gone,
and none is found.
-/
theorem removals_mirror (environment : Environment) (result : TypeId) {store : Store}
    {self wanted most : Handle} {elements : List CellId} (tidy : store.heap.Tidy)
    (list : store.heap.value self.cell = .list elements)
    (present : wanted.cell.index < store.heap.cells.size)
    (given : most.cell.index < store.heap.cells.size)
    : let equal := equals store wanted
      let count := min (limit store most) (elements.countP equal)
      let run (effect : Effect Handle) := effect environment store
      (∃ front back, elements = front ++ back ∧ front.countP equal = count
        ∧ Leaves self (front.filter (!equal ·) ++ back) count
            (run (ListOperation.removeFirst.perform self [wanted, most] result)))
      ∧ (∃ front back, elements = front ++ back ∧ back.countP equal = count
        ∧ Leaves self (front ++ back.filter (!equal ·)) count
            (run (ListOperation.removeLast.perform self [wanted, most] result)))
      ∧ Alike store.heap (run (ListOperation.removeLast.perform self [wanted, most] result))
          (run (removeReversed self wanted most result))
      ∧ (elements.countP equal ≤ limit store most
            ∨ (store.heap.value most.cell).asInt = Int64.maxValue →
          run (ListOperation.remove.perform self [wanted] result) =
            run (ListOperation.removeFirst.perform self [wanted, most] result))
      ∧ ((elements.length : Int) ≤ Int64.maxValue.toInt →
          Leaves self (elements.filter (!equal ·)) (elements.countP equal)
              (run (ListOperation.remove.perform self [wanted] result))
          ∧ Leaves self (elements.filter (!equal ·)) (-1)
              (run (findRemoved self wanted result))) := by
  refine ⟨?_, ?_, removeReversed_alike tidy list present given, fun unreached => ?_,
    fun few => ?_⟩
  · obtain ⟨front, back, split, counted, leaves⟩ := removeFirst_leaves list
    exact ⟨front, back, split, counted, counted ▸ leaves⟩
  · obtain ⟨front, back, split, counted, leaves⟩ := removeLast_leaves list
    exact ⟨front, back, split, counted, counted ▸ leaves⟩
  · dsimp only
    rw [perform_remove list, perform_removeFirst list]
    rcases unreached with enough | greatest
    · rw [Sequence.removeFirst_all enough,
        Sequence.removeFirst_all (Nat.le_trans enough (limit_le_unlimited _ _))]
    · rw [limit, greatest, unlimited]
  · exact ⟨remove_leaves list few, findRemoved_leaves list few tidy present⟩

/-- A script with a list that holds two ones, and with a one that is removed at most once. -/
def removingText : String :=
  "list<int> all = \x7b1, 2, 1\x7d; int one = 1; int main() \x7b return 0; \x7d"

set_option maxRecDepth 100000 in
/-- The script above is accepted. At the end of a run two of the three elements of its list equal
the number beside it.
-/
theorem removing_text
    : ((Program.ofText? removingText).map fun program =>
        let machine := (program.lastMoment ⟨20, 20⟩).machine
        let store := machine.store
        match machine.globals.map (·.2) with
        | [one, all] =>
          let elements := (store.heap.value all.cell).elements
          (decide (one.cell.index < store.heap.cells.size), limit store one, elements.length,
            elements.countP (equals store one))
        | _ => default) = some (true, 1, 3, 2) := by
  decide +kernel

/-- Witness: one of two equal elements in a list is removed from either end, and none is found when
both of them are.
-/
theorem removals_mirror_removing
    : ∃ program one all, Program.ofText? removingText = some program ∧
        let moment := program.lastMoment ⟨20, 20⟩
        let run (effect : Effect Handle) :=
          effect ⟨program.registry, program.builtins⟩ moment.machine.store
        moment.machine.globals.map (·.2) = [one, all]
        ∧ (∃ kept, Leaves all kept 1
            (run (ListOperation.removeFirst.perform all [one, one] program.builtins.int)))
        ∧ (∃ kept, Leaves all kept 1
            (run (ListOperation.removeLast.perform all [one, one] program.builtins.int)))
        ∧ ∃ kept, Leaves all kept (-1) (run (findRemoved all one program.builtins.int)) := by
  obtain ⟨program, compiled, known⟩ := Option.map_eq_some_iff.mp removing_text
  have reached : program.Reaches ⟨20, 20⟩ (BuildSystem.ofRoot "/") (program.lastMoment ⟨20, 20⟩) :=
    program.reaches_end ⟨20, 20⟩ _
  have tidy : (program.lastMoment ⟨20, 20⟩).machine.store.heap.Tidy := ⟨_, reached.owned⟩
  dsimp only at known
  split at known
  case h_2 => exact absurd (congrArg Prod.fst known) Bool.false_ne_true
  case h_1 one all given =>
    simp only [Prod.mk.injEq, decide_eq_true_eq] at known
    obtain ⟨present, limited, length, counted⟩ := known
    refine ⟨program, one, all, compiled, given, ?_⟩
    generalize (program.lastMoment ⟨20, 20⟩).machine.store = store at *
    have list := list_of_elements (List.ne_nil_of_length_eq_add_one length)
    obtain ⟨⟨_, _, _, first, leavesFirst⟩, ⟨_, _, _, last, leavesLast⟩, _, _, unlimited⟩ :=
      removals_mirror ⟨program.registry, program.builtins⟩ program.builtins.int tidy list present
        present
    rw [limited, counted] at leavesFirst leavesLast
    rw [length] at unlimited
    have gone := unlimited (by decide)
    exact ⟨⟨_, leavesFirst⟩, ⟨_, leavesLast⟩, _, gone.2⟩

end BuildScript.ListRemoval
