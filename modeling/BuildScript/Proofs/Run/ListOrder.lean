import BuildScript.Proofs.Run.ListEdits
import BuildScript.Proofs.Run.Outcomes

/-! The order of values. Truth values, integers, texts, versions and enumerators are in one total
order each, and sorting, the search for extremes and the comparison operators go by it. Sorting puts
the cells of a list into the order of their values, so that the least value is in front then and the
greatest one at the back.
-/

namespace BuildScript

-----------------------------------------------------------------------------------------
-- Texts and versions
-----------------------------------------------------------------------------------------

/-- Changed sequences are in the order of the sequences if changed elements are in the order of the
elements, by induction over the first sequence.
-/
theorem lex_map_iff {α β : Type} {before : α → α → Prop} {before' : β → β → Prop} {change : α → β}
    (injective : ∀ x y, change x = change y → x = y)
    (agree : ∀ x y, before' (change x) (change y) ↔ before x y) (first second : List α)
    : List.Lex before' (first.map change) (second.map change) ↔ List.Lex before first second := by
  induction first generalizing second with
  | nil => cases second <;> simp
  | cons x first ih =>
      cases second with
      | nil => simp
      | cons y second =>
          have same : change x = change y ↔ x = y := ⟨injective x y, congrArg change⟩
          rw [List.map_cons, List.map_cons, List.cons_lex_cons_iff, List.cons_lex_cons_iff, agree,
            same, ih]

theorem compare_text_eq_lt (a b : String)
    : compare a b = .lt ↔
        List.Lex (· < ·) (a.toList.map Char.toNat) (b.toList.map Char.toNat) := by
  rw [lex_map_iff (fun c d => ?_) fun c d => ?_]
  · exact compareOfLessAndEq_eq_lt
  · exact Char.toNat_inj.mp
  · exact UInt32.lt_iff_toNat_lt.symm

namespace Version

theorem compare_eq_lt (a b : Version)
    : a.compare b = .lt ↔
        List.Lex (· < ·) (a.parts.map Int64.toInt) (b.parts.map Int64.toInt) := by
  have less (x y : Int64) : Ord.compare x y = .lt ↔ x.toInt < y.toInt := by
    rw [Std.compare_eq_lt, Int64.lt_iff_toInt_lt]
  have equal (x y : Int64) : Ord.compare x y = .eq ↔ x.toInt = y.toInt := by
    rw [Std.compare_eq_iff_eq, Int64.toInt_inj]
  simp only [compare, Ordering.then_eq_lt, Ordering.then_eq_eq, less, equal, parts, List.map_cons,
    List.map_nil, List.cons_lex_cons_iff, List.not_lex_nil]
  grind

theorem eq_of_compare (a b : Version) (equal : a.compare b = .eq) : a = b := by
  simp only [compare, Ordering.then_eq_eq, Std.compare_eq_iff_eq] at equal
  obtain ⟨⟨major, minor⟩, patch, tweak⟩ := equal
  cases a
  cases b
  rw [Version.mk.injEq]
  exact ⟨major, minor, patch, tweak⟩

end Version

-----------------------------------------------------------------------------------------
-- The order
-----------------------------------------------------------------------------------------

namespace Value

/-- (AtMost a b) says that a value is not greater than another one of its kind. What is false comes
before what is true, and enumerators come in the order of their places. Of two texts the first
characters that differ decide, and of two versions the first numbers.
-/
inductive AtMost : Value → Value → Prop where
  | bools {a b : Bool} (ordered : a = true → b = true) : AtMost (.bool a) (.bool b)
  | ints {a b : Int64} (ordered : a.toInt ≤ b.toInt) : AtMost (.int a) (.int b)
  | strings {a b : String}
      (ordered : a = b
        ∨ List.Lex (· < ·) (a.toList.map Char.toNat) (b.toList.map Char.toNat))
      : AtMost (.string a) (.string b)
  | versions {a b : Version}
      (ordered : a = b
        ∨ List.Lex (· < ·) (a.parts.map Int64.toInt) (b.parts.map Int64.toInt))
      : AtMost (.version a) (.version b)
  | enumerators {a b : Nat} (ordered : a ≤ b) : AtMost (.enumerator a) (.enumerator b)

end Value

open Value (AtMost)

/-- (Ranks make order) says that the values of a kind are compared by an order of what they are made
of. It is the order of values, it is total, and different values have different places in it.
-/
structure Ranks {β : Type} (make : β → Value) (order : β → β → Ordering) : Prop where
  leaf : ∀ x, (make x).parts = []
  compared : ∀ (heap : Heap) x y, heap.compare? (make x) (make y) = some (order x y)
  atMost : ∀ x y, AtMost (make x) (make y) ↔ (order x y).isLE = true
  lawful : ∀ x y, order x y = .eq → x = y
  transitive : Std.TransCmp order

namespace Ranks

variable {β : Type} {make : β → Value} {order : β → β → Ordering}

theorem bools : Ranks Value.bool compare where
  leaf _ := rfl
  compared _ _ _ := rfl
  atMost x y := by
    refine ⟨fun atMost => ?_, fun ordered => .bools ?_⟩
    · cases atMost with
      | bools ordered =>
          revert ordered
          cases x <;> cases y <;> decide
    · revert ordered
      cases x <;> cases y <;> decide
  lawful _ _ := Std.LawfulEqCmp.eq_of_compare
  transitive := inferInstance

theorem ints : Ranks Value.int compare where
  leaf _ := rfl
  compared _ _ _ := rfl
  atMost x y := by
    have place : (compare x y).isLE = true ↔ x.toInt ≤ y.toInt := by
      rw [← Int64.le_iff_toInt_le]
      exact Std.isLE_compare
    refine ⟨fun atMost => ?_, fun ordered => .ints (place.mp ordered)⟩
    cases atMost with
    | ints ordered => exact place.mpr ordered
  lawful _ _ := Std.LawfulEqCmp.eq_of_compare
  transitive := inferInstance

theorem strings : Ranks Value.string compare where
  leaf _ := rfl
  compared _ _ _ := rfl
  atMost x y := by
    rw [Ordering.isLE_iff_eq_lt_or_eq_eq, compare_text_eq_lt, Std.compare_eq_iff_eq]
    refine ⟨fun atMost => ?_, fun ordered => .strings ordered.symm⟩
    cases atMost with
    | strings ordered => exact ordered.symm
  lawful _ _ := Std.LawfulEqCmp.eq_of_compare
  transitive := inferInstance

theorem versions : Ranks Value.version Version.compare where
  leaf _ := rfl
  compared _ _ _ := rfl
  atMost x y := by
    have equal : x.compare y = .eq ↔ x = y :=
      ⟨Version.eq_of_compare x y, fun same => same ▸ Std.ReflCmp.compare_self⟩
    rw [Ordering.isLE_iff_eq_lt_or_eq_eq, Version.compare_eq_lt, equal]
    refine ⟨fun atMost => ?_, fun ordered => .versions ordered.symm⟩
    cases atMost with
    | versions ordered => exact ordered.symm
  lawful := Version.eq_of_compare
  transitive := inferInstance

theorem enumerators : Ranks Value.enumerator compare where
  leaf _ := rfl
  compared _ _ _ := rfl
  atMost x y := by
    refine ⟨fun atMost => ?_, fun ordered => .enumerators (Nat.isLE_compare.mp ordered)⟩
    cases atMost with
    | enumerators ordered => exact Nat.isLE_compare.mpr ordered
  lawful _ _ := Std.LawfulEqCmp.eq_of_compare
  transitive := inferInstance

/-- The order the other way round. -/
theorem atMost_swap (ranks : Ranks make order) (x y : β)
    : AtMost (make y) (make x) ↔ (order x y).isGE = true := by
  have := ranks.transitive
  rw [ranks.atMost, @Std.OrientedCmp.eq_swap _ order, Ordering.isLE_swap]

theorem refl (ranks : Ranks make order) (x : β) : AtMost (make x) (make x) := by
  have := ranks.transitive
  rw [ranks.atMost, @Std.ReflCmp.compare_self _ order]
  rfl

/-- Values neither of which is greater are the same. -/
theorem antisymm (ranks : Ranks make order) {x y : β} (first : AtMost (make x) (make y))
    (second : AtMost (make y) (make x))
    : x = y := by
  rw [ranks.atMost] at first
  rw [ranks.atMost_swap] at second
  exact ranks.lawful x y (Ordering.eq_eq_of_isLE_of_isGE first second)

end Ranks

end BuildScript

namespace BuildScript.ListOrder

open Heap Value

-----------------------------------------------------------------------------------------
-- Comparable values
-----------------------------------------------------------------------------------------

/-- (Comparable heap elements) says that the values in some cells are of one kind with an order.
Floating-point numbers have none, since one of them is no number.
-/
inductive Comparable (heap : Heap) (elements : List CellId) : Prop where
  | bools (all : ∀ cell ∈ elements, ∃ value, heap.value cell = .bool value)
  | ints (all : ∀ cell ∈ elements, ∃ value, heap.value cell = .int value)
  | strings (all : ∀ cell ∈ elements, ∃ value, heap.value cell = .string value)
  | versions (all : ∀ cell ∈ elements, ∃ value, heap.value cell = .version value)
  | enumerators (all : ∀ cell ∈ elements, ∃ value, heap.value cell = .enumerator value)

/-- (greater heap a b) says that the value in a cell comes after the one in another cell. -/
def greater (heap : Heap) (a b : CellId) : Bool :=
  heap.compare? (heap.value a) (heap.value b) == some .gt

variable {heap : Heap} {elements : List CellId} {a b : CellId}

/-- What can be compared is compared by an order of what it is made of, by cases on the kind. -/
theorem Comparable.ranked (comparable : Comparable heap elements)
    : ∃ (β : Type) (make : β → Value) (order : β → β → Ordering),
        Ranks make order ∧ ∀ cell ∈ elements, ∃ value, heap.value cell = make value := by
  cases comparable with
  | bools all => exact ⟨_, _, _, .bools, all⟩
  | ints all => exact ⟨_, _, _, .ints, all⟩
  | strings all => exact ⟨_, _, _, .strings, all⟩
  | versions all => exact ⟨_, _, _, .versions, all⟩
  | enumerators all => exact ⟨_, _, _, .enumerators, all⟩

namespace Comparable

/-- Two values that can be compared are at one of three places to each other, in any heap. -/
theorem compared (comparable : Comparable heap elements) (first : a ∈ elements)
    (second : b ∈ elements)
    : ∃ order, (∀ other : Heap, other.compare? (heap.value a) (heap.value b) = some order)
        ∧ (order.isLE = true ↔ AtMost (heap.value a) (heap.value b))
        ∧ (order.isGE = true ↔ AtMost (heap.value b) (heap.value a)) := by
  obtain ⟨β, make, order, ranks, all⟩ := comparable.ranked
  obtain ⟨x, madeA⟩ := all a first
  obtain ⟨y, madeB⟩ := all b second
  rw [madeA, madeB]
  exact ⟨order x y, fun other => ranks.compared other x y, (ranks.atMost x y).symm,
    (ranks.atMost_swap x y).symm⟩

theorem less_eq_false_iff (comparable : Comparable heap elements) (first : a ∈ elements)
    (second : b ∈ elements)
    : ListEdit.less heap a b = false ↔ AtMost (heap.value b) (heap.value a) := by
  obtain ⟨order, compared, -, isGE⟩ := comparable.compared first second
  rw [ListEdit.less, compared, ← isGE]
  cases order <;> decide

theorem greater_eq_false_iff (comparable : Comparable heap elements) (first : a ∈ elements)
    (second : b ∈ elements)
    : greater heap a b = false ↔ AtMost (heap.value a) (heap.value b) := by
  obtain ⟨order, compared, isLE, -⟩ := comparable.compared first second
  rw [greater, compared, ← isLE]
  cases order <;> decide

theorem antisymm (comparable : Comparable heap elements) (first : a ∈ elements)
    (second : b ∈ elements) (below : AtMost (heap.value a) (heap.value b))
    (above : AtMost (heap.value b) (heap.value a))
    : heap.value a = heap.value b := by
  obtain ⟨β, make, order, ranks, all⟩ := comparable.ranked
  obtain ⟨x, madeA⟩ := all a first
  obtain ⟨y, madeB⟩ := all b second
  rw [madeA, madeB] at below above ⊢
  rw [ranks.antisymm below above]

theorem consistent_less (comparable : Comparable heap elements)
    : Sequence.Consistent (ListEdit.less heap) elements := by
  obtain ⟨β, make, order, ranks, all⟩ := comparable.ranked
  have := ranks.transitive
  exact ListEdit.consistent_of_kind order (ranks.compared heap) all

theorem consistent_greater (comparable : Comparable heap elements)
    : Sequence.Consistent (greater heap) elements := by
  refine comparable.consistent_less.flip fun a first b second => ?_
  have places : greater heap a b = false ↔ ListEdit.less heap b a = false :=
    (comparable.greater_eq_false_iff first second).trans
      (comparable.less_eq_false_iff second first).symm
  exact Bool.eq_iff_iff.mpr (not_iff_not.mp (by simpa using places))

theorem refl (comparable : Comparable heap elements) (among : a ∈ elements)
    : AtMost (heap.value a) (heap.value a) :=
  (comparable.less_eq_false_iff among among).mp (comparable.consistent_less.irreflexive among)

/-- What can be compared has no parts. -/
theorem leaf (comparable : Comparable heap elements) (among : a ∈ elements)
    : (heap.value a).parts = [] := by
  obtain ⟨β, make, order, ranks, all⟩ := comparable.ranked
  obtain ⟨x, made⟩ := all a among
  rw [made, ranks.leaf]

/-- What can be compared is in a cell of its heap. -/
theorem inside (comparable : Comparable heap elements) (among : a ∈ elements)
    : a.index < heap.cells.size := by
  obtain ⟨β, make, order, ranks, all⟩ := comparable.ranked
  obtain ⟨x, made⟩ := all a among
  refine inside_of_value made fun void => ?_
  have itself := ranks.refl x
  rw [void] at itself
  cases itself

end Comparable

-----------------------------------------------------------------------------------------
-- Comparison operators
-----------------------------------------------------------------------------------------

/-- (functions b own ref value) are the functions of the type of a value that can be compared. -/
def functions (b : BuiltinTypes) (own ref : TypeId) : Value → List Signature
  | .bool _ => Registry.boolSignatures b ref
  | .int _ => Registry.intSignatures b ref
  | .string _ => Registry.stringSignatures b ref
  | .version _ => Registry.versionSignatures b ref
  | .enumerator _ => Registry.enumSignatures b own ref
  | _ => []

/-- (comparison? symbol) is the comparison with an order that an operator stands for. -/
def comparison? : String → Option Comparison
  | "<" => some .less
  | "<=" => some .lessOrEqual
  | ">" => some .greater
  | ">=" => some .greaterOrEqual
  | _ => none

variable {environment : Environment} {result : TypeId} {store : Store} {self x y : Handle}
  {signature : Signature} {builtins : BuiltinTypes} {own ref : TypeId}

/-- An operator that is provided for some values compares them. Truth values and enumerators have
no such operators.
-/
theorem operator_gives (comparison : Comparison)
    (provided : signature ∈ functions builtins own ref (store.heap.value x.cell))
    (named : comparison? signature.name = some comparison)
    : Gives store
        (.bool (comparison.holds
          (store.heap.compare? (store.heap.value x.cell) (store.heap.value y.cell))))
        (signature.operation.perform (some x) [y] result environment store) := by
  have performs : signature.operation = .int (.compare comparison)
      ∨ signature.operation = .string (.compare comparison)
      ∨ signature.operation = .version (.compare comparison) := by
    revert named
    revert signature
    generalize store.heap.value x.cell = value
    cases value <;> simp [functions, Registry.boolSignatures, Registry.intSignatures,
      Registry.stringSignatures, Registry.versionSignatures, Registry.enumSignatures, comparison?]
  rcases performs with operation | operation | operation
  all_goals
    rw [operation]
    exact Effect.bool_gives _

/-- (Decides store x y signature claim) says that a function tells of two values whether something
holds.
-/
def Decides (environment : Environment) (store : Store) (x y : Handle) (signature : Signature)
    (claim : Prop)
    : Prop :=
  ∀ result, ∃ answer, Gives store (.bool answer)
      (signature.operation.perform (some x) [y] result environment store)
    ∧ (answer = true ↔ claim)

/-- The comparison operators go by the order of values, wherever the values are. -/
theorem operators_agree (environment : Environment) (comparable : Comparable heap elements)
    (first : a ∈ elements) (second : b ∈ elements)
    (left : store.heap.value x.cell = heap.value a)
    (right : store.heap.value y.cell = heap.value b)
    (provided : signature ∈ functions builtins own ref (heap.value a))
    : (signature.name = "<=" → Decides environment store x y signature
          (AtMost (heap.value a) (heap.value b)))
        ∧ (signature.name = ">=" → Decides environment store x y signature
          (AtMost (heap.value b) (heap.value a))) := by
  obtain ⟨order, compared, isLE, isGE⟩ := comparable.compared first second
  rw [← left] at provided
  refine ⟨fun named result => ⟨_, operator_gives .lessOrEqual provided ?_, ?_⟩,
    fun named result => ⟨_, operator_gives .greaterOrEqual provided ?_, ?_⟩⟩
  · rw [named]
    rfl
  · rw [left, right, compared]
    exact isLE
  · rw [named]
    rfl
  · rw [left, right, compared]
    exact isGE

-----------------------------------------------------------------------------------------
-- Operations of lists
-----------------------------------------------------------------------------------------

/-- A value without parts is copied as it is. -/
theorem mapParts_leaf {value : Value} (leaf : value.parts = [])
    (change : CellId → StateM Heap CellId) (heap : Heap)
    : value.mapParts change heap = (value, heap) := by
  cases value with
  | list elements =>
      obtain rfl : elements = [] := leaf
      rfl
  | external value? =>
      cases value? with
      | none => rfl
      | some value => cases leaf
  | object members =>
      obtain rfl := List.map_eq_nil_iff.mp leaf
      rfl
  | _ => rfl

/-- The search for an extreme gives a copy of what is best. -/
theorem extreme_gives {order : Ordering}
    (best : Sequence.best? (fun element best =>
      store.heap.compare? (store.heap.value element) (store.heap.value best) == some order)
        elements = some a)
    (leaf : (store.heap.value a).parts = [])
    : Gives store (store.heap.value a)
        (ListOperation.extreme order elements environment store) := by
  have copied : Heap.copy a store.heap =
      let copy := (store.heap.value a).mapParts (copyWithin store.heap.cells.size) store.heap
      copy.2.alloc ⟨(store.heap.read a).type, copy.1⟩ := rfl
  rw [mapParts_leaf leaf] at copied
  have given : (.owned <$> Effect.onHeap (Heap.copy a) : Effect Handle) environment store =
      (.ok (.owned (Heap.copy a store.heap).1), ⟨(Heap.copy a store.heap).2, store.system⟩) := rfl
  have looked : (get : Effect Store) environment store = (.ok store, store) := rfl
  rw [ListOperation.extreme, Effect.run_bind, looked]
  dsimp only
  rw [best]
  dsimp only
  rw [given, copied]
  exact Effect.new_gives environment (store.heap.read a).type
    (store.heap.value a)

section

variable (environment result) (list : store.heap.value self.cell = .list elements)

include list

theorem perform_sort
    : ListOperation.sort.perform self [] result environment store =
        (.ok (ListRemoval.next store),
          ListRemoval.edited store self (Sequence.sort (ListEdit.less store.heap) elements)
            (ListRemoval.nothing environment)) := by
  rw [← ListRemoval.elements_of list]
  exact ListRemoval.run_edited _

theorem perform_front {first : CellId} (begins : elements.head? = some first)
    : ListOperation.front.perform self [] result environment store =
        (.ok (.reference first none), store) := by
  have performed : ListOperation.front.perform self [] result environment store =
      ListOperation.present (store.heap.read self.cell).value.elements.head? environment store :=
    rfl
  rw [performed, ListRemoval.elements_of list, begins]
  rfl

theorem perform_back {last : CellId} (ends : elements.getLast? = some last)
    : ListOperation.back.perform self [] result environment store =
        (.ok (.reference last none), store) := by
  have performed : ListOperation.back.perform self [] result environment store =
      ListOperation.present (store.heap.read self.cell).value.elements.getLast? environment
        store :=
    rfl
  rw [performed, ListRemoval.elements_of list, ends]
  rfl

variable (comparable : Comparable store.heap elements)

include comparable

/-- The least value of some is given. -/
theorem min_gives (some : elements ≠ [])
    : ∃ least ∈ elements,
        (∀ element ∈ elements, AtMost (store.heap.value least) (store.heap.value element))
        ∧ Gives store (store.heap.value least)
            (ListOperation.min.perform self [] result environment store) := by
  obtain ⟨least, best⟩ := Sequence.exists_best? (ListEdit.less store.heap) some
  obtain ⟨among, unsurpassed⟩ := Sequence.best?_best comparable.consistent_less best
  have performed : ListOperation.min.perform self [] result environment store =
      ListOperation.extreme .lt (store.heap.read self.cell).value.elements environment store := rfl
  refine ⟨least, among, fun element member => ?_, ?_⟩
  · exact (comparable.less_eq_false_iff member among).mp (unsurpassed element member)
  · rw [performed, ListRemoval.elements_of list]
    exact extreme_gives best (comparable.leaf among)

/-- The greatest value of some is given. -/
theorem max_gives (some : elements ≠ [])
    : ∃ greatest ∈ elements,
        (∀ element ∈ elements, AtMost (store.heap.value element) (store.heap.value greatest))
        ∧ Gives store (store.heap.value greatest)
            (ListOperation.max.perform self [] result environment store) := by
  obtain ⟨greatest, best⟩ := Sequence.exists_best? (greater store.heap) some
  obtain ⟨among, unsurpassed⟩ := Sequence.best?_best comparable.consistent_greater best
  have performed : ListOperation.max.perform self [] result environment store =
      ListOperation.extreme .gt (store.heap.read self.cell).value.elements environment store := rfl
  refine ⟨greatest, among, fun element member => ?_, ?_⟩
  · exact (comparable.greater_eq_false_iff member among).mp (unsurpassed element member)
  · rw [performed, ListRemoval.elements_of list]
    exact extreme_gives best (comparable.leaf among)

end

-----------------------------------------------------------------------------------------
-- Agreement
-----------------------------------------------------------------------------------------

/-- (Arranged heap elements sorted) says that a list has the same cells as another one, in ascending
order of their values. Of two cells the one that was first is first if its value is not greater.
-/
structure Arranged (heap : Heap) (elements sorted : List CellId) : Prop where
  perm : sorted.Perm elements
  ascending : sorted.Pairwise fun a b => AtMost (heap.value a) (heap.value b)
  stable : ∀ a b, AtMost (heap.value a) (heap.value b) → [a, b].Sublist elements →
    [a, b].Sublist sorted

/-- Sorting arranges what can be compared. -/
theorem Comparable.arranged (comparable : Comparable heap elements)
    : Arranged heap elements (Sequence.sort (ListEdit.less heap) elements) := by
  have sorts := Sequence.sort_sorts comparable.consistent_less
  refine ⟨sorts.perm, ?_, fun a b ordered apart => sorts.stable a b ?_ apart⟩
  · refine sorts.ascending.imp_of_mem fun {a b} inA inB ordered => ?_
    exact (comparable.less_eq_false_iff (sorts.perm.subset inB) (sorts.perm.subset inA)).mp ordered
  · have inB : b ∈ elements := apart.subset (by simp)
    exact (comparable.less_eq_false_iff inB (apart.subset (.head _))).mpr ordered

namespace Arranged

variable {sorted : List CellId} {first last : CellId}

/-- The first cell of an arranged list has the least value. -/
theorem least (arranged : Arranged heap elements sorted) (comparable : Comparable heap elements)
    (begins : sorted.head? = some first)
    : first ∈ elements ∧ ∀ element ∈ elements, AtMost (heap.value first) (heap.value element) := by
  obtain ⟨rest, rfl⟩ := List.head?_eq_some_iff.mp begins
  have among : first ∈ elements := arranged.perm.subset (.head rest)
  refine ⟨among, fun element member => ?_⟩
  rcases List.mem_cons.mp (arranged.perm.symm.subset member) with rfl | later
  · exact comparable.refl among
  · exact (List.pairwise_cons.mp arranged.ascending).1 element later

/-- The last cell of an arranged list has the greatest value. -/
theorem greatest (arranged : Arranged heap elements sorted) (comparable : Comparable heap elements)
    (ends : sorted.getLast? = some last)
    : last ∈ elements ∧ ∀ element ∈ elements, AtMost (heap.value element) (heap.value last) := by
  obtain ⟨rest, rfl⟩ := List.getLast?_eq_some_iff.mp ends
  have among : last ∈ elements := arranged.perm.subset (by simp)
  refine ⟨among, fun element member => ?_⟩
  rcases List.mem_append.mp (arranged.perm.symm.subset member) with earlier | same
  · exact (List.pairwise_append.mp arranged.ascending).2.2 element earlier last
      (List.mem_singleton_self last)
  · rw [List.mem_singleton.mp same]
    exact comparable.refl among

section

variable (environment result) (arranged : Arranged store.heap elements sorted)
  (list : store.heap.value self.cell = .list elements)
  (comparable : Comparable store.heap elements)

include arranged list comparable

/-- The value in front of an arranged list is the least one, which may be in another cell. -/
theorem min_front (begins : sorted.head? = some first)
    : Gives store (store.heap.value first)
        (ListOperation.min.perform self [] result environment store) := by
  obtain ⟨among, least⟩ := arranged.least comparable begins
  obtain ⟨minimum, inMinimum, below, gives⟩ :=
    min_gives environment result list comparable (List.ne_nil_of_mem among)
  have same : store.heap.value minimum = store.heap.value first :=
    comparable.antisymm inMinimum among (below first among) (least minimum inMinimum)
  exact same ▸ gives

/-- The value at the back of an arranged list is the greatest one. -/
theorem max_back (ends : sorted.getLast? = some last)
    : Gives store (store.heap.value last)
        (ListOperation.max.perform self [] result environment store) := by
  obtain ⟨among, greatest⟩ := arranged.greatest comparable ends
  obtain ⟨maximum, inMaximum, above, gives⟩ :=
    max_gives environment result list comparable (List.ne_nil_of_mem among)
  have same : store.heap.value maximum = store.heap.value last :=
    comparable.antisymm inMaximum among (greatest maximum inMaximum) (above last among)
  exact same ▸ gives

end

end Arranged

/-- What can be compared stays as it is when a list of it is rewritten, since it is no list. -/
theorem Comparable.kept {sorted : List CellId} {after : Store}
    (comparable : Comparable store.heap elements)
    (list : store.heap.value self.cell = .list elements)
    (rewritten : ListEdit.Rewritten self sorted store after) (among : a ∈ elements)
    : after.heap.value a = store.heap.value a := by
  refine congrArg Object.value (rewritten.kept a (comparable.inside among) ?_)
  rintro rfl
  have leaf := comparable.leaf among
  rw [list] at leaf
  exact List.ne_nil_of_mem among leaf

/-- Sorting, the search for extremes and the comparison operators go by one order. A list is sorted
by putting its cells into ascending order, where equal ones stay as they are. The least value of a
list is then in front and the greatest one at the back. All elements are between these as the
operators tell for values that they are provided for. The search changes nothing.
-/
theorem sort_extremes_agree (environment : Environment) (result : TypeId) {store : Store}
    {self : Handle} {elements : List CellId} (list : store.heap.value self.cell = .list elements)
    (comparable : Comparable store.heap elements)
    : let value := store.heap.value
      let run (operation : ListOperation) (store : Store) :=
        operation.perform self [] result environment store
      (∃ sorted given after, run .sort store = (.ok given, after)
          ∧ ListEdit.Rewritten self sorted store after
          ∧ after.system = store.system
          ∧ Arranged store.heap elements sorted
          ∧ (∀ element ∈ elements, after.heap.value element = value element)
          ∧ (elements ≠ [] → ∃ first last,
            run .front after = (.ok (.reference first none), after)
            ∧ run .back after = (.ok (.reference last none), after)
            ∧ first ∈ elements ∧ last ∈ elements
            ∧ Gives store (after.heap.value first) (run .min store)
            ∧ Gives store (after.heap.value last) (run .max store)
            ∧ ∀ element ∈ elements,
              AtMost (value first) (value element) ∧ AtMost (value element) (value last)))
        ∧ ∀ builtins own ref later x y, ∀ a ∈ elements, ∀ b ∈ elements,
          later.heap.value x.cell = value a → later.heap.value y.cell = value b →
          ∀ signature ∈ functions builtins own ref (value a),
          (signature.name = "<=" →
            Decides environment later x y signature (AtMost (value a) (value b)))
          ∧ (signature.name = ">=" →
            Decides environment later x y signature (AtMost (value b) (value a))) := by
  refine ⟨?_, fun builtins own ref later x y a inA b inB left right signature provided =>
    operators_agree environment comparable inA inB left right provided⟩
  have inside := ListRemoval.list_inside list
  have arranged := comparable.arranged
  have sorts := perform_sort environment result list
  generalize Sequence.sort (ListEdit.less store.heap) elements = sorted at arranged sorts
  have rewritten : ListEdit.Rewritten self sorted store (ListRemoval.edited store self sorted _) :=
    ListEdit.rewritten_edited inside (ListRemoval.nothing environment)
  generalize afterIs : ListRemoval.edited store self sorted (ListRemoval.nothing environment) =
    after at sorts rewritten
  have kept (element : CellId) (among : element ∈ elements)
      : after.heap.value element = store.heap.value element :=
    comparable.kept list rewritten among
  refine ⟨sorted, _, after, sorts, rewritten, ?_, arranged, kept, fun some => ?_⟩
  · rw [← afterIs]
    rfl
  · have some' : sorted ≠ [] := fun none => some (List.nil_perm.mp (none ▸ arranged.perm))
    have begins := List.head?_eq_some_head some'
    have ends := List.getLast?_eq_some_getLast some'
    generalize sorted.head some' = first at begins
    generalize sorted.getLast some' = last at ends
    obtain ⟨inFirst, least⟩ := arranged.least comparable begins
    obtain ⟨inLast, greatest⟩ := arranged.greatest comparable ends
    exact ⟨first, last, perform_front _ _ rewritten.value begins,
      perform_back _ _ rewritten.value ends, inFirst, inLast,
      kept first inFirst ▸ arranged.min_front environment result list comparable begins,
      kept last inLast ▸ arranged.max_back environment result list comparable ends,
      fun element among => ⟨least element among, greatest element among⟩⟩

/-- A script with a list of texts two of which are equal. -/
def wordsText : String :=
  "list<string> words = \x7b\"b\", \"a\", \"b\"\x7d; int main() \x7b return 0; \x7d"

/-- (text? heap cell) is the text in a cell, if it holds one. -/
def text? (heap : Heap) (cell : CellId) : Option String :=
  match heap.value cell with
  | .string text => some text
  | _ => none

theorem text?_eq_some {text : String} (holds : text? heap a = some text)
    : heap.value a = .string text := by
  unfold text? at holds
  split at holds
  · next found => rw [found, Option.some.inj holds]
  · cases holds

set_option maxRecDepth 100000 in
/-- The script above is accepted. These are the texts in its list at the end of a run. -/
theorem words_text
    : ((Program.ofText? wordsText).map fun program =>
        let machine := (program.run ⟨20, 20⟩ (BuildSystem.ofRoot "/")).2
        let heap := machine.store.heap
        match machine.globals.map (·.2) with
        | [words] => (heap.value words.cell).elements.map (text? heap)
        | _ => []) = some [some "b", some "a", some "b"] := by
  decide +kernel

/-- Witness: the least and the greatest one of three texts are in front and at the back once the
texts are sorted, and the two equal ones are still in their order.
-/
theorem sort_extremes_agree_words
    : ∃ program words b a b', Program.ofText? wordsText = some program ∧
        let store := (program.run ⟨20, 20⟩ (BuildSystem.ofRoot "/")).2.store
        let run (operation : ListOperation) := operation.perform words []
          program.builtins.string ⟨program.registry, program.builtins⟩
        store.heap.value words.cell = .list [b, a, b']
        ∧ (∃ sorted given after, run .sort store = (.ok given, after)
          ∧ after.heap.value words.cell = .list sorted
          ∧ [b, b'].Sublist sorted)
        ∧ Gives store (.string "a") (run .min store)
        ∧ Gives store (.string "b") (run .max store) := by
  obtain ⟨program, compiled, known⟩ := Option.map_eq_some_iff.mp words_text
  dsimp only at known
  split at known
  case h_2 => cases known
  case h_1 words given =>
    generalize ends : (program.run ⟨20, 20⟩ (BuildSystem.ofRoot "/")).2.store = store at known
    have some : (store.heap.value words.cell).elements ≠ [] := by
      intro none
      rw [none] at known
      cases known
    have list := ListRemoval.list_of_elements some
    simp only [List.map_eq_cons_iff, List.map_eq_nil_iff] at known
    obtain ⟨b, _, split, textB, a, _, rfl, textA, b', _, rfl, textB', rfl⟩ := known
    rw [split] at list
    replace textB := text?_eq_some textB
    replace textA := text?_eq_some textA
    replace textB' := text?_eq_some textB'
    have agree := sort_extremes_agree ⟨program.registry, program.builtins⟩ program.builtins.string
      list (.strings (by simp [textB, textA, textB']))
    obtain ⟨⟨sorted, given, after, sorts, rewritten, -, arranged, kept, extremes⟩, -⟩ := agree
    obtain ⟨first, last, -, -, inFirst, inLast, least, greatest, between⟩ := extremes (by simp)
    rw [kept first inFirst] at least
    rw [kept last inLast] at greatest
    have descends : ¬AtMost (.string "b") (.string "a") := by
      intro ascends
      cases ascends with
      | strings ordered =>
          revert ordered
          decide
    refine ⟨program, words, b, a, b', compiled, ?_⟩
    rw [ends]
    refine ⟨list, ⟨sorted, given, after, sorts, rewritten.value, ?_⟩, ?_, ?_⟩
    · refine arranged.stable b b' ?_ ((List.singleton_sublist.mpr (by simp)).cons_cons b)
      rw [textB, textB']
      exact .strings (.inl rfl)
    · have below := (between a (by simp)).1
      simp only [List.mem_cons, List.not_mem_nil, or_false] at inFirst
      rcases inFirst with rfl | rfl | rfl
      · rw [textB, textA] at below
        exact absurd below descends
      · exact textA ▸ least
      · rw [textB', textA] at below
        exact absurd below descends
    · have above := (between b (by simp)).2
      simp only [List.mem_cons, List.not_mem_nil, or_false] at inLast
      rcases inLast with rfl | rfl | rfl
      · exact textB ▸ greatest
      · rw [textB, textA] at above
        exact absurd above descends
      · exact textB' ▸ greatest

end BuildScript.ListOrder
