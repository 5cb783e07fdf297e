import BuildScript.Proofs.Run.ListRemovals
import BuildScript.Proofs.Run.OperationFaults
import BuildScript.Proofs.Run.Replicas
import BuildScript.Proofs.Sequence.Elements

/-! What the operations of lists do to the elements. An operation edits the sequence of cells in
which the elements are: cells that stay in the list are the same cells as before, and cells that
come into the list are copies, which share nothing with what they were made from. An operation fails
if and only if it is asked for a place or a size that there cannot be.
-/

namespace BuildScript.ListEdit

open Effect Heap

-----------------------------------------------------------------------------------------
-- Operations, their operands and edits
-----------------------------------------------------------------------------------------

/-- (arity operation) is the number of operands that an operation takes. -/
def arity : ListOperation → Nat
  | .default | .popBack | .popFront | .front | .back | .clear | .sort | .reverse | .min | .max
  | .size | .isEmpty => 0
  | .pushBack | .pushBackAll | .pushFront | .pushFrontAll | .at | .eraseAt | .remove | .resize
  | .sublistFrom | .find | .append | .appendAll | .appendTo | .appendAllTo | .assign => 1
  | .insert | .insertAll | .erase | .removeFirst | .removeLast | .sublist | .findFrom => 2

/-- The functions of lists have as many parameters as their operations take operands. -/
theorem arity_of_signature {b : BuiltinTypes} {list value listRef valueRef : TypeId}
    {signature : Signature}
    (provided : signature ∈ Registry.listSignatures b list value listRef valueRef)
    {operation : ListOperation} (performs : signature.operation = .list operation)
    : signature.params.length = arity operation := by
  simp only [Registry.listSignatures, List.mem_cons, List.not_mem_nil, or_false] at provided
  rcases provided with rfl | rfl | rfl | rfl | rfl | rfl | rfl | rfl | rfl | rfl | rfl | rfl | rfl
    | rfl | rfl | rfl | rfl | rfl | rfl | rfl | rfl | rfl | rfl | rfl | rfl | rfl | rfl | rfl | rfl
    | rfl | rfl | rfl | rfl | rfl
  all_goals
    cases performs
    rfl

/-- (number heap handle) is the integer that an operand stands for. -/
def number (heap : Heap) (handle : Handle) : Int := (heap.value handle.cell).asInt.toInt

/-- (Rejects heap length operation operands) says that an operation on a list of some length is
asked for a place or a size that there cannot be: for an element of an empty list or outside of the
list, for a place between elements outside of it, or for a size that no list may have.
-/
def Rejects (heap : Heap) (length : Nat) : ListOperation → List Handle → Prop
  | .at, [index] | .eraseAt, [index] => ¬(0 ≤ number heap index ∧ number heap index < length)
  | .insert, [index, _] | .insertAll, [index, _] | .erase, [index, _] | .sublistFrom, [index]
  | .sublist, [index, _] | .findFrom, [_, index] =>
    ¬(0 ≤ number heap index ∧ number heap index ≤ length)
  | .front, [] | .back, [] | .min, [] | .max, [] | .popBack, [] | .popFront, [] => length = 0
  | .resize, [size] => ¬(0 ≤ number heap size ∧ number heap size ≤ maxContainerSize)
  | _, _ => False

/-- (Copied before after originals copies) says that new cells are copies of other ones, in order.
-/
def Copied (before after : Heap) (originals copies : List CellId) : Prop :=
  List.Forall₂ (before.Replica after) originals copies

/-- (elementType environment type) is the type of the values in the lists of a type. -/
def elementType (environment : Environment) (type : TypeId) : TypeId :=
  match (environment.registry.type (environment.registry.decayed type)).kind with
  | .list element => element
  | _ => environment.builtins.void

/-- (Fresh environment type before after cell) says that a cell is new and holds a value of the type
of the values in the lists of a type.
-/
structure Fresh (environment : Environment) (type : TypeId) (before after : Heap) (cell : CellId)
    : Prop where
  new : before.cells.size ≤ cell.index ∧ cell.index < after.cells.size
  typed : (after.read cell).type =
    environment.registry.decayed (elementType environment type)

/-- (less heap a b) says that the value in a cell comes before the one in another cell. -/
def less (heap : Heap) (a b : CellId) : Bool :=
  heap.compare? (heap.value a) (heap.value b) == some .lt

/-- (Orderly heap elements) says that some values can be put into order: that they are of one kind
with an order other than floating-point numbers, that none of them comes before another one, or else
that their order is consistent, as that of floating-point numbers is unless one of them is none.
-/
inductive Orderly (heap : Heap) (elements : List CellId) : Prop where
  | bools (all : ∀ cell ∈ elements, ∃ value, heap.value cell = .bool value)
  | ints (all : ∀ cell ∈ elements, ∃ value, heap.value cell = .int value)
  | strings (all : ∀ cell ∈ elements, ∃ value, heap.value cell = .string value)
  | versions (all : ∀ cell ∈ elements, ∃ value, heap.value cell = .version value)
  | enumerators (all : ∀ cell ∈ elements, ∃ value, heap.value cell = .enumerator value)
  | unordered (none : ∀ a ∈ elements, ∀ b ∈ elements, less heap a b = false)
  | consistent (consistent : Sequence.Consistent (less heap) elements)

section

variable (environment : Environment) (before after : Heap) (self : Handle)
  (elements : List CellId)

/-- (Edits environment before after self elements operation operands edited given) says which
cells are in a list after an operation on it that has given something, and what is given where it is
of those cells. Counts are kept in the range of what is there.
-/
inductive Edits : ListOperation → List Handle → List CellId → Handle → Prop where
  | pushBack {added : Handle} {copies : List CellId} {given : Handle}
      (copied : Copied before after [added.cell] copies)
      : Edits .pushBack [added] (elements ++ copies) given
  | pushBackAll {added : Handle} {copies : List CellId} {given : Handle}
      (copied : Copied before after (before.value added.cell).elements copies)
      : Edits .pushBackAll [added] (elements ++ copies) given
  | appendTo {added : Handle} {copies : List CellId}
      (copied : Copied before after [added.cell] copies)
      : Edits .appendTo [added] (elements ++ copies) self.toReference
  | appendAllTo {added : Handle} {copies : List CellId}
      (copied : Copied before after (before.value added.cell).elements copies)
      : Edits .appendAllTo [added] (elements ++ copies) self.toReference
  | pushFront {added : Handle} {copies : List CellId} {given : Handle}
      (copied : Copied before after [added.cell] copies)
      : Edits .pushFront [added] (copies ++ elements) given
  | pushFrontAll {added : Handle} {copies : List CellId} {given : Handle}
      (copied : Copied before after (before.value added.cell).elements copies)
      : Edits .pushFrontAll [added] (copies ++ elements) given
  | insert {index added : Handle} {front back copies : List CellId} {given : Handle}
      (split : elements = front ++ back) (place : front.length = number before index)
      (copied : Copied before after [added.cell] copies)
      : Edits .insert [index, added] (front ++ copies ++ back) given
  | insertAll {index added : Handle} {front back copies : List CellId} {given : Handle}
      (split : elements = front ++ back) (place : front.length = number before index)
      (copied : Copied before after (before.value added.cell).elements copies)
      : Edits .insertAll [index, added] (front ++ copies ++ back) given
  | popBack {rest : List CellId} {last : CellId} {given : Handle}
      (split : elements = rest ++ [last])
      : Edits .popBack [] rest given
  | popFront {first : CellId} {rest : List CellId} {given : Handle}
      (split : elements = first :: rest)
      : Edits .popFront [] rest given
  | eraseAt {index : Handle} {front back : List CellId} {erased : CellId} {given : Handle}
      (split : elements = front ++ erased :: back) (place : front.length = number before index)
      : Edits .eraseAt [index] (front ++ back) given
  | erase {index count : Handle} {front erased back : List CellId} {given : Handle}
      (split : elements = front ++ erased ++ back) (place : front.length = number before index)
      (counted : erased.length = min (number before count).toNat (elements.length - front.length))
      : Edits .erase [index, count] (front ++ back) given
  | removeFirst {wanted most : Handle} {front back : List CellId} {given : Handle}
      (split : elements = front ++ back)
      (counted : front.countP (before.same · wanted.cell) =
        min (number before most).toNat (elements.countP (before.same · wanted.cell)))
      (told : number after given = front.countP (before.same · wanted.cell))
      : Edits .removeFirst [wanted, most] (front.filter (!before.same · wanted.cell) ++ back) given
  | removeLast {wanted most : Handle} {front back : List CellId} {given : Handle}
      (split : elements = front ++ back)
      (counted : back.countP (before.same · wanted.cell) =
        min (number before most).toNat (elements.countP (before.same · wanted.cell)))
      (told : number after given = back.countP (before.same · wanted.cell))
      : Edits .removeLast [wanted, most] (front ++ back.filter (!before.same · wanted.cell)) given
  | remove {wanted : Handle} {front back : List CellId} {given : Handle}
      (split : elements = front ++ back)
      (counted : front.countP (before.same · wanted.cell) =
        min unlimited.toNat (elements.countP (before.same · wanted.cell)))
      (told : number after given = front.countP (before.same · wanted.cell))
      : Edits .remove [wanted] (front.filter (!before.same · wanted.cell) ++ back) given
  | clear {given : Handle} : Edits .clear [] [] given
  | resize {size : Handle} {added : List CellId} {given : Handle}
      (padded : added.length = (number before size).toNat - elements.length)
      (new : ∀ cell ∈ added, Fresh environment (before.read self.cell).type before after cell)
      : Edits .resize [size] (elements.take (number before size).toNat ++ added) given
  | sort {sorted : List CellId} {given : Handle} (perm : sorted.Perm elements)
      (sorts : Orderly before elements → Sequence.Sorts (less before) elements sorted)
      : Edits .sort [] sorted given
  | reverse {given : Handle} : Edits .reverse [] elements.reverse given
  | at {index : Handle} {front back : List CellId} {element : CellId}
      (split : elements = front ++ element :: back) (place : front.length = number before index)
      : Edits .at [index] elements (.reference element none)
  | front {first : CellId} {rest : List CellId} (split : elements = first :: rest)
      : Edits .front [] elements (.reference first none)
  | back {rest : List CellId} {last : CellId} (split : elements = rest ++ [last])
      : Edits .back [] elements (.reference last none)
  | sublistFrom {index : Handle} {front part back copies : List CellId} {given : Handle}
      (split : elements = front ++ part ++ back) (place : front.length = number before index)
      (counted : part.length = min unlimited.toNat (elements.length - front.length))
      (copied : Copied before after part copies)
      (told : after.value given.cell = .list copies)
      : Edits .sublistFrom [index] elements given
  | sublist {index count : Handle} {front part back copies : List CellId} {given : Handle}
      (split : elements = front ++ part ++ back) (place : front.length = number before index)
      (counted : part.length = min (number before count).toNat (elements.length - front.length))
      (copied : Copied before after part copies)
      (told : after.value given.cell = .list copies)
      : Edits .sublist [index, count] elements given
  | look {operation : ListOperation} {operands : List Handle} {given : Handle}
      (looks : operation ∈ [.default, .min, .max, .size, .isEmpty, .find, .findFrom, .append,
        .appendAll])
      : Edits operation operands elements given

end

-----------------------------------------------------------------------------------------
-- Consistent orders
-----------------------------------------------------------------------------------------

/-- Versions are compared number by number. -/
instance : Std.TransCmp Version.compare :=
  inferInstanceAs (Std.TransCmp (compareLex
    (compareLex (compareOn Version.major) (compareOn Version.minor))
    (compareLex (compareOn Version.patch) (compareOn Version.tweak))))

/-- Values of one kind are in a consistent order if it is one of what they are made of. -/
theorem consistent_of_kind {β : Type} {heap : Heap} {elements : List CellId} {make : β → Value}
    (compare : β → β → Ordering) [Std.TransCmp compare]
    (compared : ∀ x y, heap.compare? (make x) (make y) = some (compare x y))
    (all : ∀ cell ∈ elements, ∃ value, heap.value cell = make value)
    : Sequence.Consistent (less heap) elements := by
  have before {a b : CellId} {x y : β} (madeA : heap.value a = make x)
      (madeB : heap.value b = make y)
      : less heap a b = (compare x y == .lt) := by
    rw [less, madeA, madeB, compared]
    rfl
  refine ⟨fun a inA b inB first => ?_, fun a inA b inB c inC first second => ?_⟩
  · obtain ⟨x, madeA⟩ := all a inA
    obtain ⟨y, madeB⟩ := all b inB
    rw [before madeA madeB, beq_iff_eq] at first
    rw [before madeB madeA, Std.OrientedCmp.gt_of_lt first]
    rfl
  · obtain ⟨x, madeA⟩ := all a inA
    obtain ⟨y, madeB⟩ := all b inB
    obtain ⟨z, madeC⟩ := all c inC
    rw [before madeB madeA, beq_eq_false_iff_ne, ne_eq, ← Ordering.isGE_iff_ne_lt] at first
    rw [before madeC madeB, beq_eq_false_iff_ne, ne_eq, ← Ordering.isGE_iff_ne_lt] at second
    rw [before madeC madeA, beq_eq_false_iff_ne, ne_eq, ← Ordering.isGE_iff_ne_lt]
    exact Std.TransCmp.isGE_trans second first

/-- What can be put into order is in a consistent order, by cases on the kind of the values. -/
theorem Orderly.isConsistent {heap : Heap} {elements : List CellId}
    (orderly : Orderly heap elements)
    : Sequence.Consistent (less heap) elements := by
  cases orderly with
  | bools all => exact consistent_of_kind compare (fun _ _ => rfl) all
  | ints all => exact consistent_of_kind compare (fun _ _ => rfl) all
  | strings all => exact consistent_of_kind compare (fun _ _ => rfl) all
  | versions all => exact consistent_of_kind Version.compare (fun _ _ => rfl) all
  | enumerators all => exact consistent_of_kind compare (fun _ _ => rfl) all
  | unordered none =>
      exact ⟨fun a inA b inB _ => none b inB a inA, fun a inA _ _ c inC _ _ => none c inC a inA⟩
  | consistent consistent => exact consistent

-----------------------------------------------------------------------------------------
-- Operations step by step
-----------------------------------------------------------------------------------------

/-- (Rewritten list edited before after) says that a list has got some elements, and that all other
cells are as they were. There may be more cells.
-/
structure Rewritten (list : Handle) (edited : List CellId) (before after : Store) : Prop where
  value : after.heap.value list.cell = .list edited
  grows : before.heap.cells.size ≤ after.heap.cells.size
  kept : ∀ cell : CellId, cell.index < before.heap.cells.size → cell ≠ list.cell →
    after.heap.read cell = before.heap.read cell

/-- (Ends effect environment store fails good) says that an action fails if something holds, and
ends well otherwise.
-/
def Ends (effect : Effect Handle) (environment : Environment) (store : Store) (fails : Prop)
    (good : Handle → Store → Prop)
    : Prop :=
  match effect environment store with
  | (.ok given, after) => ¬fails ∧ good given after
  | (.error _, _) => fails

section

variable {self : Handle} {edited : List CellId} {environment : Environment} {base store : Store}
  {originals copies : List CellId}

theorem Rewritten.refl (list : store.heap.value self.cell = .list edited)
    : Rewritten self edited store store :=
  ⟨list, Nat.le_refl _, fun _ _ _ => rfl⟩

theorem Rewritten.keeps {middle after : Store} (rewritten : Rewritten self edited store middle)
    (inside : self.cell.index < store.heap.cells.size) (keeps : Store.Keeps middle after)
    : Rewritten self edited store after where
  value := by
    rw [← rewritten.value, Heap.value, Heap.value,
      keeps.read self.cell (Nat.lt_of_lt_of_le inside rewritten.grows)]
  grows := Nat.le_trans rewritten.grows keeps.grows
  kept cell old other :=
    (keeps.read cell (Nat.lt_of_lt_of_le old rewritten.grows)).trans (rewritten.kept cell old other)

theorem rewritten_edited (inside : self.cell.index < store.heap.cells.size) (given : Object)
    : Rewritten self edited store (ListRemoval.edited store self edited given) where
  value := ListRemoval.value_edited inside given
  grows := Nat.le_of_lt (Nat.lt_of_lt_of_eq (Nat.lt_succ_self _) (ListRemoval.size_edited _).symm)
  kept _ old other := (ListRemoval.read_edited_old inside given old).trans (if_neg other)

/-- Copies stay copies when a list that was there before them is rewritten. -/
theorem Copied.rewritten {after : Store} (copied : Copied base.heap store.heap originals copies)
    (inside : self.cell.index < base.heap.cells.size)
    (rewritten : Rewritten self edited store after)
    : Copied base.heap after.heap originals copies := by
  refine List.Forall₂.imp (fun original copy replica => ?_) copied
  refine Replica.mono replica rewritten.grows fun cell new old => rewritten.kept cell old ?_
  rintro rfl
  exact Nat.not_lt.mpr new inside

/-- New cells stay new ones of their type when a list that was there before them is rewritten. -/
theorem Fresh.rewritten {type : TypeId} {cell : CellId} {after : Store}
    (fresh : Fresh environment type base.heap store.heap cell)
    (inside : self.cell.index < base.heap.cells.size)
    (rewritten : Rewritten self edited store after)
    : Fresh environment type base.heap after.heap cell where
  new := ⟨fresh.new.1, Nat.lt_of_lt_of_le fresh.new.2 rewritten.grows⟩
  typed := by
    rw [rewritten.kept cell fresh.new.2, fresh.typed]
    rintro rfl
    exact Nat.not_lt.mpr fresh.new.1 inside

/-- Copies stay copies when more cells are made. -/
theorem Copied.keeps {after : Store} (copied : Copied base.heap store.heap originals copies)
    (keeps : Store.Keeps store after)
    : Copied base.heap after.heap originals copies :=
  List.Forall₂.imp
    (fun _ _ replica => Replica.mono replica keeps.grows fun cell _ old => keeps.read cell old)
    copied

end

namespace Ends

variable {environment : Environment} {store : Store} {fails : Prop}
  {good : Handle → Store → Prop} {self : Handle} {edited : List CellId} {α : Type}

theorem throw (fault : Fault) (failing : fails)
    : Ends (MonadExcept.throw fault) environment store fails good :=
  failing

/-- An action goes on with a look at the store. -/
theorem look {next : Store → Effect Handle} (ends : Ends (next store) environment store fails good)
    : Ends (MonadState.get >>= next) environment store fails good :=
  ends

/-- An action goes on with the values of its operands. -/
theorem values {operands : List Handle} {next : List Value → Effect Handle}
    (ends : Ends (next (operands.map fun handle => store.heap.value handle.cell)) environment store
      fails good)
    : Ends (valuesOf operands >>= next) environment store fails good :=
  ends

/-- An action goes on with an operand. -/
theorem operand {operands : List Handle} {index : Nat} {handle : Handle}
    {next : Handle → Effect Handle} (found : operands[index]? = some handle)
    (ends : Ends (next handle) environment store fails good)
    : Ends (Effect.operand operands index >>= next) environment store fails good := by
  rw [Effect.operand, found]
  exact ends

/-- An action goes on with its environment. -/
theorem read {next : Environment → Effect Handle}
    (ends : Ends (next environment) environment store fails good)
    : Ends (MonadReader.read >>= next) environment store fails good :=
  ends

/-- An action goes on with sorted elements. -/
theorem sorted {elements : List CellId} {next : List CellId → Effect Handle}
    (ends : Ends (next (Sequence.sort (less store.heap) elements)) environment store fails good)
    : Ends (ListOperation.sorted elements >>= next) environment store fails good :=
  ends

/-- An action goes on after a check, or fails. -/
theorem checked {result : Except Fault α} {next : α → Effect Handle}
    (refused : ∀ fault, result = .error fault → fails)
    (accepted : ∀ value, result = .ok value →
      Ends (next value) environment store fails good)
    : Ends (ofExcept id result >>= next) environment store fails good := by
  cases result with
  | ok value => exact accepted value rfl
  | error fault => exact refused fault rfl

/-- An action goes on after it has made new cells. -/
theorem making {action : StateM Heap α} {made : α → List CellId}
    (makes : Makes (fun _ => True) action made) {next : α → Effect Handle}
    (ends : ∀ value after, Store.Keeps store after →
      Ends (next value) environment after fails good)
    : Ends (onHeap action >>= next) environment store fails good := by
  refine ends (action store.heap).1 ⟨(action store.heap).2, store.system⟩ ⟨?_, ?_, rfl⟩
  · exact (makes store.heap).grows
  · exact fun cell old => (makes store.heap).kept cell old List.not_mem_nil

/-- An action goes on after it has copied some cells. -/
theorem copies (tidy : store.heap.Tidy) {originals : List CellId}
    (present : ∀ original ∈ originals, original.index < store.heap.cells.size)
    {next : List CellId → Effect Handle}
    (ends : ∀ copies middle, Store.Keeps store middle →
      Copied store.heap middle.heap originals copies →
        Ends (next copies) environment middle fails good)
    : Ends (ListOperation.copies originals >>= next) environment store fails good := by
  have copied := Replica.copies tidy present (.refl store.heap)
  have works : Works (fun _ => True) [] store.heap (originals.mapM Heap.copy store.heap).2 _ :=
    Makes.mapM id Makes.copy originals store.heap
  refine ends _ ⟨(originals.mapM Heap.copy store.heap).2, store.system⟩ ⟨?_, ?_, rfl⟩ copied
  · exact works.grows
  · exact fun cell old => works.kept cell old List.not_mem_nil

/-- An action goes on after it has made some defaults, which are new values of the type of the
elements in a list.
-/
theorem defaults {type : TypeId} {count : Nat} {next : List CellId → Effect Handle}
    (ends : ∀ added middle, Store.Keeps store middle → added.length = count →
      (∀ cell ∈ added, Fresh environment type store.heap middle.heap cell) →
        Ends (next added) environment middle fails good)
    : Ends (ListOperation.defaults type count >>= next) environment store fails good := by
  let make (type : TypeId) : StateM Heap CellId := Heap.createDefault environment.registry type
  have makes (type : TypeId) : Makes (fun _ => True) (make type) fun made => [made] :=
    Makes.createDefault (fun _ _ _ => trivial) type
  let types := List.replicate count (elementType environment type)
  have made : List.Forall₂
      (fun _ => Fresh environment type store.heap (types.mapM make store.heap).2) types
      (types.mapM make store.heap).1 := by
    refine mapM_related make (fun heap _ cell => Fresh environment type store.heap heap cell)
      (fun element among heap grown => ?_) (fun element _ grown => grown.makes (makes element))
      (fun element heap _ cell fresh => ?_) (.refl store.heap)
    · rw [List.eq_of_mem_replicate among]
      have new := (makes (elementType environment type) heap).new _ (List.mem_singleton_self _)
      exact ⟨⟨Nat.le_trans grown.size_le new.1, new.2⟩, Types.createDefault _ _ heap⟩
    · have works := makes element heap
      refine ⟨⟨fresh.new.1, Nat.lt_of_lt_of_le fresh.new.2 works.grows⟩, ?_⟩
      rw [works.typed cell fresh.new.2, fresh.typed]
  have works : Works (fun _ => True) [] store.heap (types.mapM make store.heap).2 _ :=
    Makes.mapM id makes types store.heap
  refine ends (types.mapM make store.heap).1 ⟨(types.mapM make store.heap).2, store.system⟩
    ⟨works.grows, fun cell old => works.kept cell old List.not_mem_nil, rfl⟩ ?_ ?_
  · rw [← made.length_eq, List.length_replicate]
  · intro cell among
    obtain ⟨⟨place, inside⟩, rfl⟩ := List.mem_iff_get.mp among
    obtain ⟨lengths, each⟩ := List.forall₂_iff_get.mp made
    exact each place (lengths ▸ inside) inside

/-- An action may end with writing a list. -/
theorem become (accepted : ¬fails) (inside : self.cell.index < store.heap.cells.size)
    (ends : ∀ given after, Rewritten self edited store after → good given after)
    : Ends (Effect.become self (.list edited)) environment store fails good := by
  have run : Effect.become self (.list edited) environment store = _ :=
    ListRemoval.run_edited (ListRemoval.nothing environment)
  rw [Ends, run]
  exact ⟨accepted, ends _ _ (rewritten_edited inside _)⟩

/-- An action may end with writing a list and giving a reference to it. -/
theorem change (accepted : ¬fails) (inside : self.cell.index < store.heap.cells.size)
    (ends : ∀ after, Rewritten self edited store after → good self.toReference after)
    : Ends (Effect.change self (.list edited)) environment store fails good := by
  refine ⟨accepted, ends ⟨store.heap.write self.cell (.list edited), store.system⟩ ⟨?_, ?_, ?_⟩⟩
  · exact value_write_self inside _
  · exact Nat.le_of_eq (size_write ..).symm
  · exact fun cell _ other => read_write_of_ne other _

/-- An action may end with writing a list and giving a number. -/
theorem count {count : Nat} (accepted : ¬fails)
    (inside : self.cell.index < store.heap.cells.size) (fits : count ≤ unlimited.toNat)
    (ends : ∀ given after, Rewritten self edited store after → number after.heap given = count →
      good given after)
    : Ends (setValue self (.list edited) >>= fun _ => Effect.int (Int64.ofNat count)) environment
        store fails good := by
  have run : (setValue self (.list edited) >>= fun _ => Effect.int (Int64.ofNat count)) environment
      store = _ :=
    ListRemoval.run_edited (ListRemoval.number environment count)
  rw [Ends, run]
  refine ⟨accepted, ends _ _ (rewritten_edited inside _) ?_⟩
  rw [unlimited, Int64.toInt_maxValue] at fits
  rw [number, Heap.value, ListRemoval.read_next inside]
  exact Int64.toInt_ofNat_of_lt (by omega)

/-- An action may end with a new value. -/
theorem new {type : TypeId} {value : Value} (accepted : ¬fails)
    (ends : ∀ given after, Store.Keeps store after → after.heap.value given.cell = value →
      good given after)
    : Ends (Effect.new type value) environment store fails good := by
  refine ⟨accepted, ends _ _ ⟨?_, ?_, rfl⟩ ?_⟩
  · exact Nat.le_of_lt (Nat.lt_of_lt_of_eq (Nat.lt_succ_self _) (Heap.size_alloc ..).symm)
  · exact fun cell inside => (Heap.read_alloc ..).trans (if_neg (Nat.ne_of_lt inside))
  · exact (value_alloc ..).trans (if_pos rfl)

/-- An action may end with the first or the last of some elements, or fail because there are none.
-/
theorem extreme {order : Ordering} {elements : List CellId} (empty : fails ↔ elements.length = 0)
    (ends : ∀ given after, Store.Keeps store after → good given after)
    : Ends (ListOperation.extreme order elements) environment store fails good := by
  refine .look ?_
  dsimp only
  split
  · next cell found =>
      have accepted : ¬fails := fun failing => by
        rw [List.length_eq_zero_iff.mp (empty.mp failing)] at found
        cases found
      have works : Works (fun _ => True) [] store.heap _ _ := Makes.copy cell store.heap
      exact ⟨accepted, ends _ _
        ⟨works.grows, fun cell old => works.kept cell old List.not_mem_nil, rfl⟩⟩
  · next nothing =>
      refine empty.mpr (List.length_eq_zero_iff.mpr ?_)
      cases elements with
      | nil => rfl
      | cons first rest => cases nothing

/-- An action may end with a reference to an element, or fail because there is none. -/
theorem present {element? : Option CellId} (missing : element? = none ↔ fails)
    (ends : ∀ element, element? = some element → good (.reference element none) store)
    : Ends (ListOperation.present element?) environment store fails good := by
  cases element? with
  | none => exact missing.mp rfl
  | some element => exact ⟨fun failing => (nomatch missing.mpr failing), ends element rfl⟩

end Ends

-----------------------------------------------------------------------------------------
-- Places in a list
-----------------------------------------------------------------------------------------

section

variable {environment : Environment} {store : Store} {fails : Prop}
  {good : Handle → Store → Prop} {length : Nat} {index : Int} {next : Nat → Effect Handle}

/-- An action may go on with the place of an element. -/
theorem Ends.element (range : fails ↔ ¬(0 ≤ index ∧ index < length))
    (ends : ∀ place : Nat, place = index → place < length → ¬fails →
      Ends (next place) environment store fails good)
    : Ends (ofExcept id (ListOperation.elementPlace length index) >>= next) environment store fails
        good := by
  refine .checked (fun fault refused => ?_) fun place accepted => ?_
  · unfold ListOperation.elementPlace at refused
    split at refused
    · cases refused
    · exact range.mpr (by omega)
  · unfold ListOperation.elementPlace at accepted
    split at accepted
    · cases accepted
      exact ends _ (by omega) (by omega) (mt range.mp (by omega))
    · cases accepted

/-- An action may go on with a place between elements. -/
theorem Ends.gap (range : fails ↔ ¬(0 ≤ index ∧ index ≤ length))
    (ends : ∀ place : Nat, place = index → place ≤ length → ¬fails →
      Ends (next place) environment store fails good)
    : Ends (ofExcept id (ListOperation.gapPlace length index) >>= next) environment store fails
        good := by
  refine .checked (fun fault refused => ?_) fun place accepted => ?_
  · unfold ListOperation.gapPlace at refused
    split at refused
    · cases refused
    · exact range.mpr (by omega)
  · unfold ListOperation.gapPlace at accepted
    split at accepted
    · cases accepted
      exact ends _ (by omega) (by omega) (mt range.mp (by omega))
    · cases accepted

/-- An action may go on with the size of a list. -/
theorem Ends.size (range : fails ↔ ¬(0 ≤ index ∧ index ≤ maxContainerSize))
    (ends : ∀ size : Nat, size = index → ¬fails → Ends (next size) environment store fails good)
    : Ends (ofExcept id (Container.checkSize .list index) >>= next) environment store fails
        good := by
  refine .checked (fun fault refused => ?_) fun place accepted => ?_
  · unfold Container.checkSize at refused
    split at refused
    · exact range.mpr (by omega)
    · split at refused
      · exact range.mpr (by omega)
      · cases refused
  · unfold Container.checkSize at accepted
    split at accepted
    · cases accepted
    · split at accepted
      · cases accepted
      · cases accepted
        exact ends _ (by omega) (mt range.mp (by omega))

end

section

variable {environment : Environment} {store : Store} {self : Handle} {elements : List CellId}
  {operation : ListOperation} {operands : List Handle} {result : TypeId}

/-- (Edited environment store self elements operation operands given after) says that a list has
become the edit of its elements that an operation stands for.
-/
def Edited (environment : Environment) (store : Store) (self : Handle) (elements : List CellId)
    (operation : ListOperation) (operands : List Handle) (given : Handle) (after : Store)
    : Prop :=
  ∃ edited, Rewritten self edited store after
    ∧ Edits environment store.heap after.heap self elements operation operands edited given

/-- What is rewritten after more cells were made is rewritten. -/
theorem Rewritten.later {edited : List CellId} {middle after : Store}
    (keeps : Store.Keeps store middle) (rewritten : Rewritten self edited middle after)
    : Rewritten self edited store after where
  value := rewritten.value
  grows := Nat.le_trans keeps.grows rewritten.grows
  kept cell old other :=
    (rewritten.kept cell (Nat.lt_of_lt_of_le old keeps.grows) other).trans (keeps.read cell old)

/-- An operation may copy some cells and write them to its list. -/
theorem Ends.insert {fails : Prop} {originals : List CellId} {put : List CellId → List CellId}
    (tidy : store.heap.Tidy) (inside : self.cell.index < store.heap.cells.size)
    (present : ∀ original ∈ originals, original.index < store.heap.cells.size)
    (accepted : ¬fails)
    (edits : ∀ copies given after, Copied store.heap after originals copies →
      Edits environment store.heap after self elements operation operands (put copies) given)
    : Ends (ListOperation.copies originals >>= fun copies =>
          Effect.become self (.list (put copies))) environment store fails
        (Edited environment store self elements operation operands) :=
  .copies tidy present fun _ _ keeps copied =>
    .become accepted (Nat.lt_of_lt_of_le inside keeps.grows) fun _ _ rewritten =>
      ⟨_, rewritten.later keeps, edits _ _ _ (copied.rewritten inside rewritten)⟩

/-- An operation may copy some cells, write them to its list and give that. -/
theorem Ends.extend {fails : Prop} {originals : List CellId} {put : List CellId → List CellId}
    (tidy : store.heap.Tidy) (inside : self.cell.index < store.heap.cells.size)
    (present : ∀ original ∈ originals, original.index < store.heap.cells.size)
    (accepted : ¬fails)
    (edits : ∀ copies after, Copied store.heap after originals copies →
      Edits environment store.heap after self elements operation operands (put copies)
        self.toReference)
    : Ends (ListOperation.copies originals >>= fun copies =>
          Effect.change self (.list (put copies))) environment store fails
        (Edited environment store self elements operation operands) :=
  .copies tidy present fun _ _ keeps copied =>
    .change accepted (Nat.lt_of_lt_of_le inside keeps.grows) fun _ rewritten =>
      ⟨_, rewritten.later keeps, edits _ _ (copied.rewritten inside rewritten)⟩

/-- An operation may give copies of some of the elements. -/
theorem Ends.slice {fails : Prop} {place count : Nat} {type : TypeId} (tidy : store.heap.Tidy)
    (list : store.heap.value self.cell = .list elements) (accepted : ¬fails)
    (edits : ∀ copies (given : Handle) after,
      Copied store.heap after (Sequence.slice place count elements) copies →
      after.value given.cell = .list copies →
        Edits environment store.heap after self elements operation operands elements given)
    : Ends (ListOperation.copies (Sequence.slice place count elements) >>= fun copies =>
          ListOperation.newList type copies) environment store fails
        (Edited environment store self elements operation operands) := by
  have present (original : CellId) (among : original ∈ Sequence.slice place count elements)
      : original.index < store.heap.cells.size := by
    have held : original ∈ (store.heap.value self.cell).parts := by
      rw [list]
      exact List.mem_of_mem_drop (List.mem_of_mem_take among)
    exact tidy.closed original (mem_parts held)
  refine .copies tidy present fun copies middle keeps copied => ?_
  refine .new accepted fun given after later told => ?_
  have rewritten := (Rewritten.refl list).keeps (ListRemoval.list_inside list) (keeps.trans later)
  exact ⟨_, rewritten, edits copies given after.heap (copied.keeps later) told⟩

/-- An operation may write some of the elements to its list. -/
theorem Ends.keep {fails : Prop} {kept : List CellId}
    (inside : self.cell.index < store.heap.cells.size) (accepted : ¬fails)
    (edits : ∀ given after,
      Edits environment store.heap after self elements operation operands kept given)
    : Ends (Effect.become self (.list kept)) environment store fails
        (Edited environment store self elements operation operands) :=
  .become accepted inside fun _ _ rewritten => ⟨_, rewritten, edits _ _⟩

section

variable {before after : Heap} {wanted most given : Handle}

theorem Edits.removesFirst
    (told : number after given =
      (Sequence.removeFirst (before.same · wanted.cell) (number before most).toNat elements).2)
    : Edits environment before after self elements .removeFirst [wanted, most]
        (Sequence.removeFirst (before.same · wanted.cell) (number before most).toNat elements).1
        given := by
  obtain ⟨front, back, split, counted, removal⟩ :=
    Sequence.removeFirst_eq (before.same · wanted.cell) (number before most).toNat elements
  rw [removal, ← counted] at told
  rw [removal]
  exact .removeFirst split counted told

theorem Edits.removesLast
    (told : number after given =
      (Sequence.removeLast (before.same · wanted.cell) (number before most).toNat elements).2)
    : Edits environment before after self elements .removeLast [wanted, most]
        (Sequence.removeLast (before.same · wanted.cell) (number before most).toNat elements).1
        given := by
  obtain ⟨front, back, split, counted, removal⟩ :=
    Sequence.removeLast_eq (before.same · wanted.cell) (number before most).toNat elements
  rw [removal, ← counted] at told
  rw [removal]
  exact .removeLast split counted told

theorem Edits.removes
    (told : number after given =
      (Sequence.removeFirst (before.same · wanted.cell) unlimited.toNat elements).2)
    : Edits environment before after self elements .remove [wanted]
        (Sequence.removeFirst (before.same · wanted.cell) unlimited.toNat elements).1 given := by
  obtain ⟨front, back, split, counted, removal⟩ :=
    Sequence.removeFirst_eq (before.same · wanted.cell) unlimited.toNat elements
  rw [removal, ← counted] at told
  rw [removal]
  exact .remove split counted told

end

/-- An operation that only looks at a list leaves it as it is. -/
theorem Edited.unchanged (list : store.heap.value self.cell = .list elements)
    (looks : operation ∈ [.default, .min, .max, .size, .isEmpty, .find, .findFrom, .append,
      .appendAll])
    (given : Handle) (after : Store) (keeps : Store.Keeps store after)
    : Edited environment store self elements operation operands given after :=
  ⟨_, (Rewritten.refl list).keeps (ListRemoval.list_inside list) keeps, .look looks⟩

theorem length_take {place : Nat} {index : Int} (numbered : (place : Int) = index)
    (within : place ≤ elements.length)
    : ((elements.take place).length : Int) = index := by
  rw [List.length_take, Nat.min_eq_left within, numbered]

/-- A slice of a list is preceded by what is before its place and followed by what is left. -/
theorem split_slice (place count : Nat)
    : elements = elements.take place ++ Sequence.slice place count elements
        ++ elements.drop (place + count) := by
  rw [Sequence.slice, List.append_assoc, ← List.drop_drop, List.take_append_drop,
    List.take_append_drop]

theorem length_slice {place : Nat} (count : Nat) (within : place ≤ elements.length)
    : (Sequence.slice place count elements).length =
        min count (elements.length - (elements.take place).length) := by
  rw [Sequence.slice, List.length_take, List.length_drop, List.length_take,
    Nat.min_eq_left within]

theorem split_at {place : Nat} (within : place < elements.length)
    : elements = elements.take place ++ elements[place] :: elements.drop (place + 1) := by
  rw [← List.drop_eq_getElem_cons within, List.take_append_drop]

theorem perform_ends (tidy : store.heap.Tidy)
    (list : store.heap.value self.cell = .list elements)
    (present : ∀ operand ∈ operands, operand.cell.index < store.heap.cells.size)
    (taken : operands.length = arity operation) (edits : operation ≠ .assign)
    : Ends (operation.perform self operands result) environment store
        (Rejects store.heap elements.length operation operands)
        (Edited environment store self elements operation operands) := by
  have inside := ListRemoval.list_inside list
  have part (handle : Handle) (original : CellId)
      (among : original ∈ (store.heap.value handle.cell).elements)
      : original.index < store.heap.cells.size :=
    tidy.closed original (mem_parts (Value.mem_parts_of_elements among))
  obtain rfl : (store.heap.read self.cell).value.elements = elements :=
    ListRemoval.elements_of list
  refine .look (.values ?_)
  match operation, operands, taken with
  | .pushBack, [added], _ =>
      exact .operand rfl (.insert tidy inside (by simpa using present) id fun _ _ _ => .pushBack)
  | .pushBackAll, [added], _ => exact .insert tidy inside (part added) id fun _ _ _ => .pushBackAll
  | .appendTo, [added], _ =>
      exact .operand rfl (.extend tidy inside (by simpa using present) id fun _ _ => .appendTo)
  | .appendAllTo, [added], _ => exact .extend tidy inside (part added) id fun _ _ => .appendAllTo
  | .pushFront, [added], _ =>
      exact .operand rfl (.insert tidy inside (by simpa using present) id fun _ _ _ => .pushFront)
  | .pushFrontAll, [added], _ =>
      exact .insert tidy inside (part added) id fun _ _ _ => .pushFrontAll
  | .insert, [index, added], _ =>
      refine .gap Iff.rfl fun place numbered within accepted => ?_
      refine .operand rfl (.insert tidy inside (by simp_all) accepted fun _ _ _ => ?_)
      exact .insert (List.take_append_drop place _).symm (length_take numbered within)
  | .insertAll, [index, added], _ =>
      refine .gap Iff.rfl fun place numbered within accepted => ?_
      refine .insert tidy inside (part added) accepted fun _ _ _ => ?_
      exact .insertAll (List.take_append_drop place _).symm (length_take numbered within)
  | .eraseAt, [index], _ =>
      refine .element Iff.rfl fun place numbered within accepted => ?_
      refine .keep inside accepted fun _ _ => ?_
      exact .eraseAt (split_at within) (length_take numbered (Nat.le_of_lt within))
  | .erase, [index, count], _ =>
      refine .gap Iff.rfl fun place numbered within accepted => ?_
      refine .keep inside accepted fun _ _ => ?_
      exact .erase (split_slice place _) (length_take numbered within) (length_slice _ within)
  | .popBack, [], _ =>
      dsimp only
      split
      · next none => exact .throw _ (List.isEmpty_iff_length_eq_zero.mp none)
      · next some =>
          have length := mt List.isEmpty_iff_length_eq_zero.mpr some
          have last := List.dropLast_concat_getLast (mt List.length_eq_zero_iff.mpr length)
          exact .keep inside length fun _ _ => .popBack last.symm
  | .popFront, [], _ =>
      dsimp only
      split
      · next none => exact .throw _ (List.length_eq_zero_iff.mpr none)
      · next first rest some =>
          rw [some]
          exact .keep inside (by simp [Rejects]) fun _ _ => .popFront rfl
  | .removeFirst, [wanted, most], _ =>
      refine .operand rfl (.look (.count id inside ?_ fun given after rewritten told => ?_))
      · exact Nat.le_trans (Sequence.removeFirst_le _ _ _) (Int.toNat_le_toNat (Int64.toInt_le _))
      · exact ⟨_, rewritten, .removesFirst told⟩
  | .removeLast, [wanted, most], _ =>
      refine .operand rfl (.look (.count id inside ?_ fun given after rewritten told => ?_))
      · exact Nat.le_trans (Sequence.removeLast_le _ _ _) (Int.toNat_le_toNat (Int64.toInt_le _))
      · exact ⟨_, rewritten, .removesLast told⟩
  | .remove, [wanted], _ =>
      refine .operand rfl (.look (.count id inside ?_ fun given after rewritten told => ?_))
      · exact Sequence.removeFirst_le _ _ _
      · exact ⟨_, rewritten, .removes told⟩
  | .resize, [size], _ =>
      refine .size Iff.rfl fun place numbered accepted => ?_
      refine .defaults fun added middle keeps length fresh => ?_
      refine .become accepted (Nat.lt_of_lt_of_le inside keeps.grows)
        fun given after rewritten => ⟨_, rewritten.later keeps, ?_⟩
      have same : (number store.heap size).toNat = place :=
        (congrArg Int.toNat numbered.symm).trans (Int.toNat_natCast place)
      rw [← same]
      refine .resize (same ▸ length) fun cell among => (fresh cell among).rewritten inside rewritten
  | .sort, [], _ =>
      refine .sorted (.keep inside id fun _ _ => ?_)
      exact .sort (Sequence.sort_perm _ _) fun orderly => Sequence.sort_sorts orderly.isConsistent
  | .at, [index], _ =>
      refine .element Iff.rfl fun place numbered within accepted => ?_
      rw [List.getElem?_eq_getElem within]
      refine .present (iff_of_false (by simp) accepted) fun element found => ?_
      cases found
      exact ⟨_, .refl list, .at (split_at within) (length_take numbered (Nat.le_of_lt within))⟩
  | .front, [], _ =>
      refine .present (List.head?_eq_none_iff.trans List.length_eq_zero_iff.symm)
        fun element found => ?_
      exact ⟨_, .refl list, .front (List.eq_cons_of_mem_head? found)⟩
  | .back, [], _ =>
      refine .present (List.getLast?_eq_none_iff.trans List.length_eq_zero_iff.symm)
        fun element found => ?_
      exact ⟨_, .refl list, .back (List.dropLast_append_getLast? element found).symm⟩
  | .sublistFrom, [index], _ =>
      refine .gap Iff.rfl fun place numbered within accepted => ?_
      refine .slice tidy list accepted fun copies given after copied told => ?_
      exact .sublistFrom (split_slice place _) (length_take numbered within)
        (length_slice _ within) copied told
  | .sublist, [index, count], _ =>
      refine .gap Iff.rfl fun place numbered within accepted => ?_
      refine .slice tidy list accepted fun copies given after copied told => ?_
      exact .sublist (split_slice place _) (length_take numbered within)
        (length_slice _ within) copied told
  | .clear, [], _ => exact .keep inside id fun _ _ => .clear
  | .reverse, [], _ => exact .keep inside id fun _ _ => .reverse
  | .default, [], _ =>
      exact .read (.new id fun _ _ keeps _ => .unchanged list (by decide) _ _ keeps)
  | .size, [], _ =>
      exact .read (.new id fun _ _ keeps _ => .unchanged list (by decide) _ _ keeps)
  | .isEmpty, [], _ =>
      exact .read (.new id fun _ _ keeps _ => .unchanged list (by decide) _ _ keeps)
  | .min, [], _ => exact .extreme Iff.rfl (.unchanged list (by decide))
  | .max, [], _ => exact .extreme Iff.rfl (.unchanged list (by decide))
  | .find, [wanted], _ =>
      refine .gap (iff_of_false id (not_not_intro ⟨Int.le_refl 0, Int.natCast_nonneg _⟩))
        fun place _ _ accepted => ?_
      exact .operand rfl (.look (.read (.new accepted fun _ _ keeps _ =>
        .unchanged list (by decide) _ _ keeps)))
  | .findFrom, [wanted, index], _ =>
      refine .gap Iff.rfl fun place _ _ accepted => ?_
      exact .operand rfl (.look (.read (.new accepted fun _ _ keeps _ =>
        .unchanged list (by decide) _ _ keeps)))
  | .append, [added], _ =>
      refine .making (Makes.mapM id Makes.copy _) fun _ _ first => .operand rfl ?_
      refine .making (Makes.mapM id Makes.copy _) fun _ _ second => ?_
      exact .new id fun _ _ third _ =>
        .unchanged list (by decide) _ _ (first.trans (second.trans third))
  | .appendAll, [added], _ =>
      refine .making (Makes.mapM id Makes.copy _) fun _ _ first => ?_
      refine .making (Makes.mapM id Makes.copy _) fun _ _ second => ?_
      exact .new id fun _ _ third _ =>
        .unchanged list (by decide) _ _ (first.trans (second.trans third))
  | .assign, _, _ => exact absurd rfl edits

end

/-- What is within a new cell is new. -/
theorem apart_of_works {before after : Heap} {written made : List CellId}
    (works : Works (fun _ => True) written before after made) {cell inner : CellId}
    (new : before.cells.size ≤ cell.index) (within : after.Within inner cell)
    : before.cells.size ≤ inner.index := by
  induction within using Relation.ReflTransGen.head_induction_on with
  | refl => exact new
  | head held _ ih => exact (works.fresh _ ih _ held).1

/-- The operations of lists edit the sequence of cells in which the elements are. An operation fails
just if it asks for a place or a size that there cannot be, and then all is left as it was.
Otherwise the cells of the list are those of the edit that the operation stands for, no other cell
changes, what is in new cells shares no cell with what was there, and no cell has two owners.
-/
theorem perform_edits (environment : Environment) (operation : ListOperation)
    (operands : List Handle) (result : TypeId) {store : Store} {self : Handle}
    {elements : List CellId} (tidy : store.heap.Tidy)
    (list : store.heap.value self.cell = .list elements)
    (present : ∀ operand ∈ operands, operand.cell.index < store.heap.cells.size)
    (taken : operands.length = arity operation) (edits : operation ≠ .assign)
    : match operation.perform self operands result environment store with
      | (.error _, after) =>
        Rejects store.heap elements.length operation operands ∧ Store.Keeps store after
      | (.ok given, after) =>
        ¬Rejects store.heap elements.length operation operands
        ∧ ∃ edited, Rewritten self edited store after
          ∧ Edits environment store.heap after.heap self elements operation operands edited given
          ∧ (∀ cell inner : CellId, store.heap.cells.size ≤ cell.index →
              after.heap.Within inner cell → store.heap.cells.size ≤ inner.index)
          ∧ after.heap.Tidy := by
  have ends : Ends (operation.perform self operands result) environment store _ _ :=
    perform_ends tidy list present taken edits
  have cautious := Effect.Cautious.listOperation operation self operands result environment store
  obtain ⟨made, works⟩ := (Operation.list operation).works self operands result environment store
    tidy.closed (ListRemoval.list_inside list)
  rw [Operation.perform_list] at works
  obtain ⟨roots, owned⟩ := tidy
  rw [Ends] at ends
  cases outcome : operation.perform self operands result environment store with
  | mk result after =>
      rw [outcome] at ends works
      cases result with
      | error fault => exact ⟨ends, cautious fault after outcome⟩
      | ok given =>
          obtain ⟨accepted, edited, rewritten, edit⟩ := ends
          exact ⟨accepted, edited, rewritten, edit, fun cell inner => apart_of_works works,
            _, works.owned owned⟩

/-- A script with a list of two numbers, and with a place between them. -/
def insertingText : String :=
  "list<int> all = \x7b7, 8\x7d; int place = 1; int main() \x7b return 0; \x7d"

set_option maxRecDepth 100000 in
/-- The script above is accepted. At the end of a run its list has two elements, and its number is a
place between them.
-/
theorem inserting_text
    : ((Program.ofText? insertingText).map fun program =>
        let machine := (program.lastMoment ⟨20, 20⟩).machine
        let heap := machine.store.heap
        match machine.globals.map (·.2) with
        | [place, all] =>
          (decide (place.cell.index < heap.cells.size), number heap place,
            (heap.value all.cell).elements.length)
        | _ => default) = some (true, 1, 2) := by
  decide +kernel

/-- Witness: a list that is inserted into itself gets copies of its two elements between them. -/
theorem perform_edits_inserting
    : ∃ program place all first second copy copy', Program.ofText? insertingText = some program ∧
        let moment := program.lastMoment ⟨20, 20⟩
        let store := moment.machine.store
        let outcome := ListOperation.insertAll.perform all [place, all] program.builtins.void
          ⟨program.registry, program.builtins⟩ store
        moment.machine.globals.map (·.2) = [place, all]
        ∧ store.heap.value all.cell = .list [first, second]
        ∧ outcome.2.heap.value all.cell = .list [first, copy, copy', second]
        ∧ store.heap.Replica outcome.2.heap first copy
        ∧ store.heap.Replica outcome.2.heap second copy' := by
  obtain ⟨program, compiled, known⟩ := Option.map_eq_some_iff.mp inserting_text
  have reached : program.Reaches ⟨20, 20⟩ (BuildSystem.ofRoot "/") (program.lastMoment ⟨20, 20⟩) :=
    program.reaches_end ⟨20, 20⟩ _
  have tidy : (program.lastMoment ⟨20, 20⟩).machine.store.heap.Tidy := ⟨_, reached.owned⟩
  dsimp only at known
  split at known
  case h_2 => exact absurd (congrArg Prod.fst known) Bool.false_ne_true
  case h_1 place all given =>
    simp only [Prod.mk.injEq, decide_eq_true_eq] at known
    obtain ⟨present, numbered, length⟩ := known
    have list := ListRemoval.list_of_elements (List.ne_nil_of_length_eq_add_one length)
    obtain ⟨first, second, pair⟩ := List.length_eq_two.mp length
    rw [pair] at list
    refine ⟨program, place, all, first, second, ?_⟩
    have edit := perform_edits ⟨program.registry, program.builtins⟩ .insertAll [place, all]
      program.builtins.void tidy list (by simpa [present] using ListRemoval.list_inside list) rfl
      (by decide)
    dsimp only
    generalize ListOperation.insertAll.perform all [place, all] program.builtins.void
      ⟨program.registry, program.builtins⟩ _ = outcome at *
    obtain ⟨result, after⟩ := outcome
    cases result with
    | error fault =>
        rw [Rejects, numbered] at edit
        exact absurd edit.1 (by simp)
    | ok handle =>
        obtain ⟨_, edited, rewritten, edit, _⟩ := edit
        cases edit with
        | insertAll split placed copied =>
            rw [numbered] at placed
            rw [pair] at copied
            obtain ⟨element, rfl⟩ := List.length_eq_one_iff.mp (Int.ofNat.inj placed)
            obtain ⟨rfl, rfl⟩ := List.cons.inj split
            rcases copied with _ | ⟨replica, _ | ⟨replica', ⟨⟩⟩⟩
            exact ⟨_, _, compiled, given, list, rewritten.value, replica, replica'⟩
        | look looks => exact absurd looks (by decide)

end BuildScript.ListEdit
