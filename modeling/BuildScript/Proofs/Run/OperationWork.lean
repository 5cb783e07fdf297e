import BuildScript.Proofs.Run.OperationRequests
import BuildScript.Proofs.Run.Overwriting
import BuildScript.Proofs.Sequence.Elements

/-! What operations do to the heap. An operation writes to the value that it works on and to
nothing else, what it puts there is new or was there before, and what it gives is new or refers
to that value or to a part of it. An operation that fails has written nothing.
-/

namespace BuildScript

/-- The cells that a handle owns. -/
def Handle.owns : Handle → List CellId
  | owned cell => [cell]
  | reference _ _ => []

@[simp]
theorem Handle.owns_toReference (handle : Handle) : handle.toReference.owns = [] := by
  cases handle <;> rfl

@[simp]
theorem Handle.cell_toReference (handle : Handle) : handle.toReference.cell = handle.cell := by
  cases handle <;> rfl

namespace Effect

variable {α β : Type}

-----------------------------------------------------------------------------------------
-- Actions that leave the heap alone
-----------------------------------------------------------------------------------------

/-- An action is quiet when it leaves the heap as it is, whether it fails or not. -/
def Quiet (effect : Effect α) : Prop :=
  ∀ environment store, (effect environment store).2.heap = store.heap

namespace Quiet

theorem pure (value : α) : Quiet (Pure.pure value) := fun _ _ => rfl

theorem throw (fault : Fault) : Quiet (MonadExcept.throw fault : Effect α) := fun _ _ => rfl

theorem read : Quiet (MonadReader.read : Effect Environment) := fun _ _ => rfl

theorem get : Quiet (MonadState.get : Effect Store) := fun _ _ => rfl

theorem request (call : BuildCall) : (Effect.request call).Quiet := fun _ _ => rfl

theorem valueOf (handle : Handle) : (Effect.valueOf handle).Quiet := fun _ _ => rfl

theorem valuesOf (handles : List Handle) : (Effect.valuesOf handles).Quiet := fun _ _ => rfl

theorem stringsOf (value : Value) : (Effect.stringsOf value).Quiet := fun _ _ => rfl

theorem system : Effect.system.Quiet := fun _ _ => rfl

theorem ofExcept {ε : Type} (fault : ε → Fault) (result : Except ε α)
    : (Effect.ofExcept fault result).Quiet := by
  cases result with
  | ok value => exact .pure value
  | error reason => exact .throw (fault reason)

theorem arithmetic (operator : IntArithmetic) (a b : Int64) : (operator.perform a b).Quiet := by
  unfold IntArithmetic.perform
  split
  · exact .pure _
  · exact .throw _

end Quiet

-----------------------------------------------------------------------------------------
-- Tasks
-----------------------------------------------------------------------------------------

/-- What an operation is carried out with: the numbers that members may have, among them those
of all classes, the value that it works on, and a closed heap that the value is in.
-/
structure Task where
  allowed : Nat → Prop
  environment : Environment
  self : Handle
  base : Heap
  inside : self.cell.index < base.cells.size
  closed : base.Closed
  members : ∀ type, ∀ member ∈ environment.registry.allMembers type, allowed member.index

variable {task : Task}

/-- (Done task heap handle) says that a task was carried out and gave something in the heap. -/
structure Task.Done (task : Task) (heap : Heap) (handle : Handle) : Prop where
  works : Heap.Works task.allowed [task.self.cell] task.base heap handle.owns
  present : handle.cell.index < heap.cells.size

/-- (Serves task cells effect) says that an action does what is left of a task, when nothing has
been written yet and some cells have been made for it.
-/
def Serves (task : Task) (cells : List CellId) (effect : Effect Handle) : Prop :=
  ∀ store, Heap.Works task.allowed [] task.base store.heap cells →
    match effect task.environment store with
    | (.ok handle, after) => task.Done after.heap handle
    | (.error _, after) => Heap.Works task.allowed [] task.base after.heap []

/-- A leaf does nothing to the heap but make a new value without parts, which it gives. -/
def Leaf (effect : Effect Handle) : Prop :=
  ∀ environment store, ∃ type value system, value.parts = [] ∧ value.slots = [] ∧
    effect environment store =
      (.ok (.owned (store.heap.alloc ⟨type, value⟩).1),
        ⟨(store.heap.alloc ⟨type, value⟩).2, system⟩)

namespace Leaf

theorem new {type : TypeId} {value : Value} (leaf : value.parts = []) (slotless : value.slots = [])
    : (Effect.new type value).Leaf :=
  fun _ _ => ⟨type, value, _, leaf, slotless, rfl⟩

theorem void : Effect.void.Leaf := fun _ _ => ⟨_, .void, _, rfl, rfl, rfl⟩

theorem bool (value : Bool) : (Effect.bool value).Leaf :=
  fun _ _ => ⟨_, .bool value, _, rfl, rfl, rfl⟩

theorem int (value : Int64) : (Effect.int value).Leaf :=
  fun _ _ => ⟨_, .int value, _, rfl, rfl, rfl⟩

theorem double (value : Float) : (Effect.double value).Leaf :=
  fun _ _ => ⟨_, .double value, _, rfl, rfl, rfl⟩

theorem string (value : String) : (Effect.string value).Leaf :=
  fun _ _ => ⟨_, .string value, _, rfl, rfl, rfl⟩

theorem version (value : Version) : (Effect.version value).Leaf :=
  fun _ _ => ⟨_, .version value, _, rfl, rfl, rfl⟩

theorem place (place? : Option Nat) : (Effect.place place?).Leaf := int _

theorem test (comparison : Comparison) (a b : Value) : (Effect.test comparison a b).Leaf :=
  fun _ _ => ⟨_, .bool _, _, rfl, rfl, rfl⟩

/-- A leaf may make requests first, by induction over them. -/
theorem requests {next : Effect Handle} (leaf : next.Leaf) (calls : List BuildCall)
    : (calls.forM Effect.request >>= fun _ => next).Leaf := by
  induction calls with
  | nil => exact leaf
  | cons call rest ih =>
      intro environment store
      exact ih environment ⟨store.heap, store.system.request call⟩

theorem requestVoid (call : BuildCall) : (BuildScript.requestVoid call).Leaf :=
  requests void [call]

/-- Making the target of a component makes one new value. -/
theorem componentCreate (component : Component) : component.create.Leaf :=
  requests (fun _ _ => ⟨_, .target _, _, rfl, rfl, rfl⟩) component.calls

end Leaf

/-- Something new that is made last is what a task gives. -/
theorem Task.done {heap : Heap} {written cells : List CellId}
    (works : Heap.Works task.allowed written task.base heap cells)
    (permitted : ∀ cell ∈ written, cell = task.self.cell) (object : Object)
    (parts : ∀ cell, object.value.parts.count cell ≤ cells.count cell)
    (slots : task.base.Slotted task.allowed →
      ∀ index ∈ object.value.slots, task.allowed index)
    : task.Done (heap.alloc object).2 (.owned (heap.alloc object).1) where
  works := (works.alloc object parts slots).widen fun cell member =>
    List.mem_singleton.mpr (permitted cell member)
  present := by
    rw [Heap.size_alloc]
    exact Nat.lt_succ_self _

theorem Leaf.serves {effect : Effect Handle} (leaf : effect.Leaf) {cells : List CellId}
    : effect.Serves task cells := by
  intro store works
  obtain ⟨type, value, system, partless, slotless, outcome⟩ := leaf task.environment store
  rw [outcome]
  exact task.done works (by simp) ⟨type, value⟩ (by simp [partless]) (by simp [slotless])

namespace Serves

variable {cells : List CellId}

theorem throw (fault : Fault) : (MonadExcept.throw fault : Effect Handle).Serves task cells :=
  fun _ works => works.forget (by simp)

/-- A task goes on after an action that leaves the heap alone. -/
theorem after {first : Effect α} (quiet : first.Quiet) {next : α → Effect Handle}
    (serves : ∀ value, (next value).Serves task cells)
    : (first >>= next).Serves task cells := by
  intro store works
  have same := quiet task.environment store
  rw [run_bind]
  cases outcome : first task.environment store with
  | mk result middle =>
      rw [outcome] at same
      rw [← same] at works
      cases result with
      | ok value => exact serves value middle works
      | error fault => exact works.forget (by simp)

/-- A task goes on with a look at the heap, in which its value is as it was at the beginning. -/
theorem look {next : Store → Effect Handle}
    (serves : ∀ store : Store,
      store.heap.read task.self.cell = task.base.read task.self.cell →
        (next store).Serves task cells)
    : (MonadState.get >>= next).Serves task cells :=
  fun store works => serves store (works.kept task.self.cell task.inside (by simp)) store works

/-- A task goes on after cells have been made for it. -/
theorem making {action : StateM Heap α} {made : α → List CellId}
    (makes : Heap.Makes task.allowed action made) {next : α → Effect Handle}
    (serves : ∀ value, (next value).Serves task (made value ++ cells))
    : (onHeap action >>= next).Serves task cells :=
  fun store works => serves (action store.heap).1 ⟨(action store.heap).2, store.system⟩
    (works.trans (by simp) (makes store.heap))

/-- A task goes on with an operand, which is a new value if it was not given. -/
theorem operand {operands : List Handle} {index : Nat} {next : Handle → Effect Handle}
    (serves : ∀ handle, (next handle).Serves task cells)
    : (Effect.operand operands index >>= next).Serves task cells := by
  unfold Effect.operand
  split
  · exact serves _
  · intro store works
    obtain ⟨type, value, system, partless, slotless, outcome⟩ := Leaf.void task.environment store
    rw [run_bind, outcome]
    have making : Heap.Makes task.allowed (Heap.new type value) fun cell => [cell] :=
      .new partless slotless
    have made := works.trans (by simp) (making store.heap)
    exact serves _ _ (made.forget fun _ => (List.sublist_cons_self ..).count_le _)

/-- A task goes on with an operand that is given. -/
theorem given {handle : Handle} {next : Handle → Effect Handle}
    (serves : (next handle).Serves task cells)
    : (Effect.operand [handle] 0 >>= next).Serves task cells :=
  serves

/-- A new cell may be what a task gives. -/
theorem own {action : StateM Heap CellId}
    (makes : Heap.Makes task.allowed action fun cell => [cell])
    : (.owned <$> onHeap action : Effect Handle).Serves task cells := by
  intro store works
  have made := works.trans (by simp) (makes store.heap)
  have own : Heap.Works task.allowed [] task.base (action store.heap).2
      [(action store.heap).1] := by
    refine made.forget fun cell => ?_
    rw [List.count_append]
    exact Nat.le_add_right _ _
  exact ⟨own.widen (by simp), (own.new _ (List.mem_singleton.mpr rfl)).2⟩

/-- A new value made of cells that were made for a task may be what it gives. -/
theorem new {type : TypeId} {value : Value}
    (parts : ∀ cell, value.parts.count cell ≤ cells.count cell) (slotless : value.slots = [])
    : (Effect.new type value).Serves task cells :=
  fun _ works => task.done works (by simp) ⟨type, value⟩ parts (by simp [slotless])

/-- A reference to a part of the value that a task works on may be what it gives. -/
theorem part {cell : CellId} (held : cell ∈ (task.base.value task.self.cell).parts)
    : (Pure.pure (Handle.owned cell).toReference : Effect Handle).Serves task cells :=
  fun _ works => ⟨(works.forget (by simp)).widen (by simp),
    Nat.lt_of_lt_of_le (task.closed cell (Heap.mem_parts held)) works.grows⟩

/-- What was made for a task may be written to its value, together with parts of that. -/
theorem written {store : Store}
    (works : Heap.Works task.allowed [] task.base store.heap cells) {value : Value}
    (parts : ∀ cell, value.parts.count cell ≤
      cells.count cell + (task.base.value task.self.cell).parts.count cell)
    (slotless : value.slots = [])
    : Heap.Works task.allowed [task.self.cell] task.base
        (store.heap.write task.self.cell value) [] := by
  have same : store.heap.value task.self.cell = task.base.value task.self.cell :=
    congrArg Object.value (works.kept task.self.cell task.inside (by simp))
  refine (works.widen (by simp)).write (List.mem_singleton.mpr rfl) task.inside ?_ (by simp) ?_
  · intro cell
    rw [same, List.count_nil, Nat.zero_add]
    exact parts cell
  · simp [slotless]

theorem change {value : Value}
    (parts : ∀ cell, value.parts.count cell ≤
      cells.count cell + (task.base.value task.self.cell).parts.count cell)
    (slotless : value.slots = [])
    : (Effect.change task.self value).Serves task cells := by
  intro store works
  have works := written works parts slotless
  exact ⟨by rwa [Handle.owns_toReference],
    by rw [Handle.cell_toReference]; exact Nat.lt_of_lt_of_le task.inside works.grows⟩

/-- A task may end with a new value that has no parts after its value was written. -/
theorem setValue {value : Value} {next : Effect Handle} (leaf : next.Leaf)
    (parts : ∀ cell, value.parts.count cell ≤
      cells.count cell + (task.base.value task.self.cell).parts.count cell)
    (slotless : value.slots = [])
    : (Effect.setValue task.self value >>= fun _ => next).Serves task cells := by
  intro store works
  have works := written works parts slotless
  obtain ⟨type, value, system, partless, slotless, outcome⟩ := leaf task.environment
    ⟨store.heap.write task.self.cell value, store.system⟩
  have ended : (Effect.setValue task.self _ >>= fun _ => next) task.environment store = _ :=
    outcome
  rw [ended]
  exact task.done works (by simp) ⟨type, value⟩ (by simp [partless]) (by simp [slotless])

theorem become {value : Value}
    (parts : ∀ cell, value.parts.count cell ≤
      cells.count cell + (task.base.value task.self.cell).parts.count cell)
    (slotless : value.slots = [])
    : (Effect.become task.self value).Serves task cells :=
  setValue .void parts slotless

theorem overwrite (source : Handle) : (Effect.overwrite task.self source).Serves task cells := by
  intro store works
  rw [overwrite_run]
  have works := works.overwrite task.inside (store.heap.value source.cell) fun slotted =>
    slotted source.cell
  exact ⟨by rwa [Handle.owns_toReference],
    by rw [Handle.cell_toReference]; exact Nat.lt_of_lt_of_le task.inside works.grows⟩

-----------------------------------------------------------------------------------------
-- Operations of values
-----------------------------------------------------------------------------------------

/-- A task may write a value without parts. -/
theorem parted {value : Value} (partless : value.parts = []) (cell : CellId)
    : value.parts.count cell ≤
        cells.count cell + (task.base.value task.self.cell).parts.count cell := by
  simp [partless]

/-- Operations of `bool` keep to their value, by cases on the operation. -/
theorem boolOperation (operation : BoolOperation) (operands : List Handle)
    : (operation.perform task.self operands).Serves task cells := by
  refine after (.valueOf _) fun this => after (.valuesOf _) fun values => ?_
  cases operation with
  | assign => exact operand fun source => overwrite source
  | text => exact (Leaf.string _).serves
  | _ => exact (Leaf.bool _).serves

/-- Operations of `int` keep to their value, by cases on the operation. -/
theorem intOperation (operation : IntOperation) (operands : List Handle)
    : (operation.perform task.self operands).Serves task cells := by
  refine after (.valueOf _) fun this => after (.valuesOf _) fun values => ?_
  cases operation with
  | assign => exact operand fun source => overwrite source
  | text => exact (Leaf.string _).serves
  | arithmetic operator => exact after (.arithmetic operator _ _) fun _ => (Leaf.int _).serves
  | update operator => exact after (.arithmetic operator _ _) fun _ => change (parted rfl) rfl
  | increment | decrement => exact change (parted rfl) rfl
  | compare comparison => exact (Leaf.test comparison _ _).serves
  | _ => exact (Leaf.int _).serves

/-- Operations of `double` keep to their value, by cases on the operation. -/
theorem doubleOperation (operation : DoubleOperation) (operands : List Handle)
    : (operation.perform task.self operands).Serves task cells := by
  refine after (.valueOf _) fun this => after (.valuesOf _) fun values => ?_
  cases operation with
  | assign => exact operand fun source => overwrite source
  | text => exact (Leaf.string _).serves
  | update operator => exact change (parted rfl) rfl
  | compare comparison => exact (Leaf.test comparison _ _).serves
  | _ => exact (Leaf.double _).serves

/-- Operations of `version` keep to their value, by cases on the operation. -/
theorem versionOperation (operation : VersionOperation) (operands : List Handle)
    : (operation.perform task.self operands).Serves task cells := by
  refine after (.valueOf _) fun this => after (.valuesOf _) fun others => ?_
  cases operation with
  | ofParts => exact (Leaf.version _).serves
  | assign => exact operand fun source => overwrite source
  | compare comparison => exact (Leaf.test comparison _ _).serves
  | part => exact (Leaf.int _).serves
  | text => exact (Leaf.string _).serves

/-- Operations of enumerations keep to their value, by cases on the operation. -/
theorem enumOperation (operation : EnumOperation) (operands : List Handle)
    : (operation.perform task.self operands).Serves task cells := by
  refine after (.valueOf _) fun this => after (.valuesOf _) fun values => ?_
  cases operation with
  | assign => exact operand fun source => overwrite source
  | equal | notEqual => exact (Leaf.test _ _ _).serves
  | text => exact after .read fun _ => after .get fun _ => (Leaf.string _).serves

/-- Operations of `string` keep to their value, by cases on the operation. -/
theorem stringOperation (operation : StringOperation) (operands : List Handle)
    : (operation.perform task.self operands).Serves task cells := by
  refine after (.valueOf _) fun this => after (.valuesOf _) fun values => ?_
  cases operation with
  | assign => exact operand fun source => overwrite source
  | repeated => exact after (.ofExcept id _) fun _ => (Leaf.string _).serves
  | isEmpty | startsWith | endsWith | contains => exact (Leaf.bool _).serves
  | size => exact (Leaf.int _).serves
  | compare comparison => exact (Leaf.test comparison _ _).serves
  | appendTo => exact change (parted rfl) rfl
  | clear | makeLower | makeUpper => exact become (parted rfl) rfl
  | insert | eraseFrom | erase | replace =>
      exact after (.ofExcept _ _) fun _ => become (parted rfl) rfl
  | substringFrom | substring => exact after (.ofExcept _ _) fun _ => (Leaf.string _).serves
  | resize | resizeWith =>
      exact after (.ofExcept _ _) fun _ => after (.ofExcept _ _) fun _ => become (parted rfl) rfl
  | find | findFrom | findNotOf | findNotOfFrom =>
      exact after (.ofExcept _ _) fun _ => (Leaf.place _).serves
  | findLast | findLastNotOf => exact (Leaf.place _).serves
  | default | copy | append | lower | upper => exact (Leaf.string _).serves

-----------------------------------------------------------------------------------------
-- Operations of lists
-----------------------------------------------------------------------------------------

/-- The elements of a value are among its parts. -/
theorem count_elements_le (value : Value) (cell : CellId)
    : value.elements.count cell ≤ value.parts.count cell := by
  cases value with
  | list elements => exact Nat.le_refl _
  | _ => exact Nat.zero_le _

/-- A list may be written that has no elements but new ones and those before. -/
theorem elements {elements added : List CellId}
    (among : ∀ cell, elements.count cell ≤
      added.count cell + (task.base.value task.self.cell).elements.count cell)
    (cell : CellId)
    : (Value.list elements).parts.count cell ≤
        (added ++ cells).count cell + (task.base.value task.self.cell).parts.count cell := by
  have limited := among cell
  have held := count_elements_le (task.base.value task.self.cell) cell
  rw [List.count_append]
  show elements.count cell ≤ _
  omega

/-- A list may be written that has the elements before and new ones, in any order. -/
theorem ordered {elements added : List CellId}
    (among : elements.Perm (added ++ (task.base.value task.self.cell).elements)) (cell : CellId)
    : (Value.list elements).parts.count cell ≤
        (added ++ cells).count cell + (task.base.value task.self.cell).parts.count cell :=
  Serves.elements (fun cell => Nat.le_of_eq (by rw [among.count_eq, List.count_append])) cell

/-- A list may be written that has some of the elements before, in any order. -/
theorem fewer {elements : List CellId}
    (among : ∀ cell, elements.count cell ≤
      (task.base.value task.self.cell).elements.count cell)
    (cell : CellId)
    : (Value.list elements).parts.count cell ≤
        cells.count cell + (task.base.value task.self.cell).parts.count cell :=
  Nat.le_trans (Nat.le_trans (among cell) (count_elements_le _ cell)) (Nat.le_add_left _ _)

theorem copies {originals : List CellId} {next : List CellId → Effect Handle}
    (serves : ∀ copied, (next copied).Serves task (copied ++ cells))
    : (ListOperation.copies originals >>= next).Serves task cells := by
  refine making (Heap.Makes.mapM id Heap.Makes.copy originals) fun copied => ?_
  rw [List.map_id]
  exact serves copied

theorem defaults {type : TypeId} {count : Nat} {next : List CellId → Effect Handle}
    (serves : ∀ made, (next made).Serves task (made ++ cells))
    : (ListOperation.defaults type count >>= next).Serves task cells := by
  refine making (Heap.Makes.mapM id (Heap.Makes.createDefault task.members)
    (List.replicate count _)) fun made => ?_
  rw [List.map_id]
  exact serves made

theorem newList {type : TypeId} {elements : List CellId}
    (among : ∀ cell, elements.count cell ≤ cells.count cell)
    : (ListOperation.newList type elements).Serves task cells :=
  new among rfl

theorem extreme (order : Ordering) (elements : List CellId)
    : (ListOperation.extreme order elements).Serves task cells := by
  refine after .get fun store => ?_
  dsimp only
  split
  · exact own (Heap.Makes.copy _)
  · exact throw _

/-- An element of the list that a task works on may be what it gives. -/
theorem present {element? : Option CellId}
    (among : ∀ element ∈ element?, element ∈ (task.base.value task.self.cell).elements)
    : (ListOperation.present element?).Serves task cells := by
  cases element? with
  | none => exact throw _
  | some element =>
      refine part (List.count_pos_iff.mp (Nat.lt_of_lt_of_le ?_ (count_elements_le _ element)))
      exact List.count_pos_iff.mpr (among element rfl)

/-- Operations of lists keep to their list, by cases on the operation. -/
theorem listOperation (operation : ListOperation) (operands : List Handle) (result : TypeId)
    : (operation.perform task.self operands result).Serves task cells := by
  refine look fun store same => ?_
  rw [same]
  refine after (.valuesOf _) fun values => ?_
  cases operation with
  | default => exact after .read fun _ => newList (by simp)
  | pushBack =>
      exact operand fun _ => copies fun copied =>
        become (ordered List.perm_append_comm) rfl
  | pushFront =>
      exact operand fun _ => copies fun copied => become (ordered (.refl _)) rfl
  | pushBackAll =>
      exact copies fun copied =>
        become (ordered List.perm_append_comm) rfl
  | pushFrontAll => exact copies fun copied => become (ordered (.refl _)) rfl
  | popBack =>
      dsimp only
      split
      · exact throw _
      · exact become (fewer (List.dropLast_sublist _).count_le) rfl
  | popFront =>
      dsimp only
      split
      · exact throw _
      · next first rest found =>
          refine become (fewer ?_) rfl
          rw [show (task.base.value task.self.cell).elements = _ from found]
          exact (List.sublist_cons_self first rest).count_le
  | «at» =>
      exact after (.ofExcept id _) fun _ => present fun _ found => List.mem_of_getElem? found
  | front => exact present fun _ found => List.mem_of_head? found
  | back => exact present fun _ found => List.mem_of_getLast? found
  | insert =>
      exact after (.ofExcept id _) fun place => operand fun _ => copies fun copied =>
        become (ordered (Sequence.insertAt_perm ..)) rfl
  | insertAll =>
      exact after (.ofExcept id _) fun place => copies fun copied =>
        become (ordered (Sequence.insertAt_perm ..)) rfl
  | eraseAt | erase =>
      exact after (.ofExcept id _) fun place =>
        become (fewer (Sequence.eraseRange_sublist ..).count_le) rfl
  | remove | removeFirst =>
      exact operand fun _ => after .get fun _ =>
        setValue (.int _) (fewer (Sequence.removeFirst_sublist ..).count_le) rfl
  | removeLast =>
      exact operand fun _ => after .get fun _ =>
        setValue (.int _) (fewer (Sequence.removeLast_sublist ..).count_le) rfl
  | clear => exact become (fewer (List.nil_sublist _).count_le) rfl
  | resize =>
      refine after (.ofExcept id _) fun size => defaults fun made => become (elements ?_) rfl
      intro cell
      rw [List.count_append, Nat.add_comm]
      exact Nat.add_le_add_left ((List.take_sublist size _).count_le cell) _
  | sort =>
      exact after .get fun _ =>
        become (fewer fun cell => Nat.le_of_eq ((Sequence.sort_perm ..).count_eq cell)) rfl
  | reverse =>
      exact become (fewer fun cell => Nat.le_of_eq ((List.reverse_perm _).count_eq cell)) rfl
  | min | max => exact extreme _ _
  | sublistFrom | sublist =>
      exact after (.ofExcept id _) fun _ => copies fun copied => newList (by simp)
  | size => exact (Leaf.int _).serves
  | isEmpty => exact (Leaf.bool _).serves
  | find | findFrom =>
      exact after (.ofExcept id _) fun _ => operand fun _ => after .get fun _ =>
        (Leaf.place _).serves
  | append =>
      exact copies fun copied => operand fun _ => copies fun added =>
        newList fun cell => by simp only [List.count_append]; omega
  | appendAll =>
      exact copies fun copied => copies fun added =>
        newList fun cell => by simp only [List.count_append]; omega
  | appendTo =>
      exact operand fun _ => copies fun copied =>
        change (ordered List.perm_append_comm) rfl
  | appendAllTo =>
      exact copies fun copied =>
        change (ordered List.perm_append_comm) rfl
  | assign => exact operand fun source => overwrite source

-----------------------------------------------------------------------------------------
-- Operations of the build system
-----------------------------------------------------------------------------------------

/-- A value from the command line has no parts. -/
theorem readValue?_leaf {kind : TypeKind} {text : String} {value : Value}
    (read : kind.readValue? text = some value)
    : value.parts = [] ∧ value.slots = [] := by
  unfold TypeKind.readValue? at read
  split at read
  · obtain ⟨_, _, rfl⟩ := Option.map_eq_some_iff.mp read
    exact ⟨rfl, rfl⟩
  · obtain ⟨_, _, rfl⟩ := Option.map_eq_some_iff.mp read
    exact ⟨rfl, rfl⟩
  · obtain ⟨_, _, rfl⟩ := Option.map_eq_some_iff.mp read
    exact ⟨rfl, rfl⟩
  · obtain rfl := Option.some.inj read
    exact ⟨rfl, rfl⟩

theorem findExternal (name : String) (type : TypeId)
    : (BuildScript.findExternal name type).Serves task cells := by
  refine after .read fun environment => ?_
  dsimp only
  split
  · next valueType found =>
      refine after .system fun system => ?_
      generalize given : (system.definedValue? name).bind _ = value?
      have making : Heap.Makes task.allowed (value?.mapM (Heap.new valueType)) Option.toList := by
        cases value? with
        | none => exact Heap.Works.refl _
        | some value =>
            obtain ⟨text, _, read⟩ := Option.bind_eq_some_iff.mp given
            obtain ⟨partless, slotless⟩ := readValue?_leaf read
            exact Heap.Makes.new partless slotless
      refine Serves.making making fun cell? => new (fun cell => ?_) rfl
      rw [List.count_append]
      exact Nat.le_add_right _ _
  · exact throw _

/-- Operations of values given on the command line keep to their value, by cases on the
operation.
-/
theorem externalOperation (operation : ExternalOperation) (operands : List Handle)
    (result : TypeId)
    : (operation.perform task.self operands result).Serves task cells := by
  refine after (.valueOf _) fun this => after (.valuesOf _) fun values => ?_
  cases operation with
  | ofName => exact findExternal _ _
  | hasValue =>
      dsimp only
      split <;> exact (Leaf.bool _).serves
  | value =>
      dsimp only
      split
      · exact own (Heap.Makes.copy _)
      · exact throw _
  | assign => exact operand fun source => overwrite source

/-- Operations of the build system write nothing, by cases on the operation. -/
theorem systemOperation (operation : SystemOperation) (operands : List Handle)
    : (operation.perform operands).Serves task cells := by
  refine after (.valuesOf _) fun values => ?_
  cases operation with
  | minimumRequired =>
      dsimp only
      split
      · exact throw _
      · exact Leaf.void.serves
  | version => exact (Leaf.version _).serves
  | currentSourceDir | currentBinaryDir | rootSourceDir | getVariable =>
      exact after .system fun _ => (Leaf.string _).serves
  | option =>
      exact after .system fun _ => after (.request _) fun _ => (Leaf.bool _).serves
  | addCustomCommand | addCustomTarget =>
      exact after (.stringsOf _) fun _ => (Leaf.requestVoid _).serves
  | ctestCommand | systemName | compilerName => exact (Leaf.string _).serves
  | _ => exact (Leaf.requestVoid _).serves

/-- Operations of projects keep to their value, by cases on the operation. -/
theorem projectOperation (operation : ProjectOperation) (operands : List Handle)
    : (operation.perform task.self operands).Serves task cells := by
  refine after (.valueOf _) fun this => after (.valuesOf _) fun values =>
    after (.stringsOf _) fun sources => ?_
  cases operation with
  | ofName | addExecutable | addLibrary =>
      exact after (.request _) fun _ => after .read fun _ => (Leaf.new rfl rfl).serves
  | name => exact (Leaf.string _).serves
  | assign => exact operand fun source => overwrite source

/-- Operations of targets keep to their value, by cases on the operation. -/
theorem targetOperation (operation : TargetOperation) (operands : List Handle)
    : (operation.perform task.self operands).Serves task cells := by
  refine after (.valueOf _) fun this => after (.valuesOf _) fun values => ?_
  cases operation with
  | name => exact (Leaf.string _).serves
  | add | addVisibly =>
      exact after (.stringsOf _) fun _ => after (.request _) fun _ => Leaf.void.serves
  | assign => exact operand fun source => overwrite source

-----------------------------------------------------------------------------------------
-- All operations
-----------------------------------------------------------------------------------------

/-- Every operation keeps to its value, family by family. -/
theorem operation (operation : Operation) (operands : List Handle) (result : TypeId)
    : (operation.perform (some task.self) operands result).Serves task cells := by
  refine given ?_
  cases operation with
  | bool operation => exact boolOperation operation operands
  | int operation => exact intOperation operation operands
  | double operation => exact doubleOperation operation operands
  | string operation => exact stringOperation operation operands
  | version operation => exact versionOperation operation operands
  | list operation => exact listOperation operation operands result
  | external operation => exact externalOperation operation operands result
  | project operation => exact projectOperation operation operands
  | target operation => exact targetOperation operation operands
  | enumeration operation => exact enumOperation operation operands
  | assignObject => exact operand fun source => overwrite source
  | system operation => exact systemOperation operation operands

end Serves

end Effect

/-- An operation works on its value in a closed heap, whether it fails or not. -/
theorem Operation.works (operation : Operation) (self : Handle) (operands : List Handle)
    (result : TypeId) (environment : Environment) (store : Store) (closed : store.heap.Closed)
    (inside : self.cell.index < store.heap.cells.size)
    : ∃ made, Heap.Works (fun _ => True) [self.cell] store.heap
        (operation.perform (some self) operands result environment store).2.heap made := by
  let task : Effect.Task :=
    ⟨fun _ => True, environment, self, store.heap, inside, closed, fun _ _ _ => trivial⟩
  have serves : (operation.perform (some task.self) operands result).Serves task [] :=
    .operation operation operands result
  have served := serves store (Heap.Works.refl _ store.heap)
  cases outcome : operation.perform (some self) operands result environment store with
  | mk result after =>
      rw [outcome] at served
      cases result with
      | ok handle => exact ⟨_, served.works⟩
      | error fault => exact ⟨[], served.widen (by simp)⟩

/-- An operation of lists is performed on the list that it is given. -/
theorem Operation.perform_list (operation : ListOperation) (self : Handle)
    (operands : List Handle) (result : TypeId)
    : (Operation.list operation).perform (some self) operands result =
        operation.perform self operands result := by
  funext environment store
  have given : Effect.operand (some self).toList 0 environment store = (.ok self, store) := rfl
  unfold Operation.perform
  rw [Effect.run_bind, given]

/-- An operation of no value works on a void one that is made for it. -/
theorem Operation.perform_none (operation : Operation) (operands : List Handle) (result : TypeId)
    (environment : Environment) (store : Store)
    : operation.perform none operands result environment store =
        let void := store.heap.alloc ⟨environment.builtins.void, .void⟩
        operation.perform (some (.owned void.1)) operands result environment
          ⟨void.2, store.system⟩ :=
  rfl

end BuildScript
