import BuildScript.Proofs.Run.Latching
import BuildScript.Proofs.Run.HeapWork

/-! Operations that fail. An operation looks whether it can be performed before it makes a request,
makes a value or writes one, so that one that fails leaves all as it was and its fault is the only
thing that is reported.
-/

namespace BuildScript

/-- A store keeps another one when all cells and the build system are as they were. There may be
more cells.
-/
structure Store.Keeps (before after : Store) : Prop where
  grows : before.heap.cells.size ≤ after.heap.cells.size
  read : ∀ cell : CellId, cell.index < before.heap.cells.size →
    after.heap.read cell = before.heap.read cell
  system : after.system = before.system

theorem Store.Keeps.refl (store : Store) : Store.Keeps store store :=
  ⟨Nat.le_refl _, fun _ _ => rfl, rfl⟩

theorem Store.Keeps.trans {before middle after : Store} (first : Store.Keeps before middle)
    (later : Store.Keeps middle after)
    : Store.Keeps before after where
  grows := Nat.le_trans first.grows later.grows
  read cell inside :=
    (later.read cell (Nat.lt_of_lt_of_le inside first.grows)).trans (first.read cell inside)
  system := later.system.trans first.system

namespace Effect

variable {α β : Type}

-----------------------------------------------------------------------------------------
-- Actions that do not fail, and actions that fail at once
-----------------------------------------------------------------------------------------

/-- An action is certain when it never fails. -/
def Certain (effect : Effect α) : Prop :=
  ∀ environment store, ∃ value after, effect environment store = (.ok value, after)

namespace Certain

theorem pure (value : α) : Certain (Pure.pure value) := fun _ _ => ⟨_, _, rfl⟩

theorem read : Certain (MonadReader.read : Effect Environment) := fun _ _ => ⟨_, _, rfl⟩

theorem get : Certain (MonadState.get : Effect Store) := fun _ _ => ⟨_, _, rfl⟩

theorem onHeap (action : StateM Heap α) : (Effect.onHeap action).Certain := fun _ _ => ⟨_, _, rfl⟩

theorem request (call : BuildCall) : (Effect.request call).Certain := fun _ _ => ⟨_, _, rfl⟩

theorem bind {effect : Effect α} {next : α → Effect β} (first : effect.Certain)
    (second : ∀ value, (next value).Certain)
    : (effect >>= next).Certain := by
  intro environment store
  obtain ⟨value, after, outcome⟩ := first environment store
  rw [run_bind, outcome]
  exact second value environment after

theorem map {effect : Effect α} (change : α → β) (certain : effect.Certain)
    : (change <$> effect).Certain := by
  rw [← bind_pure_comp]
  exact certain.bind fun value => .pure (change value)

theorem valueOf (handle : Handle) : (Effect.valueOf handle).Certain := get.bind fun _ => .pure _

theorem stringsOf (value : Value) : (Effect.stringsOf value).Certain := get.bind fun _ => .pure _

theorem system : Effect.system.Certain := get.bind fun _ => .pure _

theorem new (type : TypeId) (value : Value) : (Effect.new type value).Certain := onHeap _

theorem void : Effect.void.Certain := read.bind fun _ => new _ _

theorem bool (value : Bool) : (Effect.bool value).Certain := read.bind fun _ => new _ _

theorem int (value : Int64) : (Effect.int value).Certain := read.bind fun _ => new _ _

theorem double (value : Float) : (Effect.double value).Certain := read.bind fun _ => new _ _

theorem string (value : String) : (Effect.string value).Certain := read.bind fun _ => new _ _

theorem version (value : Version) : (Effect.version value).Certain := read.bind fun _ => new _ _

theorem place (place? : Option Nat) : (Effect.place place?).Certain := int _

theorem operand (operands : List Handle) (index : Nat)
    : (Effect.operand operands index).Certain := by
  unfold Effect.operand
  split
  · exact .pure _
  · exact void

theorem setValue (handle : Handle) (value : Value) : (Effect.setValue handle value).Certain :=
  onHeap _

theorem change (handle : Handle) (value : Value) : (Effect.change handle value).Certain :=
  (setValue handle value).bind fun _ => .pure _

theorem become (handle : Handle) (value : Value) : (Effect.become handle value).Certain :=
  (setValue handle value).bind fun _ => void

theorem overwrite (target source : Handle) : (Effect.overwrite target source).Certain :=
  (valueOf target).bind fun _ => (onHeap _).bind fun _ => change target _

theorem test (comparison : Comparison) (a b : Value) : (Effect.test comparison a b).Certain :=
  get.bind fun _ => bool _

theorem copies (cells : List CellId) : (ListOperation.copies cells).Certain := onHeap _

theorem newList (type : TypeId) (elements : List CellId)
    : (ListOperation.newList type elements).Certain :=
  new _ _

theorem defaults (type : TypeId) (count : Nat) : (ListOperation.defaults type count).Certain :=
  read.bind fun _ => onHeap _

theorem sorted (elements : List CellId) : (ListOperation.sorted elements).Certain :=
  get.bind fun _ => .pure _

/-- A certain action that takes an operand takes a void one where there is none. -/
theorem assign (self : Handle) (operands : List Handle)
    : (do Effect.overwrite self (← Effect.operand operands 0) : Effect Handle).Certain :=
  (operand operands 0).bind fun _ => overwrite self _

theorem requestVoid (call : BuildCall) : (BuildScript.requestVoid call).Certain :=
  (request call).bind fun _ => void

end Certain

/-- An action is harmless when it changes nothing that is there, whether it fails or not. -/
def Harmless (effect : Effect α) : Prop :=
  ∀ environment store, Store.Keeps store (effect environment store).2

namespace Harmless

theorem pure (value : α) : Harmless (Pure.pure value) := fun _ _ => .refl _

theorem throw (fault : Fault) : (MonadExcept.throw fault : Effect α).Harmless := fun _ _ => .refl _

theorem read : Harmless (MonadReader.read : Effect Environment) := fun _ _ => .refl _

theorem get : Harmless (MonadState.get : Effect Store) := fun _ _ => .refl _

theorem valueOf (handle : Handle) : (Effect.valueOf handle).Harmless := fun _ _ => .refl _

theorem valuesOf (handles : List Handle) : (Effect.valuesOf handles).Harmless :=
  fun _ _ => .refl _

theorem stringsOf (value : Value) : (Effect.stringsOf value).Harmless := fun _ _ => .refl _

/-- New cells are not among those that are there. -/
theorem void : Effect.void.Harmless := by
  intro environment store
  refine ⟨?_, fun cell inside => ?_, rfl⟩
  · exact Nat.le_of_lt (Nat.lt_of_lt_of_eq (Nat.lt_succ_self _) (Heap.size_alloc ..).symm)
  · exact (Heap.read_alloc ..).trans (if_neg (Nat.ne_of_lt inside))

theorem operand (operands : List Handle) (index : Nat)
    : (Effect.operand operands index).Harmless := by
  unfold Effect.operand
  split
  · exact .pure _
  · exact void

theorem ofExcept {ε : Type} (fault : ε → Fault) (result : Except ε α)
    : (Effect.ofExcept fault result).Harmless := by
  cases result with
  | ok value => exact .pure value
  | error reason => exact .throw (fault reason)

theorem arithmetic (operator : IntArithmetic) (a b : Int64) : (operator.perform a b).Harmless := by
  unfold IntArithmetic.perform
  split
  · exact .pure _
  · exact .throw _

theorem present (element? : Option CellId) : (ListOperation.present element?).Harmless := by
  unfold ListOperation.present
  split
  · exact .pure _
  · exact .throw _

end Harmless

/-- An action is cautious when it changes nothing that is there if it fails. -/
def Cautious (effect : Effect α) : Prop :=
  ∀ environment store fault after,
    effect environment store = (.error fault, after) → Store.Keeps store after

theorem Certain.cautious {effect : Effect α} (certain : effect.Certain) : effect.Cautious := by
  intro environment store fault after failed
  obtain ⟨value, last, outcome⟩ := certain environment store
  rw [outcome] at failed
  cases failed

theorem Harmless.cautious {effect : Effect α} (harmless : effect.Harmless) : effect.Cautious := by
  intro environment store fault after failed
  have kept := harmless environment store
  rw [failed] at kept
  exact kept

namespace Cautious

/-- A cautious action may do what is harmless first. -/
theorem after {effect : Effect α} {next : α → Effect β} (first : effect.Harmless)
    (second : ∀ value, (next value).Cautious)
    : (effect >>= next).Cautious := by
  intro environment store fault last failed
  have kept := first environment store
  rw [run_bind] at failed
  cases outcome : effect environment store with
  | mk result middle =>
      rw [outcome] at failed kept
      cases result with
      | error reason =>
          cases failed
          exact kept
      | ok value => exact kept.trans (second value _ _ _ _ failed)

-----------------------------------------------------------------------------------------
-- Operations of values and lists
-----------------------------------------------------------------------------------------

/-- An operation may check first and then do what cannot fail. -/
theorem checked {effect : Effect α} {next : α → Effect β} (first : effect.Harmless)
    (second : ∀ value, (next value).Certain)
    : (effect >>= next).Cautious :=
  after first fun value => (second value).cautious

/-- Operations of `bool` are cautious, by cases on the operation. -/
theorem boolOperation (operation : BoolOperation) (self : Handle) (operands : List Handle)
    : (operation.perform self operands).Cautious := by
  refine after (.valueOf self) fun this => checked (.valuesOf operands) fun values => ?_
  cases operation with
  | assign => exact .assign self operands
  | text => exact .string _
  | _ => exact .bool _

/-- Operations of `int` are cautious, by cases on the operation. -/
theorem intOperation (operation : IntOperation) (self : Handle) (operands : List Handle)
    : (operation.perform self operands).Cautious := by
  refine after (.valueOf self) fun this => after (.valuesOf operands) fun values => ?_
  cases operation with
  | assign => exact (Certain.assign self operands).cautious
  | text => exact (Certain.string _).cautious
  | arithmetic operator => exact checked (.arithmetic operator _ _) fun _ => .int _
  | update operator => exact checked (.arithmetic operator _ _) fun _ => .change self _
  | increment | decrement => exact (Certain.change self _).cautious
  | compare comparison => exact (Certain.test comparison _ _).cautious
  | _ => exact (Certain.int _).cautious

/-- Operations of `double` are cautious, by cases on the operation. -/
theorem doubleOperation (operation : DoubleOperation) (self : Handle) (operands : List Handle)
    : (operation.perform self operands).Cautious := by
  refine after (.valueOf self) fun this => checked (.valuesOf operands) fun values => ?_
  cases operation with
  | assign => exact .assign self operands
  | text => exact .string _
  | update operator => exact .change self _
  | compare comparison => exact .test comparison _ _
  | _ => exact .double _

/-- Operations of `version` are cautious, by cases on the operation. -/
theorem versionOperation (operation : VersionOperation) (self : Handle)
    (operands : List Handle)
    : (operation.perform self operands).Cautious := by
  refine after (.valueOf self) fun this => checked (.valuesOf operands) fun values => ?_
  cases operation with
  | ofParts => exact .version _
  | assign => exact .assign self operands
  | compare comparison => exact .test comparison _ _
  | part => exact .int _
  | text => exact .string _

/-- Operations of enumerations are cautious, by cases on the operation. -/
theorem enumOperation (operation : EnumOperation) (self : Handle) (operands : List Handle)
    : (operation.perform self operands).Cautious := by
  refine after (.valueOf self) fun this => checked (.valuesOf operands) fun values => ?_
  cases operation with
  | assign => exact .assign self operands
  | equal | notEqual => exact .test _ _ _
  | text => exact Certain.read.bind fun _ => Certain.get.bind fun _ => .string _

/-- Operations of `string` are cautious, by cases on the operation. -/
theorem stringOperation (operation : StringOperation) (self : Handle) (operands : List Handle)
    : (operation.perform self operands).Cautious := by
  refine after (.valueOf self) fun this => after (.valuesOf operands) fun values => ?_
  cases operation with
  | assign => exact (Certain.assign self operands).cautious
  | repeated => exact checked (.ofExcept id _) fun _ => .string _
  | isEmpty | startsWith | endsWith | contains => exact (Certain.bool _).cautious
  | size => exact (Certain.int _).cautious
  | compare comparison => exact (Certain.test comparison _ _).cautious
  | appendTo => exact (Certain.change self _).cautious
  | clear | makeLower | makeUpper => exact (Certain.become self _).cautious
  | insert | eraseFrom | erase | replace =>
      exact checked (.ofExcept _ _) fun _ => .become self _
  | substringFrom | substring => exact checked (.ofExcept _ _) fun _ => .string _
  | resize | resizeWith =>
      exact after (.ofExcept _ _) fun _ => checked (.ofExcept _ _) fun _ => .become self _
  | find | findFrom | findNotOf | findNotOfFrom =>
      exact checked (.ofExcept _ _) fun _ => .place _
  | findLast | findLastNotOf => exact (Certain.place _).cautious
  | default | copy | append | lower | upper => exact (Certain.string _).cautious

theorem extreme (order : Ordering) (elements : List CellId)
    : (ListOperation.extreme order elements).Cautious := by
  refine after .get fun store => ?_
  dsimp only
  split
  · exact ((Certain.onHeap _).map _).cautious
  · exact (Harmless.throw _).cautious

/-- Operations of lists are cautious, by cases on the operation. -/
theorem listOperation (operation : ListOperation) (self : Handle) (operands : List Handle)
    (result : TypeId)
    : (operation.perform self operands result).Cautious := by
  refine after .get fun store => after (.valuesOf operands) fun values => ?_
  cases operation with
  | default => exact (Certain.read.bind fun _ => .newList _ _).cautious
  | pushBack | pushFront =>
      exact ((Certain.operand operands 0).bind fun _ => (Certain.copies _).bind fun _ =>
        .become self _).cautious
  | pushBackAll | pushFrontAll =>
      exact ((Certain.copies _).bind fun _ => .become self _).cautious
  | popBack =>
      dsimp only
      split
      · exact (Harmless.throw _).cautious
      · exact (Certain.become self _).cautious
  | popFront =>
      dsimp only
      split
      · exact (Harmless.throw _).cautious
      · exact (Certain.become self _).cautious
  | «at» => exact after (.ofExcept id _) fun _ => (Harmless.present _).cautious
  | front | back => exact (Harmless.present _).cautious
  | insert =>
      exact checked (.ofExcept id _) fun _ => (Certain.operand operands 1).bind fun _ =>
        (Certain.copies _).bind fun _ => .become self _
  | insertAll =>
      exact checked (.ofExcept id _) fun _ => (Certain.copies _).bind fun _ => .become self _
  | eraseAt | erase => exact checked (.ofExcept id _) fun _ => .become self _
  | remove | removeFirst | removeLast =>
      exact ((Certain.operand operands 0).bind fun _ => Certain.get.bind fun _ =>
        (Certain.setValue self _).bind fun _ => .int _).cautious
  | clear | reverse => exact (Certain.become self _).cautious
  | resize =>
      exact checked (.ofExcept id _) fun _ => (Certain.defaults _ _).bind fun _ => .become self _
  | sort => exact ((Certain.sorted _).bind fun _ => .become self _).cautious
  | min | max => exact extreme _ _
  | sublistFrom | sublist =>
      exact checked (.ofExcept id _) fun _ => (Certain.copies _).bind fun _ => .newList _ _
  | size => exact (Certain.int _).cautious
  | isEmpty => exact (Certain.bool _).cautious
  | find | findFrom =>
      exact checked (.ofExcept id _) fun _ => (Certain.operand operands 0).bind fun _ =>
        Certain.get.bind fun _ => .place _
  | append =>
      exact ((Certain.copies _).bind fun _ => (Certain.operand operands 0).bind fun _ =>
        (Certain.copies _).bind fun _ => .newList _ _).cautious
  | appendAll =>
      exact ((Certain.copies _).bind fun _ => (Certain.copies _).bind fun _ =>
        .newList _ _).cautious
  | appendTo =>
      exact ((Certain.operand operands 0).bind fun _ => (Certain.copies _).bind fun _ =>
        .change self _).cautious
  | appendAllTo => exact ((Certain.copies _).bind fun _ => .change self _).cautious
  | assign => exact (Certain.assign self operands).cautious

-----------------------------------------------------------------------------------------
-- Operations of the build system, and all operations
-----------------------------------------------------------------------------------------

theorem findExternal (name : String) (type : TypeId)
    : (BuildScript.findExternal name type).Cautious := by
  refine after .read fun environment => ?_
  dsimp only
  split
  · exact (Certain.system.bind fun _ => (Certain.onHeap _).bind fun _ => .new _ _).cautious
  · exact (Harmless.throw _).cautious

/-- Operations of values given on the command line are cautious, by cases on the operation. -/
theorem externalOperation (operation : ExternalOperation) (self : Handle)
    (operands : List Handle) (result : TypeId)
    : (operation.perform self operands result).Cautious := by
  refine after (.valueOf self) fun this => after (.valuesOf operands) fun values => ?_
  cases operation with
  | ofName => exact findExternal _ _
  | hasValue =>
      dsimp only
      split <;> exact (Certain.bool _).cautious
  | value =>
      dsimp only
      split
      · exact ((Certain.onHeap _).map _).cautious
      · exact (Harmless.throw _).cautious
  | assign => exact (Certain.assign self operands).cautious

/-- Operations of the build system are cautious, by cases on the operation. -/
theorem systemOperation (operation : SystemOperation) (operands : List Handle)
    : (operation.perform operands).Cautious := by
  refine after (.valuesOf operands) fun values => ?_
  cases operation with
  | minimumRequired =>
      dsimp only
      split
      · exact (Harmless.throw _).cautious
      · exact Certain.void.cautious
  | version => exact (Certain.version _).cautious
  | currentSourceDir | currentBinaryDir | rootSourceDir | getVariable =>
      exact (Certain.system.bind fun _ => .string _).cautious
  | option =>
      exact (Certain.system.bind fun _ => (Certain.request _).bind fun _ => .bool _).cautious
  | addCustomCommand | addCustomTarget => exact checked (.stringsOf _) fun _ => .requestVoid _
  | ctestCommand | systemName | compilerName => exact (Certain.string _).cautious
  | _ => exact (Certain.requestVoid _).cautious

/-- Operations of projects are cautious, by cases on the operation. -/
theorem projectOperation (operation : ProjectOperation) (self : Handle)
    (operands : List Handle)
    : (operation.perform self operands).Cautious := by
  refine after (.valueOf self) fun this => after (.valuesOf operands) fun values =>
    checked (.stringsOf _) fun sources => ?_
  cases operation with
  | ofName | addExecutable | addLibrary =>
      exact (Certain.request _).bind fun _ => Certain.read.bind fun _ => .new _ _
  | name => exact .string _
  | assign => exact .assign self operands

/-- Operations of targets are cautious, by cases on the operation. -/
theorem targetOperation (operation : TargetOperation) (self : Handle)
    (operands : List Handle)
    : (operation.perform self operands).Cautious := by
  refine after (.valueOf self) fun this => checked (.valuesOf operands) fun values => ?_
  cases operation with
  | name => exact .string _
  | add | addVisibly =>
      exact (Certain.stringsOf _).bind fun _ => (Certain.request _).bind fun _ => .void
  | assign => exact .assign self operands

/-- Every operation is cautious, family by family. One that is performed on no value makes a void
one first.
-/
theorem operation (operation : Operation) (self? : Option Handle) (operands : List Handle)
    (result : TypeId)
    : (operation.perform self? operands result).Cautious := by
  refine after (.operand self?.toList 0) fun self => ?_
  cases operation with
  | bool operation => exact boolOperation operation self operands
  | int operation => exact intOperation operation self operands
  | double operation => exact doubleOperation operation self operands
  | string operation => exact stringOperation operation self operands
  | version operation => exact versionOperation operation self operands
  | list operation => exact listOperation operation self operands result
  | external operation => exact externalOperation operation self operands result
  | project operation => exact projectOperation operation self operands
  | target operation => exact targetOperation operation self operands
  | enumeration operation => exact enumOperation operation self operands
  | assignObject => exact (Certain.assign self operands).cautious
  | system operation => exact systemOperation operation operands

end Cautious

end Effect

open Effect BuildCall BuildSystem

/-- A failing operation changes nothing. Whatever an operation is performed on, if it fails, the
machine is as it was before, with all its cells as they were, but for the report of one fatal error
to the build system. If it gives a value, it has made some requests, and none of them reports a
fatal error unless that is what the operation is for. Witness: operations are cautious, and all but
one are plain.
-/
theorem Operation.fault_changes_nothing (operation : Operation) (self? : Option Handle)
    (operands : List Handle) (result : TypeId) (setting : RunSetting) (machine : Machine)
    : match Run.perform (operation.perform self? operands result) setting machine with
      | (.error stop, after) =>
          stop = .fatal
          ∧ (∀ cell : CellId, cell.index < machine.store.heap.cells.size →
              after.store.heap.read cell = machine.store.heap.read cell)
          ∧ ∃ text,
              after = { machine with
                store := ⟨after.store.heap, machine.store.system.request (.fatalError text)⟩ }
              ∧ Records machine.store.system after.store.system [.fatalError text]
      | (.ok _, after) =>
          ∃ calls, Records machine.store.system after.store.system calls
            ∧ (operation ≠ .system .fatalError → fatalErrors calls = []) := by
  rw [Run.perform_run]
  cases outcome : operation.perform self? operands result setting.toEnvironment machine.store with
  | mk given after =>
      cases given with
      | error fault =>
          have kept := Cautious.operation operation self? operands result _ _ _ _ outcome
          refine ⟨rfl, kept.read, fault.message, ?_, ?_⟩
          · rw [← kept.system]
          · rw [← kept.system]
            exact (Records.refl _).request (.fatalError fault.message)
      | ok value =>
          by_cases reports : operation = .system .fatalError
          · subst reports
            obtain ⟨_, _, text, performed⟩ := Operation.perform_fatalError self? operands result
              setting.toEnvironment machine.store
            rw [performed] at outcome
            cases outcome
            exact ⟨_, (Records.refl _).request (.fatalError text), fun silent => absurd rfl silent⟩
          · obtain ⟨calls, plain, reached⟩ := Plain.operation reports self? operands result
              setting.toEnvironment machine.store
            rw [outcome] at reached
            exact ⟨calls, by rw [Records, reached]; exact requestAll_calls _ calls,
              fun _ => (plain_quiet plain).2⟩

end BuildScript
