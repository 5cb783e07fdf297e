import BuildScript.Run.Operation

/-! What operations ask of the build system. Apart from the reports of fatal errors, and from the
directories that the evaluation of expressions enters and leaves, every request is kept and changes
no more than the variables of the build system. Most operations ask for nothing. Only one operation
reports a fatal error itself. All others make plain requests at most, and so does the making of a
component's target.
-/

namespace BuildScript

/-- A plain request neither enters nor leaves a directory and reports no fatal error. -/
def BuildCall.isPlain : BuildCall → Bool
  | .fatalError _ | .enterDirectory _ | .leaveDirectory => false
  | _ => true

/-- (requestAll system calls) is the build system after some requests, in order. -/
def BuildSystem.requestAll (system : BuildSystem) (calls : List BuildCall) : BuildSystem :=
  calls.foldl request system

-----------------------------------------------------------------------------------------
-- Recorded requests
-----------------------------------------------------------------------------------------

namespace BuildSystem

/-- Every request is recorded last, whatever else it changes. -/
theorem request_calls (system : BuildSystem) (call : BuildCall)
    : (system.request call).calls = system.calls.push call := by
  cases call <;> rfl

/-- Requests are recorded in their order, by induction over them. -/
theorem requestAll_calls (system : BuildSystem) (calls : List BuildCall)
    : (system.requestAll calls).calls.toList = system.calls.toList ++ calls := by
  induction calls generalizing system with
  | nil => simp [requestAll]
  | cons call rest ih =>
      have recorded := ih (system.request call)
      simp only [requestAll, List.foldl_cons] at recorded ⊢
      rw [recorded, request_calls, Array.toList_push, List.append_assoc, List.singleton_append]

/-- A plain request leaves the entered directories and the fatal flag alone. -/
theorem request_plain (system : BuildSystem) {call : BuildCall} (plain : call.isPlain = true)
    : (system.request call).directories = system.directories
      ∧ (system.request call).failed = system.failed := by
  cases call with
  | fatalError | enterDirectory | leaveDirectory => exact nomatch plain
  | _ => exact ⟨rfl, rfl⟩

/-- Plain requests leave the entered directories and the fatal flag alone, by induction over
them.
-/
theorem requestAll_plain (system : BuildSystem) {calls : List BuildCall}
    (plain : ∀ call ∈ calls, call.isPlain = true)
    : (system.requestAll calls).directories = system.directories
      ∧ (system.requestAll calls).failed = system.failed := by
  induction calls generalizing system with
  | nil => exact ⟨rfl, rfl⟩
  | cons call rest ih =>
      obtain ⟨sameDirectories, sameFlag⟩ := request_plain system
        (plain call List.mem_cons_self)
      obtain ⟨laterDirectories, laterFlag⟩ := ih (system.request call)
        (fun later member => plain later (List.mem_cons_of_mem call member))
      exact ⟨laterDirectories.trans sameDirectories, laterFlag.trans sameFlag⟩

end BuildSystem

-----------------------------------------------------------------------------------------
-- Actions of operations
-----------------------------------------------------------------------------------------

namespace Effect

variable {α β : Type}

/-- The second of two actions runs on what the first one gives, unless that fails. -/
theorem run_bind (effect : Effect α) (next : α → Effect β) (environment : Environment)
    (store : Store)
    : (effect >>= next) environment store =
        match effect environment store with
        | (.ok value, after) => next value environment after
        | (.error fault, after) => (.error fault, after) := by
  simp only [Bind.bind, ReaderT.bind, ExceptT.bind, ExceptT.mk, StateT.bind]
  cases effect environment store with
  | mk result after => cases result <;> rfl

/-- Requests that follow each other are made in their order, by induction over them. -/
theorem run_forM_request (calls : List BuildCall) (environment : Environment) (store : Store)
    : calls.forM request environment store
        = (.ok (), ⟨store.heap, store.system.requestAll calls⟩) := by
  induction calls generalizing store with
  | nil => rfl
  | cons call rest ih =>
      show (request call >>= fun _ => rest.forM request) environment store = _
      rw [run_bind]
      exact ih _

/-- (Asks asked effect) says that an action of an operation makes only such requests, whether it
fails or not.
-/
def Asks (asked : BuildCall → Prop) (effect : Effect α) : Prop :=
  ∀ environment store, ∃ calls,
    (∀ call ∈ calls, asked call)
    ∧ (effect environment store).2.system = store.system.requestAll calls

/-- An action of an operation is plain when it makes only plain requests. -/
def Plain (effect : Effect α) : Prop := effect.Asks fun call => call.isPlain = true

variable {asked : BuildCall → Prop}

namespace Asks

/-- An action that leaves the build system alone makes no requests. -/
theorem ofSystemEq {effect : Effect α}
    (same : ∀ environment store, (effect environment store).2.system = store.system)
    : effect.Asks asked :=
  fun environment store => ⟨[], by simp, same environment store⟩

theorem pure (value : α) : Asks asked (Pure.pure value) := ofSystemEq fun _ _ => rfl

theorem throw (fault : Fault) : Asks asked (MonadExcept.throw fault : Effect α) :=
  ofSystemEq fun _ _ => rfl

theorem read : Asks asked (MonadReader.read : Effect Environment) := ofSystemEq fun _ _ => rfl

theorem get : Asks asked (MonadState.get : Effect Store) := ofSystemEq fun _ _ => rfl

theorem onHeap (action : StateM Heap α) : Asks asked (Effect.onHeap action) :=
  ofSystemEq fun _ _ => rfl

/-- Actions compose: the requests of the second follow those of the first. -/
theorem bind {effect : Effect α} {next : α → Effect β}
    (first : effect.Asks asked) (second : ∀ value, (next value).Asks asked)
    : (effect >>= next).Asks asked := by
  intro environment store
  obtain ⟨calls, allowed, reached⟩ := first environment store
  rw [run_bind]
  cases outcome : effect environment store with
  | mk result after =>
      rw [outcome] at reached
      cases result with
      | error fault => exact ⟨calls, allowed, reached⟩
      | ok value =>
          obtain ⟨later, laterAllowed, finished⟩ := second value environment after
          refine ⟨calls ++ later, ?_, ?_⟩
          · intro call member
            exact (List.mem_append.mp member).elim (allowed call) (laterAllowed call)
          · rw [finished, show after.system = _ from reached]
            exact (List.foldl_append ..).symm

theorem map {effect : Effect α} (change : α → β) (asks : effect.Asks asked)
    : (change <$> effect).Asks asked := by
  rw [← bind_pure_comp]
  exact asks.bind fun value => .pure (change value)

/-- A request asks for itself. -/
theorem request {call : BuildCall} (allowed : asked call) : (Effect.request call).Asks asked :=
  fun _ _ => ⟨[call], by simpa using allowed, rfl⟩

theorem forM {calls : List BuildCall} (allowed : ∀ call ∈ calls, asked call)
    : (calls.forM Effect.request).Asks asked := by
  induction calls with
  | nil => exact .pure ()
  | cons call rest ih =>
      exact (request (allowed call List.mem_cons_self)).bind fun _ =>
        ih fun later member => allowed later (List.mem_cons_of_mem call member)

theorem ofExcept {ε : Type} (fault : ε → Fault) (result : Except ε α)
    : (Effect.ofExcept fault result).Asks asked := by
  cases result with
  | ok value => exact .pure value
  | error reason => exact .throw (fault reason)

end Asks

end Effect

-----------------------------------------------------------------------------------------
-- Operations that ask for nothing
-----------------------------------------------------------------------------------------

/-- Whether an operation of the build system only looks at it. -/
def SystemOperation.isSilent : SystemOperation → Bool
  | minimumRequired | version | currentSourceDir | currentBinaryDir | rootSourceDir | getVariable
  | ctestCommand | systemName | compilerName => true
  | _ => false

/-- Whether an operation of projects makes no request. -/
def ProjectOperation.isSilent : ProjectOperation → Bool
  | name | assign => true
  | ofName | addExecutable | addLibrary => false

/-- Whether an operation of targets makes no request. -/
def TargetOperation.isSilent : TargetOperation → Bool
  | name | assign => true
  | add _ | addVisibly _ => false

/-- Whether an operation makes no request to the build system. -/
def Operation.isSilent : Operation → Bool
  | system operation => operation.isSilent
  | project operation => operation.isSilent
  | target operation => operation.isSilent
  | _ => true

namespace Effect

namespace Asks

variable {asked : BuildCall → Prop}

-----------------------------------------------------------------------------------------
-- Values
-----------------------------------------------------------------------------------------

theorem valueAt (cell : CellId) : (Effect.valueAt cell).Asks asked := get.bind fun _ => .pure _

theorem valueOf (handle : Handle) : (Effect.valueOf handle).Asks asked := valueAt handle.cell

theorem valuesOf (handles : List Handle) : (Effect.valuesOf handles).Asks asked :=
  get.bind fun _ => .pure _

theorem stringsOf (value : Value) : (Effect.stringsOf value).Asks asked :=
  get.bind fun _ => .pure _

theorem system : Effect.system.Asks asked := get.bind fun _ => .pure _

theorem new (type : TypeId) (value : Value) : (Effect.new type value).Asks asked := onHeap _

theorem void : Effect.void.Asks asked := read.bind fun _ => new _ _

theorem bool (value : Bool) : (Effect.bool value).Asks asked := read.bind fun _ => new _ _

theorem int (value : Int64) : (Effect.int value).Asks asked := read.bind fun _ => new _ _

theorem double (value : Float) : (Effect.double value).Asks asked := read.bind fun _ => new _ _

theorem string (value : String) : (Effect.string value).Asks asked := read.bind fun _ => new _ _

theorem version (value : Version) : (Effect.version value).Asks asked := read.bind fun _ => new _ _

theorem place (place? : Option Nat) : (Effect.place place?).Asks asked := int _

theorem operand (operands : List Handle) (index : Nat)
    : (Effect.operand operands index).Asks asked := by
  unfold Effect.operand
  split
  · exact .pure _
  · exact void

theorem setValue (handle : Handle) (value : Value) : (Effect.setValue handle value).Asks asked :=
  onHeap _

theorem change (handle : Handle) (value : Value) : (Effect.change handle value).Asks asked :=
  (setValue handle value).bind fun _ => .pure _

theorem become (handle : Handle) (value : Value) : (Effect.become handle value).Asks asked :=
  (setValue handle value).bind fun _ => void

theorem overwrite (target source : Handle) : (Effect.overwrite target source).Asks asked :=
  (valueOf target).bind fun _ => (onHeap _).bind fun _ => change target _

theorem test (comparison : Comparison) (a b : Value) : (Effect.test comparison a b).Asks asked :=
  get.bind fun _ => bool _

-----------------------------------------------------------------------------------------
-- Operations of values
-----------------------------------------------------------------------------------------

theorem arithmetic (operator : IntArithmetic) (a b : Int64)
    : (operator.perform a b).Asks asked := by
  unfold IntArithmetic.perform
  split
  · exact .pure _
  · exact .throw _

/-- Operations of `bool` ask for nothing, by cases on the operation. -/
theorem boolOperation (operation : BoolOperation) (self : Handle) (operands : List Handle)
    : (operation.perform self operands).Asks asked := by
  refine (valueOf self).bind fun this => (valuesOf operands).bind fun values => ?_
  cases operation with
  | assign => exact (operand operands 0).bind fun _ => overwrite self _
  | text => exact string _
  | _ => exact bool _

/-- Operations of `int` ask for nothing, by cases on the operation. -/
theorem intOperation (operation : IntOperation) (self : Handle) (operands : List Handle)
    : (operation.perform self operands).Asks asked := by
  refine (valueOf self).bind fun this => (valuesOf operands).bind fun values => ?_
  cases operation with
  | assign => exact (operand operands 0).bind fun _ => overwrite self _
  | text => exact string _
  | arithmetic operator => exact (arithmetic operator _ _).bind fun _ => int _
  | update operator => exact (arithmetic operator _ _).bind fun _ => change self _
  | increment | decrement => exact change self _
  | compare comparison => exact test comparison _ _
  | _ => exact int _

/-- Operations of `double` ask for nothing, by cases on the operation. -/
theorem doubleOperation (operation : DoubleOperation) (self : Handle) (operands : List Handle)
    : (operation.perform self operands).Asks asked := by
  refine (valueOf self).bind fun this => (valuesOf operands).bind fun values => ?_
  cases operation with
  | assign => exact (operand operands 0).bind fun _ => overwrite self _
  | text => exact string _
  | update operator => exact change self _
  | compare comparison => exact test comparison _ _
  | _ => exact double _

/-- Operations of `version` ask for nothing, by cases on the operation. -/
theorem versionOperation (operation : VersionOperation) (self : Handle)
    (operands : List Handle)
    : (operation.perform self operands).Asks asked := by
  refine (valueOf self).bind fun this => (valuesOf operands).bind fun values => ?_
  cases operation with
  | ofParts => exact version _
  | assign => exact (operand operands 0).bind fun _ => overwrite self _
  | compare comparison => exact test comparison _ _
  | part => exact int _
  | text => exact string _

/-- Operations of enumerations ask for nothing, by cases on the operation. -/
theorem enumOperation (operation : EnumOperation) (self : Handle) (operands : List Handle)
    : (operation.perform self operands).Asks asked := by
  refine (valueOf self).bind fun this => (valuesOf operands).bind fun values => ?_
  cases operation with
  | assign => exact (operand operands 0).bind fun _ => overwrite self _
  | equal | notEqual => exact test _ _ _
  | text => exact read.bind fun _ => get.bind fun _ => string _

/-- Operations of `string` ask for nothing, by cases on the operation. -/
theorem stringOperation (operation : StringOperation) (self : Handle) (operands : List Handle)
    : (operation.perform self operands).Asks asked := by
  refine (valueOf self).bind fun this => (valuesOf operands).bind fun values => ?_
  cases operation with
  | assign => exact (operand operands 0).bind fun _ => overwrite self _
  | repeated => exact (ofExcept id _).bind fun _ => string _
  | isEmpty | startsWith | endsWith | contains => exact bool _
  | size => exact int _
  | compare comparison => exact test comparison _ _
  | appendTo => exact change self _
  | clear | makeLower | makeUpper => exact become self _
  | insert | eraseFrom | erase | replace => exact (ofExcept _ _).bind fun _ => become self _
  | substringFrom | substring => exact (ofExcept _ _).bind fun _ => string _
  | resize | resizeWith =>
      exact (ofExcept _ _).bind fun _ => (ofExcept _ _).bind fun _ => become self _
  | find | findFrom | findNotOf | findNotOfFrom =>
      exact (ofExcept _ _).bind fun _ => place _
  | findLast | findLastNotOf => exact place _
  | default | copy | append | lower | upper => exact string _

-----------------------------------------------------------------------------------------
-- Operations of lists
-----------------------------------------------------------------------------------------

theorem copies (cells : List CellId) : (ListOperation.copies cells).Asks asked := onHeap _

theorem newList (type : TypeId) (elements : List CellId)
    : (ListOperation.newList type elements).Asks asked :=
  new _ _

theorem defaults (type : TypeId) (count : Nat) : (ListOperation.defaults type count).Asks asked :=
  read.bind fun _ => onHeap _

theorem extreme (order : Ordering) (elements : List CellId)
    : (ListOperation.extreme order elements).Asks asked := by
  refine get.bind fun store => ?_
  dsimp only
  split
  · exact (onHeap _).map _
  · exact .throw _

theorem sorted (elements : List CellId) : (ListOperation.sorted elements).Asks asked :=
  get.bind fun _ => .pure _

theorem present (element? : Option CellId) : (ListOperation.present element?).Asks asked := by
  unfold ListOperation.present
  split
  · exact .pure _
  · exact .throw _

/-- Operations of lists ask for nothing, by cases on the operation. -/
theorem listOperation (operation : ListOperation) (self : Handle) (operands : List Handle)
    (result : TypeId)
    : (operation.perform self operands result).Asks asked := by
  refine get.bind fun store => (valuesOf operands).bind fun values => ?_
  cases operation with
  | default => exact read.bind fun _ => newList _ _
  | pushBack | pushFront =>
      exact (operand operands 0).bind fun _ => (copies _).bind fun _ => become self _
  | pushBackAll | pushFrontAll => exact (copies _).bind fun _ => become self _
  | popBack =>
      dsimp only
      split
      · exact .throw _
      · exact become self _
  | popFront =>
      dsimp only
      split
      · exact .throw _
      · exact become self _
  | «at» => exact (ofExcept id _).bind fun _ => present _
  | front | back => exact present _
  | insert =>
      exact (ofExcept id _).bind fun _ => (operand operands 1).bind fun _ =>
        (copies _).bind fun _ => become self _
  | insertAll => exact (ofExcept id _).bind fun _ => (copies _).bind fun _ => become self _
  | eraseAt | erase => exact (ofExcept id _).bind fun _ => become self _
  | remove | removeFirst | removeLast =>
      exact (operand operands 0).bind fun _ => get.bind fun _ =>
        (setValue self _).bind fun _ => int _
  | clear | reverse => exact become self _
  | resize => exact (ofExcept id _).bind fun _ => (defaults _ _).bind fun _ => become self _
  | sort => exact (sorted _).bind fun _ => become self _
  | min | max => exact extreme _ _
  | sublistFrom | sublist =>
      exact (ofExcept id _).bind fun _ => (copies _).bind fun _ => newList _ _
  | size => exact int _
  | isEmpty => exact bool _
  | find | findFrom =>
      exact (ofExcept id _).bind fun _ => (operand operands 0).bind fun _ =>
        get.bind fun _ => place _
  | append =>
      exact (copies _).bind fun _ => (operand operands 0).bind fun _ =>
        (copies _).bind fun _ => newList _ _
  | appendAll => exact (copies _).bind fun _ => (copies _).bind fun _ => newList _ _
  | appendTo =>
      exact (operand operands 0).bind fun _ => (copies _).bind fun _ => change self _
  | appendAllTo => exact (copies _).bind fun _ => change self _
  | assign => exact (operand operands 0).bind fun _ => overwrite self _

-----------------------------------------------------------------------------------------
-- Operations of the build system
-----------------------------------------------------------------------------------------

theorem findExternal (name : String) (type : TypeId)
    : (BuildScript.findExternal name type).Asks asked := by
  refine read.bind fun environment => ?_
  dsimp only
  split
  · exact system.bind fun _ => (onHeap _).bind fun _ => new _ _
  · exact .throw _

/-- Operations of values given on the command line ask for nothing, by cases on the operation. -/
theorem externalOperation (operation : ExternalOperation) (self : Handle)
    (operands : List Handle) (result : TypeId)
    : (operation.perform self operands result).Asks asked := by
  refine (valueOf self).bind fun this => (valuesOf operands).bind fun values => ?_
  cases operation with
  | ofName => exact findExternal _ _
  | hasValue =>
      dsimp only
      split <;> exact bool _
  | value =>
      dsimp only
      split
      · exact (onHeap _).map _
      · exact .throw _
  | assign => exact (operand operands 0).bind fun _ => overwrite self _

theorem requestVoid {call : BuildCall} (allowed : asked call)
    : (BuildScript.requestVoid call).Asks asked :=
  (request allowed).bind fun _ => void

/-- Operations of the build system ask for nothing or make plain requests, by cases on the
operation, unless they report a fatal error.
-/
theorem systemOperation {operation : SystemOperation} (harmless : operation ≠ .fatalError)
    (allowed : operation.isSilent = false → ∀ call : BuildCall, call.isPlain = true → asked call)
    (operands : List Handle)
    : (operation.perform operands).Asks asked := by
  refine (valuesOf operands).bind fun values => ?_
  cases operation with
  | fatalError => exact absurd rfl harmless
  | minimumRequired =>
      dsimp only
      split
      · exact .throw _
      · exact void
  | version => exact version _
  | currentSourceDir | currentBinaryDir | rootSourceDir | getVariable =>
      exact system.bind fun _ => string _
  | option => exact system.bind fun _ => (request (allowed rfl _ rfl)).bind fun _ => bool _
  | addCustomCommand | addCustomTarget =>
      exact (stringsOf _).bind fun _ => requestVoid (allowed rfl _ rfl)
  | ctestCommand | systemName | compilerName => exact string _
  | _ => exact requestVoid (allowed rfl _ rfl)

/-- Operations of projects ask for nothing or make plain requests, by cases on the operation. -/
theorem projectOperation (operation : ProjectOperation)
    (allowed : operation.isSilent = false → ∀ call : BuildCall, call.isPlain = true → asked call)
    (self : Handle) (operands : List Handle)
    : (operation.perform self operands).Asks asked := by
  refine (valueOf self).bind fun this => (valuesOf operands).bind fun values =>
    (stringsOf _).bind fun sources => ?_
  cases operation with
  | ofName | addExecutable | addLibrary =>
      exact (request (allowed rfl _ rfl)).bind fun _ => read.bind fun _ => new _ _
  | name => exact string _
  | assign => exact (operand operands 0).bind fun _ => overwrite self _

/-- What is added to a target is asked for by a plain request, by cases on the property. -/
theorem propertyCall (property : TargetProperty) (target : String) (visibility : Visibility)
    (text : String) (texts : List String)
    : (property.call target visibility text texts).isPlain = true := by
  cases property <;> rfl

/-- Operations of targets ask for nothing or make plain requests, by cases on the operation. -/
theorem targetOperation (operation : TargetOperation)
    (allowed : operation.isSilent = false → ∀ call : BuildCall, call.isPlain = true → asked call)
    (self : Handle) (operands : List Handle)
    : (operation.perform self operands).Asks asked := by
  refine (valueOf self).bind fun this => (valuesOf operands).bind fun values => ?_
  cases operation with
  | name => exact string _
  | add | addVisibly =>
      exact (stringsOf _).bind fun _ =>
        (request (allowed rfl _ (propertyCall ..))).bind fun _ => void
  | assign => exact (operand operands 0).bind fun _ => overwrite self _

-----------------------------------------------------------------------------------------
-- All operations
-----------------------------------------------------------------------------------------

/-- Every operation but the report of a fatal error asks for nothing or makes plain requests, family
by family.
-/
theorem operation {operation : Operation} (harmless : operation ≠ .system .fatalError)
    (allowed : operation.isSilent = false → ∀ call : BuildCall, call.isPlain = true → asked call)
    (self? : Option Handle) (operands : List Handle) (result : TypeId)
    : (operation.perform self? operands result).Asks asked := by
  refine (operand _ 0).bind fun self => ?_
  cases operation with
  | bool operation => exact boolOperation operation self operands
  | int operation => exact intOperation operation self operands
  | double operation => exact doubleOperation operation self operands
  | string operation => exact stringOperation operation self operands
  | version operation => exact versionOperation operation self operands
  | list operation => exact listOperation operation self operands result
  | external operation => exact externalOperation operation self operands result
  | project operation => exact projectOperation operation allowed self operands
  | target operation => exact targetOperation operation allowed self operands
  | enumeration operation => exact enumOperation operation self operands
  | assignObject => exact (operand operands 0).bind fun _ => overwrite self _
  | system operation =>
      exact systemOperation (fun same => harmless (by rw [same])) allowed operands

end Asks

namespace Plain

/-- Every operation but the report of a fatal error is plain. -/
theorem operation {operation : Operation} (harmless : operation ≠ .system .fatalError)
    (self? : Option Handle) (operands : List Handle) (result : TypeId)
    : (operation.perform self? operands result).Plain :=
  Asks.operation harmless (fun _ _ plain => plain) self? operands result

theorem addTexts {property : TargetProperty} {target : String} {texts : List String}
    {call : BuildCall} (member : call ∈ BuildScript.addTexts property target texts)
    : call.isPlain = true := by
  unfold BuildScript.addTexts at member
  split at member
  · exact nomatch member
  · rw [List.mem_singleton.mp member]
    exact Asks.propertyCall ..

/-- Making the target of a component is plain, request by request. -/
theorem componentCreate (component : Component) : component.create.Plain := by
  refine (Asks.forM fun call member => ?_).bind fun _ => Asks.read.bind fun _ => .new _ _
  simp only [Component.calls, List.cons_append, List.append_assoc, List.mem_cons, List.mem_append,
    List.mem_map] at member
  rcases member with rfl | member | member | member | ⟨library, _, rfl⟩
  · cases component.kind <;> rfl
  · exact addTexts member
  · exact addTexts member
  · exact addTexts member
  · rfl

end Plain

end Effect

/-- The report of a fatal error always comes to its end, and the report is the only request. -/
theorem Operation.perform_fatalError (self? : Option Handle) (operands : List Handle)
    (result : TypeId) (environment : Environment) (store : Store)
    : ∃ value heap text,
        (Operation.system .fatalError).perform self? operands result environment store
          = (.ok value, ⟨heap, store.system.request (.fatalError text)⟩) := by
  cases self? with
  | none => exact ⟨_, _, _, rfl⟩
  | some self => exact ⟨_, _, _, rfl⟩

end BuildScript
