import BuildScript.Proofs.Run.HeapRenaming
import BuildScript.Proofs.Sequence.Elements
import BuildScript.Run.Operation

/-! Operations do not depend on which cells they work on. On a mirrored store, where cells have
other names, every operation does the same under these names and makes the same requests.
-/

namespace BuildScript

variable {names : CellId → CellId}

-----------------------------------------------------------------------------------------
-- Mirrored stores and composition of actions
-----------------------------------------------------------------------------------------

/-- (Mirrors names store twin) says that a store mirrors another one, with the same build system. -/
structure Store.Mirrors (names : CellId → CellId) (store twin : Store) : Prop where
  heap : store.heap.Mirrors names twin.heap
  system : twin.system = store.system

/-- A store that mirrors another one without new names is the same. -/
theorem Store.Mirrors.eq_of_id {store twin : Store} (mirrors : store.Mirrors id twin)
    : twin = store := by
  obtain ⟨heap, system⟩ := mirrors
  cases store
  cases twin
  exact (Store.mk.injEq ..).mpr ⟨heap.eq_of_id, system⟩

/-- (Agree names change outcome twin) says that two outcomes give the same under new names, or fail
for the same reason, and leave stores of which the second one mirrors the first.
-/
structure Effect.Agree {α β : Type} (names : CellId → CellId) (change : α → β)
    (outcome : Except Fault α × Store) (twin : Except Fault β × Store)
    : Prop where
  result : twin.1 = outcome.1.map change
  store : outcome.2.Mirrors names twin.2

/-- (Mirrored names environment store twin change effect other) says that an action of an operation
agrees with another one on a mirrored store.
-/
def Effect.Mirrored {α β : Type} (names : CellId → CellId) (environment : Environment)
    (store twin : Store) (change : α → β) (effect : Effect α) (other : Effect β)
    : Prop :=
  Agree names change (effect environment store) (other environment twin)

namespace Effect.Mirrored

variable {environment : Environment} {store twin : Store} {α β γ δ : Type} {given : α → β}
  {changed : γ → δ}

theorem pure (mirrors : store.Mirrors names twin) (value : α)
    : Mirrored names environment store twin given (Pure.pure value) (Pure.pure (given value)) :=
  ⟨rfl, mirrors⟩

theorem throw (mirrors : store.Mirrors names twin) (fault : Fault)
    : Mirrored names environment store twin given (MonadExcept.throw fault : Effect α)
        (MonadExcept.throw fault) :=
  ⟨rfl, mirrors⟩

/-- What follows mirrored actions has to be mirrored where they come to their end only. -/
theorem bind {effect : Effect α} {other : Effect β} {next : α → Effect γ} {following : β → Effect δ}
    (first : Mirrored names environment store twin given effect other)
    (later : ∀ value after twin', effect environment store = (.ok value, after) →
      after.Mirrors names twin' →
        Mirrored names environment after twin' changed (next value) (following (given value)))
    : Mirrored names environment store twin changed (effect >>= next) (other >>= following) := by
  obtain ⟨agree, mirrors⟩ := first
  unfold Mirrored
  rw [run_bind, run_bind]
  cases outcome : effect environment store with
  | mk result after =>
      cases outcome' : other environment twin with
      | mk result' twin' =>
          rw [outcome, outcome'] at agree mirrors
          obtain rfl := agree
          cases result with
          | ok value => exact later value after twin' outcome mirrors
          | error fault => exact ⟨rfl, mirrors⟩

/-- An action may look at the stores first. -/
theorem get {next : Store → Effect γ} {following : Store → Effect δ}
    (later : Mirrored names environment store twin changed (next store) (following twin))
    : Mirrored names environment store twin changed (MonadState.get >>= next)
        (MonadState.get >>= following) :=
  later

/-- An action may look at the environment first. -/
theorem read {next : Environment → Effect γ} {following : Environment → Effect δ}
    (later : Mirrored names environment store twin changed (next environment)
      (following environment))
    : Mirrored names environment store twin changed (MonadReader.read >>= next)
        (MonadReader.read >>= following) :=
  later

/-- An action may work on the heap first. -/
theorem onHeap {action : StateM Heap α} {other : StateM Heap β}
    (mirrors : store.Mirrors names twin)
    (mirrored : Heap.Mirrored names store.heap twin.heap given action other)
    : Mirrored names environment store twin given (Effect.onHeap action) (Effect.onHeap other) :=
  ⟨congrArg Except.ok mirrored.result, mirrored.heap, mirrors.system⟩

theorem request (mirrors : store.Mirrors names twin) (call : BuildCall)
    : Mirrored names environment store twin id (Effect.request call) (Effect.request call) :=
  ⟨rfl, mirrors.heap, congrArg (·.request call) mirrors.system⟩

-----------------------------------------------------------------------------------------
-- Reading values
-----------------------------------------------------------------------------------------

theorem valueOf {handle : Handle} {next following : Value → Effect γ} {changed : γ → γ}
    (mirrors : store.Mirrors names twin)
    (later : Mirrored names environment store twin changed (next (store.heap.value handle.cell))
      (following ((store.heap.value handle.cell).rename names)))
    : Mirrored names environment store twin changed (Effect.valueOf handle >>= next)
        (Effect.valueOf (handle.rename names) >>= following) := by
  rw [← mirrors.heap.value, ← Handle.cell_rename names] at later
  exact later

theorem valuesOf {handles : List Handle} {next following : List Value → Effect γ} {changed : γ → γ}
    (mirrors : store.Mirrors names twin)
    (later : ∀ values, Mirrored names environment store twin changed (next values)
      (following (values.map (Value.rename names))))
    : Mirrored names environment store twin changed (Effect.valuesOf handles >>= next)
        (Effect.valuesOf (handles.map (Handle.rename names)) >>= following) := by
  have values := later (handles.map fun handle => store.heap.value handle.cell)
  have same : (handles.map fun handle => store.heap.value handle.cell).map (Value.rename names) =
      (handles.map (Handle.rename names)).map fun handle => twin.heap.value handle.cell := by
    rw [List.map_map, List.map_map]
    refine List.map_congr_left fun handle _ => ?_
    rw [Function.comp, Function.comp, Handle.cell_rename, mirrors.heap.value]
  rw [same] at values
  exact values

theorem stringsOf {value value' : Value} {next following : List String → Effect γ}
    {changed : γ → γ} (mirrors : store.Mirrors names twin) (same : value' = value.rename names)
    (later : ∀ texts, Mirrored names environment store twin changed (next texts) (following texts))
    : Mirrored names environment store twin changed (Effect.stringsOf value >>= next)
        (Effect.stringsOf value' >>= following) := by
  have texts := later (value.elements.map fun cell => (store.heap.value cell).asString)
  have agree : (value'.elements.map fun cell => (twin.heap.value cell).asString) =
      value.elements.map fun cell => (store.heap.value cell).asString := by
    rw [same, Value.elements_rename, List.map_map]
    refine List.map_congr_left fun cell _ => ?_
    rw [Function.comp, mirrors.heap.value, Value.asString_rename]
  show Mirrored names environment store twin changed (next _) (following _)
  rw [agree]
  exact texts

theorem system {next following : BuildSystem → Effect γ} {changed : γ → γ}
    (mirrors : store.Mirrors names twin)
    (later : ∀ system, Mirrored names environment store twin changed (next system)
      (following system))
    : Mirrored names environment store twin changed (Effect.system >>= next)
        (Effect.system >>= following) := by
  show Mirrored names environment store twin changed (next store.system) (following twin.system)
  rw [mirrors.system]
  exact later _

/-- What can fail for a reason fails for the same one. -/
theorem ofExcept {ε : Type} {fault : ε → Fault} {result result' : Except ε α}
    {next following : α → Effect γ} {changed : γ → γ} (mirrors : store.Mirrors names twin)
    (same : result' = result)
    (later : ∀ value, Mirrored names environment store twin changed (next value) (following value))
    : Mirrored names environment store twin changed (Effect.ofExcept fault result >>= next)
        (Effect.ofExcept fault result' >>= following) := by
  rw [same]
  cases result with
  | ok value => exact later value
  | error reason => exact ⟨rfl, mirrors⟩

-----------------------------------------------------------------------------------------
-- Making values
-----------------------------------------------------------------------------------------

theorem new (mirrors : store.Mirrors names twin) (type : TypeId) (value : Value) {value' : Value}
    (same : value' = value.rename names)
    : Mirrored names environment store twin (Handle.rename names) (Effect.new type value)
        (Effect.new type value') := by
  subst same
  have made := Heap.Mirrored.new mirrors.heap type value
  exact ⟨congrArg (fun cell => Except.ok (Handle.owned cell)) made.result, made.heap,
    mirrors.system⟩

theorem void (mirrors : store.Mirrors names twin)
    : Mirrored names environment store twin (Handle.rename names) Effect.void Effect.void :=
  read <| new mirrors _ .void rfl

theorem bool (mirrors : store.Mirrors names twin) {value value' : Bool} (same : value' = value)
    : Mirrored names environment store twin (Handle.rename names) (Effect.bool value)
        (Effect.bool value') :=
  read <| new mirrors _ (.bool value) (congrArg Value.bool same)

theorem int (mirrors : store.Mirrors names twin) {value value' : Int64} (same : value' = value)
    : Mirrored names environment store twin (Handle.rename names) (Effect.int value)
        (Effect.int value') :=
  read <| new mirrors _ (.int value) (congrArg Value.int same)

theorem double (mirrors : store.Mirrors names twin) {value value' : Float} (same : value' = value)
    : Mirrored names environment store twin (Handle.rename names) (Effect.double value)
        (Effect.double value') :=
  read <| new mirrors _ (.double value) (congrArg Value.double same)

theorem string (mirrors : store.Mirrors names twin) {value value' : String} (same : value' = value)
    : Mirrored names environment store twin (Handle.rename names) (Effect.string value)
        (Effect.string value') :=
  read <| new mirrors _ (.string value) (congrArg Value.string same)

theorem version (mirrors : store.Mirrors names twin) {value value' : Version}
    (same : value' = value)
    : Mirrored names environment store twin (Handle.rename names) (Effect.version value)
        (Effect.version value') :=
  read <| new mirrors _ (.version value) (congrArg Value.version same)

theorem place (mirrors : store.Mirrors names twin) {place? place?' : Option Nat}
    (same : place?' = place?)
    : Mirrored names environment store twin (Handle.rename names) (Effect.place place?)
        (Effect.place place?') := by
  subst same
  exact int mirrors rfl

/-- A new cell that is made of others. -/
theorem own {action other : StateM Heap CellId} (mirrors : store.Mirrors names twin)
    (made : Heap.Mirrored names store.heap twin.heap names action other)
    : Mirrored names environment store twin (Handle.rename names)
        (.owned <$> Effect.onHeap action : Effect Handle) (.owned <$> Effect.onHeap other) :=
  ⟨congrArg (fun cell => Except.ok (Handle.owned cell)) made.result, made.heap, mirrors.system⟩

theorem requestVoid (mirrors : store.Mirrors names twin) {call call' : BuildCall}
    (same : call' = call)
    : Mirrored names environment store twin (Handle.rename names) (BuildScript.requestVoid call)
        (BuildScript.requestVoid call') := by
  subst same
  exact (request mirrors call').bind fun _ _ _ _ mirrors => void mirrors

/-- The parts of what is in a tidy heap are cells of it. -/
theorem present (tidy : store.heap.Tidy) (cell : CellId)
    : ∀ part ∈ (store.heap.value cell).parts, part.index < store.heap.cells.size :=
  fun part held => tidy.closed part (Heap.mem_parts held)

theorem test (mirrors : store.Mirrors names twin) (tidy : store.heap.Tidy)
    (comparison : Comparison) {a a' b b' : Value}
    (inside : ∀ part ∈ a.parts, part.index < store.heap.cells.size)
    (first : a' = a.rename names) (second : b' = b.rename names)
    : Mirrored names environment store twin (Handle.rename names) (Effect.test comparison a b)
        (Effect.test comparison a' b') := by
  subst first second
  exact get (bool mirrors (congrArg comparison.holds (mirrors.heap.compare? tidy inside b)))

/-- An operand that is not given is a new value, in a heap that stays tidy. -/
theorem operand {operands : List Handle} {index : Nat} {next following : Handle → Effect γ}
    {changed : γ → γ} (mirrors : store.Mirrors names twin) (tidy : store.heap.Tidy)
    (later : ∀ handle after twin', store.heap.cells.size ≤ after.heap.cells.size →
      after.Mirrors names twin' → after.heap.Tidy →
        Mirrored names environment after twin' changed (next handle)
          (following (handle.rename names)))
    : Mirrored names environment store twin changed (Effect.operand operands index >>= next)
        (Effect.operand (operands.map (Handle.rename names)) index >>= following) := by
  unfold Effect.operand
  rw [List.getElem?_map]
  cases operands[index]? with
  | some handle => exact later handle store twin (Nat.le_refl _) mirrors tidy
  | none =>
      have making : Heap.Makes (fun _ => True) (Heap.new environment.builtins.void .void)
          fun cell => [cell] :=
        .new rfl rfl
      refine (void mirrors).bind fun handle after twin' outcome mirrors => ?_
      cases outcome
      exact later _ _ _ (making store.heap).grows mirrors (tidy.works (making store.heap))

/-- Copies of cells, after which the heap is tidy still. -/
theorem copies {cells cells' : List CellId} {next following : List CellId → Effect γ}
    {changed : γ → γ} (mirrors : store.Mirrors names twin) (tidy : store.heap.Tidy)
    (same : cells' = cells.map names)
    (later : ∀ copied after twin', after.Mirrors names twin' → after.heap.Tidy →
        Mirrored names environment after twin' changed (next copied)
          (following (copied.map names)))
    : Mirrored names environment store twin changed (ListOperation.copies cells >>= next)
        (ListOperation.copies cells' >>= following) := by
  subst same
  have makes (cell : CellId) : Heap.Makes (fun _ => True) (Heap.copy cell) fun copy => [copy] :=
    Heap.Makes.copy cell
  have copied := Heap.Mirrored.mapM Heap.copy Heap.copy names names (fun _ heap => heap.Tidy)
    (fun cell _ _ tidy mirrors => .copy tidy mirrors cell)
    (fun cell _ heap tidy => tidy.works (makes cell heap)) cells (fun _ _ => tidy) mirrors.heap
  refine (onHeap mirrors copied).bind fun made after twin' outcome mirrors => ?_
  cases outcome
  exact later _ _ _ mirrors (tidy.works (Heap.Makes.mapM id makes cells store.heap))

-----------------------------------------------------------------------------------------
-- Changing values
-----------------------------------------------------------------------------------------

theorem setValue (mirrors : store.Mirrors names twin) (handle : Handle) {value value' : Value}
    (same : value' = value.rename names)
    : Mirrored names environment store twin id (Effect.setValue handle value)
        (Effect.setValue (handle.rename names) value') := by
  subst same
  refine ⟨rfl, ?_, mirrors.system⟩
  show (store.heap.write handle.cell value).Mirrors names
    (twin.heap.write (handle.rename names).cell (value.rename names))
  rw [Handle.cell_rename]
  exact mirrors.heap.write handle.cell value

theorem change (mirrors : store.Mirrors names twin) (handle : Handle) {value value' : Value}
    (same : value' = value.rename names)
    : Mirrored names environment store twin (Handle.rename names) (Effect.change handle value)
        (Effect.change (handle.rename names) value') := by
  refine (setValue mirrors handle same).bind fun _ _ _ _ mirrors => ?_
  rw [Handle.toReference_rename]
  exact pure mirrors handle.toReference

theorem become (mirrors : store.Mirrors names twin) (handle : Handle) {value value' : Value}
    (same : value' = value.rename names)
    : Mirrored names environment store twin (Handle.rename names) (Effect.become handle value)
        (Effect.become (handle.rename names) value') :=
  (setValue mirrors handle same).bind fun _ _ _ _ mirrors => void mirrors

/-- Overwriting members one after the other, by induction over them. -/
theorem foldl_setMember (overwriting members : List (Nat × CellId))
    : (overwriting.map fun member => (member.1, names member.2)).foldl
        (fun members member => Value.setMember member.1 member.2 members)
        (members.map fun member => (member.1, names member.2)) =
          (overwriting.foldl (fun members member => Value.setMember member.1 member.2 members)
            members).map fun member => (member.1, names member.2) := by
  induction overwriting generalizing members with
  | nil => rfl
  | cons first rest ih =>
      rw [List.map_cons, List.foldl_cons, List.foldl_cons, Value.setMember_rename]
      exact ih _

theorem overwrite (mirrors : store.Mirrors names twin) (tidy : store.heap.Tidy)
    (target source : Handle)
    : Mirrored names environment store twin (Handle.rename names) (Effect.overwrite target source)
        (Effect.overwrite (target.rename names) (source.rename names)) := by
  refine valueOf mirrors ?_
  have copied := Heap.Mirrored.copyValue _ tidy (present tidy source.cell) mirrors.heap
  rw [← mirrors.heap.value, ← Handle.cell_rename names] at copied
  have copied : Heap.Mirrored names store.heap twin.heap (Value.rename names)
      (do Heap.copyValue ((← MonadState.get).value source.cell))
      (do Heap.copyValue ((← MonadState.get).value (source.rename names).cell)) :=
    ⟨copied.result, copied.heap⟩
  refine (onHeap mirrors copied).bind fun value _ _ _ mirrors => ?_
  refine change mirrors target ?_
  cases store.heap.value target.cell with
  | object members =>
      cases value with
      | object overwriting => exact congrArg Value.object (foldl_setMember overwriting members)
      | _ => rfl
  | _ => cases value <;> rfl

-----------------------------------------------------------------------------------------
-- Operations of values and lists
-----------------------------------------------------------------------------------------

/-- A value that is not given is void under all names. -/
@[simp]
theorem given_rename (value? : Option Value)
    : (value?.map (Value.rename names)).getD .void = (value?.getD .void).rename names := by
  cases value? <;> rfl

theorem given_first (values : List Value)
    : ((values.map (Value.rename names)).headD .void).asString = (values.headD .void).asString := by
  simp

theorem arithmetic (mirrors : store.Mirrors names twin) {operator : IntArithmetic}
    {a a' b b' : Int64} {next following : Int64 → Effect γ} {changed : γ → γ} (first : a' = a)
    (second : b' = b)
    (later : ∀ value, Mirrored names environment store twin changed (next value) (following value))
    : Mirrored names environment store twin changed (operator.perform a b >>= next)
        (operator.perform a' b' >>= following) := by
  rw [first, second]
  unfold IntArithmetic.perform
  split
  · exact later _
  · exact ⟨rfl, mirrors⟩

variable (mirrors : store.Mirrors names twin) (tidy : store.heap.Tidy)

include mirrors tidy

/-- Operations of `bool` are mirrored, by cases on the operation. -/
theorem boolOperation (operation : BoolOperation) (self : Handle) (operands : List Handle)
    : Mirrored names environment store twin (Handle.rename names)
        (operation.perform self operands)
        (operation.perform (self.rename names) (operands.map (Handle.rename names))) := by
  refine valueOf mirrors (valuesOf mirrors fun values => ?_)
  cases operation with
  | assign =>
      exact operand mirrors tidy fun source _ _ _ mirrors tidy => overwrite mirrors tidy self source
  | text => exact string mirrors (by simp)
  | _ => exact bool mirrors (by simp)

/-- Operations of `int` are mirrored, by cases on the operation. -/
theorem intOperation (operation : IntOperation) (self : Handle) (operands : List Handle)
    : Mirrored names environment store twin (Handle.rename names)
        (operation.perform self operands)
        (operation.perform (self.rename names) (operands.map (Handle.rename names))) := by
  refine valueOf mirrors (valuesOf mirrors fun values => ?_)
  cases operation with
  | assign =>
      exact operand mirrors tidy fun source _ _ _ mirrors tidy => overwrite mirrors tidy self source
  | text => exact string mirrors (by simp)
  | arithmetic operator =>
      exact arithmetic mirrors (by simp) (by simp) fun _ => int mirrors rfl
  | update operator =>
      exact arithmetic mirrors (by simp) (by simp) fun _ => change mirrors self rfl
  | increment | decrement => exact change mirrors self (by simp)
  | compare comparison =>
      exact test mirrors tidy comparison (present tidy self.cell) rfl (by simp)
  | _ => exact int mirrors (by simp)

/-- Operations of `double` are mirrored, by cases on the operation. -/
theorem doubleOperation (operation : DoubleOperation) (self : Handle) (operands : List Handle)
    : Mirrored names environment store twin (Handle.rename names)
        (operation.perform self operands)
        (operation.perform (self.rename names) (operands.map (Handle.rename names))) := by
  refine valueOf mirrors (valuesOf mirrors fun values => ?_)
  cases operation with
  | assign =>
      exact operand mirrors tidy fun source _ _ _ mirrors tidy => overwrite mirrors tidy self source
  | text => exact string mirrors (by simp)
  | update operator => exact change mirrors self (by simp)
  | compare comparison =>
      exact test mirrors tidy comparison (present tidy self.cell) rfl (by simp)
  | _ => exact double mirrors (by simp)

/-- Operations of `version` are mirrored, by cases on the operation. -/
theorem versionOperation (operation : VersionOperation) (self : Handle) (operands : List Handle)
    : Mirrored names environment store twin (Handle.rename names)
        (operation.perform self operands)
        (operation.perform (self.rename names) (operands.map (Handle.rename names))) := by
  refine valueOf mirrors (valuesOf mirrors fun others => ?_)
  cases operation with
  | ofParts => exact version mirrors (by simp [Function.comp_def])
  | assign =>
      exact operand mirrors tidy fun source _ _ _ mirrors tidy => overwrite mirrors tidy self source
  | compare comparison =>
      exact test mirrors tidy comparison (present tidy self.cell) rfl (by simp)
  | part => exact int mirrors (by simp)
  | text => exact string mirrors (by simp)

/-- Operations of enumerations are mirrored, by cases on the operation. -/
theorem enumOperation (operation : EnumOperation) (self : Handle) (operands : List Handle)
    : Mirrored names environment store twin (Handle.rename names)
        (operation.perform self operands)
        (operation.perform (self.rename names) (operands.map (Handle.rename names))) := by
  refine valueOf mirrors (valuesOf mirrors fun values => ?_)
  cases operation with
  | assign =>
      exact operand mirrors tidy fun source _ _ _ mirrors tidy => overwrite mirrors tidy self source
  | equal | notEqual => exact test mirrors tidy _ (present tidy self.cell) rfl (by simp)
  | text =>
      have type : twin.heap.typeOf (self.rename names) = store.heap.typeOf self := by
        simp only [Heap.typeOf, Handle.base?_rename, Handle.cell_rename, mirrors.heap.type]
      exact read (get (string mirrors (by simp [type])))

/-- Operations of `string` are mirrored, by cases on the operation. -/
theorem stringOperation (operation : StringOperation) (self : Handle) (operands : List Handle)
    : Mirrored names environment store twin (Handle.rename names)
        (operation.perform self operands)
        (operation.perform (self.rename names) (operands.map (Handle.rename names))) := by
  refine valueOf mirrors (valuesOf mirrors fun values => ?_)
  cases operation with
  | assign =>
      exact operand mirrors tidy fun source _ _ _ mirrors tidy => overwrite mirrors tidy self source
  | repeated =>
      exact ofExcept mirrors (by simp [Function.comp_def]) fun _ => string mirrors (by simp)
  | isEmpty | startsWith | endsWith | contains => exact bool mirrors (by simp)
  | size => exact int mirrors (by simp)
  | compare comparison =>
      exact test mirrors tidy comparison (present tidy self.cell) rfl (by simp)
  | appendTo => exact change mirrors self (by simp)
  | clear | makeLower | makeUpper => exact become mirrors self (by simp)
  | insert | eraseFrom | erase | replace =>
      exact ofExcept mirrors (by simp [Function.comp_def]) fun _ => become mirrors self rfl
  | substringFrom | substring =>
      exact ofExcept mirrors (by simp [Function.comp_def]) fun _ => string mirrors rfl
  | resize | resizeWith =>
      exact ofExcept mirrors (by simp) fun _ =>
        ofExcept mirrors (by simp [Function.comp_def]) fun _ => become mirrors self rfl
  | find | findFrom | findNotOf | findNotOfFrom =>
      exact ofExcept mirrors (by simp [Function.comp_def]) fun _ => place mirrors rfl
  | findLast | findLastNotOf => exact place mirrors (by simp)
  | default | copy | append | lower | upper => exact string mirrors (by simp)

omit tidy in
/-- Defaults of a type that two environments agree on. -/
theorem defaults {type : TypeId} {count : Nat} {next following : List CellId → Effect γ}
    {changed : γ → γ}
    (later : ∀ made after twin', after.Mirrors names twin' →
        Mirrored names environment after twin' changed (next made) (following (made.map names)))
    : Mirrored names environment store twin changed (ListOperation.defaults type count >>= next)
        (ListOperation.defaults type count >>= following) := by
  let make := Heap.createDefault environment.registry
  have made (types : List TypeId) := Heap.Mirrored.mapM make make id names (fun _ _ => True)
    (fun type _ _ _ mirrors => .createDefault mirrors environment.registry type)
    (fun _ _ _ known => known) types (fun _ _ => trivial) mirrors.heap
  simp only [List.map_id] at made
  exact (onHeap mirrors (made _)).bind fun made after twin' _ mirrors =>
    later made after twin' mirrors

omit tidy in
theorem newList (type : TypeId) {elements elements' : List CellId}
    (same : elements' = elements.map names)
    : Mirrored names environment store twin (Handle.rename names)
        (ListOperation.newList type elements) (ListOperation.newList type elements') :=
  new mirrors type (.list elements) (congrArg Value.list same)

/-- The order of two values that are in a tidy heap is the same in its mirror. -/
theorem ordered (order : Ordering) (a b : CellId)
    : (twin.heap.compare? (twin.heap.value (names a)) (twin.heap.value (names b)) == some order) =
        (store.heap.compare? (store.heap.value a) (store.heap.value b) == some order) := by
  rw [mirrors.heap.value, mirrors.heap.value, mirrors.heap.compare? tidy (present tidy a)]

theorem extreme (order : Ordering) (elements : List CellId)
    : Mirrored names environment store twin (Handle.rename names)
        (ListOperation.extreme order elements)
        (ListOperation.extreme order (elements.map names)) := by
  have best : Sequence.best?
      (fun a b => twin.heap.compare? (twin.heap.value a) (twin.heap.value b) == some order)
      (elements.map names) = _ :=
    Sequence.best?_map fun a _ b _ => ordered mirrors tidy order a b
  refine get ?_
  simp only [best]
  cases Sequence.best? _ elements with
  | none => exact throw mirrors _
  | some cell => exact own mirrors (.copy tidy mirrors.heap cell)

omit tidy in
theorem presence {element? element?' : Option CellId} (same : element?' = element?.map names)
    : Mirrored names environment store twin (Handle.rename names)
        (ListOperation.present element?) (ListOperation.present element?') := by
  subst same
  cases element? with
  | none => exact throw mirrors _
  | some cell => exact pure mirrors _

theorem sorted {elements elements' : List CellId} {next following : List CellId → Effect γ}
    {changed : γ → γ} (same : elements' = elements.map names)
    (later : ∀ sorted, Mirrored names environment store twin changed (next sorted)
      (following (sorted.map names)))
    : Mirrored names environment store twin changed (ListOperation.sorted elements >>= next)
        (ListOperation.sorted elements' >>= following) := by
  have agree : Sequence.sort
      (fun a b => twin.heap.compare? (twin.heap.value a) (twin.heap.value b) == some .lt)
      (elements.map names) = _ :=
    Sequence.sort_map fun a _ b _ => ordered mirrors tidy .lt a b
  have whole := later (Sequence.sort
    (fun a b => store.heap.compare? (store.heap.value a) (store.heap.value b) == some .lt) elements)
  rw [← agree, ← same] at whole
  exact whole

/-- Whether elements of a list are the same as a value is the same for their mirrors. -/
theorem sameAs {elements : List CellId}
    (inside : ∀ cell ∈ elements, cell.index < store.heap.cells.size) (other : CellId)
    : ∀ cell ∈ elements, twin.heap.same (names cell) (names other) =
        store.heap.same cell other :=
  fun cell among => mirrors.heap.same tidy (inside cell among) other

omit tidy in
/-- What is kept of a list stays in it, and the others are counted. -/
theorem removed (self : Handle) {removal removal' : List CellId × Nat}
    (same : removal' = (removal.1.map names, removal.2))
    : Mirrored names environment store twin (Handle.rename names)
        (Effect.setValue self (.list removal.1) >>= fun _ => Effect.int (Int64.ofNat removal.2))
        (Effect.setValue (self.rename names) (.list removal'.1) >>= fun _ =>
          Effect.int (Int64.ofNat removal'.2)) := by
  subst same
  exact (setValue mirrors self rfl).bind fun _ _ _ _ mirrors => int mirrors rfl

/-- Operations of lists are mirrored, by cases on the operation. -/
theorem listOperation (operation : ListOperation) (self : Handle) (operands : List Handle)
    (result : TypeId)
    : Mirrored names environment store twin (Handle.rename names)
        (operation.perform self operands result)
        (operation.perform (self.rename names) (operands.map (Handle.rename names)) result) := by
  refine get (valuesOf mirrors fun values => ?_)
  have inside (cell : CellId) (among : cell ∈ (store.heap.value self.cell).elements)
      : cell.index < store.heap.cells.size :=
    present tidy self.cell cell (Value.mem_parts_of_elements among)
  simp only [Handle.cell_rename, mirrors.heap.read, Object.rename, Value.elements_rename,
    List.length_map]
  change ∀ cell ∈ (store.heap.read self.cell).value.elements, _ at inside
  generalize (store.heap.read self.cell).value.elements = elements at inside ⊢
  cases operation with
  | default => exact read (newList mirrors _ rfl)
  | pushBack =>
      exact operand mirrors tidy fun pushed _ _ grows mirrors tidy =>
        copies mirrors tidy (by simp) fun _ _ _ mirrors _ => become mirrors self (by simp)
  | pushBackAll =>
      exact copies mirrors tidy (by simp) fun _ _ _ mirrors _ => become mirrors self (by simp)
  | pushFront =>
      exact operand mirrors tidy fun pushed _ _ grows mirrors tidy =>
        copies mirrors tidy (by simp) fun _ _ _ mirrors _ => become mirrors self (by simp)
  | pushFrontAll =>
      exact copies mirrors tidy (by simp) fun _ _ _ mirrors _ => become mirrors self (by simp)
  | popBack =>
      cases elements with
      | nil => exact throw mirrors _
      | cons first rest => exact become mirrors self (by simp)
  | popFront =>
      cases elements with
      | nil => exact throw mirrors _
      | cons first rest => exact become mirrors self rfl
  | «at» =>
      exact ofExcept mirrors (by simp) fun place => presence mirrors (by simp)
  | front => exact presence mirrors (by simp)
  | back => exact presence mirrors (by simp)
  | insert =>
      exact ofExcept mirrors (by simp) fun place =>
        operand mirrors tidy fun inserted _ _ _ mirrors tidy =>
          copies mirrors tidy (by simp) fun _ _ _ mirrors _ =>
            become mirrors self (by simp [Sequence.insertAt_map])
  | insertAll =>
      exact ofExcept mirrors (by simp) fun place =>
        copies mirrors tidy (by simp) fun _ _ _ mirrors _ =>
          become mirrors self (by simp [Sequence.insertAt_map])
  | eraseAt | erase =>
      exact ofExcept mirrors (by simp) fun place =>
        become mirrors self (by simp [Sequence.eraseRange_map, Function.comp_def])
  | remove | removeFirst =>
      refine operand mirrors tidy fun unwanted after twin' grows mirrors tidy => get ?_
      have agree := sameAs mirrors tidy
        (fun cell among => Nat.lt_of_lt_of_le (inside cell among) grows) unwanted.cell
      refine removed mirrors self ?_
      simp only [Handle.cell_rename, List.getElem?_map, Option.map_map, Function.comp_def,
        Value.asInt_rename]
      exact Sequence.removeFirst_map _ agree
  | removeLast =>
      refine operand mirrors tidy fun unwanted after twin' grows mirrors tidy => get ?_
      have agree := sameAs mirrors tidy
        (fun cell among => Nat.lt_of_lt_of_le (inside cell among) grows) unwanted.cell
      refine removed mirrors self ?_
      simp only [Handle.cell_rename, List.getElem?_map, Option.map_map, Function.comp_def,
        Value.asInt_rename]
      exact Sequence.removeLast_map _ agree
  | clear => exact become mirrors self rfl
  | resize =>
      exact ofExcept mirrors (by simp) fun size =>
        defaults mirrors fun _ _ _ mirrors => become mirrors self (by simp)
  | sort => exact sorted mirrors tidy rfl fun _ => become mirrors self rfl
  | reverse => exact become mirrors self (by simp)
  | min => exact extreme mirrors tidy .lt elements
  | max => exact extreme mirrors tidy .gt elements
  | sublistFrom | sublist =>
      exact ofExcept mirrors (by simp) fun place =>
        copies mirrors tidy (by simp [Sequence.slice_map, Function.comp_def]) fun _ _ _ mirrors _ =>
          newList mirrors _ rfl
  | size => exact int mirrors rfl
  | isEmpty => exact bool mirrors (by simp)
  | find | findFrom =>
      refine ofExcept mirrors (by simp [Function.comp_def]) fun offset =>
        operand mirrors tidy fun wanted after twin' grows mirrors tidy => get (place mirrors ?_)
      have agree := sameAs mirrors tidy (fun cell (among : cell ∈ elements.drop offset) =>
        Nat.lt_of_lt_of_le (inside cell (List.mem_of_mem_drop among)) grows) wanted.cell
      rw [Handle.cell_rename, ← List.map_drop]
      exact congrArg (Option.map (offset + ·)) (Sequence.findIdx?_map agree)
  | append =>
      exact copies mirrors tidy rfl fun copied _ _ mirrors tidy =>
        operand mirrors tidy fun pushed _ _ _ mirrors tidy =>
          copies mirrors tidy (by simp) fun _ _ _ mirrors _ => newList mirrors _ (by simp)
  | appendAll =>
      exact copies mirrors tidy rfl fun copied _ _ mirrors tidy =>
        copies mirrors tidy (by simp) fun _ _ _ mirrors _ => newList mirrors _ (by simp)
  | appendTo =>
      exact operand mirrors tidy fun pushed _ _ _ mirrors tidy =>
        copies mirrors tidy (by simp) fun _ _ _ mirrors _ => change mirrors self (by simp)
  | appendAllTo =>
      exact copies mirrors tidy (by simp) fun _ _ _ mirrors _ => change mirrors self (by simp)
  | assign =>
      exact operand mirrors tidy fun source _ _ _ mirrors tidy => overwrite mirrors tidy self source

-----------------------------------------------------------------------------------------
-- Operations of the build system
-----------------------------------------------------------------------------------------

omit mirrors tidy in
/-- A value that a text stands for has no parts that other names could have. -/
theorem readValue?_rename {kind : TypeKind} {text : String} {value : Value}
    (stands : kind.readValue? text = some value)
    : value.rename names = value := by
  cases kind with
  | bool | int | double =>
      obtain ⟨_, _, rfl⟩ := Option.map_eq_some_iff.mp stands
      rfl
  | _ =>
      obtain rfl := Option.some.inj stands
      rfl

omit tidy in
/-- A value from the command line is mirrored. -/
theorem findExternal (name : String) (type : TypeId)
    : Mirrored names environment store twin (Handle.rename names)
        (BuildScript.findExternal name type) (BuildScript.findExternal name type) := by
  refine read ?_
  simp only
  split
  · next valueType _ =>
      refine system mirrors fun system => ?_
      have stored : Heap.Mirrored names store.heap twin.heap (Option.map names)
          (((system.definedValue? name).bind
            (environment.registry.type valueType).kind.readValue?).mapM (Heap.new valueType))
          (((system.definedValue? name).bind
            (environment.registry.type valueType).kind.readValue?).mapM (Heap.new valueType)) := by
        cases found : (system.definedValue? name).bind
            (environment.registry.type valueType).kind.readValue? with
        | none => exact ⟨rfl, mirrors.heap⟩
        | some value =>
            obtain ⟨text, _, stands⟩ := Option.bind_eq_some_iff.mp found
            have made := Heap.Mirrored.new mirrors.heap valueType value
            rw [readValue?_rename stands] at made
            exact made.map fun _ => rfl
      exact (onHeap mirrors stored).bind fun cell? _ _ _ mirrors =>
        new mirrors _ (.external cell?) rfl
  · exact throw mirrors _

/-- Operations of values from the command line are mirrored, by cases on the operation. -/
theorem externalOperation (operation : ExternalOperation) (self : Handle) (operands : List Handle)
    (result : TypeId)
    : Mirrored names environment store twin (Handle.rename names)
        (operation.perform self operands result)
        (operation.perform (self.rename names) (operands.map (Handle.rename names)) result) := by
  refine valueOf mirrors (valuesOf mirrors fun values => ?_)
  cases operation with
  | ofName =>
      rw [given_first]
      exact findExternal mirrors _ result
  | hasValue =>
      generalize store.heap.value self.cell = value
      cases value with
      | external value? => cases value? <;> exact bool mirrors rfl
      | _ => exact bool mirrors rfl
  | value =>
      generalize store.heap.value self.cell = value
      cases value with
      | external value? =>
          cases value? with
          | none => exact throw mirrors _
          | some cell => exact own mirrors (.copy tidy mirrors.heap cell)
      | _ => exact throw mirrors _
  | assign =>
      exact operand mirrors tidy fun source _ _ _ mirrors tidy => overwrite mirrors tidy self source

omit tidy in
/-- Operations of the build system are mirrored, by cases on the operation. -/
theorem systemOperation (operation : SystemOperation) (operands : List Handle)
    : Mirrored names environment store twin (Handle.rename names) (operation.perform operands)
        (operation.perform (operands.map (Handle.rename names))) := by
  refine valuesOf mirrors fun values => ?_
  cases operation with
  | minimumRequired =>
      have required : ((values.map (Value.rename names)).headD .void).asVersion =
          (values.headD .void).asVersion := by
        simp
      simp only [required]
      split
      · exact throw mirrors _
      · exact void mirrors
  | version => exact version mirrors rfl
  | currentSourceDir | currentBinaryDir | rootSourceDir =>
      exact system mirrors fun _ => string mirrors rfl
  | option =>
      refine system mirrors fun system => ?_
      have texts (index : Nat) : ((values.map (Value.rename names)).getD index .void).asString =
          (values.getD index .void).asString := by
        simp
      have fallback : ((values.map (Value.rename names)).getD 2 .void).asBool =
          (values.getD 2 .void).asBool := by
        simp
      simp only [given_first, texts, fallback]
      exact (request mirrors _).bind fun _ _ _ _ mirrors => bool mirrors rfl
  | getVariable => exact system mirrors fun _ => string mirrors (by simp)
  | addCustomCommand =>
      exact stringsOf mirrors (by simp) fun _ => requestVoid mirrors (by simp)
  | addCustomTarget =>
      exact stringsOf mirrors (by simp) fun _ => requestVoid mirrors (by simp)
  | ctestCommand | systemName | compilerName => exact string mirrors rfl
  | _ => exact requestVoid mirrors (by simp)

/-- Operations of projects are mirrored, by cases on the operation. -/
theorem projectOperation (operation : ProjectOperation) (self : Handle) (operands : List Handle)
    : Mirrored names environment store twin (Handle.rename names)
        (operation.perform self operands)
        (operation.perform (self.rename names) (operands.map (Handle.rename names))) := by
  refine valueOf mirrors (valuesOf mirrors fun values =>
    stringsOf mirrors (by simp) fun sources => ?_)
  simp only [given_first]
  cases operation with
  | name => exact string mirrors (by simp)
  | ofName | addExecutable | addLibrary =>
      exact (request mirrors _).bind fun _ _ _ _ mirrors => read (new mirrors _ _ rfl)
  | assign =>
      exact operand mirrors tidy fun source _ _ _ mirrors tidy => overwrite mirrors tidy self source

/-- Operations of targets are mirrored, by cases on the operation. -/
theorem targetOperation (operation : TargetOperation) (self : Handle) (operands : List Handle)
    : Mirrored names environment store twin (Handle.rename names)
        (operation.perform self operands)
        (operation.perform (self.rename names) (operands.map (Handle.rename names))) := by
  refine valueOf mirrors (valuesOf mirrors fun values => ?_)
  cases operation with
  | name => exact string mirrors (by simp)
  | add | addVisibly =>
      refine stringsOf mirrors (by simp) fun texts => ?_
      exact requestVoid mirrors (by simp [Function.comp_def])
  | assign =>
      exact operand mirrors tidy fun source _ _ _ mirrors tidy => overwrite mirrors tidy self source

omit tidy in
/-- The target that a component stands for is made under all names, by induction over its requests.
-/
theorem componentCreate (component : Component)
    : Mirrored names environment store twin (Handle.rename names) component.create
        component.create := by
  have requests (calls : List BuildCall) {store twin : Store} (mirrors : store.Mirrors names twin)
      : Mirrored names environment store twin id (calls.forM Effect.request)
          (calls.forM Effect.request) := by
    induction calls generalizing store twin with
    | nil => exact pure mirrors ()
    | cons call rest ih => exact (request mirrors call).bind fun _ _ _ _ mirrors => ih mirrors
  exact (requests component.calls mirrors).bind fun _ _ _ _ mirrors => read (new mirrors _ _ rfl)

/-- Every operation is mirrored, by cases on what it works on. -/
theorem operation (operation : Operation) (self? : Option Handle) (operands : List Handle)
    (result : TypeId)
    : Mirrored names environment store twin (Handle.rename names)
        (operation.perform self? operands result)
        (operation.perform (self?.map (Handle.rename names)) (operands.map (Handle.rename names))
          result) := by
  have given : (self?.map (Handle.rename names)).toList =
      self?.toList.map (Handle.rename names) := by
    cases self? <;> rfl
  unfold Operation.perform
  rw [given]
  refine operand mirrors tidy fun self _ _ _ mirrors tidy => ?_
  cases operation with
  | bool operation => exact boolOperation mirrors tidy operation self operands
  | int operation => exact intOperation mirrors tidy operation self operands
  | double operation => exact doubleOperation mirrors tidy operation self operands
  | string operation => exact stringOperation mirrors tidy operation self operands
  | version operation => exact versionOperation mirrors tidy operation self operands
  | list operation => exact listOperation mirrors tidy operation self operands result
  | external operation => exact externalOperation mirrors tidy operation self operands result
  | project operation => exact projectOperation mirrors tidy operation self operands
  | target operation => exact targetOperation mirrors tidy operation self operands
  | enumeration operation => exact enumOperation mirrors tidy operation self operands
  | assignObject =>
      exact operand mirrors tidy fun source _ _ _ mirrors tidy => overwrite mirrors tidy self source
  | system operation => exact systemOperation mirrors operation operands

end Effect.Mirrored

end BuildScript
