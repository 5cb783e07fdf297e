import BuildScript.Proofs.Run.Law
import BuildScript.Proofs.Run.Shape
import BuildScript.Proofs.Run.Soundness
import BuildScript.Proofs.Typed.Designation
import BuildScript.Run.Eval

/-! Actions that keep machines sound. An action takes some of the values in use and gives others;
all that are in use besides stay as they are, and so do the variables, but for those that a
statement declares.

Evaluating expressions keeps machines sound when the calls in them do, by induction over
expressions. What an expression gives is a value of its own or a reference to another one.
-/

namespace BuildScript

/-- (Admits allowed setting) says that the members of all classes have allowed numbers, and that
the functions set no others.
-/
structure RunSetting.Admits (allowed : Nat → Prop) (setting : RunSetting) : Prop where
  members : ∀ type, ∀ member ∈ setting.registry.allMembers type, allowed member.index
  bodies : ∀ id, (setting.registry.function id).body.SetsOnly allowed

namespace Run

variable {α β : Type}

/-- (Keeps allowed relation given action gives) says that an action which takes some values keeps
every machine sound, whatever else is in use, leaves a machine that is related to the one before,
and when it comes to its end gives values.
-/
def Keeps (allowed : Nat → Prop) (relation : Machine → Machine → Prop) (given : List Handle)
    (action : Run α) (gives : α → List Handle)
    : Prop :=
  ∀ setting : RunSetting, setting.Admits allowed → ∀ (machine : Machine) (held : List Handle),
    machine.Sound allowed (given ++ held) →
      match action setting machine with
      | (.ok value, after) => after.Sound allowed (gives value ++ held) ∧ relation machine after
      | (.error _, after) => after.Sound allowed held ∧ relation machine after

namespace Keeps

variable {allowed : Nat → Prop} {relation : Machine → Machine → Prop} {given : List Handle}
  {action : Run α} {gives : α → List Handle}

/-- What an action that comes to its end has kept. -/
theorem ok (keeps : Keeps allowed relation given action gives) {setting : RunSetting}
    (admitted : setting.Admits allowed) {machine after : Machine} {held : List Handle}
    (sound : machine.Sound allowed (given ++ held)) {value : α}
    (outcome : action setting machine = (.ok value, after))
    : after.Sound allowed (gives value ++ held) ∧ relation machine after := by
  have kept := keeps setting admitted machine held sound
  rwa [outcome] at kept

/-- What an action that is stopped has kept. -/
theorem error (keeps : Keeps allowed relation given action gives) {setting : RunSetting}
    (admitted : setting.Admits allowed) {machine after : Machine} {held : List Handle}
    (sound : machine.Sound allowed (given ++ held)) {stop : Stop}
    (outcome : action setting machine = (.error stop, after))
    : after.Sound allowed held ∧ relation machine after := by
  have kept := keeps setting admitted machine held sound
  rwa [outcome] at kept

/-- An action may take more than it needs. -/
theorem given_le {more : List Handle} (keeps : Keeps allowed relation given action gives)
    (less : ∀ handle, given.count handle ≤ more.count handle)
    : Keeps allowed relation more action gives := by
  intro setting admitted machine held sound
  refine keeps setting admitted machine held (sound.fewer fun handle => ?_)
  rw [List.count_append, List.count_append]
  exact Nat.add_le_add_right (less handle) _

/-- A relation may be replaced by a wider one. -/
theorem related {wider : Machine → Machine → Prop}
    (keeps : Keeps allowed relation given action gives)
    (within : ∀ before after, relation before after → wider before after)
    : Keeps allowed wider given action gives := by
  intro setting admitted machine held sound
  cases outcome : action setting machine with
  | mk result after =>
      cases result with
      | ok value => exact (keeps.ok admitted sound outcome).imp id (within _ _)
      | error stop => exact (keeps.error admitted sound outcome).imp id (within _ _)

/-- What is given need not be more than what was taken. -/
theorem pure (value : α) {gives : α → List Handle}
    (less : ∀ handle, (gives value).count handle ≤ given.count handle)
    : Keeps allowed Machine.SameShape given (Pure.pure value) gives := by
  intro setting admitted machine held sound
  refine ⟨sound.fewer fun handle => ?_, .refl machine⟩
  rw [List.count_append, List.count_append]
  exact Nat.add_le_add_right (less handle) _

/-- An action goes on with another one, which takes what the first one gives and some values
besides.
-/
theorem bindWith {first later whole : Machine → Machine → Prop}
    (composes : Machine.Composes first later whole)
    (extra : List Handle) {next : α → Run β} {results : β → List Handle}
    (start : Keeps allowed first given action gives)
    (rest : ∀ value, Keeps allowed later (gives value ++ extra) (next value) results)
    : Keeps allowed whole (given ++ extra) (action >>= next) results := by
  intro setting admitted machine held sound
  rw [List.append_assoc] at sound
  rw [run_bind]
  cases outcome : action setting machine with
  | mk result middle =>
      cases result with
      | error stop =>
          obtain ⟨sound, reached⟩ := start.error admitted sound outcome
          refine ⟨sound.fewer fun handle => ?_, composes.alone reached⟩
          rw [List.count_append]
          exact Nat.le_add_left _ _
      | ok value =>
          obtain ⟨sound, reached⟩ := start.ok admitted sound outcome
          rw [← List.append_assoc] at sound
          have kept := rest value setting admitted middle held sound
          simp only
          cases ended : next value setting middle with
          | mk result after =>
              rw [ended] at kept
              cases result with
              | ok result | error stop => exact ⟨kept.1, composes.both reached kept.2⟩

/-- An action that leaves the variables alone goes on with another one. -/
theorem bind (extra : List Handle) {next : α → Run β} {results : β → List Handle}
    (start : Keeps allowed Machine.SameShape given action gives)
    (rest : ∀ value, Keeps allowed Machine.SameShape (gives value ++ extra) (next value) results)
    : Keeps allowed Machine.SameShape (given ++ extra) (action >>= next) results :=
  bindWith Machine.SameShape.composes extra start rest

/-- An action goes on with another one, which takes just what the first one gives. -/
theorem andThen {next : α → Run β} {results : β → List Handle}
    (start : Keeps allowed Machine.SameShape given action gives)
    (rest : ∀ value, Keeps allowed Machine.SameShape (gives value) (next value) results)
    : Keeps allowed Machine.SameShape given (action >>= next) results := by
  have whole := bind [] start fun value => by
    rw [List.append_nil]
    exact rest value
  rwa [List.append_nil] at whole

/-- An action that takes nothing goes on with another one, which takes what it gives besides. -/
theorem first {next : α → Run β} {results : β → List Handle}
    (start : Keeps allowed Machine.SameShape [] action gives)
    (rest : ∀ value, Keeps allowed Machine.SameShape (gives value ++ given) (next value) results)
    : Keeps allowed Machine.SameShape given (action >>= next) results :=
  bind given start rest

/-- An action may look at the setting first. -/
theorem read {next : RunSetting → Run β} {results : β → List Handle}
    (keeps : ∀ setting : RunSetting, setting.Admits allowed →
      Keeps allowed relation given (next setting) results)
    : Keeps allowed relation given (MonadReader.read >>= next) results :=
  fun setting admitted machine held sound =>
    keeps setting admitted setting admitted machine held sound

/-- An action may look at the machine first, and make use of what is sound in it. -/
theorem get {next : Machine → Run β} {results : β → List Handle}
    (keeps : ∀ setting : RunSetting, setting.Admits allowed →
      ∀ (machine : Machine) (held : List Handle), machine.Sound allowed (given ++ held) →
        match next machine setting machine with
        | (.ok value, after) => after.Sound allowed (results value ++ held) ∧ relation machine after
        | (.error _, after) => after.Sound allowed held ∧ relation machine after)
    : Keeps allowed relation given (MonadState.get >>= next) results :=
  keeps

/-- A change of the machine keeps it sound when its heap stays and it has no more handles than
those that it had or took.
-/
theorem modified {change : Machine → Machine}
    (heap : ∀ machine, (change machine).store.heap = machine.store.heap)
    (less : ∀ machine handle, (change machine).handles.count handle ≤
      given.count handle + machine.handles.count handle)
    (related : ∀ machine, relation machine (change machine))
    : Keeps allowed relation given (MonadState.modifyGet fun machine => ((), change machine))
        fun _ => [] := by
  intro setting admitted machine held sound
  refine ⟨sound.rearranged (heap machine) fun handle => ?_, related machine⟩
  have limited := less machine handle
  simp only [List.count_append, List.nil_append] at limited ⊢
  omega

/-- An action between an opening and a closing change keeps machines sound when the changes move
no handles, and relates them as the two changes and what it relates itself do.
-/
theorem enclosed {outer : Machine → Machine → Prop} {opened closed : Machine → Machine}
    (keeps : Keeps allowed relation given action gives)
    (openedHeap : ∀ machine, (opened machine).store.heap = machine.store.heap)
    (closedHeap : ∀ machine, (closed machine).store.heap = machine.store.heap)
    (openedLess : ∀ machine handle,
      (opened machine).handles.count handle ≤ machine.handles.count handle)
    (closedLess : ∀ machine handle,
      (closed machine).handles.count handle ≤ machine.handles.count handle)
    (related : ∀ before after, relation (opened before) after → outer before (closed after))
    : Keeps allowed outer given
        ((MonadState.modifyGet fun machine => ((), opened machine)) >>= fun _ =>
          Run.ensuring closed action)
        gives := by
  intro setting admitted machine held sound
  have closing {machine : Machine} {held : List Handle} (sound : machine.Sound allowed held)
      : (closed machine).Sound allowed held := by
    refine sound.rearranged (closedHeap machine) fun handle => ?_
    have less := closedLess machine handle
    simp only [List.count_append]
    omega
  have sound : (opened machine).Sound allowed (given ++ held) := by
    refine sound.rearranged (openedHeap machine) fun handle => ?_
    have less := openedLess machine handle
    simp only [List.count_append]
    omega
  rw [run_bind]
  show match Run.ensuring closed action setting (opened machine) with
    | (.ok value, after) => after.Sound allowed (gives value ++ held) ∧ outer machine after
    | (.error _, after) => after.Sound allowed held ∧ outer machine after
  unfold Run.ensuring
  cases outcome : action setting (opened machine) with
  | mk result after =>
      cases result with
      | ok value =>
          have kept := keeps.ok admitted sound outcome
          exact ⟨closing kept.1, related _ _ kept.2⟩
      | error stop =>
          have kept := keeps.error admitted sound outcome
          exact ⟨closing kept.1, related _ _ kept.2⟩

/-- An action that checks for a fatal error keeps what it keeps without the check. -/
theorem checked (keeps : Keeps allowed relation given action gives)
    : Keeps allowed relation given (Run.checked action) gives := by
  intro setting admitted machine held sound
  rw [checked_run]
  cases outcome : action setting machine with
  | mk result after =>
      cases result with
      | error stop => exact keeps.error admitted sound outcome
      | ok value =>
          have kept := keeps.ok admitted sound outcome
          simp only
          cases after.store.system.failed with
          | false => exact kept
          | true =>
              refine ⟨kept.1.fewer fun handle => ?_, kept.2⟩
              rw [List.count_append]
              exact Nat.le_add_left _ _

-----------------------------------------------------------------------------------------
-- Operations and references
-----------------------------------------------------------------------------------------

/-- An operation by which heaps develop keeps machines sound, whether it fails or not. -/
theorem perform {effect : Effect Handle} (develops : effect.Develops allowed given)
    : Keeps allowed Machine.SameShape given (Run.perform effect) fun handle => [handle] := by
  intro setting admitted machine held sound
  have developed := develops setting.toEnvironment machine.store
    ((machine.handles ++ held).flatMap Handle.owns) admitted.members
    (sound.owned.fewer (count_owns_le fun handle => by
      simp only [List.count_append]
      omega))
    sound.slotted
    fun handle member => sound.present handle
      (List.mem_append_right _ (List.mem_append_left _ member))
  have sound : machine.Sound allowed held := sound.fewer fun handle => by
    rw [List.count_append]
    exact Nat.le_add_left _ _
  obtain ⟨store, frames, globals, statics, returned?, breaking⟩ := machine
  unfold Run.perform
  simp only
  cases outcome : effect setting.toEnvironment store with
  | mk result after =>
      obtain ⟨heap, system⟩ := after
      simp only [outcome] at developed
      cases result with
      | ok handle => exact ⟨sound.developed _ (some handle) rfl developed, rfl⟩
      | error fault => exact ⟨sound.developed _ none rfl developed, rfl⟩

theorem fail (reason : Fault)
    : Keeps allowed Machine.SameShape given (Run.fail reason) fun handle => [handle] :=
  perform (.throw reason)

theorem valueOf_run (handle : Handle) (setting : RunSetting) (machine : Machine)
    : Run.valueOf handle setting machine =
        (.ok (machine.store.heap.value handle.cell), machine) :=
  rfl

theorem valueOf (handle : Handle)
    : Keeps allowed Machine.SameShape given (Run.valueOf handle) fun _ => given :=
  fun _ _ machine _ sound => ⟨sound, .refl machine⟩

/-- What is made of new cells is owned. -/
theorem making {make : StateM Heap CellId} (makes : Heap.Makes allowed make fun cell => [cell])
    : Keeps allowed Machine.SameShape given
        (Run.perform (.owned <$> Effect.onHeap make : Effect Handle))
        fun handle => [.owned handle.cell] := by
  intro setting admitted machine held sound
  have kept := perform (.making makes) setting admitted machine held sound
  obtain ⟨store, frames, globals, statics, returned?, breaking⟩ := machine
  exact kept

theorem createDefault (type : TypeId)
    : Keeps allowed Machine.SameShape given (Run.createDefault type)
        fun object => [.owned object.cell] :=
  read fun _ admitted => making (Heap.Makes.createDefault admitted.members type)

theorem own (handle : Handle)
    : Keeps allowed Machine.SameShape [handle] (Run.own handle)
        fun owned => [.owned owned.cell] := by
  cases handle with
  | owned cell => exact pure _ fun _ => Nat.le_refl _
  | reference cell base? => exact making (Heap.Makes.copy cell)

/-- An operation that does nothing but make a request keeps machines sound. -/
theorem request (call : BuildCall)
    : Keeps allowed Machine.SameShape given (Run.perform (Effect.request call)) fun _ => [] := by
  intro setting admitted machine held sound
  have sound : machine.Sound allowed held := sound.fewer fun handle => by
    rw [List.count_append]
    exact Nat.le_add_left _ _
  exact ⟨sound.rearranged rfl fun _ => Nat.le_refl _, rfl⟩

/-- A reference to a value that was taken may be given. -/
theorem refer {handle : Handle} (taken : handle ∈ given) (base? : Option TypeId)
    : Keeps allowed Machine.SameShape given
        (Pure.pure (Handle.reference handle.cell base?)) fun reference => [reference] := by
  intro setting admitted machine held sound
  have present := sound.present handle
    (List.mem_append_right _ (List.mem_append_left _ taken))
  refine ⟨(sound.refer base? present).fewer fun other => ?_, .refl machine⟩
  simp only [List.count_append, List.count_cons, List.count_nil]
  omega

theorem toReference {handle : Handle} (taken : handle ∈ given)
    : Keeps allowed Machine.SameShape given (Pure.pure handle.toReference)
        fun reference => [reference] := by
  cases handle with
  | owned cell => exact refer taken none
  | reference cell base? => exact refer taken base?

/-- A reference to a value that was taken may be taken besides. -/
theorem referring {handle : Handle} (taken : handle ∈ given)
    (keeps : Keeps allowed relation (handle.toReference :: given) action gives)
    : Keeps allowed relation given action gives := by
  intro setting admitted machine held sound
  have present := sound.present handle
    (List.mem_append_right _ (List.mem_append_left _ taken))
  cases handle with
  | owned cell => exact keeps setting admitted machine held (sound.refer none present)
  | reference cell base? => exact keeps setting admitted machine held (sound.refer base? present)

/-- What owns its cell may be given, however it is seen. -/
theorem ofOwned {gives : α → Handle}
    (keeps : Keeps allowed relation given action fun value => [.owned (gives value).cell])
    : Keeps allowed relation given action fun value => [gives value] := by
  intro setting admitted machine held sound
  cases outcome : action setting machine with
  | mk result after =>
      cases result with
      | error stop => exact keeps.error admitted sound outcome
      | ok value =>
          obtain ⟨sound, reached⟩ := keeps.ok admitted sound outcome
          refine ⟨?_, reached⟩
          have returned (handle : Handle)
              (sound : after.Sound allowed (.owned handle.cell :: held))
              : after.Sound allowed (handle :: held) := by
            cases handle with
            | owned cell => exact sound
            | reference cell base? =>
                have present := sound.present (.owned cell)
                  (List.mem_append_right _ List.mem_cons_self)
                refine (sound.refer base? present).fewer fun other => ?_
                simp only [Handle.cell, List.count_cons]
                omega
          exact returned _ sound

theorem bindIn (type : TypeId) (handle : Handle)
    : Keeps allowed Machine.SameShape [handle] (Run.bind type handle) fun bound => [bound] := by
  refine read fun setting _ => ?_
  split
  · exact toReference (List.mem_singleton.mpr rfl)
  · exact (own handle).ofOwned

theorem new {type : TypeId} {value : Value} (partless : value.parts = [])
    (slotless : value.slots = [])
    : Keeps allowed Machine.SameShape given (Run.new type value) fun handle => [handle] :=
  perform (.leaf (.new partless slotless))

theorem void : Keeps allowed Machine.SameShape given Run.void fun handle => [handle] :=
  perform (.leaf .void)

/-- A reference to what was found in a machine may be given, and a run stops where nothing was.
-/
theorem found {found? : Machine → Option Handle} {fault : Fault}
    (present : ∀ (machine : Machine) (held : List Handle), machine.Sound allowed held →
      ∀ handle ∈ found? machine, handle.cell.index < machine.store.heap.cells.size)
    : Keeps allowed Machine.SameShape given
        (do
          match found? (← MonadState.get) with
          | some handle => return handle.toReference
          | none => Run.fail fault)
        fun reference => [reference] := by
  refine get fun setting admitted machine held sound => ?_
  cases found : found? machine with
  | none => exact fail fault setting admitted machine held sound
  | some handle =>
      have inside := present machine _ sound handle found
      have sound : machine.Sound allowed held := sound.fewer fun other => by
        rw [List.count_append]
        exact Nat.le_add_left _ _
      cases handle with
      | owned cell => exact ⟨sound.refer none inside, .refl machine⟩
      | reference cell base? => exact ⟨sound.refer base? inside, .refl machine⟩

end Keeps

end Run

-----------------------------------------------------------------------------------------
-- Values and steps of an evaluation
-----------------------------------------------------------------------------------------

/-- Only objects have members. -/
theorem Value.eq_object {value : Value} {members : List (Nat × CellId)}
    (found : value.members? = some members)
    : value = .object members := by
  cases value with
  | object all => exact congrArg object (Option.some.inj found)
  | _ => exact nomatch found

/-- What becomes of a sound machine when a value in use becomes a member of an object in use. -/
theorem Machine.Sound.setMember {allowed : Nat → Prop} {machine : Machine} {held : List Handle}
    {cell object : CellId} {index : Nat} {members : List (Nat × CellId)}
    (sound : machine.Sound allowed (.owned cell :: .owned object :: held))
    (permitted : allowed index)
    (found : (machine.store.heap.value object).members? = some members)
    : Machine.Sound allowed
        { machine with
          store :=
            ⟨machine.store.heap.write object (.object (Value.setMember index cell members)),
              machine.store.system⟩ }
        (.owned object :: held) := by
  have whole := Value.eq_object found
  refine ⟨?_, fun handle member => ?_, fun place other member => ?_⟩
  · have owned : machine.store.heap.Owned
        (object :: [cell] ++ (machine.handles ++ held).flatMap Handle.owns) := by
      refine sound.owned.fewer fun other => ?_
      simp only [List.flatMap_append, List.flatMap_cons, Handle.owns, List.count_append,
        List.count_cons, List.count_nil]
      omega
    refine (owned.write fun other => ?_).fewer fun other => ?_
    · rw [whole]
      exact Value.count_setMember_le index cell members other
    · simp only [handles, List.flatMap_append, List.flatMap_cons, Handle.owns,
        List.count_append, List.count_cons, List.count_nil]
      omega
  · rw [Heap.size_write]
    refine sound.present handle ?_
    rcases List.mem_append.mp member with old | used
    · exact List.mem_append_left _ old
    · exact List.mem_append_right _ (List.mem_cons_of_mem _ used)
  · rw [Heap.value, Heap.read_write] at member
    split at member
    · rcases Value.mem_setMember member with same | among
      · exact same ▸ permitted
      · exact sound.slotted object other (whole ▸ among)
    · exact sound.slotted place other member

/-- What becomes of a sound machine when values in use become the elements of a new list. -/
theorem Machine.Sound.alloc {allowed : Nat → Prop} {machine : Machine} {held : List Handle}
    (type : TypeId) (elements : List CellId)
    (sound : machine.Sound allowed (elements.map .owned ++ held))
    : Machine.Sound allowed
        { machine with
          store :=
            ⟨(machine.store.heap.alloc ⟨type, .list elements⟩).2, machine.store.system⟩ }
        (.owned (machine.store.heap.alloc ⟨type, .list elements⟩).1 :: held) := by
  have owns : (elements.map Handle.owned).flatMap Handle.owns = elements := by
    rw [List.flatMap_map]
    exact List.flatMap_singleton' elements
  refine ⟨?_, fun handle member => ?_, fun place other member => ?_⟩
  · have owned : machine.store.heap.Owned
        (elements ++ (machine.handles ++ held).flatMap Handle.owns) := by
      refine sound.owned.fewer fun other => ?_
      simp only [List.flatMap_append, owns, List.count_append]
      omega
    refine (owned.alloc ⟨type, .list elements⟩ fun _ => Nat.le_refl _).fewer fun other => ?_
    simp only [handles, List.flatMap_append, List.flatMap_cons, Handle.owns, List.count_append,
      List.count_cons, List.count_nil]
    omega
  · rw [Heap.size_alloc]
    rcases List.mem_append.mp member with old | used
    · exact Nat.lt_succ_of_lt (sound.present handle (List.mem_append_left _ old))
    · rcases List.mem_cons.mp used with same | old
      · rw [same]
        exact Nat.lt_succ_self _
      · exact Nat.lt_succ_of_lt
          (sound.present handle (List.mem_append_right _ (List.mem_append_right _ old)))
  · rw [Heap.value_alloc] at member
    split at member
    · exact absurd member List.not_mem_nil
    · exact sound.slotted place other member

namespace Run.Keeps

variable {allowed : Nat → Prop} {given : List Handle} {call : Caller} {α β : Type}

theorem variableAt (index : Nat) (name : String)
    : Keeps allowed Machine.SameShape given (Run.variableAt index name)
        fun reference => [reference] :=
  found fun _ _ sound _ => sound.lookup?

theorem currentObject
    : Keeps allowed Machine.SameShape given Run.currentObject fun reference => [reference] :=
  found fun _ _ sound _ => sound.self?

theorem memberOf (object : Handle) (name : String) (index : Nat)
    : Keeps allowed Machine.SameShape given (Run.memberOf object name index)
        fun reference => [reference] := by
  intro setting admitted machine held sound
  unfold Run.memberOf
  rw [run_bind, valueOf_run]
  simp only
  cases found : (machine.store.heap.value object.cell).member? index with
  | none => exact fail _ setting admitted machine held sound
  | some cell =>
      refine ⟨(sound.refer none (sound.part (Value.mem_parts_of_member? found))).fewer fun other =>
        ?_, .refl machine⟩
      simp only [Handle.toReference, List.count_append, List.count_cons, List.count_nil]
      omega

theorem copySeen (handle : Handle)
    : Keeps allowed Machine.SameShape [handle] (Run.copySeen handle) fun copy => [copy] := by
  refine read fun setting _ => (making ?_).ofOwned
  split
  · exact Heap.Makes.slicedCopy _ _ _
  · exact Heap.Makes.copy _

theorem cast (kind : CastKind) (type : TypeId) (handle : Handle)
    : Keeps allowed Machine.SameShape [handle] (Run.cast kind type handle)
        fun value => [value] := by
  refine read fun setting _ => ?_
  cases kind with
  | reference => exact toReference (List.mem_singleton.mpr rfl)
  | baseReference => exact refer (List.mem_singleton.mpr rfl) _
  | value => exact copySeen handle
  | baseValue => exact (making (Heap.Makes.slicedCopy _ _ _)).ofOwned

/-- A value that is set as a member goes from those in use into its object, if that is one. -/
theorem setMember (object value : Handle) {index : Nat} (permitted : allowed index)
    : Keeps allowed Machine.SameShape [.owned value.cell, .owned object.cell]
        (Run.setMember object index value) fun _ => [.owned object.cell] := by
  intro setting admitted machine held sound
  unfold Run.setMember
  rw [run_bind, valueOf_run]
  simp only
  cases found : (machine.store.heap.value object.cell).members? with
  | none =>
      refine ⟨sound.fewer fun other => ?_, .refl machine⟩
      simp only [List.cons_append, List.nil_append, List.count_cons]
      omega
  | some members =>
      exact ⟨sound.setMember permitted found, .refl machine⟩

-----------------------------------------------------------------------------------------
-- Expressions
-----------------------------------------------------------------------------------------

/-- (Calls allowed call) says that calls keep machines sound, which take the arguments and the
object that they work on and give a value.
-/
def Calls (allowed : Nat → Prop) (call : Caller) : Prop :=
  ∀ id self? arguments, Keeps allowed Machine.SameShape (arguments ++ self?.toList)
    (call id self? arguments) fun value => [value]

theorem inDirectory {action : Run α} {gives : α → List Handle} (directory : String)
    (keeps : Keeps allowed Machine.SameShape given action gives)
    : Keeps allowed Machine.SameShape given (Run.inDirectory directory action) gives :=
  keeps.enclosed (fun _ => rfl) (fun _ => rfl) (fun _ _ => Nat.le_refl _)
    (fun _ _ => Nat.le_refl _) fun _ _ same => same

theorem construct (called : Calls allowed call) (type : TypeId) (function? : Option FunctionId)
    (arguments : List Handle)
    : Keeps allowed Machine.SameShape arguments (Run.construct call type function? arguments)
        fun object => [object] := by
  cases function? with
  | none => exact (createDefault type).ofOwned
  | some function =>
      refine read fun setting _ => ?_
      split
      · exact (called function none arguments).given_le (by simp)
      · refine first (createDefault type).ofOwned fun object => ?_
        refine referring (List.mem_append_left _ (List.mem_singleton.mpr rfl)) ?_
        refine given_le (bind [object] (called function (some object.toReference) arguments)
          fun _ => pure object fun other => ?_) fun other => ?_
        · simp only [List.count_append]
          omega
        · simp only [List.count_append, List.count_cons, List.count_nil, Option.toList_some]
          omega

/-- Values in use are owned one after the other, by induction over them. -/
theorem ownAll (values : List Handle)
    : Keeps allowed Machine.SameShape values (values.mapM Run.own)
        (List.map fun owned => .owned owned.cell) := by
  induction values with
  | nil => exact pure [] fun _ => Nat.le_refl _
  | cons first rest ih =>
      rw [List.mapM_cons]
      refine bind rest (own first) fun owned => ?_
      have paired (others : List Handle)
          : Keeps allowed Machine.SameShape
              (others.map (fun owned => .owned owned.cell) ++ [.owned owned.cell])
              (Pure.pure (owned :: others)) (List.map fun owned => .owned owned.cell) := by
        refine pure _ fun other => ?_
        simp only [List.map_cons, List.count_append, List.count_cons, List.count_nil]
        omega
      refine (bind [.owned owned.cell] ih paired).given_le fun other => ?_
      simp only [List.count_append]
      omega

/-- Values in use become the elements of a new list. -/
theorem newList (type : TypeId) (elements : List Handle)
    : Keeps allowed Machine.SameShape (elements.map fun element => .owned element.cell)
        (Run.new type (.list (elements.map (·.cell)))) fun list => [list] := by
  intro setting admitted machine held sound
  refine ⟨.alloc type (elements.map (·.cell)) ?_, .refl machine⟩
  rwa [List.map_map]

mutual

/-- Evaluating an expression keeps machines sound, by induction over expressions. -/
theorem evaluate (called : Calls allowed call) (expr : TypedExpr)
    (sets : expr.SetsOnly allowed)
    : Keeps allowed Machine.SameShape [] (Run.evaluate call expr) fun value => [value] := by
  cases expr with
  | mk kind type span =>
      rw [Run.evaluate]
      exact (evaluateKind called type kind sets).checked
termination_by structural expr

theorem evaluateKind (called : Calls allowed call) (type : TypeId) (kind : ExprKind)
    (sets : kind.SetsOnly allowed)
    : Keeps allowed Machine.SameShape [] (Run.evaluateKind call type kind)
        fun value => [value] := by
  cases kind with
  | bool value | int value | double value | string value | enumerator value => exact new rfl rfl
  | id index name => exact variableAt index name
  | binary lhs operator function rhs =>
      exact first (evaluate called lhs sets.1) fun lhs =>
        first (evaluate called rhs sets.2) fun rhs => called function (some lhs) [rhs]
  | unary operator function operand =>
      exact first (evaluate called operand sets) fun operand =>
        called function (some operand) []
  | ternary condition whenTrue whenFalse =>
      refine first (evaluate called condition sets.1) fun condition => ?_
      refine first (valueOf condition) fun value => ?_
      split
      · exact (evaluate called whenTrue sets.2.1).given_le (by simp)
      · exact (evaluate called whenFalse sets.2.2).given_le (by simp)
  | member object name index =>
      exact first (evaluate called object sets) fun object => memberOf object name index
  | call function arguments =>
      exact first (evaluateAll called arguments sets) fun arguments =>
        called function none arguments
  | memberCall object function arguments =>
      exact first (evaluate called object sets.1) fun object =>
        first (evaluateAll called arguments sets.2) fun arguments =>
          called function (some object) arguments
  | implicitCall function arguments =>
      exact first currentObject fun object =>
        first (evaluateAll called arguments sets) fun arguments =>
          called function (some object) arguments
  | construct function? arguments =>
      refine first (evaluateAll called arguments sets) fun arguments => ?_
      exact (construct called type function? arguments).given_le (by simp)
  | scriptDirectory directory function arguments =>
      exact first (evaluateAll called arguments sets) fun arguments =>
        inDirectory directory (called function none arguments)
  | declarativeDirectory directory function =>
      exact inDirectory directory (called function none [])
  | listfileDirectory directory =>
      exact first (request _) fun _ => new rfl rfl
  | declarativeFile file function => exact called function none []
  | cast kind inner =>
      exact first (evaluate called inner sets) fun inner => cast kind type inner
  | list values =>
      refine first (evaluateAll called values sets) fun values => ?_
      rw [List.append_nil]
      exact andThen (ownAll values) fun elements => newList type elements
  | designated members =>
      exact first (createDefault type) fun object =>
        andThen (evaluateMembers called object members sets) fun _ =>
          ofOwned (pure object fun _ => Nat.le_refl _)
  | pending fields => exact fail _
termination_by structural kind

theorem evaluateAll (called : Calls allowed call) (exprs : List TypedExpr)
    (sets : TypedExpr.AllSetOnly allowed exprs)
    : Keeps allowed Machine.SameShape [] (Run.evaluateAll call exprs) id := by
  cases exprs with
  | nil => exact pure [] fun _ => Nat.le_refl _
  | cons first rest =>
      refine Keeps.first (evaluate called first sets.1) fun first =>
        Keeps.first (evaluateAll called rest sets.2) fun rest =>
          pure (first :: rest) fun other => ?_
      simp only [id_eq, List.append_nil, List.count_append, List.count_cons, List.count_nil]
      omega
termination_by structural exprs

theorem evaluateMembers (called : Calls allowed call) (object : Handle)
    (members : List MemberValue) (sets : MemberValue.AllSetOnly allowed members)
    : Keeps allowed Machine.SameShape [.owned object.cell]
        (Run.evaluateMembers call object members) fun _ => [.owned object.cell] := by
  cases members with
  | nil => exact pure () fun _ => Nat.le_refl _
  | cons first rest =>
      cases first with
      | mk index value =>
          exact Keeps.first (evaluate called value sets.2.1) fun value =>
            bind [.owned object.cell] (own value) fun owned =>
              andThen (setMember object owned sets.1) fun _ =>
                evaluateMembers called object rest sets.2.2
termination_by structural members

end

end Run.Keeps

end BuildScript
