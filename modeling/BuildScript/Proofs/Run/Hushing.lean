import BuildScript.Proofs.Run.Lawfulness
import BuildScript.Proofs.Workspace.Functions

/-! Actions after a fatal error. Whether one was reported is asked when an action is done, and not
before. So an action may wait, which is to make no requests, or murmur, which is to make a few
before it is stopped, or halt, which is to be stopped in any case.
-/

namespace BuildScript

-----------------------------------------------------------------------------------------
-- Requests
-----------------------------------------------------------------------------------------

namespace Registry

/-- The requests that a single expression without others in it may make: none, the report of a
fatal error, the request to enable tests, the one to add a directory with a listfile, and those
for a component.
-/
inductive Unprompted (registry : Registry) : List BuildCall → Prop where
  | silence : Unprompted registry []
  | fault (text : String) : Unprompted registry [.fatalError text]
  | tests : Unprompted registry [.enableCtest]
  | listfile (directory : String) : Unprompted registry [.addListfileDirectory directory]
  | component (id : FunctionId) (component : Component)
      (made : (registry.function id).body = .component component)
      : Unprompted registry component.calls

/-- (Murmurs registry calls) says that some requests are those of a single expression, between the
requests to enter some directories and those to leave them.
-/
def Murmurs (registry : Registry) (calls : List BuildCall) : Prop :=
  ∃ (directories : List String) (actions : List BuildCall),
    registry.Unprompted actions
    ∧ calls = directories.map .enterDirectory ++ actions
        ++ List.replicate directories.length .leaveDirectory

/-- (Hushed registry before after) says that a build system has got no more requests than these. -/
def Hushed (registry : Registry) (before after : BuildSystem) : Prop :=
  ∃ calls, registry.Murmurs calls ∧ after = before.requestAll calls

variable {registry : Registry}

theorem Unprompted.murmurs {actions : List BuildCall} (unprompted : registry.Unprompted actions)
    : registry.Murmurs actions :=
  ⟨[], actions, unprompted, (List.append_nil _).symm⟩

theorem Unprompted.hushed {actions : List BuildCall} (unprompted : registry.Unprompted actions)
    (system : BuildSystem)
    : registry.Hushed system (system.requestAll actions) :=
  ⟨actions, unprompted.murmurs, rfl⟩

theorem Hushed.refl (registry : Registry) (system : BuildSystem)
    : registry.Hushed system system :=
  Unprompted.silence.hushed system

/-- Requests in a directory stand between those that enter and leave it. -/
theorem Hushed.inDirectory {before after : BuildSystem} {directory : String}
    (hushed : registry.Hushed (before.request (.enterDirectory directory)) after)
    : registry.Hushed before (after.request .leaveDirectory) := by
  obtain ⟨_, ⟨directories, actions, unprompted, rfl⟩, rfl⟩ := hushed
  refine ⟨_, ⟨directory :: directories, actions, unprompted, rfl⟩, ?_⟩
  simp only [BuildSystem.requestAll, List.length_cons, List.replicate_succ', List.map_cons,
    List.foldl_append, List.foldl_cons, List.foldl_nil]

end Registry

namespace BuildSystem

/-- A fatal error is never taken back. -/
theorem request_failed {system : BuildSystem} (failed : system.failed = true) (call : BuildCall)
    : (system.request call).failed = true := by
  cases call with
  | fatalError text => rfl
  | _ => exact failed

/-- Fatal errors are never taken back, by induction over the requests. -/
theorem requestAll_failed {system : BuildSystem} (failed : system.failed = true)
    (calls : List BuildCall)
    : (system.requestAll calls).failed = true := by
  induction calls generalizing system with
  | nil => exact failed
  | cons call rest ih => exact ih (request_failed failed call)

end BuildSystem

theorem Registry.Hushed.failed {registry : Registry} {before after : BuildSystem}
    (hushed : registry.Hushed before after) (failed : before.failed = true)
    : after.failed = true := by
  obtain ⟨calls, _, rfl⟩ := hushed
  exact BuildSystem.requestAll_failed failed calls

-----------------------------------------------------------------------------------------
-- Actions
-----------------------------------------------------------------------------------------

namespace Run

variable {α β : Type}

/-- (Hushes registry ends before outcome) says how an action may end after a fatal error: it comes
to its end with a build system as `ends` tells, or it is stopped with one that is hushed.
-/
def Outcome (registry : Registry) (ends : BuildSystem → BuildSystem → Prop)
    (before : BuildSystem)
    : Except Stop α × Machine → Prop
  | (.ok _, after) => ends before after.store.system
  | (.error _, after) => registry.Hushed before after.store.system

/-- (Hushes setting ends action) says that an action has no other outcome after a fatal error. -/
def Hushes (setting : RunSetting) (ends : BuildSystem → BuildSystem → Prop) (action : Run α)
    : Prop :=
  ∀ machine : Machine, machine.store.system.failed = true →
    Outcome setting.registry ends machine.store.system (action setting machine)

/-- After a fatal error an action murmurs when it makes hushed requests only. -/
def Murmurs (setting : RunSetting) (action : Run α) : Prop :=
  action.Hushes setting setting.registry.Hushed

/-- After a fatal error an action waits when it makes no requests unless it is stopped. -/
def Waits (setting : RunSetting) (action : Run α) : Prop :=
  action.Hushes setting fun before after => after = before

/-- After a fatal error an action halts when it does not come to its end. -/
def Halts (setting : RunSetting) (action : Run α) : Prop :=
  action.Hushes setting fun _ _ => False

variable {setting : RunSetting} {ends later : BuildSystem → BuildSystem → Prop}

namespace Hushes

theorem mono {action : Run α} (hushes : action.Hushes setting ends)
    (weaker : ∀ {before after}, ends before after → later before after)
    : action.Hushes setting later := by
  intro machine failed
  have ended := hushes machine failed
  cases outcome : action setting machine with
  | mk result after =>
      rw [outcome] at ended
      cases result with
      | ok value => exact weaker ended
      | error stop => exact ended

/-- An action that waits may come first. -/
theorem bind {action : Run α} {next : α → Run β} (waits : action.Waits setting)
    (follow : ∀ value, (next value).Hushes setting ends)
    : (action >>= next).Hushes setting ends := by
  intro machine failed
  have first := waits machine failed
  rw [run_bind]
  cases outcome : action setting machine with
  | mk result after =>
      rw [outcome] at first
      cases result with
      | error stop => exact first
      | ok value =>
          have same : after.store.system = machine.store.system := first
          have rest := follow value after (same ▸ failed)
          rwa [same] at rest

/-- Nothing comes after an action that halts. -/
theorem halt {action : Run α} (halts : action.Halts setting) (next : α → Run β)
    : (action >>= next).Hushes setting ends := by
  intro machine failed
  have first := halts machine failed
  rw [run_bind]
  cases outcome : action setting machine with
  | mk result after =>
      rw [outcome] at first
      cases result with
      | error stop => exact first
      | ok value => exact first.elim

/-- An action may look at the machine first. -/
theorem get {next : Machine → Run β} (hushes : ∀ machine, (next machine).Hushes setting ends)
    : (MonadState.get >>= next).Hushes setting ends :=
  fun machine failed => hushes machine machine failed

/-- An action may look at the setting first. -/
theorem read {next : RunSetting → Run β} (hushes : (next setting).Hushes setting ends)
    : (MonadReader.read >>= next).Hushes setting ends :=
  fun machine failed => hushes machine failed

/-- What is opened and closed around an action does not matter if the build system stays the
same.
-/
theorem enclosed {opened closed : Machine → Machine} {action : Run α}
    (hushes : action.Hushes setting ends)
    (opens : ∀ machine, (opened machine).store = machine.store)
    (closes : ∀ machine, (closed machine).store = machine.store)
    : Hushes setting ends ((MonadState.modifyGet fun machine => ((), opened machine)) >>= fun _ =>
        Run.ensuring closed action) := by
  intro machine failed
  have inner := hushes (opened machine) (by rw [opens]; exact failed)
  rw [opens] at inner
  rw [run_bind]
  show Outcome _ ends _ (Run.ensuring closed action setting (opened machine))
  unfold Run.ensuring
  cases outcome : action setting (opened machine) with
  | mk result after =>
      rw [outcome] at inner
      cases result with
      | ok value =>
          show ends _ (closed after).store.system
          rwa [closes]
      | error stop =>
          show Registry.Hushed _ _ (closed after).store.system
          rwa [closes]

end Hushes

theorem Halts.any {action : Run α} (halts : action.Halts setting)
    : action.Hushes setting ends :=
  Hushes.mono halts False.elim

theorem Waits.murmurs {action : Run α} (waits : action.Waits setting)
    : action.Murmurs setting :=
  Hushes.mono waits fun same => same ▸ .refl _ _

namespace Waits

theorem pure (value : α) : Waits setting (Pure.pure value) := fun _ _ => rfl

/-- A change of the machine waits if the build system stays the same. -/
theorem modified {change : Machine → Machine}
    (same : ∀ machine, (change machine).store = machine.store)
    : Waits setting (MonadState.modifyGet fun machine => ((), change machine)) :=
  fun machine _ => congrArg Store.system (same machine)

/-- An operation that makes no request waits. -/
theorem perform {effect : Effect α} (silent : effect.Asks fun _ => False)
    : (Run.perform effect).Waits setting := by
  intro machine _
  obtain ⟨calls, none, reached⟩ := silent setting.toEnvironment machine.store
  cases List.eq_nil_iff_forall_not_mem.mpr none
  rw [perform_run]
  cases outcome : effect setting.toEnvironment machine.store with
  | mk result after =>
      rw [outcome] at reached
      cases result with
      | ok value => exact reached
      | error fault =>
          obtain ⟨heap, system⟩ := after
          cases reached
          exact (Registry.Unprompted.fault fault.message).hushed _

theorem exhausted : Waits setting (MonadExcept.throw Stop.exhausted : Run α) :=
  fun machine _ => Registry.Hushed.refl _ machine.store.system

end Waits

namespace Halts

theorem fail (reason : Fault) : (Run.fail reason : Run α).Halts setting :=
  fun machine _ => (Registry.Unprompted.fault reason.message).hushed machine.store.system

/-- An action that murmurs halts at a check. -/
theorem checked {action : Run α} (murmurs : action.Murmurs setting)
    : (Run.checked action).Halts setting := by
  intro machine failed
  have ended := murmurs machine failed
  rw [checked_run]
  cases outcome : action setting machine with
  | mk result after =>
      rw [outcome] at ended
      cases result with
      | error stop => exact ended
      | ok value =>
          have hushed : Registry.Hushed _ _ after.store.system := ended
          simp only [hushed.failed failed]
          exact hushed

/-- What halts does so in a directory, too. -/
theorem inDirectory {action : Run α} (halts : action.Halts setting) (directory : String)
    : (Run.inDirectory directory action).Halts setting := by
  intro machine failed
  have inner := halts (machine.request (.enterDirectory directory))
    (BuildSystem.request_failed failed _)
  show Outcome _ _ _ (Run.ensuring _ action setting (machine.request (.enterDirectory directory)))
  unfold Run.ensuring
  cases outcome : action setting (machine.request (.enterDirectory directory)) with
  | mk result after =>
      rw [outcome] at inner
      cases result with
      | ok value => exact inner.elim
      | error stop => exact Registry.Hushed.inDirectory inner

end Halts

-----------------------------------------------------------------------------------------
-- Values
-----------------------------------------------------------------------------------------

namespace Waits

theorem createDefault (type : TypeId) : (Run.createDefault type).Waits setting :=
  Hushes.read (perform ((Effect.Asks.onHeap _).map _))

theorem own (handle : Handle) : (Run.own handle).Waits setting := by
  cases handle with
  | owned cell => exact pure _
  | reference cell base? => exact perform ((Effect.Asks.onHeap (Heap.copy cell)).map _)

theorem bindIn (type : TypeId) (handle : Handle) : (Run.bind type handle).Waits setting := by
  refine Hushes.read ?_
  split
  · exact pure _
  · exact own handle

theorem new (type : TypeId) (value : Value) : (Run.new type value).Waits setting :=
  perform (.new type value)

theorem void : Run.void.Waits setting := perform .void

theorem variableAt (index : Nat) (name : String)
    : (Run.variableAt index name).Waits setting := by
  refine Hushes.get fun machine => ?_
  split
  · exact pure _
  · exact (Halts.fail _).any

theorem currentObject : Run.currentObject.Waits setting := by
  refine Hushes.get fun machine => ?_
  split
  · exact pure _
  · exact (Halts.fail _).any

end Waits

-----------------------------------------------------------------------------------------
-- Operations
-----------------------------------------------------------------------------------------

/-- A function needs no arguments when it has no parameters, or when it is one of a script. -/
def Bare (setting : RunSetting) (id : FunctionId) : Prop :=
  (setting.registry.function id).params = []
    ∨ ∃ body?, (setting.registry.function id).body = .script body?

namespace Murmurs

/-- The requests that an action makes on its own account are hushed. -/
theorem perform {effect : Effect α} {actions : List BuildCall}
    (unprompted : setting.registry.Unprompted actions)
    (given : ∀ store, ∃ value heap, effect setting.toEnvironment store
      = (.ok value, ⟨heap, store.system.requestAll actions⟩))
    : (Run.perform effect).Murmurs setting := by
  intro machine _
  obtain ⟨value, heap, outcome⟩ := given machine.store
  rw [perform_run, outcome]
  exact unprompted.hushed _

/-- A provided function that is ordinary makes hushed requests if it needs no arguments. -/
theorem operation {id : FunctionId} {operation : Operation}
    (made : (setting.registry.function id).body = .builtin operation)
    (ordinary : (setting.registry.function id).isOrdinary = true) (bare : Bare setting id)
    (self? : Option Handle) (result : TypeId)
    : (Run.perform (operation.perform self? [] result)).Murmurs setting := by
  have none : (setting.registry.function id).params = [] := by
    refine bare.resolve_right ?_
    rintro ⟨body?, script⟩
    cases made.symm.trans script
  simp only [FunctionInfo.isOrdinary, made, none, List.isEmpty_nil, Bool.not_true, Bool.false_or,
    Bool.and_eq_true, Bool.or_eq_true] at ordinary
  rcases ordinary.2 with silent | tests
  · have harmless : operation ≠ .system .fatalError := by
      rintro rfl
      cases silent
    have asks : (operation.perform self? [] result).Asks fun _ => False := by
      refine .operation harmless (fun loud => ?_) self? [] result
      cases silent.symm.trans loud
    exact (Waits.perform asks).murmurs
  · split at tests
    · refine perform .tests fun store => ?_
      cases self? with
      | none => exact ⟨_, _, rfl⟩
      | some self => exact ⟨_, _, rfl⟩
    · cases tests

theorem componentCreate {id : FunctionId} {component : Component}
    (made : (setting.registry.function id).body = .component component)
    : (Run.perform component.create).Murmurs setting := by
  refine perform (.component id component made) fun store => ?_
  rw [Component.create, Effect.run_bind, Effect.run_forM_request]
  exact ⟨_, _, rfl⟩

end Murmurs

end Run

end BuildScript
