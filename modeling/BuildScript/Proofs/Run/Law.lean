import BuildScript.Proofs.Run.OperationRequests
import BuildScript.Run.Program

/-! Laws about machines that every run obeys. A law relates the machine before an action to the
one after it. It has one relation for actions that come to their end and one for actions that
are stopped, and it is closed under the ways in which a run is made of actions, so that one
induction over scripts serves every law.
-/

namespace BuildScript

/-- How an action comes to its end. The end of a statement may leave a `return` or, in a loop,
a `break` to be carried out.
-/
inductive Ending where
  | regular
  | interruptible (inLoop : Bool)

/-- A law of runs. Its closure fields follow the composition of actions, the signals of
statements, what is opened and closed around an action, and the operations.
-/
structure Law where
  admits : RunSetting → Prop
  scoping : Prop
  ended : Ending → Machine → Machine → Prop
  stopped : Stop → Machine → Machine → Prop
  refl : ∀ machine, ended .regular machine machine
  trans : ∀ {ending before middle after},
    ended .regular before middle → ended ending middle after → ended ending before after
  halt : ∀ {stop before middle after},
    ended .regular before middle → stopped stop middle after → stopped stop before after
  exhausted : ∀ machine, stopped .exhausted machine machine
  statement : ∀ {inLoop before after},
    ended .regular before after → ended (.interruptible inLoop) before after
  resume : ∀ {inLoop before after}, ended (.interruptible inLoop) before after →
    Run.interrupted after = false ∨ ¬ scoping → ended .regular before after
  returning : ∀ inLoop machine handle,
    ended (.interruptible inLoop) machine { machine with returned? := some handle }
  breaking : ∀ inLoop machine, (scoping → inLoop = true) →
    ended (.interruptible inLoop) machine { machine with breaking := true }
  broken : ∀ {inLoop before after}, ended (.interruptible true) before after →
    ended (.interruptible inLoop) before { after with breaking := false }
  scope : ∀ {ending before after},
    ended ending before.enterScope after → ended ending before after.leaveScope
  scopeStop : ∀ {stop before after},
    stopped stop before.enterScope after → stopped stop before after.leaveScope
  frame : ∀ {frame before after},
    ended (.interruptible false) { before with frames := frame :: before.frames } after →
    ended .regular before (Run.takeReturned after)
  frameStop : ∀ {stop frame before after},
    stopped stop { before with frames := frame :: before.frames } after →
    stopped stop before (Run.takeReturned after)
  directory : ∀ {name before after},
    ended .regular (before.request (.enterDirectory name)) after →
    ended .regular before (after.request .leaveDirectory)
  directoryStop : ∀ {stop name before after},
    stopped stop (before.request (.enterDirectory name)) after →
    stopped stop before (after.request .leaveDirectory)
  declared : ∀ machine index handle,
    ended .regular machine (machine.addVariable index handle)
  outer : ∀ machine globals statics,
    ended .regular machine { machine with globals := globals, statics := statics }
  plain : ∀ machine heap calls, (∀ call ∈ calls, call.isPlain = true) →
    ended .regular machine
      { machine with store := ⟨heap, machine.store.system.requestAll calls⟩ }
  fault : ∀ machine heap calls text, (∀ call ∈ calls, call.isPlain = true) →
    stopped .fatal machine
      { machine with
        store := ⟨heap, (machine.store.system.requestAll calls).request (.fatalError text)⟩ }
  latched : ∀ {before after}, ended .regular before after →
    after.store.system.failed = true → stopped .fatal before after

/-- (Relates law ending before outcome) says that a law relates a machine to the outcome of an
action on it.
-/
def Law.Relates {α : Type} (law : Law) (ending : Ending) (before : Machine)
    : Except Stop α × Machine → Prop
  | (.ok _, after) => law.ended ending before after
  | (.error stop, after) => law.stopped stop before after

/-- What follows a regular action is related to the machine before both, by composition. -/
theorem Law.Relates.after {law : Law} {ending : Ending} {α : Type} {before middle : Machine}
    {outcome : Except Stop α × Machine} (later : law.Relates ending middle outcome)
    (first : law.ended .regular before middle)
    : law.Relates ending before outcome := by
  obtain ⟨result, after⟩ := outcome
  cases result with
  | ok value => exact law.trans first later
  | error stop => exact law.halt first later

namespace Run

variable {α β : Type}

-----------------------------------------------------------------------------------------
-- Composition of actions
-----------------------------------------------------------------------------------------

/-- The second of two actions runs on what the first one gives, unless that is stopped. -/
theorem run_bind (action : Run α) (next : α → Run β) (setting : RunSetting)
    (machine : Machine)
    : (action >>= next) setting machine =
        match action setting machine with
        | (.ok value, after) => next value setting after
        | (.error stop, after) => (.error stop, after) := by
  simp only [Bind.bind, ReaderT.bind, ExceptT.bind, ExceptT.mk, StateT.bind]
  cases action setting machine with
  | mk result after => cases result <;> rfl

/-- Two actions come to their end when the first one does, and then the second one. -/
theorem of_bind {action : Run α} {next : α → Run β} {setting : RunSetting} {machine after : Machine}
    {result : β} (ended : (action >>= next) setting machine = (.ok result, after))
    : ∃ value middle, action setting machine = (.ok value, middle)
        ∧ next value setting middle = (.ok result, after) := by
  rw [run_bind] at ended
  cases outcome : action setting machine with
  | mk first middle =>
      rw [outcome] at ended
      cases first with
      | error stop => cases ended
      | ok value => exact ⟨value, middle, rfl, ended⟩

theorem run_get (setting : RunSetting) (machine : Machine)
    : (get : Run Machine) setting machine = (.ok machine, machine) :=
  rfl

/-- An operation changes nothing of the machine but the store. Its fault is reported last. -/
theorem perform_run (effect : Effect α) (setting : RunSetting) (machine : Machine)
    : perform effect setting machine =
        match effect setting.toEnvironment machine.store with
        | (.ok value, store) => (.ok value, { machine with store })
        | (.error fault, store) =>
            (.error .fatal,
              { machine with
                store := ⟨store.heap, store.system.request (.fatalError fault.message)⟩ }) := by
  obtain ⟨store, frames, globals, statics, returned?, breaking⟩ := machine
  unfold perform
  cases outcome : effect setting.toEnvironment store with
  | mk result after => cases result <;> simp only [outcome]

/-- A check after an action stops the run if a fatal error has been reported. -/
theorem checked_run (action : Run α) (setting : RunSetting) (machine : Machine)
    : checked action setting machine =
        match action setting machine with
        | (.ok value, after) =>
            if after.store.system.failed then (.error .fatal, after) else (.ok value, after)
        | (.error stop, after) => (.error stop, after) := by
  unfold checked
  rw [run_bind]
  cases action setting machine with
  | mk result after =>
      cases result with
      | error stop => rfl
      | ok value =>
          simp only [run_bind]
          show (if after.store.system.failed = true then _ else _ : Run α) setting after = _
          split <;> rfl

theorem read_run (next : RunSetting → Run α) (setting : RunSetting) (machine : Machine)
    : (read >>= next) setting machine = next setting setting machine :=
  rfl

/-- A provided function performs its operation, however many frames may be opened. -/
theorem callWithin_builtin {setting : RunSetting} {machine : Machine} {function : FunctionId}
    {operation : Operation} (depth : Nat) (self? : Option Handle) (arguments : List Handle)
    (body : (setting.registry.function function).body = .builtin operation)
    : callWithin depth function self? arguments setting machine =
        checked (perform (operation.perform self? arguments
          ((setting.registry.function function).returnType?.getD setting.builtins.void)))
          setting machine := by
  rw [checked_run]
  cases depth with
  | zero =>
      rw [callWithin, checked_run, read_run]
      dsimp only
      rw [body]
  | succ depth =>
      rw [callWithin, checked_run, read_run]
      dsimp only
      rw [body]

/-- A function of a script executes its body in a frame of its own. -/
theorem callWithin_script {setting : RunSetting} {machine : Machine} {function : FunctionId}
    {block : TypedBlock} (depth : Nat) (self? : Option Handle) (arguments : List Handle)
    (body : (setting.registry.function function).body = .script (some block))
    : callWithin (depth + 1) function self? arguments setting machine =
        checked (callScript (callWithin depth) function
          ((setting.registry.function function).returnType?.getD setting.builtins.void)
          (setting.registry.function function).params block self? arguments)
          setting machine := by
  rw [checked_run, callWithin, checked_run, read_run]
  dsimp only
  rw [body]

/-- An action obeys a law for an ending when the law relates all its outcomes to the machine
before it.
-/
def Obeys (law : Law) (ending : Ending) (action : Run α) : Prop :=
  ∀ setting, law.admits setting → ∀ machine,
    law.Relates ending machine (action setting machine)

namespace Obeys

variable {law : Law} {ending : Ending}

/-- Obedience of an action that comes to its end. -/
theorem ok {action : Run α} (obeys : action.Obeys law ending) {setting : RunSetting}
    (admitted : law.admits setting) {machine after : Machine} {value : α}
    (outcome : action setting machine = (.ok value, after))
    : law.ended ending machine after := by
  have obeyed := obeys setting admitted machine
  rwa [outcome] at obeyed

/-- Obedience of an action that is stopped. -/
theorem error {action : Run α} (obeys : action.Obeys law ending) {setting : RunSetting}
    (admitted : law.admits setting) {machine after : Machine} {stop : Stop}
    (outcome : action setting machine = (.error stop, after))
    : law.stopped stop machine after := by
  have obeyed := obeys setting admitted machine
  rwa [outcome] at obeyed

theorem pure (value : α) : Obeys law .regular (Pure.pure value) :=
  fun _ _ machine => law.refl machine

/-- A regular action and one that follows it obey a law together. -/
theorem bind {action : Run α} {next : α → Run β} (first : action.Obeys law .regular)
    (second : ∀ value, (next value).Obeys law ending)
    : (action >>= next).Obeys law ending := by
  intro setting admitted machine
  rw [run_bind]
  cases outcome : action setting machine with
  | mk result middle =>
      cases result with
      | error stop => exact first.error admitted outcome
      | ok value =>
          exact (second value setting admitted middle).after (first.ok admitted outcome)

/-- Regular actions are statements too. -/
theorem statement {action : Run α} {inLoop : Bool} (obeys : action.Obeys law .regular)
    : action.Obeys law (.interruptible inLoop) := by
  intro setting admitted machine
  cases outcome : action setting machine with
  | mk result after =>
      cases result with
      | ok value => exact law.statement (obeys.ok admitted outcome)
      | error stop => exact obeys.error admitted outcome

/-- A statement that leaves no signal is regular, and so is any when a law takes no account of
signals.
-/
theorem resume {action : Run α} {inLoop : Bool}
    (obeys : action.Obeys law (.interruptible inLoop)) (unscoped : ¬ law.scoping)
    : action.Obeys law .regular := by
  intro setting admitted machine
  cases outcome : action setting machine with
  | mk result after =>
      cases result with
      | ok value => exact law.resume (obeys.ok admitted outcome) (.inr unscoped)
      | error stop => exact obeys.error admitted outcome

/-- An action may look at the machine first. -/
theorem get {next : Machine → Run β} (obeys : ∀ machine, (next machine).Obeys law ending)
    : (MonadState.get >>= next).Obeys law ending :=
  fun setting admitted machine => obeys machine setting admitted machine

/-- An action may look at the setting first, of which it knows what the law admits. -/
theorem read {next : RunSetting → Run β}
    (obeys : ∀ setting, law.admits setting → (next setting).Obeys law ending)
    : (MonadReader.read >>= next).Obeys law ending :=
  fun setting admitted machine => obeys setting admitted setting admitted machine

/-- A change of the machine obeys a law when the law relates its two sides. -/
theorem modified {change : Machine → Machine}
    (related : ∀ machine, law.ended ending machine (change machine))
    : Obeys law ending (MonadState.modifyGet fun machine => ((), change machine)) :=
  fun _ _ machine => related machine

theorem exhausted : Obeys law ending (MonadExcept.throw Stop.exhausted : Run α) :=
  fun _ _ machine => law.exhausted machine

/-- An action that checks for a fatal error obeys what it obeys without the check. -/
theorem checked {action : Run α} (obeys : action.Obeys law .regular)
    : (Run.checked action).Obeys law .regular := by
  intro setting admitted machine
  rw [checked_run]
  cases outcome : action setting machine with
  | mk result after =>
      cases result with
      | error stop => exact obeys.error admitted outcome
      | ok value =>
          have reached := obeys.ok admitted outcome
          simp only
          cases failed : after.store.system.failed with
          | true => exact law.latched reached failed
          | false => exact reached

-----------------------------------------------------------------------------------------
-- Operations, and what is opened and closed
-----------------------------------------------------------------------------------------

/-- Plain operations obey every law, whether they fail or not. -/
theorem perform {effect : Effect α} (plain : effect.Plain)
    : (Run.perform effect).Obeys law .regular := by
  intro setting _ machine
  obtain ⟨calls, allPlain, reached⟩ := plain setting.toEnvironment machine.store
  rw [perform_run]
  cases outcome : effect setting.toEnvironment machine.store with
  | mk result after =>
      obtain ⟨heap, system⟩ := after
      rw [outcome] at reached
      simp only at reached
      subst reached
      cases result with
      | ok value => exact law.plain machine heap calls allPlain
      | error fault => exact law.fault machine heap calls fault.message allPlain

theorem fail (reason : Fault) : (Run.fail reason : Run α).Obeys law .regular :=
  perform (.throw reason)

/-- Every operation obeys every law when a check follows it, by cases on whether it reports a
fatal error itself.
-/
theorem operation (operation : Operation) (self? : Option Handle) (operands : List Handle)
    (result : TypeId)
    : (Run.checked (Run.perform (operation.perform self? operands result))).Obeys law
        .regular := by
  by_cases harmless : operation = .system .fatalError
  · subst harmless
    intro setting _ machine
    obtain ⟨value, heap, text, outcome⟩ := Operation.perform_fatalError self? operands result
      setting.toEnvironment machine.store
    have stopped : Run.checked
        (Run.perform ((Operation.system .fatalError).perform self? operands result))
          setting machine
        = (.error .fatal,
            { machine with store := ⟨heap, machine.store.system.request (.fatalError text)⟩ })
        := by
      unfold Run.checked Run.perform
      rw [run_bind]
      simp only [outcome]
      rfl
    rw [stopped]
    exact law.fault machine heap [] text (by simp)
  · exact (perform (.operation harmless self? operands result)).checked

/-- An action between an opening and a closing change obeys a law when the law is closed under
the two.
-/
theorem enclosed {inner outer : Ending} {opened closed : Machine → Machine} {action : Run α}
    (obeys : action.Obeys law inner)
    (ended : ∀ {before after}, law.ended inner (opened before) after →
      law.ended outer before (closed after))
    (stopped : ∀ {stop before after}, law.stopped stop (opened before) after →
      law.stopped stop before (closed after))
    : Obeys law outer ((MonadState.modifyGet fun machine => ((), opened machine)) >>= fun _ =>
        Run.ensuring closed action) := by
  intro setting admitted machine
  rw [run_bind]
  show law.Relates outer machine (Run.ensuring closed action setting (opened machine))
  unfold Run.ensuring
  cases outcome : action setting (opened machine) with
  | mk result after =>
      cases result with
      | ok value => exact ended (obeys.ok admitted outcome)
      | error stop => exact stopped (obeys.error admitted outcome)

theorem inScope {action : Run α} (obeys : action.Obeys law ending)
    : (Run.inScope action).Obeys law ending :=
  obeys.enclosed law.scope law.scopeStop

theorem inDirectory {action : Run α} (obeys : action.Obeys law .regular) (name : String)
    : (Run.inDirectory name action).Obeys law .regular :=
  obeys.enclosed law.directory law.directoryStop

/-- The body of a function is a statement outside of loops, and its `return` ends with it. -/
theorem inFrame {body : Run Unit} (obeys : body.Obeys law (.interruptible false))
    (frame : Frame)
    : (Run.inFrame frame body).Obeys law .regular := by
  have returning : Obeys law (.interruptible false) (do
      body
      return (← MonadState.get).returned?) := by
    intro setting admitted machine
    rw [run_bind]
    cases outcome : body setting machine with
    | mk result after =>
        cases result with
        | ok value => exact obeys.ok admitted outcome
        | error stop => exact obeys.error admitted outcome
  exact returning.enclosed law.frame law.frameStop

end Obeys

end Run

end BuildScript
