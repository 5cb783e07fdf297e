import BuildScript.Proofs.Run.Lawfulness
import BuildScript.Proofs.Workspace.Functions

/-! Evaluation restores the machine. Frames, scopes and directories that an evaluation opens are
closed when it ends, however it ends, and the signals of the statements in it are used up.

Every evaluation in an accepted program restores the machine, since its functions are well
scoped.
-/

namespace BuildScript

namespace Machine

/-- A machine is idle when no `return` and no `break` is being carried out. -/
structure Idle (machine : Machine) : Prop where
  returned : machine.returned? = none
  breaking : machine.breaking = false

/-- One machine has the outline of another when as many calls are open, with as many scopes in
each of them, and the build system is in the same directories.
-/
structure SameOutline (before after : Machine) : Prop where
  scopes : after.frames.map (·.scopes.length) = before.frames.map (·.scopes.length)
  directories : after.store.system.directories = before.store.system.directories

theorem SameOutline.refl (machine : Machine) : SameOutline machine machine := ⟨rfl, rfl⟩

theorem SameOutline.trans {before middle after : Machine} (first : SameOutline before middle)
    (later : SameOutline middle after)
    : SameOutline before after :=
  ⟨later.scopes.trans first.scopes, later.directories.trans first.directories⟩

/-- As many calls are open in machines of one outline. -/
theorem SameOutline.frames {before after : Machine} (same : SameOutline before after)
    : after.frames.length = before.frames.length := by
  have lengths := congrArg List.length same.scopes
  rwa [List.length_map, List.length_map] at lengths

/-- A scope that is opened and closed leaves the outline, by cases on the innermost call. -/
theorem SameOutline.scope {before after : Machine} (same : SameOutline before.enterScope after)
    : SameOutline before after.leaveScope := by
  refine ⟨?_, same.directories⟩
  have scopes := same.scopes
  simp only [enterScope, leaveScope, onFrame] at scopes ⊢
  cases outer : before.frames with
  | nil =>
      rw [outer] at scopes
      rw [List.map_eq_nil_iff.mp scopes]
  | cons frame rest =>
      rw [outer] at scopes
      cases inner : after.frames with
      | nil =>
          rw [inner] at scopes
          cases scopes
      | cons top below =>
          rw [inner] at scopes
          simp only [List.map_cons, List.length_cons, List.cons.injEq] at scopes ⊢
          exact ⟨by rw [List.length_tail, scopes.1, Nat.add_sub_cancel], scopes.2⟩

/-- A frame that is opened and closed leaves the outline. -/
theorem SameOutline.frame {frame : Frame} {before after : Machine}
    (same : SameOutline { before with frames := frame :: before.frames } after)
    : SameOutline before (Run.takeReturned after) := by
  refine ⟨?_, same.directories⟩
  have scopes := congrArg List.tail same.scopes
  simpa only [Run.takeReturned, List.map_tail, List.map_cons, List.tail_cons] using scopes

/-- A directory that is entered and left leaves the outline. -/
theorem SameOutline.directory {name : String} {before after : Machine}
    (same : SameOutline (before.request (.enterDirectory name)) after)
    : SameOutline before (after.request .leaveDirectory) := by
  refine ⟨same.scopes, ?_⟩
  show after.store.system.directories.dropLast = before.store.system.directories
  rw [same.directories]
  exact List.dropLast_concat

/-- A new variable leaves the outline, by cases on the innermost call and its scopes. -/
theorem SameOutline.addVariable (machine : Machine) (index : Nat) (handle : Handle)
    : SameOutline machine (machine.addVariable index handle) := by
  obtain ⟨store, frames, globals, statics, returned?, breaking⟩ := machine
  cases frames with
  | nil => exact ⟨rfl, rfl⟩
  | cons frame rest =>
      obtain ⟨function, scopes, params, self?⟩ := frame
      cases scopes with
      | nil => exact ⟨rfl, rfl⟩
      | cons scope outer => exact ⟨rfl, rfl⟩

end Machine

open Machine

-----------------------------------------------------------------------------------------
-- The law of runs and evaluations
-----------------------------------------------------------------------------------------

/-- The signals that an action may leave when it comes to its end. -/
def Ending.Permits : Ending → Machine → Prop
  | .regular, machine => machine.Idle
  | .interruptible inLoop, machine => machine.breaking = true → inLoop = true

/-- Idle machines keep their outline, and they are idle again after an action unless a statement
leaves a signal.
-/
def Law.restoring : Law where
  admits setting := setting.registry.WellScoped
  scoping := True
  ended ending before after := before.Idle → SameOutline before after ∧ ending.Permits after
  stopped _ before after := before.Idle → SameOutline before after ∧ after.Idle
  refl machine idle := ⟨.refl machine, idle⟩
  trans := by
    intro ending before middle after first later idle
    obtain ⟨start, idle⟩ := first idle
    obtain ⟨rest, permitted⟩ := later idle
    exact ⟨start.trans rest, permitted⟩
  halt := by
    intro stop before middle after first later idle
    obtain ⟨start, idle⟩ := first idle
    obtain ⟨rest, idle⟩ := later idle
    exact ⟨start.trans rest, idle⟩
  exhausted machine idle := ⟨.refl machine, idle⟩
  statement := by
    intro inLoop before after ended idle
    obtain ⟨same, idle⟩ := ended idle
    refine ⟨same, fun breaking => ?_⟩
    rw [idle.breaking] at breaking
    exact nomatch breaking
  resume := by
    intro inLoop before after ended quiet idle
    obtain ⟨same, _⟩ := ended idle
    have uninterrupted := quiet.resolve_right (not_not_intro trivial)
    simp only [Run.interrupted, Bool.or_eq_false_iff, Option.isSome_eq_false_iff,
      Option.isNone_iff_eq_none] at uninterrupted
    exact ⟨same, uninterrupted.1, uninterrupted.2⟩
  returning inLoop machine handle idle := by
    refine ⟨⟨rfl, rfl⟩, fun breaking => ?_⟩
    rw [show machine.breaking = false from idle.breaking] at breaking
    exact nomatch breaking
  breaking inLoop machine inside _ := ⟨⟨rfl, rfl⟩, fun _ => inside trivial⟩
  broken := by
    intro inLoop before after ended idle
    obtain ⟨same, _⟩ := ended idle
    exact ⟨⟨same.scopes, same.directories⟩, fun breaking => nomatch breaking⟩
  scope := by
    intro ending before after ended idle
    obtain ⟨same, permitted⟩ := ended ⟨idle.returned, idle.breaking⟩
    refine ⟨same.scope, ?_⟩
    cases ending with
    | regular => exact ⟨permitted.returned, permitted.breaking⟩
    | interruptible inLoop => exact permitted
  scopeStop := by
    intro stop before after stopped idle
    obtain ⟨same, idle⟩ := stopped ⟨idle.returned, idle.breaking⟩
    exact ⟨same.scope, idle.returned, idle.breaking⟩
  frame := by
    intro frame before after ended idle
    obtain ⟨same, permitted⟩ := ended ⟨idle.returned, idle.breaking⟩
    refine ⟨same.frame, rfl, ?_⟩
    cases broken : after.breaking with
    | true => exact nomatch permitted broken
    | false => exact broken
  frameStop := by
    intro stop frame before after stopped idle
    obtain ⟨same, idle⟩ := stopped ⟨idle.returned, idle.breaking⟩
    exact ⟨same.frame, rfl, idle.breaking⟩
  directory := by
    intro name before after ended idle
    obtain ⟨same, idle⟩ := ended ⟨idle.returned, idle.breaking⟩
    exact ⟨same.directory, idle.returned, idle.breaking⟩
  directoryStop := by
    intro stop name before after stopped idle
    obtain ⟨same, idle⟩ := stopped ⟨idle.returned, idle.breaking⟩
    exact ⟨same.directory, idle.returned, idle.breaking⟩
  declared machine index handle idle := by
    refine ⟨.addVariable machine index handle, ?_⟩
    unfold Machine.addVariable
    split <;> exact ⟨idle.returned, idle.breaking⟩
  outer machine _ _ idle := ⟨⟨rfl, rfl⟩, idle.returned, idle.breaking⟩
  plain machine heap calls plain idle :=
    ⟨⟨rfl, (BuildSystem.requestAll_plain _ plain).1⟩, idle.returned, idle.breaking⟩
  fault machine heap calls text plain idle :=
    ⟨⟨rfl, (BuildSystem.requestAll_plain _ plain).1⟩, idle.returned, idle.breaking⟩
  latched ended _ idle := ended idle

/-- What evaluates to a value: an expression, in the script or below calls that are open, and the
call of a function, on an object or on none.
-/
inductive Run.Evaluation : Run Handle → Prop where
  | expression (expr : TypedExpr) : Evaluation (evaluate call expr)
  | expressionWithin (depth : Nat) (expr : TypedExpr)
      : Evaluation (evaluate (callWithin depth) expr)
  | call (function : FunctionId) (self? : Option Handle) (arguments : List Handle)
      : Evaluation (call function self? arguments)
  | callWithin (depth : Nat) (function : FunctionId) (self? : Option Handle)
      (arguments : List Handle)
      : Evaluation (callWithin depth function self? arguments)

/-- Evaluations obey every law whose settings hold well scoped functions only. -/
theorem Run.Evaluation.obeys {action : Run Handle} (evaluation : Evaluation action) (law : Law)
    (inside : law.scoping → ∀ setting, law.admits setting → setting.registry.WellScoped)
    : action.Obeys law .regular := by
  cases evaluation with
  | expression expr => exact .evaluate (Obeys.callAny inside) expr
  | expressionWithin depth expr => exact .evaluate (Obeys.callWithin inside depth) expr
  | call function self? arguments => exact .callAny inside function self? arguments
  | callWithin depth function self? arguments =>
      exact .callWithin inside depth function self? arguments

/-- An evaluation on an idle machine leaves it idle and with the same outline, whether it gives
a value or is stopped, when the functions are well scoped. Witness: the law of restoring.
-/
theorem Run.Evaluation.restores {action : Run Handle} (evaluation : Evaluation action)
    {setting : RunSetting} (inside : setting.registry.WellScoped) {machine : Machine}
    (idle : machine.Idle)
    : SameOutline machine (action setting machine).2 ∧ (action setting machine).2.Idle := by
  have obeyed := evaluation.obeys .restoring (fun _ _ admitted => admitted) setting
    inside machine
  cases outcome : action setting machine with
  | mk result after =>
      rw [outcome] at obeyed
      cases result with
      | ok value => exact obeyed idle
      | error stop => exact obeyed idle

-----------------------------------------------------------------------------------------
-- Accepted programs
-----------------------------------------------------------------------------------------

/-- Evaluation restores the machine. In an accepted program, evaluating an expression or calling
a function on a machine without a pending `return` or `break` leaves as many calls open as
before, as many scopes in each of them, no `return` and no `break` pending, and the build system
in the same directories. This holds whether a value is given or the run is stopped.
-/
theorem Program.Accepted.evaluation_restores {program : Program} (accepted : program.Accepted)
    (limits : Limits) {action : Run Handle} (evaluation : Run.Evaluation action)
    (machine : Machine) (idle : machine.Idle)
    : let after := (action (program.setting limits) machine).2
      after.frames.length = machine.frames.length
      ∧ after.frames.map (·.scopes.length) = machine.frames.map (·.scopes.length)
      ∧ after.returned? = none ∧ after.breaking = false
      ∧ after.store.system.directories = machine.store.system.directories := by
  have inside : (program.setting limits).registry.WellScoped := accepted.wellScoped
  obtain ⟨same, still⟩ := evaluation.restores inside idle
  exact ⟨same.frames, same.scopes, still.returned, still.breaking, same.directories⟩

/-- A script that leaves a loop in a function by `return` and another one by `break`. -/
def leavingText : String :=
  "int first() \x7b while (true) \x7b if (true) \x7b return 1; \x7d \x7d return 0; \x7d
   void main() \x7b while (true) \x7b first(); break; \x7d \x7d"

set_option maxRecDepth 100000 in
/-- The script that leaves loops early is accepted, and its `main` gives a value. -/
theorem Program.ofText?_leavingText
    : ((Program.ofText? leavingText).map fun program =>
        (Run.call program.main none [] (program.setting ⟨10, 10⟩)
          (Machine.ofSystem (BuildSystem.ofRoot "/"))).1.isOk) = some true := by
  decide +kernel

/-- Calling the `main` of a script that leaves loops early restores the machine. -/
theorem Program.Accepted.evaluation_restores_leavingText
    : ∃ (program : Program) (limits : Limits) (machine : Machine),
        Program.ofText? leavingText = some program
        ∧ (Run.call program.main none [] (program.setting limits) machine).1.isOk = true
        ∧ (Run.call program.main none [] (program.setting limits) machine).2.frames.length
          = machine.frames.length
        ∧ (Run.call program.main none [] (program.setting limits) machine).2.returned? = none
        ∧ (Run.call program.main none [] (program.setting limits) machine).2.breaking = false := by
  obtain ⟨program, compiled, ended⟩ := Option.map_eq_some_iff.mp Program.ofText?_leavingText
  obtain ⟨frames, _, returned, breaking, _⟩ :=
    (Program.ofText?_accepted compiled).evaluation_restores ⟨10, 10⟩
      (.call program.main none []) (Machine.ofSystem (BuildSystem.ofRoot "/")) ⟨rfl, rfl⟩
  exact ⟨program, _, _, compiled, ended, frames, returned, breaking⟩

end BuildScript
