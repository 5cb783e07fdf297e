import BuildScript.Proofs.Accepted
import BuildScript.Proofs.Run.Frames
import BuildScript.Proofs.Run.Simulation

/-! The limit on the calls that are open at once only cuts runs off. A run in which it rejects no
call has the same outcome under every higher limit, since the runs go alike.
-/

namespace BuildScript

-----------------------------------------------------------------------------------------
-- Rejected calls
-----------------------------------------------------------------------------------------

namespace Moment

variable {setting : RunSetting}

/-- A rejected call does nothing but report that too many are open, which stops the run. -/
theorem Rejects.stops {moment : Moment} (rejects : moment.Rejects setting)
    : moment.activity.action (Run.caller moment.depth?) setting moment.machine =
        (.error .fatal,
          moment.machine.request (.fatalError Fault.excessiveCallDepth.message)) := by
  obtain ⟨depth, function, self?, arguments, body, begins, scripted⟩ := rejects
  have stopped : Run.callWithin 0 function self? arguments setting moment.machine =
      (.error .fatal,
        moment.machine.request (.fatalError Fault.excessiveCallDepth.message)) := by
    have setting_read : (read : Run RunSetting) setting moment.machine =
        (.ok setting, moment.machine) :=
      rfl
    unfold Run.callWithin
    rw [Run.checked_run, Run.run_bind]
    simp only [setting_read, scripted]
    rfl
  rw [depth, begins]
  show (List.singleton <$> Run.callWithin 0 function self? arguments : Run (List Handle)) _ _ = _
  rw [map_eq_pure_bind, Run.run_bind, stopped]

end Moment

-----------------------------------------------------------------------------------------
-- Runs in two settings
-----------------------------------------------------------------------------------------

/-- (Deepens few many) says that two settings differ in nothing but that more calls may be open in
the second one.
-/
structure RunSetting.Deepens (few many : RunSetting) : Prop where
  environment : many.toEnvironment = few.toEnvironment
  iterations : many.limits.iterations = few.limits.iterations
  callDepth : few.limits.callDepth ≤ many.limits.callDepth

/-- Runs that reject no call, where more calls may be open in the second one. -/
def RunSetting.Deepens.simulation {few many : RunSetting} (deepens : few.Deepens many)
    : Simulation where
  setting := few
  twin := many
  names := id
  holds moment := ¬ moment.Rejects few
  environment := deepens.environment
  iterations := deepens.iterations
  orderly _ _ := .inl rfl

namespace Simulation.Mirrored

variable {few many : RunSetting} (deepens : few.Deepens many) {machine twin : Machine}

/-- Calls from outside of all functions are the same under a higher limit. -/
theorem call : deepens.simulation.CallsMirrored none Run.call := by
  intro function self? arguments machine twin padding? held known mirrors
  refine read (get ?_)
  rw [mirrors.length]
  have deeper := Nat.sub_le_sub_right deepens.callDepth machine.frames.length
  exact callWithin deeper (fun _ _ accepted => accepted) _ _ _ _ _ _ _
    (known.leads (.calls (.within ..))) mirrors

theorem initializeStatics {decls : List TypedVariable}
    (known : deepens.simulation.Known ⟨none, .statics decls, machine, []⟩)
    (mirrors : machine.Mirrors deepens.simulation.names none twin)
    : deepens.simulation.Mirrored none machine twin id (Run.initializeStatics decls)
        (Run.initializeStatics decls) := by
  induction decls generalizing machine twin with
  | nil => exact pure mirrors rfl
  | cons decl rest ih =>
      refine (initialValue (call deepens) (known.leads (.prepares (.static ..))) mirrors).bind
        fun value after twin' initial mirrors => ?_
      exact bind (modified (mirrors.setStatic decl.index value)) fun _ _ _ done mirrors =>
        ih (by cases done; exact known.leads (.prepares (.nextStatic initial rest))) mirrors

theorem initializeGlobals {decls : List TypedVariable}
    (known : deepens.simulation.Known ⟨none, .globals decls, machine, []⟩)
    (mirrors : machine.Mirrors deepens.simulation.names none twin)
    : deepens.simulation.Mirrored none machine twin id (Run.initializeGlobals decls)
        (Run.initializeGlobals decls) := by
  induction decls generalizing machine twin with
  | nil => exact pure mirrors rfl
  | cons decl rest ih =>
      refine (initialValue (call deepens) (known.leads (.prepares (.global ..))) mirrors).bind
        fun value after twin' initial mirrors => ?_
      exact bind (modified (mirrors.setGlobal decl.index value)) fun _ _ _ done mirrors =>
        ih (by cases done; exact known.leads (.prepares (.nextGlobal initial rest))) mirrors

theorem program {program : Program}
    (known : deepens.simulation.Known ⟨none, .run program, machine, []⟩)
    (mirrors : machine.Mirrors deepens.simulation.names none twin)
    : deepens.simulation.Mirrored none machine twin (Handle.rename deepens.simulation.names)
        program.execute program.execute := by
  have prepares : deepens.simulation.Mirrored none machine twin id program.prepare
      program.prepare := by
    unfold Program.prepare
    rw [Run.forM_initializeStatics]
    exact (initializeStatics deepens (known.leads (.prepares (.statics ..))) mirrors).bind
      fun _ _ _ prepared mirrors =>
        initializeGlobals deepens (known.leads (.prepares (.globals prepared))) mirrors
  exact prepares.bind fun _ _ _ prepared mirrors =>
    call deepens _ _ _ _ _ _ _ (known.leads (.prepares (.main prepared))) mirrors

end Simulation.Mirrored

/-- A program whose calls are rejected nowhere runs the same under a higher limit. -/
theorem Run.Alike.program {few many : RunSetting} (deepens : few.Deepens many) {program : Program}
    {machine : Machine}
    (accepted : ∀ moment, Relation.ReflTransGen (Moment.Leads few)
      ⟨none, .run program, machine, []⟩ moment → ¬ moment.Rejects few)
    : program.execute few machine = program.execute many machine := by
  obtain ⟨result, mirrors⟩ := Simulation.Mirrored.program deepens accepted (.refl machine)
  have renamed : Handle.rename deepens.simulation.names = id := funext Handle.rename_id
  rw [renamed] at result
  exact Prod.ext (result.trans (congrFun Except.map_id _)).symm mirrors.eq_of_id.symm

namespace Program

/-- The limit on the calls that are open at once only cuts runs off. In no moment of a run are more
calls open than the limit, and a run that rejects no call at any moment has the same outcome under
every higher limit, with the same machine at its end and so the same calls of the build system.
-/
theorem callDepth_cuts_off (program : Program) (system : BuildSystem) {few many : Nat}
    (iterations : Nat) (more : few ≤ many)
    : (∀ moment, program.Reaches ⟨few, iterations⟩ system moment →
        moment.machine.frames.length ≤ few)
      ∧ ((∀ moment, program.Reaches ⟨few, iterations⟩ system moment →
            ¬ moment.Rejects (program.setting ⟨few, iterations⟩)) →
          program.run ⟨many, iterations⟩ system = program.run ⟨few, iterations⟩ system) := by
  constructor
  · intro moment reached
    exact Nat.le_of_add_right_le reached.spares
  · intro accepted
    have deepens : (program.setting ⟨few, iterations⟩).Deepens
        (program.setting ⟨many, iterations⟩) :=
      ⟨rfl, rfl, more⟩
    exact (Run.Alike.program deepens accepted).symm

/-- A script whose `main` calls a function that calls itself twice. -/
def recursiveText : String :=
  "int down(int n) \x7b if (n == 0) \x7b return 0; \x7d return down(n - 1); \x7d
   int main() \x7b return down(2); \x7d"

set_option maxRecDepth 100000 in
/-- The script above is accepted. It runs to its end if four calls may be open, but not if three. -/
theorem recursive_text
    : ((ofText? recursiveText).map fun program =>
        ((program.run ⟨4, 10⟩ (BuildSystem.ofRoot "/")).1.isOk,
          (program.run ⟨3, 10⟩ (BuildSystem.ofRoot "/")).1.isOk)) = some (true, false) := by
  decide +kernel

/-- Witness: the script above runs the same whether four calls may be open or nine. -/
theorem callDepth_cuts_off_recursive
    : ∃ program, ofText? recursiveText = some program ∧ 4 ≤ 9
        ∧ (∀ moment, program.Reaches ⟨4, 10⟩ (BuildSystem.ofRoot "/") moment →
          ¬ moment.Rejects (program.setting ⟨4, 10⟩))
        ∧ (program.run ⟨4, 10⟩ (BuildSystem.ofRoot "/")).1.isOk = true
        ∧ (program.run ⟨3, 10⟩ (BuildSystem.ofRoot "/")).1.isOk = false
        ∧ program.run ⟨9, 10⟩ (BuildSystem.ofRoot "/") =
          program.run ⟨4, 10⟩ (BuildSystem.ofRoot "/") := by
  obtain ⟨program, compiled, runs⟩ := Option.map_eq_some_iff.mp recursive_text
  obtain ⟨ends, cut⟩ := Prod.ext_iff.mp runs
  have accepted : ∀ moment, program.Reaches ⟨4, 10⟩ (BuildSystem.ofRoot "/") moment →
      ¬ moment.Rejects (program.setting ⟨4, 10⟩) := by
    intro moment reached rejects
    cases ended : (program.run ⟨4, 10⟩ (BuildSystem.ofRoot "/")).1 with
    | ok value => exact reached.not_stops ended (Run.stops_of_error rejects.stops)
    | error stop =>
        simp only [ended] at ends
        exact nomatch ends
  exact ⟨program, compiled, by decide, accepted, ends, cut,
    (program.callDepth_cuts_off (BuildSystem.ofRoot "/") 10 (by decide : 4 ≤ 9)).2 accepted⟩

end Program

end BuildScript
