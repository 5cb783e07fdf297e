import BuildScript.Proofs.Run.AcceptedFaults
import BuildScript.Proofs.Run.Placement
import BuildScript.Proofs.Run.Frames
import BuildScript.Proofs.Workspace.Casting
import BuildScript.Proofs.Workspace.Functions

/-! The parameters of the calls that are open at the moments of a run. A call that a script makes
gives its function as many arguments as it has parameters, so that each of them is bound. Only the
run itself calls `main` without regard to its parameters.
-/

namespace BuildScript

-----------------------------------------------------------------------------------------
-- Frames
-----------------------------------------------------------------------------------------

/-- A variable that is bound once is so when one is set. -/
theorem Bindings.count_set {bindings : Bindings} {index : Nat} (changed : Nat) (handle : Handle)
    (once : bindings.indices.count index = 1)
    : (Bindings.set bindings changed handle).indices.count index = 1 := by
  rw [indices_set]
  by_cases same : index = changed
  · subst same
    have gone : index ∉ bindings.indices.filter (· != index) := fun among => by
      simpa using (List.mem_filter.mp among).2
    rw [List.count_cons_self, List.count_eq_zero.mpr gone]
  · rw [List.count_cons_of_ne (Ne.symm same), List.count_filter (by simpa using same)]
    exact once

/-- One frame keeps another one when it is of the same function and still binds what was bound
once.
-/
structure Frame.Keeps (before after : Frame) : Prop where
  function : after.function = before.function
  once : ∀ index, before.params.indices.count index = 1 → after.params.indices.count index = 1

namespace Frame.Keeps

theorem refl (frame : Frame) : Keeps frame frame := ⟨rfl, fun _ => id⟩

theorem all_refl (frames : List Frame) : List.Forall₂ Keeps frames frames :=
  List.forall₂_same.mpr fun frame _ => refl frame

theorem trans {before middle after : Frame} (first : Keeps before middle)
    (later : Keeps middle after)
    : Keeps before after :=
  ⟨later.function.trans first.function, fun index once => later.once index (first.once index once)⟩

theorem all_trans {before middle after : List Frame} (first : List.Forall₂ Keeps before middle)
    (later : List.Forall₂ Keeps middle after)
    : List.Forall₂ Keeps before after := by
  induction first generalizing after with
  | nil => exact later
  | cons head _ ih =>
      cases later with
      | cons next rest => exact .cons (head.trans next) (ih rest)

/-- A change of the innermost call alone keeps all of them if it keeps that one. -/
theorem onFrame {change : Frame → Frame} (kept : ∀ frame, Keeps frame (change frame))
    (machine : Machine)
    : List.Forall₂ Keeps machine.frames (machine.onFrame change).frames := by
  unfold Machine.onFrame
  cases machine.frames with
  | nil => exact .nil
  | cons frame rest => exact .cons (kept frame) (all_refl rest)

theorem addVariable (frame : Frame) (index : Nat) (handle : Handle)
    : Keeps frame (frame.addVariable index handle) := by
  unfold Frame.addVariable
  split
  · exact ⟨rfl, fun _ once => Bindings.count_set index handle once⟩
  · exact ⟨rfl, fun _ => id⟩

end Frame.Keeps

/-- What is done leaves the parameters bound that were bound once. -/
def FrameLaw.params : FrameLaw where
  keeps := List.Forall₂ Frame.Keeps
  refl := Frame.Keeps.all_refl
  trans := Frame.Keeps.all_trans
  enterScope := Frame.Keeps.onFrame fun _ => ⟨rfl, fun _ => id⟩
  leaveScope := Frame.Keeps.onFrame fun _ => ⟨rfl, fun _ => id⟩
  addVariable machine index handle := by
    unfold Machine.addVariable
    split
    · next none =>
        rw [none]
        exact .nil
    · next frame rest found =>
        rw [found]
        exact .cons (.addVariable frame index handle) (Frame.Keeps.all_refl rest)
  below kept := by
    cases kept with
    | cons _ rest => exact rest

/-- A call binds its parameters when it binds each parameter of its function once. -/
def Frame.Binds (registry : Registry) (frame : Frame) : Prop :=
  ∀ param ∈ (registry.function frame.function).params, frame.params.indices.count param.index = 1

/-- (BindsFrames program frames) says that all calls bind their parameters, except that one of
`main` may not if it is the outermost one.
-/
def Program.BindsFrames (program : Program) : List Frame → Prop
  | [] => True
  | frame :: rest =>
    (frame.Binds program.registry ∨ frame.function = program.main ∧ rest = [])
      ∧ program.BindsFrames rest

variable {program : Program}

theorem Frame.Keeps.binds {registry : Registry} {before after : Frame}
    (keeps : before.Keeps after) (binds : before.Binds registry)
    : after.Binds registry := by
  intro param among
  rw [keeps.function] at among
  exact keeps.once _ (binds param among)

/-- A parameter that the innermost call binds is found. -/
theorem Frame.Binds.lookup {registry : Registry} {frame : Frame} (binds : frame.Binds registry)
    {machine : Machine} (innermost : machine.frames.head? = some frame) {param : Param}
    (among : param ∈ (registry.function frame.function).params)
    : (machine.lookup? param.index).isSome = true := by
  have bound : param.index ∈ frame.params.indices :=
    List.count_pos_iff.mp (binds param among ▸ Nat.one_pos)
  have found := Bindings.lookup_isSome_iff.mpr bound
  simp [Machine.lookup?, innermost, Frame.lookup?, found]

/-- Calls that are kept go on to bind their parameters, by induction over them. -/
theorem Program.BindsFrames.kept {before after : List Frame} (binds : program.BindsFrames before)
    (keeps : FrameLaw.params.keeps before after)
    : program.BindsFrames after := by
  induction keeps with
  | nil => trivial
  | cons head rest ih =>
      obtain ⟨first, others⟩ := binds
      refine ⟨first.imp head.binds ?_, ih others⟩
      rintro ⟨main, rfl⟩
      cases rest
      exact ⟨head.function.trans main, rfl⟩

/-- As many arguments as there are parameters are bound to all of them, by induction over them. -/
theorem Run.indices_bindParams {setting : RunSetting} {params : List Param}
    {arguments : List Handle} {machine after : Machine} {bindings : Bindings}
    (bound : Run.bindParams params arguments setting machine = (.ok bindings, after))
    (enough : arguments.length = params.length)
    : bindings.indices = params.map (·.index) := by
  induction params generalizing arguments machine bindings with
  | nil =>
      cases bound
      rfl
  | cons param params ih =>
      cases arguments with
      | nil => cases enough
      | cons argument arguments =>
          rw [Run.bindParams] at bound
          obtain ⟨value, middle, _, bound⟩ := of_bind bound
          obtain ⟨rest, last, later, bound⟩ := of_bind bound
          cases bound
          exact congrArg (param.index :: ·) (ih later (Nat.succ.inj enough))

-----------------------------------------------------------------------------------------
-- Activities
-----------------------------------------------------------------------------------------

/-- The outermost expressions in what begins. Those of a whole program are left aside. -/
def Activity.exprs : Activity → List TypedExpr
  | evaluate expr => [expr]
  | evaluateAll exprs => exprs
  | setMembers _ members => members.map MemberValue.value
  | initial decl => decl.initial?.toList
  | execute stmt => stmt.exprs
  | executeAll stmts => TypedStmt.allExprs stmts
  | executeBlock block => block.exprs
  | executeBranches branches otherwise? =>
    TypedBranch.allExprs branches ++ otherwise?.elim [] TypedBlock.exprs
  | loop condition? iteration? body _ =>
    condition?.toList ++ iteration?.toList ++ body.exprs
  | statics decls | globals decls => decls.flatMap (·.initial?.toList)
  | ownAll _ | call .. | bindParams .. | bind .. | run _ | rest => []

/-- (Fits program frames activity) says that a call which begins gives its function as many
arguments as it has parameters, unless it is the one of `main` outside of all calls.
-/
def Activity.Fits (program : Program) (frames : List Frame) : Activity → Prop
  | call function _ arguments =>
    arguments.length = (program.registry.function function).params.length
      ∨ function = program.main ∧ frames = []
  | run other => other = program ∧ frames = []
  | _ => True

/-- The operands of an expression are right inside of it. -/
theorem ExprKind.operands_subset (kind : ExprKind) : kind.operands ⊆ kind.parts := by
  cases kind with
  | ternary condition whenTrue whenFalse =>
      exact List.cons_subset.mpr ⟨.head _, List.nil_subset _⟩
  | _ => first | exact List.Subset.refl _ | exact List.nil_subset _

theorem Run.length_evaluateAll {setting : RunSetting} {call : Caller} {exprs : List TypedExpr}
    {machine after : Machine} {values : List Handle}
    (evaluated : Run.evaluateAll call exprs setting machine = (.ok values, after))
    : values.length = exprs.length := by
  induction exprs generalizing machine values with
  | nil =>
      cases evaluated
      rfl
  | cons first rest ih =>
      rw [Run.evaluateAll] at evaluated
      obtain ⟨value, middle, _, evaluated⟩ := of_bind evaluated
      obtain ⟨later, last, others, evaluated⟩ := of_bind evaluated
      cases evaluated
      exact congrArg (· + 1) (ih others)

/-- What an expression calls gets as many arguments as are given to it, by cases on its kind. -/
theorem ExprKind.applied?_of_call? {kind : ExprKind} {current? self? : Option Handle}
    {values arguments : List Handle} {function : FunctionId}
    (calls : kind.call? current? values = some (function, self?, arguments))
    (enough : values.length = kind.operands.length)
    : kind.applied? = some (function, arguments.length) := by
  cases kind with
  | binary | unary | memberCall =>
      obtain ⟨object, first, same⟩ := Option.map_eq_some_iff.mp calls
      cases values with
      | nil => cases first
      | cons value rest =>
          cases same
          rw [List.tail_cons, Nat.succ.inj enough]
          rfl
  | implicitCall =>
      obtain ⟨object, _, same⟩ := Option.map_eq_some_iff.mp calls
      cases same
      rw [enough]
      rfl
  | call | scriptDirectory | declarativeDirectory | declarativeFile =>
      cases calls
      rw [enough]
      rfl
  | _ => cases calls

-----------------------------------------------------------------------------------------
-- Moments
-----------------------------------------------------------------------------------------

/-- At a moment all calls bind their parameters, and what begins makes calls that will: those in its
expressions are admitted, and so is the one that it makes itself.
-/
structure Moment.Binds (program : Program) (moment : Moment) : Prop where
  frames : program.BindsFrames moment.machine.frames
  admits : program.registry.AdmitsAll Prelude.standard.builtins moment.activity.exprs
  fits : moment.activity.Fits program moment.machine.frames

namespace Moment

variable {limits : Limits} {before after : Moment}

/-- What leads on in the evaluation of expressions gives as many arguments as are needed. -/
theorem Evaluates.binds (step : Evaluates (program.setting limits) before after)
    (binds : before.Binds program)
    : after.Binds program := by
  refine ⟨binds.frames.kept (step.keeps .params).frames, ?admits, ?fits⟩
  case admits =>
    have admits := binds.admits
    cases step with
    | operands depth? kind type span machine held =>
        exact fun operand among => (admits _ (.head _)).part (kind.operands_subset among)
    | first | member => exact .single (admits _ (.head _))
    | next _ rest held => exact fun expr among => admits expr (.tail _ among)
    | @choice depth? condition machine after value tested whenTrue whenFalse type span held =>
        refine .single ((admits _ (.head _)).part ?_)
        cases value with
        | true => exact .tail _ (.head _)
        | false => exact .tail _ (.tail _ (.head _))
    | members made values span held =>
        exact fun value among => (admits _ (.head _)).part among
    | memberSet _ _ _ rest held => exact fun expr among => admits expr (.tail _ among)
    | call | perform | construct | elements | owned | memberOwned => exact .nil
  case fits =>
    have arity {kind : ExprKind} {type : TypeId} {span : Span} {function : FunctionId}
        {count : Nat} (admits : program.registry.AdmitsAll Prelude.standard.builtins
          [.mk kind type span])
        (applied : kind.applied? = some (function, count))
        : count = (program.registry.function function).params.length :=
      ((admits _ (.head _)).calls _ (.self _) function count applied).params.symm
    cases step with
    | call evaluated calls type span held =>
        exact .inl (arity binds.admits
          (ExprKind.applied?_of_call? calls (Run.length_evaluateAll evaluated)))
    | perform evaluated | construct evaluated =>
        rw [Activity.Fits, Run.length_evaluateAll evaluated]
        exact .inl (arity binds.admits rfl)
    | _ => trivial

/-- The expressions that are executed next are among those that were before, by cases on what leads
on.
-/
theorem Executes.exprs_subset {setting : RunSetting} (step : Executes setting before after)
    : after.activity.exprs ⊆ before.activity.exprs := by
  cases step with
  | initial given =>
      rw [Activity.exprs, Activity.exprs, given]
      exact List.Subset.refl _
  | bindInitial | bindDefault => exact List.nil_subset _
  | expression | varDecl | returnValue | whileLoop | forLoop | block | body | loopAgain =>
      exact List.Subset.refl _
  | conditional depth? branches otherwise? span machine held =>
      cases otherwise? with
      | none => exact List.append_subset.mpr ⟨List.Subset.refl _, List.nil_subset _⟩
      | some body => exact List.Subset.refl _
  | condition | loopCondition => exact List.cons_subset.mpr ⟨.head _, List.nil_subset _⟩
  | branch =>
      exact fun expr among => List.mem_append_left _ (.tail _ (List.mem_append_left _ among))
  | nextBranch =>
      exact List.append_subset.mpr
        ⟨fun expr among => List.mem_append_left _ (.tail _ (List.mem_append_right _ among)),
          List.subset_append_right _ _⟩
  | otherwise => exact List.subset_append_right _ _
  | forInitial => exact List.subset_append_left _ _
  | forLoopAfter => exact List.subset_append_right _ _
  | loopBody => exact List.subset_append_right _ _
  | loopStep =>
      exact fun expr among => List.mem_append_left _ (List.mem_append_right _ among)
  | first => exact List.subset_append_left _ _
  | next => exact List.subset_append_right _ _

/-- What leads on in the execution of statements gives as many arguments as are needed. -/
theorem Executes.binds (step : Executes (program.setting limits) before after)
    (binds : before.Binds program)
    : after.Binds program := by
  refine ⟨binds.frames.kept (step.keeps .params).frames,
    fun expr among => binds.admits expr (step.exprs_subset among), ?_⟩
  cases step <;> trivial

/-- A call that begins binds its parameters when it gets as many arguments, and its body is that of
a function.
-/
theorem Calls.binds (step : Calls (program.setting limits) before after)
    (accepted : program.Accepted) (binds : before.Binds program)
    : after.Binds program := by
  obtain ⟨frames, admits, fits⟩ := binds
  cases step with
  | within => exact ⟨frames, admits, fits⟩
  | params | param => exact ⟨frames, .nil, trivial⟩
  | nextParam bound =>
      exact ⟨frames.kept ((@Run.Obeys.bindIn (.ofFrames .params) _ _).keeps bound), .nil, trivial⟩
  | @body function block arguments params machine after scripted bound depth self? held =>
      have kept := (@Run.Obeys.bindParams (.ofFrames .params) _ _).keeps bound
      refine ⟨⟨fits.imp (fun enough param among => ?_) ?_, frames.kept kept⟩,
        accepted.admitsBodies function block scripted, trivial⟩
      · rw [show params.indices = _ from Run.indices_bindParams bound enough]
        exact List.count_eq_one_of_mem
          (Program.numbersAt_nodup accepted.numbers_nodup (.params function))
          (List.mem_map_of_mem among)
      · rintro ⟨main, outside⟩
        rw [outside] at kept
        exact ⟨main, List.forall₂_nil_left_iff.mp kept⟩
  | result _ bound executed returned =>
      exact ⟨frames.kept (keeps_result .params bound executed returned), .nil, trivial⟩

/-- The variables outside of functions begin with admitted values, and then the run calls `main`
outside of all calls.
-/
theorem Prepares.binds (step : Prepares (program.setting limits) before after)
    (accepted : program.Accepted) (binds : before.Binds program)
    : after.Binds program := by
  have frames := binds.frames.kept (step.keeps .params).frames
  have begins (decls : List TypedVariable) (admits : ∀ decl ∈ decls, ∀ initial,
      decl.initial? = some initial → program.registry.Admits Prelude.standard.builtins initial)
      : program.registry.AdmitsAll Prelude.standard.builtins
          (decls.flatMap (·.initial?.toList)) := by
    intro initial among
    obtain ⟨decl, declared, found⟩ := List.mem_flatMap.mp among
    exact admits decl declared initial (Option.mem_toList.mp found)
  have globals := List.forall_mem_append.mp accepted.admits_initial
  cases step with
  | statics other machine =>
      obtain ⟨rfl, _⟩ := binds.fits
      refine ⟨frames, begins _ fun decl declared => ?_, trivial⟩
      obtain ⟨loaded, among, declared⟩ := List.mem_flatMap.mp declared
      exact globals.1 _ (List.mem_map_of_mem among) decl declared
  | @globals other machine after prepared =>
      obtain ⟨rfl, _⟩ := binds.fits
      exact ⟨frames, begins _ (globals.2 _ (.head _)), trivial⟩
  | static | global =>
      exact ⟨frames, fun expr among => binds.admits expr (List.mem_append_left _ among), trivial⟩
  | nextStatic | nextGlobal =>
      exact ⟨frames, fun expr among => binds.admits expr (List.mem_append_right _ among), trivial⟩
  | @main other machine after prepared =>
      obtain ⟨rfl, outside⟩ := binds.fits
      have kept := (Prepares.main prepared).keeps .params
      refine ⟨frames, .nil, .inr ⟨rfl, ?_⟩⟩
      have none := kept.frames
      rw [outside] at none
      exact List.forall₂_nil_left_iff.mp none

theorem Leads.binds (step : Leads (program.setting limits) before after)
    (accepted : program.Accepted) (binds : before.Binds program)
    : after.Binds program := by
  cases step with
  | evaluates step => exact step.binds binds
  | executes step => exact step.binds binds
  | calls step => exact step.binds accepted binds
  | prepares step => exact step.binds accepted binds
  | rests step =>
      have frames := binds.frames.kept (step.keeps .params).frames
      cases step with
      | ended | stopped => exact ⟨frames, .nil, trivial⟩

end Moment

namespace Program

/-- Calls bind their parameters at every moment of a run, by induction over what leads to it. -/
theorem Reaches.binds {limits : Limits} {system : BuildSystem} {moment : Moment}
    (reached : program.Reaches limits system moment) (accepted : program.Accepted)
    : moment.Binds program := by
  induction reached with
  | refl => exact ⟨trivial, .nil, rfl, rfl⟩
  | tail _ step ih => exact step.binds accepted ih

/-- Only the outermost call may leave its parameters unbound, and only if it is one of `main`, by
induction over the calls.
-/
theorem BindsFrames.binds_or_main {frames : List Frame} (binds : program.BindsFrames frames)
    : ∀ frame ∈ frames, frame.Binds program.registry
        ∨ frame.function = program.main ∧ frames.getLast? = some frame := by
  induction frames with
  | nil => exact fun frame none => absurd none List.not_mem_nil
  | cons first rest ih =>
      obtain ⟨own, others⟩ := binds
      refine List.forall_mem_cons.mpr ⟨own.imp_right ?_, fun frame among => ?_⟩
      · rintro ⟨main, rfl⟩
        exact ⟨main, rfl⟩
      · refine (ih others frame among).imp_right (And.imp_right fun last => ?_)
        rw [List.getLast?_cons, last, Option.getD_some]

/-- Calls bind their parameters. At every moment of a run of an accepted program, every call that is
open binds each parameter of its function exactly once. There is one exception, the call by which
the run begins `main`: it is the outermost one. In the innermost call a parameter is found, so that
no parameter is reported to be used before it was initialised, unless it is one of that call of
`main`. Witness: the run gives every function but `main` as many arguments as it has parameters.
-/
theorem Reaches.params_bound_once {limits : Limits} {system : BuildSystem} {moment : Moment}
    (reached : program.Reaches limits system moment) (accepted : program.Accepted)
    : (∀ frame ∈ moment.machine.frames,
        (∀ param ∈ (program.registry.function frame.function).params,
          frame.params.indices.count param.index = 1)
        ∨ frame.function = program.main ∧ moment.machine.frames.getLast? = some frame)
      ∧ ∀ frame outer, moment.machine.frames = frame :: outer →
          frame.function ≠ program.main ∨ outer ≠ [] →
          ∀ param ∈ (program.registry.function frame.function).params,
            (moment.machine.lookup? param.index).isSome = true := by
  have frames := (reached.binds accepted).frames
  refine ⟨frames.binds_or_main, fun frame outer opened called param among => ?_⟩
  rw [opened] at frames
  have binds : frame.Binds program.registry := by
    refine frames.1.resolve_right ?_
    rintro ⟨main, outermost⟩
    exact called.elim (· main) (· outermost)
  exact binds.lookup (by rw [opened]; rfl) among

/-- The moment of a run at which the body of a function begins that `main` calls in order to return
its result, after its first statement.
-/
def insideCall? (program : Program) (limits : Limits) (system : BuildSystem) : Option Moment :=
  (program.insideMain? limits system).bind fun moment =>
    match moment with
    | ⟨some (depth + 1),
        .executeAll (.returnValue (some (.mk (.call function exprs) _ _)) _ :: _), machine, []⟩ =>
      match Run.evaluateAll (Run.callWithin (depth + 1)) exprs (program.setting limits) machine,
        (program.registry.function function).body with
      | (.ok arguments, evaluated), .script (some block) =>
        match Run.bindParams (program.registry.function function).params arguments
          (program.setting limits) evaluated with
        | (.ok params, bound) =>
          some ⟨some depth, .executeBlock block,
            { bound with frames := ⟨function, [], params, none⟩ :: bound.frames }, []⟩
        | _ => none
      | _, _ => none
    | _ => none

/-- A run comes to the moment at which the body of such a function begins. -/
theorem reaches_insideCall {limits : Limits} {system : BuildSystem} {moment : Moment}
    (inside : program.insideCall? limits system = some moment)
    : program.Reaches limits system moment := by
  obtain ⟨start, inMain, inside⟩ := Option.bind_eq_some_iff.mp inside
  have reached := reaches_insideMain inMain
  split at inside
  · next depth function exprs type span other rest machine =>
    split at inside
    · next _ _ arguments evaluated block outcome scripted =>
      have outcome : Run.evaluateAll (Run.caller (some (depth + 1))) exprs
          (program.setting limits) machine = (.ok arguments, evaluated) :=
        outcome
      split at inside
      · next _ params bound given =>
        cases inside
        have returned := ((reached.tail (.executes (.first _ _ _ _ _))).tail
          (.executes (.returnValue _ _ _ _ _)))
        have called := returned.tail (.evaluates (.call outcome rfl type span []))
        exact called.tail (.calls (.body scripted given depth none []))
      · cases inside
    · cases inside
  · cases inside

/-- A script whose `main` returns what a function with two parameters gives. -/
def passingText : String :=
  "int add(int a, int b) \x7b return a + b; \x7d "
    ++ "int main() \x7b int c = 1; return add(c, 2); \x7d"

set_option maxRecDepth 100000 in
/-- The script above is accepted, and its run calls the function. -/
theorem passing_text
    : ((ofText? passingText).bind fun program =>
        (program.insideCall? ⟨20, 20⟩ (BuildSystem.ofRoot "/")).map fun moment =>
          moment.machine.frames.map fun frame =>
            (program.registry.function frame.function).params.map (·.name))
      = some [["a", "b"], []] := by
  decide +kernel

/-- Witness: in the call of a function with two parameters, both are bound once and are found. -/
theorem Reaches.params_bound_once_passing
    : ∃ program moment frame outer, ofText? passingText = some program ∧ program.Accepted
        ∧ program.Reaches ⟨20, 20⟩ (BuildSystem.ofRoot "/") moment
        ∧ moment.machine.frames = frame :: outer ∧ outer ≠ []
        ∧ (program.registry.function frame.function).params.map (·.name) = ["a", "b"]
        ∧ ∀ param ∈ (program.registry.function frame.function).params,
            frame.params.indices.count param.index = 1
            ∧ (moment.machine.lookup? param.index).isSome = true := by
  obtain ⟨program, compiled, found⟩ := Option.bind_eq_some_iff.mp passing_text
  obtain ⟨moment, inside, names⟩ := Option.map_eq_some_iff.mp found
  have accepted := ofText?_accepted compiled
  have reached := reaches_insideCall inside
  obtain ⟨once, bound⟩ := reached.params_bound_once accepted
  match frames : moment.machine.frames with
  | [frame, outer] =>
      rw [frames] at names once
      obtain ⟨inner, last⟩ := List.cons.inj names
      have notLast : frame ≠ outer := by
        rintro rfl
        exact nomatch inner.symm.trans (List.cons.inj last).1
      have binds := (once frame (.head _)).resolve_right fun ⟨_, same⟩ =>
        notLast (Option.some.inj same).symm
      exact ⟨program, moment, frame, [outer], compiled, accepted, reached, frames,
        List.cons_ne_nil _ _, inner, fun param among => ⟨binds param among,
          bound frame [outer] frames (.inr (List.cons_ne_nil _ _)) param among⟩⟩
  | [] | [_] | _ :: _ :: _ :: _ => simp [frames] at names

/-- A script whose `main` has a parameter. -/
def takingText : String := "int main(int x) \x7b return x; \x7d"

/-- Whether a run comes to the body of `main`. -/
def beginsMain (program : Program) (limits : Limits) (system : BuildSystem) : Bool :=
  match program.prepare (program.setting limits) (Machine.ofSystem system),
    (program.registry.function program.main).body with
  | (.ok _, prepared), .script (some _) => prepared.frames.length < limits.callDepth
  | _, _ => false

theorem exists_of_beginsMain {limits : Limits} {system : BuildSystem}
    (begins : program.beginsMain limits system = true)
    : ∃ moment frame, program.Reaches limits system moment ∧ frame ∈ moment.machine.frames
        ∧ frame.function = program.main ∧ frame.params = [] := by
  unfold beginsMain at begins
  split at begins
  · next _ prepared block outcome scripted =>
    obtain ⟨depth, limit⟩ := Nat.exists_eq_add_of_lt (of_decide_eq_true begins)
    have within : limits.callDepth - prepared.frames.length = depth + 1 := by omega
    exact ⟨_, _, reaches_main outcome scripted within, .head _, rfl, rfl⟩
  · cases begins

set_option maxRecDepth 100000 in
/-- The script above is accepted, its `main` is begun, and reading its parameter stops the run. -/
theorem taking_text
    : ((ofText? takingText).map fun program =>
        ((program.registry.function program.main).params.map (·.name),
          program.beginsMain ⟨20, 20⟩ (BuildSystem.ofRoot "/"),
          decide (program.StopsBy (.uninitializedName "x")))) = some (["x"], true, true) := by
  decide +kernel

/-- The `main` of an accepted program may have parameters. When the run begins it, none of them is
bound, so that reading one stops the run.
-/
theorem Accepted.leaves_params_unbound
    : ∃ program, ofText? takingText = some program ∧ program.Accepted
        ∧ (program.registry.function program.main).params.map (·.name) = ["x"]
        ∧ (∃ moment frame, program.Reaches ⟨20, 20⟩ (BuildSystem.ofRoot "/") moment
          ∧ frame ∈ moment.machine.frames ∧ frame.function = program.main ∧ frame.params = [])
        ∧ program.StopsBy (.uninitializedName "x") := by
  obtain ⟨program, compiled, found⟩ := Option.map_eq_some_iff.mp taking_text
  obtain ⟨names, rest⟩ := Prod.mk.inj found
  obtain ⟨begins, stops⟩ := Prod.mk.inj rest
  exact ⟨program, compiled, ofText?_accepted compiled, names, exists_of_beginsMain begins,
    of_decide_eq_true stops⟩

end Program

end BuildScript
