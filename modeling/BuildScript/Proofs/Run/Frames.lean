import BuildScript.Proofs.Run.Lawfulness
import BuildScript.Proofs.Run.Moments

/-! The calls that are open at the moments of a run. What is done closes every call that it opens,
and of those that were open it changes the variables at most. So the calls that are open and those
that may still be opened are never more than the limit.
-/

namespace BuildScript

-----------------------------------------------------------------------------------------
-- What is done
-----------------------------------------------------------------------------------------

/-- A law of the calls that are open. It is closed under what happens to the innermost one, and what
it says of several calls it says of those below the innermost one.
-/
structure FrameLaw where
  keeps : List Frame → List Frame → Prop
  refl : ∀ frames, keeps frames frames
  trans : ∀ {before middle after}, keeps before middle → keeps middle after → keeps before after
  enterScope : ∀ machine : Machine, keeps machine.frames machine.enterScope.frames
  leaveScope : ∀ machine : Machine, keeps machine.frames machine.leaveScope.frames
  addVariable : ∀ (machine : Machine) index handle,
    keeps machine.frames (machine.addVariable index handle).frames
  below : ∀ {frame before after}, keeps (frame :: before) after → keeps before after.tail

/-- What is done keeps the calls that were open by a law of them, whether or not it comes to its
end.
-/
def Law.ofFrames (law : FrameLaw) : Law where
  admits _ := True
  scoping := False
  ended _ before after := law.keeps before.frames after.frames
  stopped _ before after := law.keeps before.frames after.frames
  refl _ := law.refl _
  trans := law.trans
  halt := law.trans
  exhausted _ := law.refl _
  statement ended := ended
  resume ended _ := ended
  returning _ _ _ := law.refl _
  breaking _ _ _ := law.refl _
  broken ended := ended
  scope ended := law.trans (law.trans (law.enterScope _) ended) (law.leaveScope _)
  scopeStop stopped := law.trans (law.trans (law.enterScope _) stopped) (law.leaveScope _)
  frame := law.below
  frameStop := law.below
  directory ended := ended
  directoryStop stopped := stopped
  declared := law.addVariable
  outer _ _ _ := law.refl _
  plain _ _ _ _ := law.refl _
  fault _ _ _ _ _ := law.refl _
  latched ended _ := ended

namespace Run

variable {law : Law} {depth? : Option Nat} {α : Type}

namespace Obeys

/-- Calls obey every law that takes no account of signals. -/
theorem caller (unscoped : ¬ law.scoping) (function : FunctionId) (self? : Option Handle)
    (arguments : List Handle)
    : (Run.caller depth? function self? arguments).Obeys law .regular := by
  cases depth? with
  | none => exact callAny (fun scoping => absurd scoping unscoped) function self? arguments
  | some depth =>
      exact callWithin (fun scoping => absurd scoping unscoped) depth function self? arguments

/-- Statements obey such a law as if they were no statements. -/
theorem ofStmt (unscoped : ¬ law.scoping) (stmt : TypedStmt)
    : (Run.execute (Run.caller depth?) stmt).Obeys law .regular :=
  (execute (caller unscoped) false stmt fun scoping => absurd scoping unscoped).resume unscoped

theorem ofBlock (unscoped : ¬ law.scoping) (block : TypedBlock)
    : (Run.executeBlock (Run.caller depth?) block).Obeys law .regular :=
  (executeBlock (caller unscoped) false block fun scoping => absurd scoping unscoped).resume
    unscoped

theorem conditionOf {call : Caller}
    (called : ∀ id self? arguments, (call id self? arguments).Obeys law .regular)
    (condition? : Option TypedExpr)
    : (Run.condition call condition?).Obeys law .regular := by
  cases condition? with
  | none => exact .pure true
  | some condition => exact test called condition

theorem condition (unscoped : ¬ law.scoping) (condition? : Option TypedExpr)
    : (Run.condition (Run.caller depth?) condition?).Obeys law .regular :=
  conditionOf (caller unscoped) condition?

theorem stepOf {call : Caller}
    (called : ∀ id self? arguments, (call id self? arguments).Obeys law .regular)
    (iteration? : Option TypedExpr)
    : (Run.step call iteration?).Obeys law .regular := by
  cases iteration? with
  | none => exact .pure ()
  | some iteration => exact (evaluate called iteration).bind fun _ => .pure ()

theorem step (unscoped : ¬ law.scoping) (iteration? : Option TypedExpr)
    : (Run.step (Run.caller depth?) iteration?).Obeys law .regular :=
  stepOf (caller unscoped) iteration?

/-- Everything that is done obeys such a law, by cases on what it is. -/
theorem activity (unscoped : ¬ law.scoping) (activity : Activity)
    : (activity.action (Run.caller depth?)).Obeys law .regular := by
  have called := @caller law depth? unscoped
  have never {goal : Prop} (scoping : law.scoping) : goal := absurd scoping unscoped
  have mapped {α β : Type} {change : α → β} {action : Run α} (obeys : action.Obeys law .regular)
      : (change <$> action).Obeys law .regular := by
    rw [map_eq_pure_bind]
    exact obeys.bind fun _ => .pure _
  cases activity with
  | evaluate expr => exact mapped (evaluate called expr)
  | evaluateAll exprs => exact evaluateAll called exprs
  | ownAll values => exact mapped (mapM own values)
  | setMembers object members => exact mapped (evaluateMembers called object members)
  | call function self? arguments => exact mapped (called function self? arguments)
  | bindParams params arguments => exact mapped (bindParams params arguments)
  | bind type value => exact mapped (bindIn type value)
  | initial decl => exact mapped (initialValue called decl)
  | execute stmt => exact mapped (ofStmt unscoped stmt)
  | executeAll stmts => exact mapped ((executeAll called false stmts never).resume unscoped)
  | executeBlock block => exact mapped (ofBlock unscoped block)
  | executeBranches branches otherwise? =>
      refine mapped ((executeBranches called false branches ?_ never).resume unscoped)
      cases otherwise? with
      | none => exact (Obeys.pure ()).statement
      | some body => exact executeBlock called false body never
  | loop condition? iteration? body rounds =>
      refine mapped (@Obeys.resume _ law _ false ?_ unscoped)
      exact loop (condition unscoped condition?) (executeBlock called true body never)
        (step unscoped iteration?) rounds
  | statics decls => exact mapped (initializeStatics never decls)
  | globals decls => exact mapped (initializeGlobals never decls)
  | run program => exact mapped (.program law program never)
  | rest => exact .pure []

/-- An action keeps the calls that were open. -/
theorem keeps {law : FrameLaw} {action : Run α} {ending : Ending}
    (obeys : action.Obeys (.ofFrames law) ending) {setting : RunSetting} {machine after : Machine}
    {result : Except Stop α} (outcome : action setting machine = (result, after))
    : law.keeps machine.frames after.frames := by
  have obeyed := obeys setting trivial machine
  rw [outcome] at obeyed
  cases result <;> exact obeyed

end Obeys

end Run

-----------------------------------------------------------------------------------------
-- Moments
-----------------------------------------------------------------------------------------

namespace Moment

variable {setting : RunSetting} {before after : Moment}

/-- (Keeps law before after) says that as many more calls may be opened at two moments, and that
those that are open at the first one are kept.
-/
structure Keeps (law : FrameLaw) (before after : Moment) : Prop where
  depth? : after.depth? = before.depth?
  frames : law.keeps before.machine.frames after.machine.frames

/-- What leads on in the evaluation of expressions opens no call, by cases on it. -/
theorem Evaluates.keeps (law : FrameLaw) (step : Evaluates setting before after)
    : Keeps law before after := by
  have called {depth? : Option Nat} := @Run.Obeys.caller (.ofFrames law) depth? id
  have createDefault (type : TypeId) := @Run.Obeys.createDefault (.ofFrames law) type
  have own (value : Handle) := @Run.Obeys.own (.ofFrames law) value
  have same (frames : List Frame) := law.refl frames
  cases step with
  | operands | first | member => exact ⟨rfl, same _⟩
  | next evaluated => exact ⟨rfl, (Run.Obeys.evaluate called _).keeps evaluated⟩
  | choice tested => exact ⟨rfl, (Run.Obeys.test called _).keeps tested⟩
  | @call depth? kind machine after values function self? arguments evaluated =>
      have kept := (Run.Obeys.evaluateAll called _).keeps evaluated
      cases kind with
      | _ => exact ⟨rfl, kept⟩
  | perform evaluated => exact ⟨rfl, (Run.Obeys.evaluateAll called _).keeps evaluated⟩
  | construct evaluated _ made =>
      exact ⟨rfl, law.trans ((Run.Obeys.evaluateAll called _).keeps evaluated)
        ((createDefault _).keeps made)⟩
  | elements evaluated => exact ⟨rfl, (Run.Obeys.evaluateAll called _).keeps evaluated⟩
  | owned owns => exact ⟨rfl, (own _).keeps owns⟩
  | members made => exact ⟨rfl, (createDefault _).keeps made⟩
  | memberOwned evaluated => exact ⟨rfl, (Run.Obeys.evaluate called _).keeps evaluated⟩
  | memberSet evaluated owns set =>
      have set := (@Run.Obeys.setMember (.ofFrames law) _ _ _).keeps set
      exact ⟨rfl, law.trans (law.trans ((Run.Obeys.evaluate called _).keeps evaluated)
        ((own _).keeps owns)) set⟩

/-- What leads on in the execution of statements opens no call, by cases on it. -/
theorem Executes.keeps (law : FrameLaw) (step : Executes setting before after)
    : Keeps law before after := by
  have called {depth? : Option Nat} := @Run.Obeys.caller (.ofFrames law) depth? id
  have tests {depth? : Option Nat} := @Run.Obeys.condition (.ofFrames law) depth? id
  have executes {depth? : Option Nat} := @Run.Obeys.ofStmt (.ofFrames law) depth? id
  have runs {depth? : Option Nat} := @Run.Obeys.ofBlock (.ofFrames law) depth? id
  have createDefault (type : TypeId) := @Run.Obeys.createDefault (.ofFrames law) type
  have leaves : Run.leavesLoop.Obeys (.ofFrames law) .regular := by
    intro setting _ machine
    rw [Run.Obeys.leavesLoop_run]
    split <;> exact law.refl _
  cases step with
  | initial | expression | varDecl | returnValue | conditional | condition | otherwise | whileLoop
  | loopCondition | block | first => exact ⟨rfl, law.refl _⟩
  | forInitial | forLoop | body => exact ⟨rfl, law.enterScope _⟩
  | bindInitial _ evaluated => exact ⟨rfl, (Run.Obeys.evaluate called _).keeps evaluated⟩
  | bindDefault _ made => exact ⟨rfl, (createDefault _).keeps made⟩
  | branch tested | nextBranch tested => exact ⟨rfl, (Run.Obeys.test called _).keeps tested⟩
  | forLoopAfter executed =>
      exact ⟨rfl, law.trans (law.enterScope _) ((executes _).keeps executed)⟩
  | loopBody holds => exact ⟨rfl, (tests _).keeps holds⟩
  | loopStep holds executed stays =>
      exact ⟨rfl, law.trans (law.trans ((tests _).keeps holds) ((runs _).keeps executed))
        (leaves.keeps stays)⟩
  | loopAgain holds executed stays stepped =>
      have stepped := (@Run.Obeys.step (.ofFrames law) _ id _).keeps stepped
      exact ⟨rfl, law.trans (law.trans (law.trans ((tests _).keeps holds)
        ((runs _).keeps executed)) (leaves.keeps stays)) stepped⟩
  | next executed => exact ⟨rfl, (executes _).keeps executed⟩

/-- What leads on outside of all functions opens no call, by cases on it. -/
theorem Prepares.keeps (law : FrameLaw) (step : Prepares setting before after)
    : Keeps law before after := by
  have never {goal : Prop} (scoping : (Law.ofFrames law).scoping) : goal := nomatch scoping
  have begins := Run.Obeys.initialValue (@Run.Obeys.callAny (.ofFrames law) never)
  cases step with
  | statics | static | global => exact ⟨rfl, law.refl _⟩
  | nextStatic initial | nextGlobal initial =>
      have kept := (begins _).keeps initial
      exact ⟨rfl, kept⟩
  | globals prepared => exact ⟨rfl, (Run.Obeys.initializeStatics never _).keeps prepared⟩
  | main prepared => exact ⟨rfl, (Run.Obeys.prepare _ never).keeps prepared⟩

/-- What is done leaves no call open. -/
theorem Rests.keeps (law : FrameLaw) (step : Rests setting before after)
    : Keeps law before after := by
  cases step with
  | ended outcome | stopped outcome =>
      exact ⟨rfl, (@Run.Obeys.activity (.ofFrames law) _ id _).keeps outcome⟩

/-- A call whose body has been executed keeps the calls that were open. -/
theorem keeps_result (law : FrameLaw) {depth : Nat} {function : FunctionId} {block : TypedBlock}
    {self? returned? : Option Handle} {paramList : List Param} {arguments : List Handle}
    {params : Bindings} {machine before middle after : Machine} {value : Handle}
    (bound : Run.bindParams paramList arguments setting machine = (.ok params, before))
    (executed : Run.inFrame ⟨function, [], params, self?⟩
      (Run.executeBlock (Run.callWithin depth) block) setting before = (.ok returned?, middle))
    (returned : (match returned? with
      | some value => pure value
      | none => Run.void : Run Handle) setting middle = (.ok value, after))
    : law.keeps machine.frames after.frames := by
  have never {goal : Prop} (scoping : (Law.ofFrames law).scoping) : goal := nomatch scoping
  have body := @Run.Obeys.executeBlock (.ofFrames law) (Run.callWithin depth)
    (Run.Obeys.callWithin never depth) false block never
  have gave : law.keeps middle.frames after.frames := by
    cases returned? with
    | none => exact (@Run.Obeys.void (.ofFrames law)).keeps returned
    | some result => exact (@Run.Obeys.pure _ (.ofFrames law) result).keeps returned
  have first := (@Run.Obeys.bindParams (.ofFrames law) paramList arguments).keeps bound
  exact law.trans (law.trans first ((body.inFrame _).keeps executed)) gave

end Moment

-----------------------------------------------------------------------------------------
-- The limit
-----------------------------------------------------------------------------------------

namespace Machine

@[simp] theorem length_frames_enterScope (machine : Machine)
    : machine.enterScope.frames.length = machine.frames.length := by
  cases frames : machine.frames <;> simp [enterScope, onFrame, frames]

@[simp] theorem length_frames_leaveScope (machine : Machine)
    : machine.leaveScope.frames.length = machine.frames.length := by
  cases frames : machine.frames <;> simp [leaveScope, onFrame, frames]

@[simp] theorem length_frames_addVariable (machine : Machine) (index : Nat) (handle : Handle)
    : (machine.addVariable index handle).frames.length = machine.frames.length := by
  unfold addVariable
  split
  · rfl
  · next frame rest found => rw [found, List.length_cons, List.length_cons]

end Machine

/-- What is done leaves as many calls open as there were. -/
def FrameLaw.count : FrameLaw where
  keeps before after := after.length = before.length
  refl _ := rfl
  trans first later := later.trans first
  enterScope := Machine.length_frames_enterScope
  leaveScope := Machine.length_frames_leaveScope
  addVariable := Machine.length_frames_addVariable
  below kept := List.length_tail.trans (congrArg (· - 1) kept)

namespace Moment

variable {setting : RunSetting} {before after : Moment}

/-- (Spares limit moment) says that the calls that are open at a moment and those that may still be
opened are not more than a limit. Outside of all functions, as many as the limit may be opened.
-/
def Spares (limit : Nat) (moment : Moment) : Prop :=
  moment.machine.frames.length + moment.depth?.getD limit ≤ limit

theorem Keeps.spares {limit : Nat} (keeps : Keeps .count before after)
    (spares : before.Spares limit)
    : after.Spares limit := by
  unfold Spares
  rwa [keeps.depth?, show _ = _ from keeps.frames]

/-- What leads on in a call opens at most one of those that may still be opened, by cases on it. -/
theorem Calls.spares (step : Calls setting before after)
    (spares : before.Spares setting.limits.callDepth)
    : after.Spares setting.limits.callDepth := by
  unfold Spares at spares ⊢
  cases step with
  | within => simp only [Option.getD_none, Option.getD_some] at spares ⊢; omega
  | params => simp only [Option.getD_some] at spares ⊢; omega
  | param => exact spares
  | nextParam bound =>
      have same : _ = _ := (@Run.Obeys.bindIn (.ofFrames .count) _ _).keeps bound
      rwa [same]
  | body scripted bound =>
      have same : _ = _ := (@Run.Obeys.bindParams (.ofFrames .count) _ _).keeps bound
      simp only [Option.getD_some, List.length_cons] at spares ⊢
      omega
  | result scripted bound executed returned held =>
      have same : _ = _ := keeps_result .count bound executed returned
      simp only [Option.getD_some] at spares ⊢
      omega

/-- What leads on opens only calls that may still be opened. -/
theorem Leads.spares (step : Leads setting before after)
    (spares : before.Spares setting.limits.callDepth)
    : after.Spares setting.limits.callDepth := by
  cases step with
  | evaluates step => exact (step.keeps .count).spares spares
  | executes step => exact (step.keeps .count).spares spares
  | calls step => exact step.spares spares
  | prepares step => exact (step.keeps .count).spares spares
  | rests step => exact (step.keeps .count).spares spares

end Moment

/-- No moment of a run has more calls open than the limit, by induction over what leads to it. -/
theorem Program.Reaches.spares {program : Program} {limits : Limits} {system : BuildSystem}
    {moment : Moment} (reached : program.Reaches limits system moment)
    : moment.Spares limits.callDepth := by
  induction reached with
  | refl => exact Nat.le_of_eq (Nat.zero_add _)
  | tail _ step ih => exact step.spares ih

end BuildScript
