import BuildScript.Proofs.Run.Hushing
import BuildScript.Proofs.Workspace.Casting
import BuildScript.Proofs.Run.Latching

/-! Runs after a fatal error. What is evaluated first may still make its requests, if it needs no
other value for them. No second expression is evaluated, and the run gives no result.

Scripts that are compiled and run one after the other over one build system. Once a fatal error
has been reported there, no script gives a result any more. What the first expressions in them ask
for is still recorded.
-/

namespace BuildScript

namespace Run

variable {α β : Type} {setting : RunSetting} {ends : BuildSystem → BuildSystem → Prop}

-----------------------------------------------------------------------------------------
-- Expressions
-----------------------------------------------------------------------------------------

theorem bare_of_arity {id : FunctionId} (arity : setting.registry.HasArity id 0)
    : Bare setting id :=
  .inl (List.eq_nil_of_length_eq_zero arity.params)

/-- (CallsHalt setting call) says that functions that need no arguments give no value when they are
called without any.
-/
def CallsHalt (setting : RunSetting) (call : Caller) : Prop :=
  ∀ id self?, Bare setting id → (call id self? []).Halts setting

variable {call : Caller}

/-- After a fatal error no second expression is evaluated. -/
theorem Hushes.evaluateAll {next : List Handle → Run β} {exprs : List TypedExpr}
    (parts : ∀ expr ∈ exprs, (Run.evaluate call expr).Halts setting)
    (follow : exprs = [] → (next []).Hushes setting ends)
    : (Run.evaluateAll call exprs >>= next).Hushes setting ends := by
  cases exprs with
  | nil =>
      rw [Run.evaluateAll, pure_bind]
      exact follow rfl
  | cons first rest =>
      have halts : (Run.evaluateAll call (first :: rest)).Halts setting :=
        halt (parts first List.mem_cons_self) _
      exact halt halts next

theorem Murmurs.construct
    (called : CallsHalt setting call) (type : TypeId)
    {function? : Option FunctionId}
    (bare : ∀ function, function? = some function → Bare setting function)
    : (Run.construct call type function? []).Murmurs setting := by
  cases function? with
  | none => exact (Waits.createDefault type).murmurs
  | some function =>
      have halts (self? : Option Handle) := called function self? (bare function rfl)
      refine Hushes.read ?_
      split
      · exact (halts none).any
      · exact Hushes.bind (Waits.createDefault type) fun object => Hushes.halt (halts _) _

/-- The request to add a directory with a listfile is made, and then there is nothing to do. -/
theorem Murmurs.listfile (type : TypeId) (directory : String)
    : (do
        Run.perform (Effect.request (.addListfileDirectory directory))
        Run.new type .void : Run Handle).Murmurs setting :=
  fun machine _ => (Registry.Unprompted.listfile directory).hushed machine.store.system

/-- After a fatal error an expression makes hushed requests if those in it halt, by cases on its
kind.
-/
theorem Murmurs.evaluateKind
    (called : CallsHalt setting call) (type : TypeId)
    (kind : ExprKind) (parts : ∀ part ∈ kind.parts, (Run.evaluate call part).Halts setting)
    (applies : ∀ function count, kind.applied? = some (function, count) →
      setting.registry.HasArity function count)
    : (Run.evaluateKind call type kind).Murmurs setting := by
  have first {part : TypedExpr} {rest : List TypedExpr} (same : kind.parts = part :: rest)
      : (Run.evaluate call part).Halts setting :=
    parts part (same ▸ List.mem_cons_self)
  cases kind with
  | bool value | int value | double value | string value | enumerator value =>
      exact (Waits.new _ _).murmurs
  | id index name => exact (Waits.variableAt index name).murmurs
  | binary lhs operator function rhs => exact Hushes.halt (first rfl) _
  | unary operator function operand => exact Hushes.halt (first rfl) _
  | ternary condition whenTrue whenFalse => exact Hushes.halt (first rfl) _
  | member object name index => exact Hushes.halt (first rfl) _
  | call function arguments =>
      refine Hushes.evaluateAll parts fun none => ?_
      subst none
      exact (called function none (bare_of_arity (applies _ _ rfl))).any
  | memberCall object function arguments => exact Hushes.halt (first rfl) _
  | implicitCall function arguments =>
      refine Hushes.bind Waits.currentObject fun object => Hushes.evaluateAll parts fun none => ?_
      subst none
      exact (called function (some object) (bare_of_arity (applies _ _ rfl))).any
  | construct function? arguments =>
      refine Hushes.evaluateAll parts fun none => ?_
      subst none
      refine construct called type fun function found => ?_
      subst found
      exact bare_of_arity (applies _ _ rfl)
  | scriptDirectory directory function arguments =>
      refine Hushes.evaluateAll parts fun none => ?_
      subst none
      exact ((called function none (bare_of_arity (applies _ _ rfl))).inDirectory directory).any
  | declarativeDirectory directory function =>
      exact ((called function none (bare_of_arity (applies _ _ rfl))).inDirectory directory).any
  | listfileDirectory directory => exact listfile type directory
  | declarativeFile file function =>
      exact (called function none (bare_of_arity (applies _ _ rfl))).any
  | cast kind inner => exact Hushes.halt (first rfl) _
  | list values =>
      refine Hushes.evaluateAll parts fun _ => Hushes.bind (Waits.pure []) fun elements => ?_
      exact (Waits.new _ _).murmurs
  | designated members =>
      refine Hushes.bind (Waits.createDefault type) fun object => ?_
      cases members with
      | nil => exact Hushes.bind (Waits.pure ()) fun _ => (Waits.pure _).murmurs
      | cons head rest =>
          cases head with
          | mk index value =>
              have halts : (evaluateMembers call object (.mk index value :: rest)).Halts setting :=
                Hushes.halt (first rfl) _
              exact Hushes.halt halts _
  | pending fields => exact (Halts.fail _).any

/-- After a fatal error no expression gives a value, by induction over expressions. -/
theorem Halts.evaluate
    (called : CallsHalt setting call)
    {b : BuiltinTypes} (expr : TypedExpr) (admits : setting.registry.Admits b expr)
    : (Run.evaluate call expr).Halts setting := by
  have step : TypedExpr.Inherited fun expr =>
      setting.registry.Admits b expr → (Run.evaluate call expr).Halts setting := by
    intro kind type span parts admits
    rw [Run.evaluate]
    exact checked (.evaluateKind called type kind
      (fun part among => parts part among (admits.part among))
      (admits.calls _ (.self _)))
  exact step.all expr admits

-----------------------------------------------------------------------------------------
-- Statements and calls
-----------------------------------------------------------------------------------------

namespace Waits

variable {b : BuiltinTypes}

theorem initialValue (called : CallsHalt setting call)
    (decl : TypedVariable)
    (admits : ∀ initial, decl.initial? = some initial → setting.registry.Admits b initial)
    : (Run.initialValue call decl).Waits setting := by
  unfold Run.initialValue
  split
  · next initial found =>
      exact Hushes.halt (Halts.evaluate called initial (admits initial found)) _
  · exact Hushes.bind (createDefault _) fun _ => bindIn _ _

theorem test (called : CallsHalt setting call)
    {condition : TypedExpr} (admits : setting.registry.Admits b condition)
    : (Run.test call condition).Halts setting :=
  Hushes.halt (Halts.evaluate called condition admits) _

theorem inScope {action : Run α} (waits : action.Waits setting)
    : (Run.inScope action).Waits setting :=
  Hushes.enclosed waits (fun _ => rfl) fun _ => rfl

theorem leavesLoop : Run.leavesLoop.Waits setting := by
  intro machine _
  rw [Obeys.leavesLoop_run]
  split <;> rfl

/-- A loop waits when its parts do, by induction over the rounds that it may take. -/
theorem loop {condition : Run Bool} {body step : Run Unit} (tested : condition.Waits setting)
    (done : body.Waits setting) (stepped : step.Waits setting) (rounds : Nat)
    : (Run.loop condition body step rounds).Waits setting := by
  induction rounds with
  | zero => exact exhausted
  | succ rounds ih =>
      refine Hushes.bind tested fun holds => ?_
      split
      · refine Hushes.bind done fun _ => Hushes.bind leavesLoop fun leaves => ?_
        split
        · exact pure ()
        · exact Hushes.bind stepped fun _ => ih
      · exact pure ()

/-- The rounds of a `for` statement after its start, with its condition and step if it has any. -/
theorem rounds (called : CallsHalt setting call)
    (condition? iteration? : Option TypedExpr) {body : Run Unit} (done : body.Waits setting)
    : setting.registry.AdmitsAll b (condition?.toList ++ iteration?.toList) →
      Waits setting (do
        let condition : Run Bool :=
          match condition? with
          | some condition => Run.test call condition
          | none => return true
        let step : Run Unit :=
          match iteration? with
          | some iteration => do
            let _ ← Run.evaluate call iteration
            return ()
          | none => return ()
        Run.loop condition body step (← MonadReader.read).limits.iterations) := by
  intro admits
  obtain ⟨conditions, iterations⟩ := List.forall_mem_append.mp admits
  refine Hushes.read (loop ?_ done ?_ _)
  · cases condition? with
    | none => exact pure true
    | some condition => exact (test called (conditions condition (.head _))).any
  · cases iteration? with
    | none => exact pure ()
    | some iteration =>
        exact Hushes.halt (Halts.evaluate called iteration (iterations iteration (.head _))) _

/-- The first condition is not given a value. -/
theorem executeBranches
    (called : CallsHalt setting call)
    (branches : List TypedBranch) {otherwise : Run Unit} (other : otherwise.Waits setting)
    (admits : setting.registry.AdmitsAll b (TypedBranch.allExprs branches))
    : (Run.executeBranches call otherwise branches).Waits setting := by
  cases branches with
  | nil => exact other
  | cons first rest =>
      cases first with
      | mk condition body =>
          exact Hushes.halt (test called (admits condition (.head _))) _

mutual

/-- After a fatal error a statement waits until an expression is evaluated, by induction over
statements.
-/
theorem execute (called : CallsHalt setting call)
    (stmt : TypedStmt) (admits : setting.registry.AdmitsAll b stmt.exprs)
    : (Run.execute call stmt).Waits setting := by
  cases stmt with
  | expression value =>
      exact Hushes.halt (Halts.evaluate called value (admits value (.head _))) _
  | varDecl decl =>
      exact Hushes.bind
        (initialValue called decl fun initial found => admits initial (Option.mem_toList.mpr found))
        fun value => modified fun machine => by
          unfold Machine.addVariable
          split <;> rfl
  | returnValue value? span =>
      cases value? with
      | none => exact Hushes.bind void fun _ => modified fun _ => rfl
      | some value => exact Hushes.halt (Halts.evaluate called value (admits value (.head _))) _
  | implicitReturn span => exact Hushes.bind void fun _ => modified fun _ => rfl
  | conditional branches otherwise? span =>
      cases otherwise? with
      | none => exact executeBranches called branches (pure ()) admits
      | some body =>
          have both := List.forall_mem_append.mp admits
          exact executeBranches called branches (executeBlock called body both.2) both.1
  | whileLoop condition body span =>
      have both := List.forall_mem_cons.mp admits
      exact Hushes.read
        (loop (test called both.1).any (executeBlock called body both.2) (pure ()) _)
  | forLoop initial? condition? iteration? body span =>
      cases initial? with
      | none =>
          obtain ⟨outer, inner⟩ := List.forall_mem_append.mp admits
          exact inScope (rounds called condition? iteration? (executeBlock called body inner) outer)
      | some initial =>
          obtain ⟨start, others⟩ := List.forall_mem_append.mp admits
          obtain ⟨outer, inner⟩ := List.forall_mem_append.mp others
          exact inScope (Hushes.bind (execute called initial start) fun _ =>
            rounds called condition? iteration? (executeBlock called body inner) outer)
  | breakLoop span => exact modified fun _ => rfl
  | block body => exact executeBlock called body admits
termination_by structural stmt

theorem executeBlock (called : CallsHalt setting call)
    (block : TypedBlock) (admits : setting.registry.AdmitsAll b block.exprs)
    : (Run.executeBlock call block).Waits setting := by
  cases block with
  | mk body span => exact inScope (executeAll called body admits)
termination_by structural block

theorem executeAll (called : CallsHalt setting call)
    (stmts : List TypedStmt) (admits : setting.registry.AdmitsAll b (TypedStmt.allExprs stmts))
    : (Run.executeAll call stmts).Waits setting := by
  cases stmts with
  | nil => exact pure ()
  | cons first rest =>
      have both := List.forall_mem_append.mp admits
      refine Hushes.bind (execute called first both.1) fun _ => Hushes.get fun machine => ?_
      split
      · exact pure ()
      · exact executeAll called rest both.2
termination_by structural stmts

end

theorem inFrame {body : Run Unit} (waits : body.Waits setting) (frame : Frame)
    : (Run.inFrame frame body).Waits setting :=
  Hushes.enclosed (Hushes.bind waits fun _ => Hushes.get fun _ => pure _) (fun _ => rfl)
    fun _ => rfl

theorem callScript (called : CallsHalt setting call)
    {body : TypedBlock} (admits : setting.registry.AdmitsAll b body.exprs) (id : FunctionId)
    (returnType : TypeId) (params : List Param) (self? : Option Handle)
    : (Run.callScript call id returnType params body self? []).Waits setting := by
  have bound : (Run.bindParams params []).Waits setting := by
    cases params with
    | nil => exact pure []
    | cons param params => exact pure []
  refine Hushes.bind bound fun bindings =>
    Hushes.bind (inFrame (executeBlock called body admits) _) fun returned? => ?_
  cases returned? with
  | none => exact Hushes.bind void fun _ => bindIn returnType _
  | some value => exact Hushes.bind (pure value) fun _ => bindIn returnType _

end Waits

variable {b : BuiltinTypes}

/-- A call without arguments gives no value after a fatal error, by induction over the frames that
may be opened.
-/
theorem Halts.callWithin (admits : setting.registry.AdmitsBodies b)
    (ordinary : ∀ id, (setting.registry.function id).isOrdinary = true) (depth : Nat)
    (id : FunctionId) (self? : Option Handle) (bare : Bare setting id)
    : (Run.callWithin depth id self? []).Halts setting := by
  induction depth generalizing id self? with
  | zero =>
      unfold Run.callWithin
      refine checked (Hushes.read ?_)
      dsimp only
      split
      · next operation made => exact Murmurs.operation made (ordinary id) bare self? _
      · next component made => exact Murmurs.componentCreate made
      · exact (fail _).any
      · exact (fail _).any
  | succ depth ih =>
      unfold Run.callWithin
      refine checked (Hushes.read ?_)
      dsimp only
      split
      · next operation made => exact Murmurs.operation made (ordinary id) bare self? _
      · next component made => exact Murmurs.componentCreate made
      · exact (fail _).any
      · next body made =>
          exact (Waits.callScript ih (admits id body made) id
            _ _ self?).murmurs

/-- Calls that count the open frames give no value, either. -/
theorem CallsHalt.callAny (admits : setting.registry.AdmitsBodies b)
    (ordinary : ∀ id, (setting.registry.function id).isOrdinary = true)
    : CallsHalt setting Run.call :=
  fun id self? bare =>
    Hushes.read (Hushes.get fun _ => Halts.callWithin admits ordinary _ id self? bare)

-----------------------------------------------------------------------------------------
-- Programs and reports
-----------------------------------------------------------------------------------------

namespace Waits

/-- After a fatal error a global variable gets no value from an expression, by induction over the
declarations.
-/
theorem initializeGlobals
    (called : CallsHalt setting Run.call)
    (decls : List TypedVariable)
    (admits : ∀ decl ∈ decls, ∀ initial, decl.initial? = some initial →
      setting.registry.Admits b initial)
    : (Run.initializeGlobals decls).Waits setting := by
  induction decls with
  | nil => exact pure ()
  | cons decl rest ih =>
      obtain ⟨first, others⟩ := List.forall_mem_cons.mp admits
      exact Hushes.bind (initialValue called decl first) fun _ =>
        Hushes.bind (modified fun _ => rfl) fun _ => ih others

theorem initializeStatics
    (called : CallsHalt setting Run.call)
    (decls : List TypedVariable)
    (admits : ∀ decl ∈ decls, ∀ initial, decl.initial? = some initial →
      setting.registry.Admits b initial)
    : (Run.initializeStatics decls).Waits setting := by
  induction decls with
  | nil => exact pure ()
  | cons decl rest ih =>
      obtain ⟨first, others⟩ := List.forall_mem_cons.mp admits
      exact Hushes.bind (initialValue called decl first) fun _ =>
        Hushes.bind (modified fun _ => rfl) fun _ => ih others

end Waits

end Run

namespace Program.Accepted

variable {program : Program}

/-- In an accepted program a call without arguments gives no value after a fatal error. -/
theorem calls_halt (accepted : program.Accepted) (limits : Limits)
    : Run.CallsHalt (program.setting limits) Run.call :=
  .callAny accepted.admitsBodies accepted.ordinary

/-- After a fatal error the variables of an accepted program are given no values by expressions,
by induction over its modules.
-/
theorem prepare_waits (accepted : program.Accepted) (limits : Limits)
    : program.prepare.Waits (program.setting limits) := by
  have admits := List.forall_mem_append.mp accepted.admits_initial
  have prepared (modules : List Module)
      (among : ∀ other ∈ modules, other ∈ program.modules)
      : Run.Waits (program.setting limits) (modules.forM fun other =>
          Run.initializeStatics other.scriptUnit.globals) := by
    induction modules with
    | nil => exact Run.Waits.pure ()
    | cons first rest ih =>
        obtain ⟨inFirst, inRest⟩ := List.forall_mem_cons.mp among
        exact Run.Hushes.bind (.initializeStatics (accepted.calls_halt limits) _
          (admits.1 _ (List.mem_map_of_mem inFirst))) fun _ => ih inRest
  exact Run.Hushes.bind (prepared program.modules fun _ => id) fun _ =>
    Run.Waits.initializeGlobals (accepted.calls_halt limits) _ (admits.2 _ (.head _))

/-- After a fatal error an accepted program gives no result. It makes the requests of a single
expression without others in it at most, and enters and leaves the directories around it. Witness:
no second expression is evaluated.
-/
theorem run_hushed (accepted : program.Accepted) (limits : Limits) {system : BuildSystem}
    (failed : system.failed = true)
    : ∃ stop after, program.run limits system = (.error stop, after)
        ∧ program.registry.Hushed system after.store.system := by
  have halts : program.execute.Halts (program.setting limits) :=
    Run.Hushes.bind (accepted.prepare_waits limits) fun _ =>
      accepted.calls_halt limits _ none (.inr accepted.main_script)
  have outcome := halts (Machine.ofSystem system) failed
  change Run.Outcome _ _ _ (program.run limits system) at outcome
  cases ran : program.run limits system with
  | mk result after =>
      rw [ran] at outcome
      cases result with
      | ok value => exact outcome.elim
      | error stop => exact ⟨stop, after, rfl, outcome⟩

end Program.Accepted

namespace BuildSystem

/-- A build system is honest when it has failed if it got the report of a fatal error. -/
def Honest (system : BuildSystem) : Prop :=
  ∀ text, .fatalError text ∈ system.calls.toList → system.failed = true

theorem Honest.request {system : BuildSystem} (honest : system.Honest) (call : BuildCall)
    : (system.request call).Honest := by
  intro text among
  rw [request_calls, Array.toList_push] at among
  rcases List.mem_append.mp among with old | new
  · exact request_failed (honest text old) call
  · rw [← List.mem_singleton.mp new]
    rfl

/-- A build system stays honest, by induction over the requests. -/
theorem Honest.requestAll {system : BuildSystem} (honest : system.Honest) (calls : List BuildCall)
    : (system.requestAll calls).Honest := by
  induction calls generalizing system with
  | nil => exact honest
  | cons call rest ih => exact ih (honest.request call)

end BuildSystem

/-- Every run leaves the build system honest. -/
def Law.honesty : Law where
  admits _ := True
  scoping := False
  ended _ before after := before.store.system.Honest → after.store.system.Honest
  stopped _ before after := before.store.system.Honest → after.store.system.Honest
  refl _ honest := honest
  trans first later honest := later (first honest)
  halt first later honest := later (first honest)
  exhausted _ honest := honest
  statement ended := ended
  resume ended _ := ended
  returning _ _ _ honest := honest
  breaking _ _ _ honest := honest
  broken ended := ended
  scope ended := ended
  scopeStop stopped := stopped
  frame ended := ended
  frameStop stopped := stopped
  directory ended honest := (ended (honest.request _)).request _
  directoryStop stopped honest := (stopped (honest.request _)).request _
  declared machine index handle honest := by
    unfold Machine.addVariable
    split <;> exact honest
  outer _ _ _ honest := honest
  plain _ _ calls _ honest := honest.requestAll calls
  fault _ _ calls _ _ honest := (honest.requestAll calls).request _
  latched ended _ := ended

/-- A run leaves the build system honest. Witness: the law of honesty, which every run obeys. -/
theorem Program.run_honest (program : Program) (limits : Limits) {system : BuildSystem}
    (honest : system.Honest)
    : (program.run limits system).2.store.system.Honest := by
  have obeyed := Run.Obeys.program .honesty program (fun scoping => scoping.elim)
    (program.setting limits) trivial (Machine.ofSystem system)
  change Law.Relates .honesty .regular _ (program.run limits system) at obeyed
  cases outcome : program.run limits system with
  | mk result after =>
      rw [outcome] at obeyed
      cases result with
      | ok value => exact obeyed honest
      | error stop => exact obeyed honest

-----------------------------------------------------------------------------------------
-- Steps
-----------------------------------------------------------------------------------------

namespace Session

/-- One step over a build system: a text or a file is compiled, and run or not, or a program is run
that was compiled before.
-/
inductive Step where
  | compile (source : String)
  | compileFile (name : String)
  | execute (source : String)
  | executeFile (name : String)
  | run (program : Program) (accepted : program.Accepted)

namespace Step

/-- Whether a step only compiles. -/
def compiles : Step → Bool
  | compile _ | compileFile _ => true
  | execute _ | executeFile _ | run .. => false

/-- What a step gives in a session over a build system, with both of them after it. A step that
only compiles gives no result.
-/
def perform (session : Session) (system : BuildSystem) : Step → Option Int64 × Session × BuildSystem
  | compile source => (none, (compileSource source session).2, system)
  | compileFile name => (none, (Session.compileFile name session).2, system)
  | execute source =>
    let ((result?, system), session) := Session.execute (compileSource source) system session
    (result?, session, system)
  | executeFile name =>
    let ((result?, system), session) := Session.execute (Session.compileFile name) system session
    (result?, session, system)
  | run program _ =>
    let (result?, system) := session.run program system
    (result?, session, system)

/-- The program that a step runs in a session, if it runs one: the one that it compiles or the one
that it is given.
-/
def program? (session : Session) : Step → Option Program
  | compile _ | compileFile _ => none
  | execute source => (compileSource source session).1
  | executeFile name => (Session.compileFile name session).1
  | run program _ => some program

/-- The session and the build system after some steps. -/
def performAll (session : Session) (system : BuildSystem) : List Step → Session × BuildSystem
  | [] => (session, system)
  | step :: rest =>
    let (_, session, system) := step.perform session system
    performAll session system rest

variable {session : Session} {system : BuildSystem}

/-- The program that is compiled is executed, and if there is none, nothing happens to the build
system.
-/
theorem execute_cases (compile : StateM Session (Option Program)) (session : Session)
    (system : BuildSystem)
    : (Session.execute compile system session).1 = (none, system)
      ∨ ∃ (ran : Session) (program : Program), (compile session).1 = some program
          ∧ (Session.execute compile system session).1 = ran.run program system := by
  cases outcome : compile session with
  | mk program? after =>
      have same : Session.execute compile system session =
          match program? with
          | none => ((none, system), after)
          | some program => (after.run program system, after) := by
        simp only [Session.execute, bind, StateT.bind, outcome]
        cases program? <;> rfl
      rw [same]
      cases program? with
      | none => exact .inl rfl
      | some program => exact .inr ⟨after, program, rfl, rfl⟩

/-- The program that a step runs is accepted, by cases on the step. -/
theorem accepted_of_program? {step : Step} {program : Program}
    (runs : step.program? session = some program)
    : program.Accepted := by
  cases step with
  | compile source | compileFile name => cases runs
  | execute source => exact compileSource_accepted runs
  | executeFile name => exact compileFile_accepted runs
  | run given accepted =>
      cases runs
      exact accepted

/-- A step leaves the build system alone and gives no result, or it gives what its program does, by
cases on the step.
-/
theorem perform_cases (step : Step) (session : Session) (system : BuildSystem)
    : let given := step.perform session system
      (given.1 = none ∧ given.2.2 = system)
      ∨ step.compiles = false
        ∧ ∃ (ran : Session) (program : Program), step.program? session = some program
          ∧ (given.1, given.2.2) = ran.run program system := by
  cases step with
  | compile source | compileFile name => exact .inl ⟨rfl, rfl⟩
  | execute source =>
      rcases execute_cases (compileSource source) session system with same | ran
      · exact .inl (Prod.mk.inj same)
      · exact .inr ⟨rfl, ran⟩
  | executeFile name =>
      rcases execute_cases (Session.compileFile name) session system with same | ran
      · exact .inl (Prod.mk.inj same)
      · exact .inr ⟨rfl, ran⟩
  | run program accepted => exact .inr ⟨rfl, session, program, rfl, rfl⟩

/-- The build system after a run in a session is the one that the program leaves. -/
theorem run_system (session : Session) (program : Program) (system : BuildSystem)
    : (session.run program system).2 = (program.run session.limits system).2.store.system := by
  unfold Session.run
  split
  · next outcome => rw [outcome]
  · next outcome => rw [outcome]

theorem perform_honest (step : Step) (honest : system.Honest)
    : (step.perform session system).2.2.Honest := by
  rcases step.perform_cases session system with ⟨_, same⟩ | ⟨_, ran, program, _, same⟩
  · rw [same]
    exact honest
  · have reached : (step.perform session system).2.2 = (ran.run program system).2 :=
      congrArg Prod.snd same
    rw [reached, run_system]
    exact program.run_honest ran.limits honest

/-- Steps leave a build system honest, by induction over them. -/
theorem performAll_honest (steps : List Step) (honest : system.Honest)
    : (performAll session system steps).2.Honest := by
  induction steps generalizing session system with
  | nil => exact honest
  | cons step rest ih => exact ih (step.perform_honest honest)

/-- After a fatal error a step gives no result, and the build system gets hushed requests, those
of the program that the step runs, or none.
-/
theorem perform_failed (step : Step) (session : Session) (failed : system.failed = true)
    : let given := step.perform session system
      given.1 = none
      ∧ (given.2.2 = system
        ∨ step.compiles = false
          ∧ ∃ program : Program, step.program? session = some program
            ∧ program.registry.Hushed system given.2.2) := by
  rcases step.perform_cases session system with ⟨none, same⟩ | ⟨goes, ran, program, runs, same⟩
  · exact ⟨none, .inl same⟩
  · obtain ⟨stop, after, outcome, hushed⟩ :=
      (accepted_of_program? runs).run_hushed ran.limits failed
    have stopped : ran.run program system = (none, after.store.system) := by
      rw [Session.run, outcome]
    rw [stopped] at same
    obtain ⟨none, reached⟩ := Prod.mk.inj same
    exact ⟨none, .inr ⟨goes, program, runs, reached ▸ hushed⟩⟩

theorem failed_of_perform (step : Step) (session : Session) (failed : system.failed = true)
    : (step.perform session system).2.2.failed = true := by
  rcases (step.perform_failed session failed).2 with same | ⟨_, _, _, hushed⟩
  · rw [same]
    exact failed
  · exact hushed.failed failed

/-- A failed build system stays so, by induction over the steps. -/
theorem failed_of_performAll (steps : List Step) (failed : system.failed = true)
    : (performAll session system steps).2.failed = true := by
  induction steps generalizing session system with
  | nil => exact failed
  | cons step rest ih => exact ih (step.failed_of_perform session failed)

theorem performAll_singleton (step : Step)
    : performAll session system [step] = (step.perform session system).2 :=
  rfl

theorem performAll_append (first later : List Step)
    : performAll session system (first ++ later) =
        performAll (performAll session system first).1 (performAll session system first).2
          later := by
  induction first generalizing session system with
  | nil => rfl
  | cons step rest ih => exact ih

/-- After a fatal error only first expressions are heard. Once some steps have reported a fatal
error to a build system that was new, no later step gives a result, and the build system stays
failed. A step that only compiles makes no request. One that runs a program makes those of one
expression of it without others in it at most, after it has entered some directories, and then it
leaves these. Witness: no second expression is evaluated.
-/
theorem murmur_after_failure (session : Session) {system : BuildSystem} (new : system.calls = #[])
    (first later : List Step) (step : Step) {text : String}
    (reported : .fatalError text ∈ (performAll session system first).2.calls.toList)
    : let before := performAll session system (first ++ later)
      let given := step.perform before.1 before.2
      given.1 = none ∧ given.2.2.failed = true
      ∧ (given.2.2 = before.2
        ∨ step.compiles = false
          ∧ ∃ program : Program, step.program? before.1 = some program ∧ program.Accepted
            ∧ ∃ (directories : List String) (actions : List BuildCall),
                program.registry.Unprompted actions
                ∧ given.2.2.calls.toList = before.2.calls.toList
                    ++ (directories.map .enterDirectory ++ actions
                      ++ List.replicate directories.length .leaveDirectory)) := by
  have honest : system.Honest := by
    intro text among
    rw [new] at among
    cases among
  have failed : (performAll session system (first ++ later)).2.failed = true := by
    rw [performAll_append]
    exact failed_of_performAll later (performAll_honest first honest text reported)
  obtain ⟨none, requests⟩ := step.perform_failed
    (performAll session system (first ++ later)).1 failed
  refine ⟨none, step.failed_of_perform _ failed, requests.imp_right ?_⟩
  rintro ⟨goes, program, runs, calls, ⟨directories, actions, unprompted, rfl⟩, reached⟩
  refine ⟨goes, program, runs, accepted_of_program? runs, directories, actions, unprompted, ?_⟩
  rw [reached]
  exact BuildSystem.requestAll_calls _ _

/-- A script that reports a fatal error. -/
def reportingText : String := "int main() \x7b cmake::fatal_error(\"boom\"); return 0; \x7d"

/-- A script whose first expression enables tests. -/
def testingText : String := "int main() \x7b cmake::enable_ctest(); return 0; \x7d"

set_option maxRecDepth 100000 in
/-- The first expression of a script is still heard after another script has reported a fatal error
to the same build system.
-/
theorem performAll_reporting
    : (performAll (.start Config.standard fun _ => none) (.ofRoot ".")
        ([.execute reportingText] ++ [.execute testingText])).2.calls
      = #[.fatalError "boom", .enableCtest] := by
  decide +kernel

set_option maxRecDepth 100000 in
/-- The first script reports its fatal error. -/
theorem performAll_reporting_first
    : (performAll (.start Config.standard fun _ => none) (.ofRoot ".")
        [.execute reportingText]).2.calls = #[.fatalError "boom"] := by
  decide +kernel

/-- It is not so that no step makes a request once a fatal error has been reported. -/
theorem not_silent_after_failure
    : ¬ ∀ (session : Session) (system : BuildSystem), system.calls = #[] →
        ∀ (first later : List Step) (step : Step) (text : String),
          .fatalError text ∈ (performAll session system first).2.calls.toList →
          let before := performAll session system (first ++ later)
          (step.perform before.1 before.2).2.2.calls = before.2.calls := by
  intro silent
  have same := silent (.start Config.standard fun _ => none) (.ofRoot ".") rfl
    [.execute reportingText] [] (.execute testingText) "boom"
    (by rw [performAll_reporting_first]; exact .head _)
  have both := performAll_reporting
  rw [performAll_append, performAll_singleton] at both
  exact nomatch both.symm.trans (same.trans performAll_reporting_first)

/-- After one script has reported a fatal error, another one gives no result, and the request to
enable tests in its first expression is recorded.
-/
theorem murmur_after_failure_testingText
    : ∃ (before : Session × BuildSystem) (program : Program) (actions : List BuildCall),
        let given := perform before.1 before.2 (.execute testingText)
        .fatalError "boom" ∈ before.2.calls.toList
        ∧ given.1 = none ∧ given.2.2.failed = true
        ∧ (execute testingText).program? before.1 = some program
        ∧ program.registry.Unprompted actions ∧ .enableCtest ∈ actions
        ∧ given.2.2.calls = #[.fatalError "boom", .enableCtest] := by
  have reported : .fatalError "boom" ∈ (performAll (.start Config.standard fun _ => none)
      (.ofRoot ".") [.execute reportingText]).2.calls.toList := by
    rw [performAll_reporting_first]
    exact .head _
  obtain ⟨none, failed, heard⟩ := murmur_after_failure (.start Config.standard fun _ => none)
    (show (BuildSystem.ofRoot ".").calls = #[] from rfl) [.execute reportingText] []
    (.execute testingText) reported
  have both := performAll_reporting
  rw [performAll_append, performAll_singleton] at both
  have first := performAll_reporting_first
  rw [List.append_nil] at none failed heard
  rcases heard with same | ⟨_, program, runs, _, directories, actions, unprompted, calls⟩
  · rw [same, first] at both
    cases both
  · refine ⟨_, program, actions, reported, none, failed, runs, unprompted, ?_, both⟩
    -- The request is none of those to enter directories and to leave them.
    rw [both, first] at calls
    have enabled : [.enableCtest] = directories.map .enterDirectory ++ actions
        ++ List.replicate directories.length .leaveDirectory :=
      (List.cons.inj calls).2
    have among : .enableCtest ∈ directories.map .enterDirectory ++ actions
        ++ List.replicate directories.length .leaveDirectory :=
      enabled ▸ List.mem_singleton_self _
    simpa using among

end Step

end Session

end BuildScript
