import BuildScript.Proofs.Run.Law
import BuildScript.Proofs.Typed.Parts

/-! Every run obeys every law. Expressions and statements obey it when the calls in them do, by
induction over scripts, and calls obey it by induction over the frames that may be opened.
-/

namespace BuildScript

namespace Run.Obeys

variable {law : Law} {call : Caller} {ending : Ending} {α β : Type}

-----------------------------------------------------------------------------------------
-- Expressions
-----------------------------------------------------------------------------------------

theorem valueOf (handle : Handle) : (Run.valueOf handle).Obeys law .regular :=
  get fun _ => .pure _

theorem createDefault (type : TypeId) : (Run.createDefault type).Obeys law .regular :=
  read fun _ _ => perform ((Effect.Asks.onHeap _).map _)

theorem own (handle : Handle) : (Run.own handle).Obeys law .regular := by
  cases handle with
  | owned cell => exact .pure _
  | reference cell base? => exact perform ((Effect.Asks.onHeap (Heap.copy cell)).map _)

theorem bindIn (type : TypeId) (handle : Handle) : (Run.bind type handle).Obeys law .regular := by
  refine read fun setting _ => ?_
  split
  · exact .pure _
  · exact own handle

theorem new (type : TypeId) (value : Value) : (Run.new type value).Obeys law .regular :=
  perform (.new type value)

theorem void : Run.void.Obeys law .regular := perform .void

theorem variableAt (index : Nat) (name : String)
    : (Run.variableAt index name).Obeys law .regular := by
  refine get fun machine => ?_
  split
  · exact .pure _
  · exact fail _

theorem memberOf (object : Handle) (name : String) (index : Nat)
    : (Run.memberOf object name index).Obeys law .regular := by
  refine (valueOf object).bind fun value => ?_
  split
  · exact .pure _
  · exact fail _

theorem currentObject : Run.currentObject.Obeys law .regular := by
  refine get fun machine => ?_
  split
  · exact .pure _
  · exact fail _

theorem copySeen (handle : Handle) : (Run.copySeen handle).Obeys law .regular :=
  read fun _ _ => perform ((Effect.Asks.onHeap _).map _)

theorem cast (kind : CastKind) (type : TypeId) (handle : Handle)
    : (Run.cast kind type handle).Obeys law .regular := by
  refine read fun setting _ => ?_
  cases kind with
  | reference | baseReference => exact .pure _
  | value => exact copySeen handle
  | baseValue => exact perform ((Effect.Asks.onHeap _).map _)

theorem setMember (object : Handle) (index : Nat) (value : Handle)
    : (Run.setMember object index value).Obeys law .regular := by
  refine (valueOf object).bind fun whole => ?_
  split
  · exact .pure _
  · exact perform (.setValue object _)

theorem construct (called : ∀ id self? arguments, (call id self? arguments).Obeys law .regular)
    (type : TypeId) (function? : Option FunctionId) (arguments : List Handle)
    : (Run.construct call type function? arguments).Obeys law .regular := by
  cases function? with
  | none => exact createDefault type
  | some function =>
      refine read fun setting _ => ?_
      split
      · exact called _ _ _
      · exact (createDefault type).bind fun object => (called _ _ _).bind fun _ => .pure object

/-- Actions on the elements of a list obey a law together, by induction over the list. -/
theorem mapM {action : α → Run β} (obeys : ∀ element, (action element).Obeys law .regular)
    (elements : List α)
    : (elements.mapM action).Obeys law .regular := by
  induction elements with
  | nil => exact .pure []
  | cons first rest ih =>
      rw [List.mapM_cons]
      exact (obeys first).bind fun _ => ih.bind fun _ => .pure _

mutual

/-- Evaluating an expression obeys every law that calls obey, by induction over expressions. -/
theorem evaluate (called : ∀ id self? arguments, (call id self? arguments).Obeys law .regular)
    (expr : TypedExpr)
    : (Run.evaluate call expr).Obeys law .regular := by
  cases expr with
  | mk kind type span =>
      rw [Run.evaluate]
      exact (evaluateKind called type kind).checked
termination_by structural expr

theorem evaluateKind
    (called : ∀ id self? arguments, (call id self? arguments).Obeys law .regular)
    (type : TypeId) (kind : ExprKind)
    : (Run.evaluateKind call type kind).Obeys law .regular := by
  cases kind with
  | bool value | int value | double value | string value | enumerator value => exact new _ _
  | id index name => exact variableAt index name
  | binary lhs operator function rhs =>
      exact (evaluate called lhs).bind fun _ => (evaluate called rhs).bind fun _ => called _ _ _
  | unary operator function operand =>
      exact (evaluate called operand).bind fun _ => called _ _ _
  | ternary condition whenTrue whenFalse =>
      refine (evaluate called condition).bind fun _ => (valueOf _).bind fun value => ?_
      split
      · exact evaluate called whenTrue
      · exact evaluate called whenFalse
  | member object name index =>
      exact (evaluate called object).bind fun _ => memberOf _ name index
  | call function arguments =>
      exact (evaluateAll called arguments).bind fun _ => called _ _ _
  | memberCall object function arguments =>
      exact (evaluate called object).bind fun _ =>
        (evaluateAll called arguments).bind fun _ => called _ _ _
  | implicitCall function arguments =>
      exact currentObject.bind fun _ => (evaluateAll called arguments).bind fun _ => called _ _ _
  | construct function? arguments =>
      exact (evaluateAll called arguments).bind fun _ => construct called type function? _
  | scriptDirectory directory function arguments =>
      exact (evaluateAll called arguments).bind fun _ => (called _ _ _).inDirectory directory
  | declarativeDirectory directory function => exact (called _ _ _).inDirectory directory
  | listfileDirectory directory =>
      exact (perform (.request rfl)).bind fun _ => new _ _
  | declarativeFile file function => exact called _ _ _
  | cast kind inner => exact (evaluate called inner).bind fun _ => cast kind type _
  | list values =>
      exact (evaluateAll called values).bind fun _ => (mapM own _).bind fun _ => new _ _
  | designated members =>
      exact (createDefault type).bind fun object =>
        (evaluateMembers called object members).bind fun _ => .pure object
  | pending fields => exact fail _
termination_by structural kind

theorem evaluateAll
    (called : ∀ id self? arguments, (call id self? arguments).Obeys law .regular)
    (exprs : List TypedExpr)
    : (Run.evaluateAll call exprs).Obeys law .regular := by
  cases exprs with
  | nil => exact .pure []
  | cons first rest =>
      exact (evaluate called first).bind fun _ => (evaluateAll called rest).bind fun _ => .pure _
termination_by structural exprs

theorem evaluateMembers
    (called : ∀ id self? arguments, (call id self? arguments).Obeys law .regular)
    (object : Handle) (members : List MemberValue)
    : (Run.evaluateMembers call object members).Obeys law .regular := by
  cases members with
  | nil => exact .pure ()
  | cons first rest =>
      cases first with
      | mk index value =>
          exact (evaluate called value).bind fun _ => (own _).bind fun _ =>
            (setMember object index _).bind fun _ => evaluateMembers called object rest
termination_by structural members

end

-----------------------------------------------------------------------------------------
-- Statements
-----------------------------------------------------------------------------------------

theorem initialValue
    (called : ∀ id self? arguments, (call id self? arguments).Obeys law .regular)
    (decl : TypedVariable)
    : (Run.initialValue call decl).Obeys law .regular := by
  unfold Run.initialValue
  split
  · exact (evaluate called _).bind fun _ => bindIn _ _
  · exact (createDefault _).bind fun _ => bindIn _ _

theorem test (called : ∀ id self? arguments, (call id self? arguments).Obeys law .regular)
    (condition : TypedExpr)
    : (Run.test call condition).Obeys law .regular :=
  (evaluate called condition).bind fun _ => (valueOf _).bind fun _ => .pure _

/-- A statement and what follows it unless it is interrupted obey a law together. -/
theorem unlessInterrupted {first rest : Run Unit} {inLoop : Bool}
    (start : first.Obeys law (.interruptible inLoop))
    (follow : rest.Obeys law (.interruptible inLoop))
    : Obeys law (.interruptible inLoop) (do
        first
        if interrupted (← MonadState.get) then return () else rest) := by
  intro setting admitted machine
  rw [run_bind]
  cases outcome : first setting machine with
  | mk result middle =>
      cases result with
      | error stop => exact start.error admitted outcome
      | ok value =>
          have started := start.ok admitted outcome
          show law.Relates _ machine
            ((if interrupted middle = true then Pure.pure () else rest : Run Unit) setting middle)
          cases signalled : interrupted middle with
          | true => exact started
          | false =>
              exact (follow setting admitted middle).after (law.resume started (.inl signalled))

/-- What a loop does about the signals of its body: a `break` is done with. -/
theorem leavesLoop_run (setting : RunSetting) (machine : Machine)
    : leavesLoop setting machine =
        if machine.breaking then (.ok true, { machine with breaking := false })
        else (.ok machine.returned?.isSome, machine) := by
  unfold leavesLoop
  rw [run_bind]
  show (if machine.breaking = true then _ else _ : Run Bool) setting machine = _
  split <;> rfl

/-- A loop takes up the signals of its body: it obeys a law when its parts do, by induction over
the rounds that it may take.
-/
theorem loop {condition : Run Bool} {body step : Run Unit} {inLoop : Bool}
    (tested : condition.Obeys law .regular) (done : body.Obeys law (.interruptible true))
    (stepped : step.Obeys law .regular) (rounds : Nat)
    : (Run.loop condition body step rounds).Obeys law (.interruptible inLoop) := by
  induction rounds with
  | zero => exact .exhausted
  | succ rounds ih =>
      rw [Run.loop]
      refine tested.bind fun holds => ?_
      cases holds with
      | false => exact (Obeys.pure ()).statement
      | true =>
          intro setting admitted machine
          simp only [↓reduceIte]
          rw [run_bind]
          cases outcome : body setting machine with
          | mk result middle =>
              cases result with
              | error stop => exact done.error admitted outcome
              | ok value =>
                  have reached := done.ok admitted outcome
                  simp only
                  rw [run_bind, leavesLoop_run]
                  cases broken : middle.breaking with
                  | true => exact law.broken reached
                  | false =>
                      cases returned : middle.returned?.isSome with
                      | true =>
                          have same : { middle with breaking := false } = middle := by
                            rw [← broken]
                          have ended := @law.broken inLoop _ _ reached
                          rwa [same] at ended
                      | false =>
                          have resumed := law.resume reached (.inl (by
                            simp only [interrupted, broken, returned, Bool.or_false]))
                          exact ((stepped.bind fun _ => ih) setting admitted middle).after resumed

/-- The loop of a `for` statement after its start, with its condition and step if it has any. -/
theorem loopOf (called : ∀ id self? arguments, (call id self? arguments).Obeys law .regular)
    (condition? iteration? : Option TypedExpr) {body : Run Unit}
    (done : body.Obeys law (.interruptible true)) (inLoop : Bool)
    : Obeys law (.interruptible inLoop) (do
        let condition : Run Bool :=
          match condition? with
          | some condition => Run.test call condition
          | none => return true
        let step : Run Unit :=
          match iteration? with
          | some iteration => do
            let _ ← Run.evaluate call iteration
            return ()
          | none => return ()
        Run.loop condition body step (← MonadReader.read).limits.iterations) := by
  refine read fun setting _ => loop ?_ done ?_ _
  · cases condition? with
    | none => exact .pure true
    | some condition => exact test called condition
  · cases iteration? with
    | none => exact .pure ()
    | some iteration => exact (evaluate called iteration).bind fun _ => .pure ()

/-- A declaration gives its variable a value. -/
theorem declare (called : ∀ id self? arguments, (call id self? arguments).Obeys law .regular)
    (decl : TypedVariable)
    : (Run.execute call (.varDecl decl)).Obeys law .regular :=
  (initialValue called decl).bind fun value =>
    modified fun machine => law.declared machine decl.index value

/-- What a loop may start with leaves no signal. -/
theorem begin (called : ∀ id self? arguments, (call id self? arguments).Obeys law .regular)
    {stmt : TypedStmt} (initial : stmt.isInitial = true)
    : (Run.execute call stmt).Obeys law .regular := by
  cases stmt with
  | expression value => exact (evaluate called value).bind fun _ => .pure ()
  | varDecl decl => exact declare called decl
  | _ => exact nomatch initial

mutual

/-- Executing a statement obeys every law that calls obey, by induction over statements. -/
theorem execute (called : ∀ id self? arguments, (call id self? arguments).Obeys law .regular)
    (inLoop : Bool) (stmt : TypedStmt) (inside : law.scoping → stmt.wellScoped inLoop = true)
    : (Run.execute call stmt).Obeys law (.interruptible inLoop) := by
  cases stmt with
  | expression value => exact ((evaluate called value).bind fun _ => .pure ()).statement
  | varDecl decl => exact (declare called decl).statement
  | returnValue value? span =>
      have returned (value : Handle) : Obeys law (.interruptible inLoop)
          (MonadState.modifyGet fun machine : Machine =>
            ((), { machine with returned? := some value })) :=
        modified fun machine => law.returning inLoop machine value
      cases value? with
      | none => exact void.bind returned
      | some value => exact (evaluate called value).bind returned
  | implicitReturn span =>
      exact void.bind fun value => modified fun machine => law.returning inLoop machine value
  | conditional branches otherwise? span =>
      cases otherwise? with
      | none =>
          exact executeBranches called inLoop branches (Obeys.pure ()).statement inside
      | some body =>
          simp only [TypedStmt.wellScoped, Bool.and_eq_true] at inside
          exact executeBranches called inLoop branches
            (executeBlock called inLoop body fun scoping => (inside scoping).2)
            fun scoping => (inside scoping).1
  | whileLoop condition body span =>
      exact read fun setting _ => loop (test called condition)
        (executeBlock called true body inside) (.pure ()) _
  | forLoop initial? condition? iteration? body span =>
      simp only [TypedStmt.wellScoped, Bool.and_eq_true] at inside
      have done := executeBlock called true body fun scoping => (inside scoping).2
      have rounds := loopOf called condition? iteration? done inLoop
      cases initial? with
      | none => exact inScope rounds
      | some initial =>
          refine inScope (bind ?_ fun _ => rounds)
          by_cases scoping : law.scoping
          · exact begin called (inside scoping).1
          · exact (execute called inLoop initial fun needed => absurd needed scoping).resume scoping
  | breakLoop span => exact modified fun machine => law.breaking inLoop machine inside
  | block body => exact executeBlock called inLoop body inside
termination_by structural stmt

theorem executeBlock
    (called : ∀ id self? arguments, (call id self? arguments).Obeys law .regular)
    (inLoop : Bool) (block : TypedBlock) (inside : law.scoping → block.wellScoped inLoop = true)
    : (Run.executeBlock call block).Obeys law (.interruptible inLoop) := by
  cases block with
  | mk body span => exact inScope (executeAll called inLoop body inside)
termination_by structural block

theorem executeAll
    (called : ∀ id self? arguments, (call id self? arguments).Obeys law .regular)
    (inLoop : Bool) (stmts : List TypedStmt)
    (inside : law.scoping → TypedStmt.allWellScoped inLoop stmts = true)
    : (Run.executeAll call stmts).Obeys law (.interruptible inLoop) := by
  cases stmts with
  | nil => exact (Obeys.pure ()).statement
  | cons first rest =>
      simp only [TypedStmt.allWellScoped, Bool.and_eq_true] at inside
      exact unlessInterrupted (execute called inLoop first fun scoping => (inside scoping).1)
        (executeAll called inLoop rest fun scoping => (inside scoping).2)
termination_by structural stmts

theorem executeBranches
    (called : ∀ id self? arguments, (call id self? arguments).Obeys law .regular)
    (inLoop : Bool) (branches : List TypedBranch) {otherwise : Run Unit}
    (other : otherwise.Obeys law (.interruptible inLoop))
    (inside : law.scoping → TypedBranch.allWellScoped inLoop branches = true)
    : (Run.executeBranches call otherwise branches).Obeys law (.interruptible inLoop) := by
  cases branches with
  | nil => exact other
  | cons first rest =>
      cases first with
      | mk condition body =>
          simp only [TypedBranch.allWellScoped, Bool.and_eq_true] at inside
          refine (test called condition).bind fun holds => ?_
          cases holds with
          | true => exact executeBlock called inLoop body fun scoping => (inside scoping).1
          | false =>
              exact executeBranches called inLoop rest other fun scoping => (inside scoping).2
termination_by structural branches

end

-----------------------------------------------------------------------------------------
-- Calls
-----------------------------------------------------------------------------------------

theorem bindParams (params : List Param) (arguments : List Handle)
    : (Run.bindParams params arguments).Obeys law .regular := by
  induction params generalizing arguments with
  | nil => exact .pure []
  | cons param params ih =>
      cases arguments with
      | nil => exact .pure []
      | cons argument arguments =>
          exact (bindIn param.type argument).bind fun _ => (ih arguments).bind fun _ => .pure _

theorem callScript (called : ∀ id self? arguments, (call id self? arguments).Obeys law .regular)
    {body : TypedBlock} (inside : law.scoping → body.wellScoped false = true) (id : FunctionId)
    (returnType : TypeId) (params : List Param) (self? : Option Handle) (arguments : List Handle)
    : (Run.callScript call id returnType params body self? arguments).Obeys law .regular := by
  refine (bindParams params arguments).bind fun bindings =>
    (inFrame (executeBlock called false body inside) _).bind fun returned? => ?_
  cases returned? with
  | none => exact void.bind fun _ => bindIn returnType _
  | some value => exact bindIn returnType value

/-- A check may look at the setting first. -/
theorem checked_read {next : RunSetting → Run α}
    (obeys : ∀ setting, law.admits setting → (Run.checked (next setting)).Obeys law .regular)
    : (Run.checked (MonadReader.read >>= next)).Obeys law .regular :=
  fun setting admitted machine => obeys setting admitted setting admitted machine

/-- Calls obey every law whose settings hold well scoped functions only, by induction over the
frames that may be opened.
-/
theorem callWithin
    (inside : law.scoping → ∀ setting, law.admits setting → setting.registry.WellScoped)
    (depth : Nat) (id : FunctionId) (self? : Option Handle) (arguments : List Handle)
    : (Run.callWithin depth id self? arguments).Obeys law .regular := by
  induction depth generalizing id self? arguments with
  | zero =>
      unfold Run.callWithin
      refine checked_read fun setting admitted => ?_
      dsimp only
      split
      · exact operation _ self? arguments _
      · exact (perform (.componentCreate _)).checked
      · exact (fail _).checked
      · exact (fail _).checked
  | succ depth ih =>
      unfold Run.callWithin
      refine checked_read fun setting admitted => ?_
      dsimp only
      split
      · exact operation _ self? arguments _
      · exact (perform (.componentCreate _)).checked
      · exact (fail _).checked
      · next body found =>
          refine (callScript ih ?_ id _ _ self? arguments).checked
          intro scoping
          have whole := inside scoping setting admitted id
          rwa [found] at whole

/-- Calls that count the open frames obey every law, too. -/
theorem callAny
    (inside : law.scoping → ∀ setting, law.admits setting → setting.registry.WellScoped)
    (id : FunctionId) (self? : Option Handle) (arguments : List Handle)
    : (Run.call id self? arguments).Obeys law .regular :=
  read fun _ _ => get fun _ => callWithin inside _ id self? arguments

-----------------------------------------------------------------------------------------
-- Programs
-----------------------------------------------------------------------------------------

theorem initializeGlobals
    (inside : law.scoping → ∀ setting, law.admits setting → setting.registry.WellScoped)
    (decls : List TypedVariable)
    : (Run.initializeGlobals decls).Obeys law .regular := by
  induction decls with
  | nil => exact .pure ()
  | cons decl rest ih =>
      exact (initialValue (callAny inside) decl).bind fun _ =>
        (modified fun machine => law.outer machine _ machine.statics).bind fun _ => ih

theorem initializeStatics
    (inside : law.scoping → ∀ setting, law.admits setting → setting.registry.WellScoped)
    (decls : List TypedVariable)
    : (Run.initializeStatics decls).Obeys law .regular := by
  induction decls with
  | nil => exact .pure ()
  | cons decl rest ih =>
      exact (initialValue (callAny inside) decl).bind fun _ =>
        (modified fun machine => law.outer machine machine.globals _).bind fun _ => ih

/-- The variables of a program are given values, script by script. -/
theorem prepare (program : Program)
    (inside : law.scoping → ∀ setting, law.admits setting → setting.registry.WellScoped)
    : program.prepare.Obeys law .regular := by
  have prepared (modules : List Module)
      : Obeys law .regular (modules.forM fun other =>
          Run.initializeStatics other.scriptUnit.globals) := by
    induction modules with
    | nil => exact .pure ()
    | cons first rest ih => exact (initializeStatics inside _).bind fun _ => ih
  exact (prepared program.modules).bind fun _ => initializeGlobals inside _

/-- Running a program obeys every law: its variables are given values, and then `main` is called.
-/
theorem program (law : Law) (program : Program)
    (inside : law.scoping → ∀ setting, law.admits setting → setting.registry.WellScoped)
    : program.execute.Obeys law .regular :=
  (prepare program inside).bind fun _ => callAny inside program.main none []

end Run.Obeys

end BuildScript
