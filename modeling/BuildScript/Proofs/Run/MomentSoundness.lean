import BuildScript.Proofs.Run.Moments
import BuildScript.Proofs.Run.StmtKeeping

/-! Every moment of a run is sound, by cases on what leads to it: what comes before it has kept
the machine sound.
-/

namespace BuildScript

-----------------------------------------------------------------------------------------
-- Programs
-----------------------------------------------------------------------------------------

namespace Run

/-- Variables of several scripts are initialised one after the other, by induction over those of
the first ones.
-/
theorem initializeStatics_append (decls more : List TypedVariable)
    : initializeStatics (decls ++ more) =
        (initializeStatics decls >>= fun _ => initializeStatics more) := by
  induction decls with
  | nil => rw [List.nil_append, initializeStatics, pure_bind]
  | cons decl rest ih =>
      rw [List.cons_append, initializeStatics, initializeStatics]
      simp only [ih, bind_assoc]

/-- The variables of all other scripts are initialised as if they were those of one, by induction
over the scripts.
-/
theorem forM_initializeStatics (modules : List Module)
    : (modules.forM fun other => initializeStatics other.scriptUnit.globals) =
        initializeStatics (modules.flatMap fun other => other.scriptUnit.globals) := by
  induction modules with
  | nil => rfl
  | cons other rest ih =>
      rw [List.flatMap_cons, initializeStatics_append, ← ih]
      rfl

namespace Keeps

variable {allowed : Nat → Prop} {relation : Machine → Machine → Prop} {given : List Handle}
  {α β : Type} {action : Run α} {gives : α → List Handle}

/-- What an action gives may be given in another form. -/
theorem map {results : β → List Handle} (change : α → β)
    (keeps : Keeps allowed relation given action gives)
    (same : ∀ value, results (change value) = gives value)
    : Keeps allowed relation given (change <$> action) results := by
  intro setting admitted machine held sound
  have kept := keeps setting admitted machine held sound
  rw [map_eq_pure_bind, run_bind]
  cases outcome : action setting machine with
  | mk result after =>
      rw [outcome] at kept
      cases result with
      | ok value => exact ⟨same value ▸ kept.1, kept.2⟩
      | error stop => exact kept

/-- A variable of another script takes the value that was in use. -/
theorem setStatic (index : Nat) (value : Handle)
    : Keeps allowed (Machine.Gathers [] [index]) [value]
        (MonadState.modifyGet fun machine : Machine =>
          ((), { machine with statics := machine.statics.set index value }))
        fun _ => [] := by
  refine modified (fun _ => rfl) (fun machine handle => ?_) fun machine =>
    ⟨rfl, fun _ => .inl, fun _ => Machine.indices_set⟩
  have added := Bindings.count_set_le machine.statics index value handle
  simp only [Machine.handles, List.count_append] at added ⊢
  omega

/-- A variable of the script that is run takes the value that was in use. -/
theorem setGlobal (index : Nat) (value : Handle)
    : Keeps allowed (Machine.Gathers [index] []) [value]
        (MonadState.modifyGet fun machine : Machine =>
          ((), { machine with globals := machine.globals.set index value }))
        fun _ => [] := by
  refine modified (fun _ => rfl) (fun machine handle => ?_) fun machine =>
    ⟨rfl, fun _ => Machine.indices_set, fun _ => .inl⟩
  have added := Bindings.count_set_le machine.globals index value handle
  simp only [Machine.handles, List.count_append] at added ⊢
  omega

/-- Initialising the variables of other scripts adds them, by induction over them. -/
theorem initializeStatics (decls : List TypedVariable)
    (sets : ∀ decl ∈ decls, decl.SetsOnly allowed)
    : Keeps allowed (Machine.Gathers [] (decls.map (·.index))) [] (Run.initializeStatics decls)
        fun _ => [] := by
  induction decls with
  | nil => exact (pure () fun _ => Nat.zero_le _).related fun _ _ same => same.gathers [] []
  | cons decl rest ih =>
      have first := initialValue callAny decl (sets decl List.mem_cons_self)
      refine bindWith (Machine.SameShape.composesGathers _ _) [] first fun value => ?_
      exact bindWith (Machine.Gathers.composes [] [] [decl.index] _) []
        (setStatic decl.index value) fun _ =>
          ih fun other member => sets other (List.mem_cons_of_mem _ member)

/-- Initialising the variables of the script that is run adds them, by induction over them. -/
theorem initializeGlobals (decls : List TypedVariable)
    (sets : ∀ decl ∈ decls, decl.SetsOnly allowed)
    : Keeps allowed (Machine.Gathers (decls.map (·.index)) []) [] (Run.initializeGlobals decls)
        fun _ => [] := by
  induction decls with
  | nil => exact (pure () fun _ => Nat.zero_le _).related fun _ _ same => same.gathers [] []
  | cons decl rest ih =>
      have first := initialValue callAny decl (sets decl List.mem_cons_self)
      refine bindWith (Machine.SameShape.composesGathers _ _) [] first fun value => ?_
      exact bindWith (Machine.Gathers.composes [decl.index] _ [] []) []
        (setGlobal decl.index value) fun _ =>
          ih fun other member => sets other (List.mem_cons_of_mem _ member)

end Keeps

end Run

/-- (SetsOnly allowed program) says that the variables outside of functions begin with values that
set members of allowed numbers only.
-/
structure Program.SetsOnly (allowed : Nat → Prop) (program : Program) : Prop where
  statics : ∀ decl ∈ program.modules.flatMap fun other => other.scriptUnit.globals,
    decl.SetsOnly allowed
  globals : ∀ decl ∈ program.scriptUnit.globals, decl.SetsOnly allowed

/-- The numbers of the variables of the scripts that a program brings in. -/
def Program.staticNumbers (program : Program) : List Nat :=
  (program.modules.flatMap fun other => other.scriptUnit.globals).map (·.index)

/-- The numbers of the variables of the script that is run. -/
def Program.globalNumbers (program : Program) : List Nat :=
  program.scriptUnit.globals.map (·.index)

namespace Run.Keeps

variable {allowed : Nat → Prop} {program : Program}

theorem prepare (sets : program.SetsOnly allowed)
    : Keeps allowed (Machine.Gathers program.globalNumbers program.staticNumbers) [] program.prepare
        fun _ => [] := by
  have both : Machine.Composes (Machine.Gathers [] program.staticNumbers)
      (Machine.Gathers program.globalNumbers [])
      (Machine.Gathers program.globalNumbers program.staticNumbers) := by
    have composes := Machine.Gathers.composes [] program.globalNumbers program.staticNumbers []
    rwa [List.append_nil] at composes
  unfold Program.prepare
  rw [forM_initializeStatics]
  exact bindWith both [] (initializeStatics _ sets.statics) fun _ =>
    initializeGlobals _ sets.globals

theorem runProgram (sets : program.SetsOnly allowed)
    : Keeps allowed (Machine.Gathers program.globalNumbers program.staticNumbers) [] program.execute
        fun value => [value] :=
  bindWith (Machine.Gathers.composesSameShape _ _) [] (prepare sets) fun _ =>
    callAny program.main none []

end Run.Keeps

-----------------------------------------------------------------------------------------
-- Activities
-----------------------------------------------------------------------------------------

/-- (SetsOnly allowed activity) says that what begins sets members of allowed numbers only. -/
def Activity.SetsOnly (allowed : Nat → Prop) : Activity → Prop
  | evaluate expr => expr.SetsOnly allowed
  | evaluateAll exprs => TypedExpr.AllSetOnly allowed exprs
  | setMembers _ members => MemberValue.AllSetOnly allowed members
  | initial decl => decl.SetsOnly allowed
  | execute stmt => stmt.SetsOnly allowed
  | executeAll stmts => TypedStmt.AllSetOnly allowed stmts
  | executeBlock block => block.SetsOnly allowed
  | executeBranches branches otherwise? =>
    TypedBranch.AllSetOnly allowed branches ∧ ∀ body ∈ otherwise?, body.SetsOnly allowed
  | loop condition? iteration? body _ =>
    TypedExpr.MaySetOnly allowed condition? ∧ TypedExpr.MaySetOnly allowed iteration?
      ∧ body.SetsOnly allowed
  | statics decls | globals decls => ∀ decl ∈ decls, decl.SetsOnly allowed
  | run program => program.SetsOnly allowed
  | _ => True

/-- (Changes activity before after) says what may become of the variables of a machine by what is
done.
-/
def Activity.Changes : Activity → Machine → Machine → Prop
  | execute stmt => Machine.Declares stmt.declares
  | executeAll stmts => Machine.Declares (stmts.flatMap TypedStmt.declares)
  | executeBlock _ | executeBranches .. | loop .. => Machine.Encloses
  | statics decls => Machine.Gathers [] (decls.map (·.index))
  | globals decls => Machine.Gathers (decls.map (·.index)) []
  | run program => Machine.Gathers program.globalNumbers program.staticNumbers
  | _ => Machine.SameShape

/-- The operands of an expression set what it sets. -/
theorem ExprKind.SetsOnly.operands {allowed : Nat → Prop} {kind : ExprKind}
    (sets : kind.SetsOnly allowed)
    : TypedExpr.AllSetOnly allowed kind.operands := by
  cases kind with
  | binary lhs operator function rhs => exact ⟨sets.1, sets.2, trivial⟩
  | unary operator function operand => exact ⟨sets, trivial⟩
  | ternary condition whenTrue whenFalse => exact ⟨sets.1, trivial⟩
  | member object name index => exact ⟨sets, trivial⟩
  | cast kind inner => exact ⟨sets, trivial⟩
  | call | implicitCall | construct | scriptDirectory | memberCall | list => exact sets
  | _ => exact trivial

namespace Run.Keeps

variable {allowed : Nat → Prop} {call : Caller} {depth? : Option Nat}

theorem caller : Calls allowed (Run.caller depth?) := by
  cases depth? with
  | none => exact callAny
  | some depth => exact callWithin depth

theorem condition (called : Calls allowed call) (condition? : Option TypedExpr)
    (sets : TypedExpr.MaySetOnly allowed condition?)
    : Keeps allowed Machine.SameShape [] (Run.condition call condition?) fun _ => [] := by
  cases condition? with
  | none => exact pure true fun _ => Nat.zero_le _
  | some condition => exact test called condition (sets condition rfl)

theorem step (called : Calls allowed call) (iteration? : Option TypedExpr)
    (sets : TypedExpr.MaySetOnly allowed iteration?)
    : Keeps allowed Machine.SameShape [] (Run.step call iteration?) fun _ => [] := by
  cases iteration? with
  | none => exact pure () fun _ => Nat.zero_le _
  | some iteration => exact discarded called iteration (sets iteration rfl)

/-- Everything that is done keeps machines sound, and changes the variables as it may, by cases on
what it is.
-/
theorem activity (activity : Activity) (sets : activity.SetsOnly allowed)
    : Keeps allowed activity.Changes activity.taken (activity.action (Run.caller depth?)) id := by
  have one {given : List Handle} {action : Run Handle}
      (keeps : Keeps allowed Machine.SameShape given action fun value => [value])
      : Keeps allowed Machine.SameShape given (List.singleton <$> action) id :=
    keeps.map List.singleton fun _ => rfl
  have nothing {relation : Machine → Machine → Prop} {given : List Handle} {action : Run Unit}
      (keeps : Keeps allowed relation given action fun _ => [])
      : Keeps allowed relation given ((fun _ => []) <$> action) id :=
    keeps.map _ fun _ => rfl
  cases activity with
  | evaluate expr => exact one (evaluate caller expr sets)
  | evaluateAll exprs => exact evaluateAll caller exprs sets
  | ownAll values => exact (ownAll values).map _ fun _ => rfl
  | setMembers object members =>
      exact (evaluateMembers caller object members sets).map _ fun _ => rfl
  | call function self? arguments => exact one (caller function self? arguments)
  | bindParams params arguments => exact (bindParams params arguments).map _ fun _ => rfl
  | bind type value => exact one (bindIn type value)
  | initial decl => exact one (initialValue caller decl sets)
  | execute stmt => exact nothing (execute caller stmt sets)
  | executeAll stmts => exact nothing (executeAll caller stmts sets)
  | executeBlock block => exact nothing (executeBlock caller block sets)
  | executeBranches branches otherwise? =>
      refine nothing (executeBranches caller branches ?_ sets.1)
      cases otherwise? with
      | none => exact (pure () fun _ => Nat.zero_le _).related fun _ _ => Machine.SameShape.encloses
      | some body => exact executeBlock caller body (sets.2 body rfl)
  | loop condition? iteration? body rounds =>
      exact nothing (loop (condition caller condition? sets.1) (executeBlock caller body sets.2.2)
        (step caller iteration? sets.2.1) rounds)
  | statics decls => exact nothing (initializeStatics decls sets)
  | globals decls => exact nothing (initializeGlobals decls sets)
  | run program => exact (runProgram sets).map List.singleton fun _ => rfl
  | rest => exact pure [] fun _ => Nat.le_refl _

end Run.Keeps

-----------------------------------------------------------------------------------------
-- Moments
-----------------------------------------------------------------------------------------

/-- (Sound allowed moment) says that no cell has two owners at a moment, be they in the machine or
among the values in use, and that what begins sets members of allowed numbers only.
-/
structure Moment.Sound (allowed : Nat → Prop) (moment : Moment) : Prop where
  sets : moment.activity.SetsOnly allowed
  machine : moment.machine.Sound allowed (moment.activity.taken ++ moment.held)

/-- Machines of the same shape work on the same object. -/
theorem Machine.SameShape.current {before after : Machine} (same : before.SameShape after)
    : after.frames.head?.bind (·.self?) = before.frames.head?.bind (·.self?) := by
  have frames := congrArg (fun shape : Shape => shape.frames.head?.bind (·.self?)) same
  simpa only [shape, List.head?_map, Option.bind_map, Function.comp_def, Frame.shape] using frames

/-- The values of operands become the object and the arguments of a call, by cases on what is
called.
-/
theorem Machine.Sound.call? {allowed : Nat → Prop} {machine : Machine} {held : List Handle}
    {kind : ExprKind} {values arguments : List Handle} {function : FunctionId}
    {self? : Option Handle}
    (sound : machine.Sound allowed (values ++ held))
    (calls : kind.call? (machine.frames.head?.bind (·.self?)) values =
      some (function, self?, arguments))
    : (kind.entered machine).Sound allowed (arguments ++ self?.toList ++ held) := by
  have entered {held : List Handle} (sound : machine.Sound allowed held)
      : (kind.entered machine).Sound allowed held := by
    cases kind with
    | scriptDirectory | declarativeDirectory => exact sound.rearranged rfl fun _ => Nat.le_refl _
    | _ => exact sound
  have onFirst (called : FunctionId)
      (calls : (values.head?.map fun object => (called, some object, values.tail)) =
        some (function, self?, arguments))
      : machine.Sound allowed (arguments ++ self?.toList ++ held) := by
    obtain ⟨object, first, same⟩ := Option.map_eq_some_iff.mp calls
    cases same
    cases values with
    | nil => exact nomatch first
    | cons value rest =>
        cases first
        refine sound.fewer fun handle => ?_
        simp only [List.tail_cons, Option.toList_some, List.count_append, List.count_cons,
          List.count_nil]
        omega
  have onNone (called : FunctionId)
      (calls : some (called, (none : Option Handle), values) = some (function, self?, arguments))
      : machine.Sound allowed (arguments ++ self?.toList ++ held) := by
    cases calls
    rwa [Option.toList_none, List.append_nil]
  refine entered ?_
  cases kind with
  | binary | unary | memberCall => exact onFirst _ calls
  | call | scriptDirectory | declarativeDirectory | declarativeFile => exact onNone _ calls
  | implicitCall called exprs =>
      obtain ⟨object, current, same⟩ := Option.map_eq_some_iff.mp calls
      cases same
      have present := sound.self? current
      have referred : machine.Sound allowed (object.toReference :: values ++ held) := by
        cases object with
        | owned cell => exact sound.refer none present
        | reference cell base? => exact sound.refer base? present
      refine referred.fewer fun handle => ?_
      simp only [Option.toList_some, List.count_append, List.count_cons, List.count_nil]
      omega
  | _ => exact nomatch calls

/-- Opening a scope keeps a machine sound. -/
theorem Machine.Sound.enterScope {allowed : Nat → Prop} {machine : Machine} {held : List Handle}
    (sound : machine.Sound allowed held)
    : machine.enterScope.Sound allowed held :=
  sound.rearranged rfl fun _ => Nat.le_of_eq (by rw [Machine.handles_enterScope])

/-- A round of a loop that goes on leaves the variables of a call as they are. -/
theorem Machine.Sound.round {allowed : Nat → Prop} {setting : RunSetting}
    {machine before middle after : Machine} {held : List Handle} {depth? : Option Nat}
    {condition? : Option TypedExpr} {body : TypedBlock} (sound : machine.Sound allowed held)
    (admitted : setting.Admits allowed) (tests : TypedExpr.MaySetOnly allowed condition?)
    (sets : body.SetsOnly allowed)
    (holds : Run.condition (Run.caller depth?) condition? setting machine = (.ok true, before))
    (executed : Run.executeBlock (Run.caller depth?) body setting before = (.ok (), middle))
    (stays : Run.leavesLoop setting middle = (.ok false, after))
    : after.Sound allowed held ∧ machine.Encloses after := by
  obtain ⟨sound, tested⟩ := (Run.Keeps.condition .caller _ tests).ok admitted sound holds
  obtain ⟨sound, done⟩ := (Run.Keeps.executeBlock .caller _ sets).ok admitted sound executed
  obtain ⟨sound, stayed⟩ := Run.Keeps.leavesLoop.ok admitted sound stays
  exact ⟨sound, (tested.encloses.trans done).trans stayed.encloses⟩

/-- A call that ends leaves the variables as they were, with what it returned in use. -/
theorem Machine.Sound.returned {allowed : Nat → Prop} {setting : RunSetting} {depth : Nat}
    {function : FunctionId} {block : TypedBlock} {self? returned? : Option Handle}
    {arguments : List Handle} {params : Bindings} {machine before middle after : Machine}
    {value : Handle} {held : List Handle}
    (sound : machine.Sound allowed (arguments ++ self?.toList ++ held))
    (admitted : setting.Admits allowed)
    (scripted : (setting.registry.function function).body = .script (some block))
    (bound : Run.bindParams (setting.registry.function function).params arguments setting
      machine = (.ok params, before))
    (executed : Run.inFrame ⟨function, [], params, self?⟩
      (Run.executeBlock (Run.callWithin depth) block) setting before = (.ok returned?, middle))
    (returned : returned?.elim Run.void pure setting middle = (.ok value, after))
    : after.Sound allowed (value :: held) ∧ machine.SameShape after := by
  have sets := admitted.bodies function
  rw [scripted] at sets
  have given : machine.Sound allowed (arguments ++ (self?.toList ++ held)) := by
    rw [← List.append_assoc]
    exact sound
  obtain ⟨kept, binds⟩ := (Run.Keeps.bindParams _ arguments).ok admitted given bound
  have given : before.Sound allowed (Frame.handles ⟨function, [], params, self?⟩ ++ held) := by
    refine kept.fewer fun handle => ?_
    simp only [Frame.handles, List.flatMap_nil, List.nil_append, List.count_append]
    omega
  have body := Run.Keeps.executeBlock (.callWithin depth) block sets
  obtain ⟨kept, calls⟩ := (Run.Keeps.inFrame _ body).ok admitted given executed
  have whole := Machine.SameShape.trans binds calls
  cases returned? with
  | none =>
      obtain ⟨kept, same⟩ := Run.Keeps.void.ok admitted kept returned
      exact ⟨kept, whole.trans same⟩
  | some result =>
      cases returned
      exact ⟨kept, whole⟩

namespace Moment

variable {allowed : Nat → Prop} {setting : RunSetting} {before after : Moment}

/-- A default that is made is in use besides what is. -/
theorem createDefault (type : TypeId)
    : Run.Keeps allowed Machine.SameShape [] (Run.createDefault type)
        fun object => [.owned object.cell] :=
  .createDefault type

/-- A default that is made may become the value of a variable. -/
theorem createInitial (type : TypeId)
    : Run.Keeps allowed Machine.SameShape [] (Run.createDefault type) fun value => [value] :=
  (createDefault type).ofOwned

/-- What leads on in the evaluation of expressions leaves the variables alone. -/
theorem Evaluates.sound (step : Evaluates setting before after)
    (admitted : setting.Admits allowed) (sound : before.Sound allowed)
    : after.Sound allowed ∧ before.machine.SameShape after.machine := by
  obtain ⟨sets, sound⟩ := sound
  cases step with
  | operands depth? kind type span machine held =>
      exact ⟨⟨ExprKind.SetsOnly.operands sets, sound⟩, rfl⟩
  | first depth? expr rest machine held => exact ⟨⟨sets.1, sound⟩, rfl⟩
  | next evaluated rest held =>
      have kept := (Run.Keeps.evaluate .caller _ sets.1).ok admitted sound evaluated
      exact ⟨⟨sets.2, kept.1⟩, kept.2⟩
  | choice tested whenTrue whenFalse type span held =>
      have kept := (Run.Keeps.test .caller _ sets.1).ok admitted sound tested
      refine ⟨⟨?_, kept.1⟩, kept.2⟩
      split
      · exact sets.2.1
      · exact sets.2.2
  | @call depth? kind machine after values function self? arguments evaluated calls type span
      held =>
      have operands := ExprKind.SetsOnly.operands sets
      obtain ⟨sound, same⟩ := (Run.Keeps.evaluateAll .caller _ operands).ok admitted sound evaluated
      rw [← same.current] at calls
      refine ⟨⟨trivial, sound.call? calls⟩, Machine.SameShape.trans same ?_⟩
      cases kind with
      | _ => rfl
  | perform evaluated builtin type span held =>
      have kept := (Run.Keeps.evaluateAll .caller _ sets).ok admitted sound evaluated
      refine ⟨⟨trivial, ?_⟩, kept.2⟩
      show Machine.Sound _ _ (_ ++ [] ++ held)
      rw [List.append_nil]
      exact kept.1
  | @construct depth? function exprs type machine middle after arguments object evaluated scripted
      made span held =>
      obtain ⟨sound, same⟩ := (Run.Keeps.evaluateAll .caller _ sets).ok admitted sound evaluated
      obtain ⟨sound, later⟩ := (createDefault type).ok admitted sound made
      refine ⟨⟨trivial, ?_⟩, same.trans later⟩
      have present := sound.present (.owned object.cell)
        (List.mem_append_right _ List.mem_cons_self)
      have referred : after.Sound allowed
          (object.toReference :: .owned object.cell :: arguments ++ held) := by
        cases object with
        | owned cell => exact sound.refer none present
        | reference cell base? => exact sound.refer base? present
      refine referred.fewer fun handle => ?_
      simp only [Activity.taken, Option.toList_some, List.count_append, List.count_cons,
        List.count_nil]
      omega
  | elements evaluated type span held =>
      have kept := (Run.Keeps.evaluateAll .caller _ sets).ok admitted sound evaluated
      exact ⟨⟨trivial, kept.1⟩, kept.2⟩
  | @owned depth? value owner machine after owns rest held =>
      have split : machine.Sound allowed ([value] ++ (rest ++ held)) := sound
      have kept := (Run.Keeps.own value).ok admitted split owns
      refine ⟨⟨trivial, kept.1.fewer fun handle => ?_⟩, kept.2⟩
      simp only [Activity.taken, List.count_append, List.count_cons, List.count_nil]
      omega
  | @members depth? type machine after object made members span held =>
      have kept := (createDefault type).ok admitted sound made
      exact ⟨⟨sets, kept.1⟩, kept.2⟩
  | member depth? object index expr rest machine held => exact ⟨⟨sets.2.1, sound⟩, rfl⟩
  | memberOwned evaluated object index rest held =>
      have kept := (Run.Keeps.evaluate .caller _ sets.2.1).ok admitted sound evaluated
      exact ⟨⟨trivial, kept.1⟩, kept.2⟩
  | @memberSet depth? expr machine middle later after value owner object index evaluated owns set
      rest held =>
      obtain ⟨sound, same⟩ := (Run.Keeps.evaluate .caller _ sets.2.1).ok admitted sound evaluated
      obtain ⟨sound, owned⟩ := (Run.Keeps.own value).ok admitted sound owns
      have given : later.Sound allowed ([.owned owner.cell, .owned object.cell] ++ held) := sound
      have kept := (Run.Keeps.setMember object owner sets.1).ok admitted given set
      exact ⟨⟨sets.2.2, kept.1⟩, same.trans (owned.trans kept.2)⟩

/-- What leads on in the execution of statements, by cases on it. -/
theorem Executes.sound (step : Executes setting before after)
    (admitted : setting.Admits allowed) (sound : before.Sound allowed)
    : after.Sound allowed := by
  obtain ⟨sets, sound⟩ := sound
  cases step with
  | initial given depth? machine held => exact ⟨sets _ given, sound⟩
  | bindInitial given evaluated held =>
      have kept := (Run.Keeps.evaluate .caller _ (sets _ given)).ok admitted sound evaluated
      exact ⟨trivial, kept.1⟩
  | bindDefault missing made depth? held =>
      exact ⟨trivial, ((createInitial _).ok admitted sound made).1⟩
  | expression | varDecl | block => exact ⟨sets, sound⟩
  | returnValue depth? expr span machine held => exact ⟨sets expr rfl, sound⟩
  | conditional depth? branches otherwise? span machine held =>
      cases otherwise? with
      | none => exact ⟨⟨sets, fun body given => nomatch given⟩, sound⟩
      | some body => exact ⟨⟨sets.1, fun other given => Option.some.inj given ▸ sets.2⟩, sound⟩
  | condition => exact ⟨sets.1.1, sound⟩
  | branch tested body rest otherwise? held =>
      exact ⟨sets.1.2.1, ((Run.Keeps.test .caller _ sets.1.1).ok admitted sound tested).1⟩
  | nextBranch tested body rest otherwise? held =>
      exact ⟨⟨sets.1.2.2, sets.2⟩,
        ((Run.Keeps.test .caller _ sets.1.1).ok admitted sound tested).1⟩
  | otherwise depth? body machine held => exact ⟨sets.2 body rfl, sound⟩
  | whileLoop depth? condition body span machine held =>
      have none : TypedExpr.MaySetOnly allowed none := fun _ given => nomatch given
      exact ⟨⟨fun other given => Option.some.inj given ▸ sets.1, none, sets.2⟩, sound⟩
  | forInitial => exact ⟨sets.1, sound.enterScope⟩
  | forLoop => exact ⟨sets, sound.enterScope⟩
  | forLoopAfter executed condition? iteration? body span held =>
      have kept := (Run.Keeps.execute .caller _ sets.1).ok admitted sound.enterScope executed
      exact ⟨sets.2, kept.1⟩
  | loopCondition depth? condition iteration? body rounds machine held =>
      exact ⟨sets.1 condition rfl, sound⟩
  | loopBody holds iteration? body rounds held =>
      exact ⟨sets.2.2, ((Run.Keeps.condition .caller _ sets.1).ok admitted sound holds).1⟩
  | loopStep holds executed stays iteration rounds held =>
      have round := sound.round admitted sets.1 sets.2.2 holds executed stays
      exact ⟨sets.2.1 iteration rfl, round.1⟩
  | loopAgain holds executed stays stepped rounds held =>
      have round := sound.round admitted sets.1 sets.2.2 holds executed stays
      exact ⟨sets, ((Run.Keeps.step .caller _ sets.2.1).ok admitted round.1 stepped).1⟩
  | body => exact ⟨sets, sound.enterScope⟩
  | first => exact ⟨sets.1, sound⟩
  | next executed goesOn rest held =>
      exact ⟨sets.2, ((Run.Keeps.execute .caller _ sets.1).ok admitted sound executed).1⟩

/-- What leads on in the call of a function, by cases on it. -/
theorem Calls.sound (step : Calls setting before after) (admitted : setting.Admits allowed)
    (sound : before.Sound allowed)
    : after.Sound allowed := by
  obtain ⟨sets, sound⟩ := sound
  cases step with
  | within => exact ⟨trivial, sound⟩
  | params scripted depth self? arguments machine held =>
      refine ⟨trivial, ?_⟩
      rwa [← List.append_assoc]
  | param depth? param params argument arguments machine held => exact ⟨trivial, sound⟩
  | @nextParam param argument value machine after bound depth? params arguments held =>
      have given : machine.Sound allowed ([argument] ++ (arguments ++ held)) := sound
      have kept := (Run.Keeps.bindIn param.type argument).ok admitted given bound
      refine ⟨trivial, kept.1.fewer fun handle => ?_⟩
      simp only [Activity.taken, List.count_append, List.count_cons, List.count_nil]
      omega
  | @body function block arguments params machine after scripted bound depth self? held =>
      have sets := admitted.bodies function
      rw [scripted] at sets
      have given : machine.Sound allowed (arguments ++ (self?.toList ++ held)) := by
        rw [← List.append_assoc]
        exact sound
      have kept := (Run.Keeps.bindParams _ arguments).ok admitted given bound
      refine ⟨sets, kept.1.rearranged rfl fun handle => ?_⟩
      simp only [Activity.taken, Machine.handles, Frame.handles, List.flatMap_cons,
        List.flatMap_nil, List.nil_append, List.count_append]
      omega
  | @result depth function block self? returned? arguments params machine before middle after value
      scripted bound executed returned held =>
      have returned : returned?.elim Run.void pure setting middle = (.ok value, after) := by
        cases returned? <;> exact returned
      exact ⟨trivial, (sound.returned admitted scripted bound executed returned).1⟩

/-- What leads on outside of all functions, by cases on it. -/
theorem Prepares.sound (step : Prepares setting before after) (admitted : setting.Admits allowed)
    (sound : before.Sound allowed)
    : after.Sound allowed := by
  obtain ⟨sets, sound⟩ := sound
  cases step with
  | statics => exact ⟨sets.statics, sound⟩
  | static decl rest machine => exact ⟨sets decl List.mem_cons_self, sound⟩
  | global decl rest machine => exact ⟨sets decl List.mem_cons_self, sound⟩
  | @nextStatic decl machine after value initial rest =>
      have first := sets decl List.mem_cons_self
      have kept := ((Run.Keeps.initialValue .callAny decl first).ok admitted sound initial).1
      exact ⟨fun other member => sets other (List.mem_cons_of_mem _ member),
        ((Run.Keeps.setStatic decl.index value).ok admitted kept rfl).1⟩
  | @nextGlobal decl machine after value initial rest =>
      have first := sets decl List.mem_cons_self
      have kept := ((Run.Keeps.initialValue .callAny decl first).ok admitted sound initial).1
      exact ⟨fun other member => sets other (List.mem_cons_of_mem _ member),
        ((Run.Keeps.setGlobal decl.index value).ok admitted kept rfl).1⟩
  | globals prepared =>
      have kept := (Run.Keeps.initializeStatics _ sets.statics).ok admitted sound prepared
      exact ⟨sets.globals, kept.1⟩
  | main prepared => exact ⟨trivial, ((Run.Keeps.prepare sets).ok admitted sound prepared).1⟩

/-- Every moment that a sound one leads to is sound. -/
theorem Leads.sound (step : Leads setting before after) (admitted : setting.Admits allowed)
    (sound : before.Sound allowed)
    : after.Sound allowed := by
  cases step with
  | evaluates step => exact (step.sound admitted sound).1
  | executes step => exact step.sound admitted sound
  | calls step => exact step.sound admitted sound
  | prepares step => exact step.sound admitted sound
  | rests step =>
      cases step with
      | ended outcome held =>
          exact ⟨trivial, ((Run.Keeps.activity _ sound.sets).ok admitted sound.machine outcome).1⟩
      | stopped outcome held =>
          exact ⟨trivial,
            ((Run.Keeps.activity _ sound.sets).error admitted sound.machine outcome).1⟩

end Moment

/-- Nothing is owned on a machine on which nothing has run yet. -/
theorem Machine.sound_ofSystem (allowed : Nat → Prop) (system : BuildSystem)
    : (Machine.ofSystem system).Sound allowed [] where
  owned := Heap.Owned.empty
  present _ member := absurd member List.not_mem_nil
  slotted cell index member := by
    rw [ofSystem, Heap.value, Heap.read_beyond (Nat.zero_le _)] at member
    exact absurd member List.not_mem_nil

/-- Every moment that a run of a program comes to is sound, by induction over what leads to it. -/
theorem Program.Reaches.sound {allowed : Nat → Prop} {program : Program} {limits : Limits}
    {system : BuildSystem} {moment : Moment} (reached : program.Reaches limits system moment)
    (admitted : (program.setting limits).Admits allowed) (sets : program.SetsOnly allowed)
    : moment.Sound allowed := by
  induction reached with
  | refl => exact ⟨sets, Machine.sound_ofSystem allowed system⟩
  | tail _ step ih => exact step.sound admitted ih

end BuildScript
