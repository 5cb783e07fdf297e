import BuildScript.Proofs.Run.MomentSoundness

/-! What stops a run. An action that is stopped stops everything that it is part of, so a run that
comes to its end was stopped at none of its moments.
-/

namespace BuildScript

namespace Run

variable {α β : Type} {setting : RunSetting} {machine after : Machine} {call : Caller}

-----------------------------------------------------------------------------------------
-- Outcomes of evaluations
-----------------------------------------------------------------------------------------

/-- The first of several expressions is evaluated, and then the others. -/
theorem evaluateAll_cons {first : TypedExpr} {rest : List TypedExpr} {middle : Machine}
    {value : Handle} {values : List Handle}
    (start : evaluate call first setting machine = (.ok value, middle))
    (follow : evaluateAll call rest setting middle = (.ok values, after))
    : evaluateAll call (first :: rest) setting machine = (.ok (value :: values), after) := by
  rw [evaluateAll, run_bind, start]
  simp only [run_bind, follow]
  rfl

/-- A condition is tested by looking at its value. -/
theorem test_of_evaluate {condition : TypedExpr} {value : Handle}
    (evaluated : evaluate call condition setting machine = (.ok value, after))
    : test call condition setting machine =
        (.ok (after.store.heap.value value.cell).asBool, after) := by
  unfold test
  rw [run_bind, evaluated]
  rfl

/-- The object at hand is the one that the innermost call works on, and finding it changes nothing.
-/
theorem of_currentObject {object : Handle}
    (found : currentObject setting machine = (.ok object, after))
    : after = machine ∧
        (machine.frames.head?.bind (·.self?)).map Handle.toReference = some object := by
  rw [currentObject, run_bind, run_get] at found
  cases current : machine.frames.head?.bind (·.self?) with
  | none =>
      simp only [current] at found
      exact nomatch found
  | some handle =>
      simp only [current] at found
      cases found
      exact ⟨rfl, rfl⟩

theorem currentObject_of {object : Handle}
    (current : machine.frames.head?.bind (·.self?) = some object)
    : currentObject setting machine = (.ok object.toReference, machine) := by
  rw [currentObject, run_bind, run_get]
  simp only [current]
  rfl

/-- One expression is evaluated as if it were several. -/
theorem evaluateAll_singleton (call : Caller) (expr : TypedExpr)
    : evaluateAll call [expr] = List.singleton <$> evaluate call expr := by
  simp only [evaluateAll, map_eq_pure_bind, pure_bind]
  rfl

-----------------------------------------------------------------------------------------
-- Actions that are stopped
-----------------------------------------------------------------------------------------

/-- (Stops action setting machine) says that an action does not come to its end on a machine. -/
def Stops (action : Run α) (setting : RunSetting) (machine : Machine) : Prop :=
  ∃ stop after, action setting machine = (.error stop, after)

theorem stops_of_error {action : Run α} {stop : Stop}
    (outcome : action setting machine = (.error stop, after))
    : action.Stops setting machine :=
  ⟨stop, after, outcome⟩

theorem not_stops_of_ok {action : Run α} {value : α}
    (outcome : action setting machine = (.ok value, after))
    : ¬ action.Stops setting machine := by
  rintro ⟨stop, other, stopped⟩
  rw [outcome] at stopped
  cases stopped

namespace Stops

/-- An action that is stopped is followed by nothing. -/
theorem bind {action : Run α} (stops : action.Stops setting machine) (next : α → Run β)
    : (action >>= next).Stops setting machine := by
  obtain ⟨stop, after, outcome⟩ := stops
  refine ⟨stop, after, ?_⟩
  rw [run_bind, outcome]

/-- What follows an action that came to its end may stop the two of them. -/
theorem follow {action : Run α} {next : α → Run β} {value : α}
    (outcome : action setting machine = (.ok value, after))
    (stops : (next value).Stops setting after)
    : (action >>= next).Stops setting machine := by
  obtain ⟨stop, last, stopped⟩ := stops
  refine ⟨stop, last, ?_⟩
  rw [run_bind, outcome]
  exact stopped

theorem map {action : Run α} (change : α → β) (stops : action.Stops setting machine)
    : (change <$> action).Stops setting machine := by
  rw [map_eq_pure_bind]
  exact stops.bind _

/-- An action is stopped if it is when its value is given in another form. -/
theorem ofMap {action : Run α} {change : α → β} (stops : (change <$> action).Stops setting machine)
    : action.Stops setting machine := by
  obtain ⟨stop, after, stopped⟩ := stops
  rw [map_eq_pure_bind, run_bind] at stopped
  cases outcome : action setting machine with
  | mk result last =>
      cases result with
      | error reason => exact ⟨reason, last, outcome⟩
      | ok value =>
          rw [outcome] at stopped
          cases stopped

theorem checked {action : Run α} (stops : action.Stops setting machine)
    : (Run.checked action).Stops setting machine :=
  stops.bind _

/-- An action stops what is done between an opening and a closing change. -/
theorem enclosed {opened closed : Machine → Machine} {action : Run α}
    (stops : action.Stops setting (opened machine))
    : Stops ((MonadState.modifyGet fun machine => ((), opened machine)) >>= fun _ =>
        Run.ensuring closed action) setting machine := by
  obtain ⟨stop, after, outcome⟩ := stops
  refine .follow rfl ⟨stop, closed after, ?_⟩
  unfold Run.ensuring
  rw [outcome]

theorem inScope {action : Run α} (stops : action.Stops setting machine.enterScope)
    : (Run.inScope action).Stops setting machine :=
  enclosed stops

end Stops

end Run

namespace Moment

variable {setting : RunSetting} {before after : Moment}

/-- (Stops setting moment) says that what begins at a moment does not come to its end. -/
def Stops (setting : RunSetting) (moment : Moment) : Prop :=
  (moment.activity.action (Run.caller moment.depth?)).Stops setting moment.machine

/-- The operands of an expression stop its evaluation, by cases on what it does. -/
theorem stops_of_operands {call : Caller} {kind : ExprKind} {type : TypeId} {span : Span}
    {machine : Machine} (stops : (Run.evaluateAll call kind.operands).Stops setting machine)
    : (Run.evaluate call (.mk kind type span)).Stops setting machine := by
  have lone {expr : TypedExpr} (stops : (Run.evaluateAll call [expr]).Stops setting machine)
      : (Run.evaluate call expr).Stops setting machine := by
    rw [Run.evaluateAll_singleton] at stops
    exact stops.ofMap
  refine Run.Stops.checked ?_
  cases kind with
  | binary lhs operator function rhs =>
      have whole := stops.bind fun values => call function values.head? values.tail
      simp only [ExprKind.operands, Run.evaluateAll, bind_assoc, pure_bind] at whole
      exact whole
  | memberCall object function arguments =>
      have whole := stops.bind fun values => call function values.head? values.tail
      simp only [ExprKind.operands, Run.evaluateAll, bind_assoc, pure_bind] at whole
      exact whole
  | unary operator function operand => exact (lone stops).bind _
  | ternary condition whenTrue whenFalse => exact (lone stops).bind _
  | member object name index => exact (lone stops).bind _
  | cast kind inner => exact (lone stops).bind _
  | call | construct | scriptDirectory | list => exact stops.bind _
  | implicitCall function arguments =>
      cases found : Run.currentObject setting machine with
      | mk result after =>
          cases result with
          | error stop => exact (Run.stops_of_error found).bind _
          | ok object =>
              obtain ⟨rfl, _⟩ := Run.of_currentObject found
              exact .follow found (stops.bind _)
  | _ => exact absurd stops (Run.not_stops_of_ok rfl)

/-- A call stops the evaluation of the expression that comes down to it, by cases on that. -/
theorem stops_of_call {call : Caller} {kind : ExprKind} {type : TypeId} {span : Span}
    {machine after : Machine} {values arguments : List Handle} {function : FunctionId}
    {self? : Option Handle}
    (evaluated : Run.evaluateAll call kind.operands setting machine = (.ok values, after))
    (calls : kind.call? (machine.frames.head?.bind (·.self?)) values =
      some (function, self?, arguments))
    (stops : (call function self? arguments).Stops setting (kind.entered after))
    : (Run.evaluate call (.mk kind type span)).Stops setting machine := by
  refine Run.Stops.checked ?_
  have onFirst {called : FunctionId}
      (calls : (values.head?.map fun object => (called, some object, values.tail)) =
        some (function, self?, arguments))
      (stops : (call function self? arguments).Stops setting after)
      : (Run.evaluateAll call kind.operands >>= fun values =>
          call called values.head? values.tail).Stops setting machine := by
    obtain ⟨object, first, same⟩ := Option.map_eq_some_iff.mp calls
    cases same
    refine .follow evaluated ?_
    rwa [first]
  cases kind with
  | binary lhs operator called rhs =>
      have whole := onFirst calls stops
      simp only [ExprKind.operands, Run.evaluateAll, bind_assoc, pure_bind] at whole
      exact whole
  | unary operator called operand =>
      have whole := onFirst calls stops
      simp only [ExprKind.operands, Run.evaluateAll, bind_assoc, pure_bind] at whole
      exact whole
  | memberCall object called rest =>
      have whole := onFirst calls stops
      simp only [ExprKind.operands, Run.evaluateAll, bind_assoc, pure_bind] at whole
      exact whole
  | implicitCall called exprs =>
      obtain ⟨handle, current, same⟩ := Option.map_eq_some_iff.mp calls
      cases same
      exact .follow (Run.currentObject_of current) (.follow evaluated stops)
  | call called exprs =>
      cases calls
      exact .follow evaluated stops
  | scriptDirectory directory called exprs =>
      cases calls
      exact .follow evaluated stops.enclosed
  | declarativeDirectory directory called =>
      cases evaluated
      cases calls
      exact stops.enclosed
  | declarativeFile file called =>
      cases evaluated
      cases calls
      exact stops
  | _ => exact nomatch calls

/-- What stops on in the evaluation of expressions stops what led to it, by cases on that. -/
theorem Evaluates.stops (step : Evaluates setting before after) (stops : after.Stops setting)
    : before.Stops setting := by
  cases step with
  | operands depth? kind type span machine held => exact (stops_of_operands stops).map _
  | first depth? expr rest machine held => exact stops.ofMap.bind _
  | next evaluated rest held => exact .follow evaluated (stops.bind _)
  | @choice depth? condition machine after value tested whenTrue whenFalse type span held =>
      have chosen : (Run.test (Run.caller depth?) condition >>= fun holds =>
          if holds then Run.evaluate (Run.caller depth?) whenTrue
          else Run.evaluate (Run.caller depth?) whenFalse).Stops setting machine := by
        refine .follow tested ?_
        cases value <;> exact stops.ofMap
      refine Run.Stops.map _ (Run.Stops.checked ?_)
      simp only [Run.test, bind_assoc, pure_bind] at chosen
      exact chosen
  | @call depth? kind machine after values function self? arguments evaluated calls
      type span held =>
      exact (stops_of_call evaluated calls stops.ofMap).map _
  | perform evaluated builtin type span held =>
      refine Run.Stops.map _ (Run.Stops.checked (.follow evaluated (.follow rfl ?_)))
      simp only [builtin, ↓reduceIte]
      exact stops.ofMap
  | construct evaluated scripted made span held =>
      refine Run.Stops.map _ (Run.Stops.checked (.follow evaluated (.follow rfl ?_)))
      simp only [scripted, Bool.false_eq_true, ↓reduceIte]
      exact .follow made (stops.ofMap.bind _)
  | elements evaluated type span held =>
      exact Run.Stops.map _ (Run.Stops.checked (.follow evaluated (stops.ofMap.bind _)))
  | owned owns rest held =>
      refine Run.Stops.map _ ?_
      rw [List.mapM_cons]
      exact .follow owns (stops.ofMap.bind _)
  | members made members span held =>
      exact Run.Stops.map _ (Run.Stops.checked (.follow made (stops.ofMap.bind _)))
  | member depth? object index expr rest machine held => exact (stops.ofMap.bind _).map _
  | memberOwned evaluated object index rest held =>
      have owning := Run.Stops.ofMap stops
      simp only [List.mapM_cons, List.mapM_nil, bind_pure_comp] at owning
      exact Run.Stops.map _ (.follow evaluated (owning.ofMap.bind _))
  | memberSet evaluated owns set rest held =>
      exact Run.Stops.map _ (.follow evaluated (.follow owns (.follow set stops.ofMap)))

/-- What stops on in the execution of statements stops what led to it, by cases on that. -/
theorem Executes.stops (step : Executes setting before after) (stops : after.Stops setting)
    : before.Stops setting := by
  cases step with
  | initial given depth? machine held =>
      refine Run.Stops.map _ ?_
      simp only [Run.initialValue, given]
      exact stops.ofMap.bind _
  | bindInitial given evaluated held =>
      refine Run.Stops.map _ ?_
      simp only [Run.initialValue, given]
      exact .follow evaluated stops.ofMap
  | bindDefault missing made depth? held =>
      refine Run.Stops.map _ ?_
      simp only [Run.initialValue, missing]
      exact .follow made stops.ofMap
  | expression depth? expr machine held => exact (stops.ofMap.bind _).map _
  | varDecl depth? decl machine held => exact (stops.ofMap.bind _).map _
  | returnValue depth? expr span machine held => exact (stops.ofMap.bind _).map _
  | conditional depth? branches otherwise? span machine held =>
      cases otherwise? with
      | none | some body => exact stops.ofMap.map _
  | condition depth? condition body rest otherwise? machine held =>
      exact ((stops.ofMap.bind _).bind _).map _
  | branch tested body rest otherwise? held => exact Run.Stops.map _ (.follow tested stops.ofMap)
  | nextBranch tested body rest otherwise? held =>
      exact Run.Stops.map _ (.follow tested stops.ofMap)
  | otherwise depth? body machine held => exact stops.ofMap.map _
  | whileLoop depth? condition body span machine held => exact stops.ofMap.map _
  | forInitial depth? initial condition? iteration? body span machine held =>
      exact ((stops.ofMap.bind _).inScope).map _
  | forLoop depth? condition? iteration? body span machine held =>
      exact stops.ofMap.inScope.map _
  | forLoopAfter executed condition? iteration? body span held =>
      exact Run.Stops.map _ (Run.Stops.inScope (.follow executed stops.ofMap))
  | loopCondition depth? condition iteration? body rounds machine held =>
      exact ((stops.ofMap.bind _).bind _).map _
  | loopBody holds iteration? body rounds held =>
      exact Run.Stops.map _ (.follow holds (stops.ofMap.bind _))
  | loopStep holds executed stays iteration rounds held =>
      exact Run.Stops.map _ (.follow holds (.follow executed (.follow stays
        ((stops.ofMap.bind _).bind _))))
  | loopAgain holds executed stays stepped rounds held =>
      exact Run.Stops.map _ (.follow holds (.follow executed (.follow stays
        (.follow stepped stops.ofMap))))
  | block depth? body machine held => exact stops.ofMap.map _
  | body depth? stmts span machine held => exact stops.ofMap.inScope.map _
  | first depth? stmt rest machine held => exact (stops.ofMap.bind _).map _
  | next executed goesOn rest held =>
      refine Run.Stops.map _ (.follow executed (.follow rfl ?_))
      simp only [goesOn, Bool.false_eq_true, ↓reduceIte]
      exact stops.ofMap

/-- The body of a function of a script stops its call. -/
theorem stops_of_callScript {depth : Nat} {function : FunctionId} {block : TypedBlock}
    {self? : Option Handle} {arguments : List Handle} {machine : Machine}
    (scripted : (setting.registry.function function).body = .script (some block))
    (stops : (Run.callScript (Run.callWithin depth) function
      ((setting.registry.function function).returnType?.getD setting.builtins.void)
      (setting.registry.function function).params block self? arguments).Stops setting machine)
    : (Run.callWithin (depth + 1) function self? arguments).Stops setting machine := by
  unfold Run.callWithin
  refine Run.Stops.checked (.follow rfl ?_)
  simp only [scripted]
  exact stops

/-- What stops on in the call of a function stops what led to it, by cases on that. -/
theorem Calls.stops (step : Calls setting before after) (stops : after.Stops setting)
    : before.Stops setting := by
  cases step with
  | within function self? arguments machine held =>
      exact Run.Stops.map _ (.follow rfl (.follow rfl stops.ofMap))
  | params scripted depth self? arguments machine held =>
      exact (stops_of_callScript scripted (stops.ofMap.bind _)).map _
  | param depth? param params argument arguments machine held =>
      exact (stops.ofMap.bind _).map _
  | nextParam bound depth? params arguments held =>
      exact Run.Stops.map _ (.follow bound (stops.ofMap.bind _))
  | body scripted bound depth self? held =>
      refine Run.Stops.map _ (stops_of_callScript scripted (.follow bound ?_))
      exact Run.Stops.bind (Run.Stops.enclosed (stops.ofMap.bind _)) _
  | @result depth function block self? returned? arguments params machine before middle after value
      scripted bound executed returned held =>
      refine Run.Stops.map _ (stops_of_callScript scripted (.follow bound (.follow executed ?_)))
      cases returned? with
      | none | some => exact .follow returned stops.ofMap

/-- What stops on outside of all functions stops what led to it, by cases on that. -/
theorem Prepares.stops (step : Prepares setting before after) (stops : after.Stops setting)
    : before.Stops setting := by
  have executed {program : Program} {machine : Machine}
      (stops : program.prepare.Stops setting machine)
      : Moment.Stops setting ⟨none, .run program, machine, []⟩ :=
    (stops.bind _).map _
  cases step with
  | statics program machine =>
      refine executed ?_
      rw [Program.prepare, Run.forM_initializeStatics]
      exact stops.ofMap.bind _
  | static decl rest machine => exact (stops.ofMap.bind _).map _
  | nextStatic initial rest => exact Run.Stops.map _ (.follow initial (.follow rfl stops.ofMap))
  | globals prepared =>
      refine executed ?_
      rw [Program.prepare, Run.forM_initializeStatics]
      exact .follow prepared stops.ofMap
  | global decl rest machine => exact (stops.ofMap.bind _).map _
  | nextGlobal initial rest => exact Run.Stops.map _ (.follow initial (.follow rfl stops.ofMap))
  | main prepared => exact Run.Stops.map _ (.follow prepared stops.ofMap)

/-- A moment that stops on stops what led to it. Nothing stops at rest. -/
theorem Leads.stops (step : Leads setting before after) (stops : after.Stops setting)
    : before.Stops setting := by
  cases step with
  | evaluates step => exact step.stops stops
  | executes step => exact step.stops stops
  | calls step => exact step.stops stops
  | prepares step => exact step.stops stops
  | rests step =>
      cases step with
      | ended | stopped => exact absurd stops (Run.not_stops_of_ok rfl)

end Moment

/-- A run that comes to its end was stopped at none of its moments, by induction over what leads to
them.
-/
theorem Program.Reaches.not_stops {program : Program} {limits : Limits} {system : BuildSystem}
    {moment : Moment} (reached : program.Reaches limits system moment) {value : Handle}
    (ended : (program.run limits system).1 = .ok value)
    : ¬ moment.Stops (program.setting limits) := by
  have outcome : program.execute (program.setting limits) (Machine.ofSystem system) =
      (.ok value, (program.run limits system).2) :=
    Prod.ext ended rfl
  induction reached with
  | refl => exact fun stops => Run.not_stops_of_ok outcome stops.ofMap
  | tail _ step ih => exact fun stops => ih (step.stops stops)

end BuildScript
