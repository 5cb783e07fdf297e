import BuildScript.Proofs.Run.MachineRenaming
import BuildScript.Proofs.Run.Stopping
import BuildScript.Proofs.Typed.Parts

/-! Runs that go alike. What is done on a machine is done on one that mirrors it, with the same
outcome and machines that mirror each other again, by induction over scripts. Calls are left to an
assumption, since settings may differ in how many may be open.
-/

namespace BuildScript

open Padding

-----------------------------------------------------------------------------------------
-- Moments of which something is always known
-----------------------------------------------------------------------------------------

namespace Moment

variable {setting : RunSetting} {holds : Moment → Prop} {before after : Moment}

/-- (Always setting holds moment) says that something holds of a moment, and of all that it leads
to.
-/
def Always (setting : RunSetting) (holds : Moment → Prop) (moment : Moment) : Prop :=
  ∀ later, Relation.ReflTransGen (Leads setting) moment later → holds later

theorem Always.now (always : before.Always setting holds) : holds before := always before .refl

/-- What always holds of a moment does of what it leads to. -/
theorem Always.leads (always : before.Always setting holds) (step : Leads setting before after)
    : after.Always setting holds :=
  fun later reached => always later (.head step reached)

end Moment

/-- (Rejects setting moment) says that the call that begins at a moment is rejected, since none may
be opened any more.
-/
def Moment.Rejects (setting : RunSetting) (moment : Moment) : Prop :=
  moment.depth? = some 0
    ∧ ∃ function self? arguments body, moment.activity = .call function self? arguments
        ∧ (setting.registry.function function).body = .script (some body)

/-- The operands of an expression are among those right inside of it. -/
theorem ExprKind.mem_parts_of_operands {kind : ExprKind} {operand : TypedExpr}
    (member : operand ∈ kind.operands)
    : operand ∈ kind.parts := by
  cases kind with
  | ternary condition whenTrue whenFalse =>
      exact List.mem_singleton.mp member ▸ List.mem_cons_self
  | designated | pending => exact absurd member List.not_mem_nil
  | _ => exact member

-----------------------------------------------------------------------------------------
-- Simulations
-----------------------------------------------------------------------------------------

/-- (Orderly names store) says that what a store holds can be copied under other names: cells keep
their names, or the heap is tidy.
-/
def Store.Orderly (names : CellId → CellId) (store : Store) : Prop :=
  names = id ∨ store.heap.Tidy

namespace Store.Orderly

variable {names : CellId → CellId} {store twin : Store}

/-- Copying a cell is mirrored. -/
theorem copy (orderly : store.Orderly names) (mirrors : store.Mirrors names twin) (cell : CellId)
    : Heap.Mirrored names store.heap twin.heap names (Heap.copy cell) (Heap.copy (names cell)) := by
  rcases orderly with rfl | tidy
  · rw [mirrors.heap.eq_of_id]
    exact ⟨rfl, .refl _⟩
  · exact .copy tidy mirrors.heap cell

/-- Copying the part of an object that belongs to a class is mirrored. -/
theorem slicedCopy (orderly : store.Orderly names) (mirrors : store.Mirrors names twin)
    (registry : Registry) (base : TypeId) (cell : CellId)
    : Heap.Mirrored names store.heap twin.heap names (Heap.slicedCopy registry base cell)
        (Heap.slicedCopy registry base (names cell)) := by
  rcases orderly with rfl | tidy
  · rw [mirrors.heap.eq_of_id]
    exact ⟨rfl, .refl _⟩
  · exact .slicedCopy tidy mirrors.heap registry base cell

/-- Every operation is mirrored. -/
theorem operation (orderly : store.Orderly names) (mirrors : store.Mirrors names twin)
    (environment : Environment) (operation : Operation) (self? : Option Handle)
    (operands : List Handle) (result : TypeId)
    : Effect.Mirrored names environment store twin (Handle.rename names)
        (operation.perform self? operands result)
        (operation.perform (self?.map (Handle.rename names)) (operands.map (Handle.rename names))
          result) := by
  rcases orderly with rfl | tidy
  · obtain rfl := mirrors.eq_of_id
    have same : Handle.rename id = id := funext Handle.rename_id
    rw [same, Option.map_id_fun, List.map_id]
    refine ⟨?_, .refl _, rfl⟩
    exact (congrFun Except.map_id _).symm
  · exact .operation mirrors tidy operation self? operands result

end Store.Orderly

/-- What is common to runs that go alike: their settings, of which only the limit on open calls may
differ, the names that the cells of the first run have in the second one, and what is known of the
moments of the first one.
-/
structure Simulation where
  setting : RunSetting
  twin : RunSetting
  names : CellId → CellId
  holds : Moment → Prop
  environment : twin.toEnvironment = setting.toEnvironment
  iterations : twin.limits.iterations = setting.limits.iterations
  orderly : ∀ moment, holds moment → moment.machine.store.Orderly names

namespace Simulation

variable (simulation : Simulation) {α β γ δ : Type}

/-- (Agree padding? change outcome other) says that two outcomes give the same under new names, or
stop for the same reason, and leave machines of which the second one mirrors the first.
-/
structure Agree (padding? : Option Padding) (change : α → β) (outcome : Except Stop α × Machine)
    (other : Except Stop β × Machine)
    : Prop where
  result : other.1 = outcome.1.map change
  machine : outcome.2.Mirrors simulation.names padding? other.2

/-- (Mirrored padding? machine twin change action other) says that an action on a machine agrees
with another one on its mirror.
-/
def Mirrored (padding? : Option Padding) (machine twin : Machine) (change : α → β) (action : Run α)
    (other : Run β)
    : Prop :=
  simulation.Agree padding? change (action simulation.setting machine)
    (other simulation.twin twin)

/-- (Known moment) says that what is known of moments holds from a moment on. -/
def Known (moment : Moment) : Prop := moment.Always simulation.setting simulation.holds

namespace Mirrored

variable {simulation} {padding? : Option Padding} {machine twin : Machine} {given : α → β}
  {changed : γ → δ}

-----------------------------------------------------------------------------------------
-- Composition of actions
-----------------------------------------------------------------------------------------

theorem pure (mirrors : machine.Mirrors simulation.names padding? twin) {value : α} {value' : β}
    (same : value' = given value)
    : simulation.Mirrored padding? machine twin given (Pure.pure value) (Pure.pure value') :=
  ⟨congrArg Except.ok same, mirrors⟩

theorem throw (mirrors : machine.Mirrors simulation.names padding? twin) (stop : Stop)
    : simulation.Mirrored padding? machine twin given (MonadExcept.throw stop : Run α)
        (MonadExcept.throw stop) :=
  ⟨rfl, mirrors⟩

/-- What follows mirrored actions has to be mirrored where they come to their end only. -/
theorem bind {action : Run α} {other : Run β} {next : α → Run γ} {following : β → Run δ}
    (first : simulation.Mirrored padding? machine twin given action other)
    (later : ∀ value after twin', action simulation.setting machine = (.ok value, after) →
      after.Mirrors simulation.names padding? twin' →
        simulation.Mirrored padding? after twin' changed (next value) (following (given value)))
    : simulation.Mirrored padding? machine twin changed (action >>= next)
        (other >>= following) := by
  obtain ⟨agree, mirrors⟩ := first
  unfold Mirrored
  rw [Run.run_bind, Run.run_bind]
  cases outcome : action simulation.setting machine with
  | mk result after =>
      cases outcome' : other simulation.twin twin with
      | mk result' twin' =>
          rw [outcome, outcome'] at agree mirrors
          obtain rfl := agree
          cases result with
          | ok value => exact later value after twin' outcome mirrors
          | error stop => exact ⟨rfl, mirrors⟩

/-- An action may look at the machines first. -/
theorem get {next : Machine → Run γ} {following : Machine → Run δ}
    (later : simulation.Mirrored padding? machine twin changed (next machine) (following twin))
    : simulation.Mirrored padding? machine twin changed (MonadState.get >>= next)
        (MonadState.get >>= following) :=
  later

/-- An action may look at the settings first. -/
theorem read {next : RunSetting → Run γ} {following : RunSetting → Run δ}
    (later : simulation.Mirrored padding? machine twin changed (next simulation.setting)
      (following simulation.twin))
    : simulation.Mirrored padding? machine twin changed (MonadReader.read >>= next)
        (MonadReader.read >>= following) :=
  later

theorem modified {change change' : Machine → Machine}
    (mirrors : (change machine).Mirrors simulation.names padding? (change' twin))
    : simulation.Mirrored padding? machine twin id
        (MonadState.modifyGet fun machine => ((), change machine))
        (MonadState.modifyGet fun machine => ((), change' machine)) :=
  ⟨rfl, mirrors⟩

/-- Both runs stop after actions that have reported a fatal error. -/
theorem checked {action : Run α} {other : Run β}
    (made : simulation.Mirrored padding? machine twin given action other)
    : simulation.Mirrored padding? machine twin given (Run.checked action) (Run.checked other) := by
  refine made.bind fun value after twin' _ mirrors => get ?_
  rw [mirrors.store.system]
  split
  · exact throw mirrors _
  · exact pure mirrors rfl

/-- Actions between an opening and a closing change are mirrored if they are when it is opened. -/
theorem enclosed {opened closed opened' closed' : Machine → Machine} {inside? : Option Padding}
    {action : Run α} {other : Run β}
    (made : simulation.Mirrored inside? (opened machine) (opened' twin) given action other)
    (closes : ∀ {after twin'}, after.Mirrors simulation.names inside? twin' →
      (closed after).Mirrors simulation.names padding? (closed' twin'))
    : simulation.Mirrored padding? machine twin given
        ((MonadState.modifyGet fun machine => ((), opened machine)) >>= fun _ =>
          Run.ensuring closed action)
        ((MonadState.modifyGet fun machine => ((), opened' machine)) >>= fun _ =>
          Run.ensuring closed' other) :=
  ⟨made.result, closes made.machine⟩

theorem inScope {action : Run α} {other : Run β}
    (made : simulation.Mirrored (inner padding?) machine.enterScope twin.enterScope given action
      other)
    : simulation.Mirrored padding? machine twin given (Run.inScope action) (Run.inScope other) :=
  enclosed made fun mirrors => mirrors.leaveScope

-----------------------------------------------------------------------------------------
-- Operations
-----------------------------------------------------------------------------------------

theorem perform {effect : Effect α} {other : Effect β}
    (mirrors : machine.Mirrors simulation.names padding? twin)
    (mirrored : Effect.Mirrored simulation.names simulation.setting.toEnvironment machine.store
      twin.store given effect other)
    : simulation.Mirrored padding? machine twin given (Run.perform effect) (Run.perform other) := by
  obtain ⟨agree, stored⟩ := mirrored
  unfold Mirrored
  rw [Run.perform_run, Run.perform_run, simulation.environment]
  cases outcome : effect simulation.setting.toEnvironment machine.store with
  | mk result after =>
      cases outcome' : other simulation.setting.toEnvironment twin.store with
      | mk result' twin' =>
          rw [outcome, outcome'] at agree stored
          obtain rfl := agree
          cases result with
          | ok value => exact ⟨rfl, mirrors.withStore stored⟩
          | error fault =>
              exact ⟨rfl, (mirrors.withStore stored).request (.fatalError fault.message)⟩

theorem fail (mirrors : machine.Mirrors simulation.names padding? twin) (reason : Fault)
    : simulation.Mirrored padding? machine twin given (Run.fail reason : Run α)
        (Run.fail reason) :=
  perform mirrors (.throw mirrors.store reason)

theorem registry : simulation.twin.registry = simulation.setting.registry :=
  congrArg Environment.registry simulation.environment

theorem builtins : simulation.twin.builtins = simulation.setting.builtins :=
  congrArg Environment.builtins simulation.environment

-----------------------------------------------------------------------------------------
-- Values
-----------------------------------------------------------------------------------------

section Values

variable (mirrors : machine.Mirrors simulation.names padding? twin)

include mirrors

theorem createDefault (type : TypeId)
    : simulation.Mirrored padding? machine twin (Handle.rename simulation.names)
        (Run.createDefault type) (Run.createDefault type) := by
  refine read ?_
  rw [registry]
  exact perform mirrors (.own mirrors.store (.createDefault mirrors.store.heap _ type))

theorem new (type : TypeId) (value : Value) {value' : Value}
    (same : value' = value.rename simulation.names)
    : simulation.Mirrored padding? machine twin (Handle.rename simulation.names)
        (Run.new type value) (Run.new type value') :=
  perform mirrors (.new mirrors.store type value same)

theorem void
    : simulation.Mirrored padding? machine twin (Handle.rename simulation.names) Run.void
        Run.void :=
  perform mirrors (.void mirrors.store)

theorem request (call : BuildCall)
    : simulation.Mirrored padding? machine twin id (Run.perform (Effect.request call))
        (Run.perform (Effect.request call)) :=
  perform mirrors (.request mirrors.store call)

/-- What is found in a machine is referred to, and both runs stop where nothing is found. -/
theorem found (found? : Option Handle) (fault : Fault)
    : simulation.Mirrored padding? machine twin (Handle.rename simulation.names)
        (match found? with
        | some handle => Pure.pure handle.toReference
        | none => Run.fail fault : Run Handle)
        (match found?.map (Handle.rename simulation.names) with
        | some handle => Pure.pure handle.toReference
        | none => Run.fail fault) := by
  cases found? with
  | none => exact fail mirrors fault
  | some handle => exact pure mirrors (Handle.toReference_rename _ handle)

theorem variableAt (index : Nat) (name : String)
    : simulation.Mirrored padding? machine twin (Handle.rename simulation.names)
        (Run.variableAt index name) (Run.variableAt index name) := by
  refine get ?_
  rw [mirrors.lookup?]
  exact found mirrors _ _

theorem currentObject
    : simulation.Mirrored padding? machine twin (Handle.rename simulation.names) Run.currentObject
        Run.currentObject := by
  refine get ?_
  rw [mirrors.self?]
  exact found mirrors _ _

theorem memberOf (object : Handle) (name : String) (index : Nat)
    : simulation.Mirrored padding? machine twin (Handle.rename simulation.names)
        (Run.memberOf object name index)
        (Run.memberOf (object.rename simulation.names) name index) := by
  refine get ?_
  rw [Handle.cell_rename, mirrors.store.heap.value, Value.member?_rename]
  cases (machine.store.heap.value object.cell).member? index with
  | none => exact fail mirrors _
  | some cell => exact pure mirrors rfl

theorem setMember (object : Handle) (index : Nat) (value : Handle)
    : simulation.Mirrored padding? machine twin id (Run.setMember object index value)
        (Run.setMember (object.rename simulation.names) index
          (value.rename simulation.names)) := by
  refine get ?_
  rw [Handle.cell_rename, mirrors.store.heap.value, Value.members?_rename]
  cases (machine.store.heap.value object.cell).members? with
  | none => exact pure mirrors rfl
  | some members =>
      refine perform mirrors (.setValue mirrors.store object ?_)
      rw [Handle.cell_rename, Value.setMember_rename]
      rfl

variable (orderly : machine.store.Orderly simulation.names)

include orderly

theorem own (handle : Handle)
    : simulation.Mirrored padding? machine twin (Handle.rename simulation.names) (Run.own handle)
        (Run.own (handle.rename simulation.names)) := by
  cases handle with
  | owned cell => exact pure mirrors rfl
  | reference cell base? =>
      exact perform mirrors (.own mirrors.store (orderly.copy mirrors.store cell))

theorem bindIn (type : TypeId) (handle : Handle)
    : simulation.Mirrored padding? machine twin (Handle.rename simulation.names)
        (Run.bind type handle) (Run.bind type (handle.rename simulation.names)) := by
  refine read ?_
  rw [registry]
  split
  · exact pure mirrors (Handle.toReference_rename _ handle)
  · exact own mirrors orderly handle

theorem cast (kind : CastKind) (type : TypeId) (handle : Handle)
    : simulation.Mirrored padding? machine twin (Handle.rename simulation.names)
        (Run.cast kind type handle) (Run.cast kind type (handle.rename simulation.names)) := by
  refine read ?_
  rw [registry]
  have sliced (base : TypeId) := orderly.slicedCopy mirrors.store simulation.setting.registry base
    handle.cell
  rw [← Handle.cell_rename simulation.names] at sliced
  cases kind with
  | reference => exact pure mirrors (Handle.toReference_rename _ handle)
  | baseReference => exact pure mirrors (Handle.toReferenceAs_rename _ handle _)
  | value =>
      refine read ?_
      rw [registry]
      refine perform mirrors (.own mirrors.store ?_)
      rw [Handle.base?_rename]
      cases handle.base? with
      | none =>
          simp only [Handle.cell_rename]
          exact orderly.copy mirrors.store handle.cell
      | some base => exact sliced base
  | baseValue => exact perform mirrors (.own mirrors.store (sliced _))

end Values

end Mirrored

-----------------------------------------------------------------------------------------
-- Expressions
-----------------------------------------------------------------------------------------

/-- (CallsMirrored depth? other) says that known calls are mirrored by others. -/
def CallsMirrored (depth? : Option Nat) (other : Caller) : Prop :=
  ∀ function self? arguments machine twin padding? held,
    simulation.Known ⟨depth?, .call function self? arguments, machine, held⟩ →
      machine.Mirrors simulation.names padding? twin →
        simulation.Mirrored padding? machine twin (Handle.rename simulation.names)
          (Run.caller depth? function self? arguments)
          (other function (self?.map (Handle.rename simulation.names))
            (arguments.map (Handle.rename simulation.names)))

/-- (ExprMirrored depth? other expr) says that known evaluations of an expression are mirrored. -/
def ExprMirrored (depth? : Option Nat) (other : Caller) (expr : TypedExpr) : Prop :=
  ∀ machine twin padding? held, simulation.Known ⟨depth?, .evaluate expr, machine, held⟩ →
    machine.Mirrors simulation.names padding? twin →
      simulation.Mirrored padding? machine twin (Handle.rename simulation.names)
        (Run.evaluate (Run.caller depth?) expr) (Run.evaluate other expr)

variable {simulation}

/-- What is known of a moment is known of what it leads to. -/
theorem Known.leads {before after : Moment} (known : simulation.Known before)
    (step : Moment.Leads simulation.setting before after)
    : simulation.Known after :=
  Moment.Always.leads known step

/-- The store at a known moment can be copied under other names. -/
theorem Known.orderly {moment : Moment} (known : simulation.Known moment)
    : moment.machine.store.Orderly simulation.names :=
  simulation.orderly moment known.now

/-- What is known before an evaluation is known after it. -/
theorem Known.evaluated {depth? : Option Nat} {expr : TypedExpr} {machine after : Machine}
    {held : List Handle} {value : Handle}
    (known : simulation.Known ⟨depth?, .evaluate expr, machine, held⟩)
    (evaluated : Run.evaluate (Run.caller depth?) expr simulation.setting machine =
      (.ok value, after))
    : simulation.Known ⟨depth?, .rest, after, [value] ++ held⟩ := by
  refine known.leads (.rests (.ended ?_ held))
  show (List.singleton <$> Run.evaluate (Run.caller depth?) expr : Run (List Handle)) _ _ = _
  rw [map_eq_pure_bind, Run.run_bind, evaluated]
  rfl

namespace Mirrored

variable {padding? : Option Padding} {machine twin : Machine} {depth? : Option Nat}
  {other : Caller} {held : List Handle}

/-- Several expressions are mirrored together, by induction over them. -/
theorem evaluateAll {exprs : List TypedExpr}
    (each : ∀ expr ∈ exprs, simulation.ExprMirrored depth? other expr)
    (known : simulation.Known ⟨depth?, .evaluateAll exprs, machine, held⟩)
    (mirrors : machine.Mirrors simulation.names padding? twin)
    : simulation.Mirrored padding? machine twin (List.map (Handle.rename simulation.names))
        (Run.evaluateAll (Run.caller depth?) exprs) (Run.evaluateAll other exprs) := by
  induction exprs generalizing machine twin held with
  | nil => exact pure mirrors rfl
  | cons first rest ih =>
      obtain ⟨one, others⟩ := List.forall_mem_cons.mp each
      refine (one machine twin padding? held (known.leads (.evaluates (.first ..))) mirrors).bind
        fun value after twin' evaluated mirrors => ?_
      refine (ih others (known.leads (.evaluates (.next evaluated ..))) mirrors).bind
        fun values _ _ _ mirrors => pure mirrors rfl

/-- The call of a function on the value of an expression, with the values of others. -/
theorem onObject (called : simulation.CallsMirrored depth? other)
    (mirrors : machine.Mirrors simulation.names padding? twin) {kind : ExprKind} {type : TypeId}
    {span : Span} {first : TypedExpr} {rest : List TypedExpr} {function : FunctionId}
    (each : ∀ operand ∈ kind.operands, simulation.ExprMirrored depth? other operand)
    (operands : kind.operands = first :: rest)
    (calls : ∀ current? values, kind.call? current? values =
      values.head?.map fun object => (function, some object, values.tail))
    (stays : ∀ machine, kind.entered machine = machine)
    (known : simulation.Known ⟨depth?, .evaluate (.mk kind type span), machine, held⟩)
    : simulation.Mirrored padding? machine twin (Handle.rename simulation.names)
        (Run.evaluate (Run.caller depth?) first >>= fun object =>
          Run.evaluateAll (Run.caller depth?) rest >>= fun arguments =>
            Run.caller depth? function (some object) arguments)
        (Run.evaluate other first >>= fun object =>
          Run.evaluateAll other rest >>= fun arguments =>
            other function (some object) arguments) := by
  have inside := known.leads (.evaluates (.operands ..))
  rw [operands] at each inside
  obtain ⟨one, others⟩ := List.forall_mem_cons.mp each
  refine (one machine twin padding? held (inside.leads (.evaluates (.first ..))) mirrors).bind
    fun object middle twin' evaluated mirrors => ?_
  refine (evaluateAll others (inside.leads (.evaluates (.next evaluated ..))) mirrors).bind
    fun arguments after twin' later mirrors => ?_
  have whole := Run.evaluateAll_cons evaluated later
  rw [← operands] at whole
  have call := known.leads (.evaluates (.call whole (calls _ _) type span held))
  rw [stays] at call
  exact called _ _ _ _ _ _ _ call mirrors

/-- The construction of an object, once its arguments have their values. -/
theorem construct (called : simulation.CallsMirrored depth? other)
    (mirrors : machine.Mirrors simulation.names padding? twin) {exprs : List TypedExpr}
    {type : TypeId} {span : Span} {function? : Option FunctionId} {arguments : List Handle}
    {start : Machine}
    (known : simulation.Known
      ⟨depth?, .evaluate (.mk (.construct function? exprs) type span), start, held⟩)
    (evaluated : Run.evaluateAll (Run.caller depth?) exprs simulation.setting start =
      (.ok arguments, machine))
    : simulation.Mirrored padding? machine twin (Handle.rename simulation.names)
        (Run.construct (Run.caller depth?) type function? arguments)
        (Run.construct other type function?
          (arguments.map (Handle.rename simulation.names))) := by
  cases function? with
  | none => exact createDefault mirrors type
  | some function =>
      refine read ?_
      rw [registry]
      cases performed : (simulation.setting.registry.function function).isBuiltin with
      | true =>
          simp only [↓reduceIte]
          exact called _ _ _ _ _ _ _
            (known.leads (.evaluates (.perform evaluated performed ..))) mirrors
      | false =>
          simp only [Bool.false_eq_true, ↓reduceIte]
          refine (createDefault mirrors type).bind fun object after twin' made mirrors => ?_
          have call := called _ _ _ _ _ _ _
            (known.leads (.evaluates (.construct evaluated performed made ..))) mirrors
          rw [Option.map_some, ← Handle.toReference_rename] at call
          exact call.bind fun _ _ _ _ mirrors => pure mirrors rfl

/-- Values that are owned are mirrored by others, by induction over them. -/
theorem ownAll {values : List Handle}
    (known : simulation.Known ⟨depth?, .ownAll values, machine, held⟩)
    (mirrors : machine.Mirrors simulation.names padding? twin)
    : simulation.Mirrored padding? machine twin (List.map (Handle.rename simulation.names))
        (values.mapM Run.own) ((values.map (Handle.rename simulation.names)).mapM Run.own) := by
  induction values generalizing machine twin held with
  | nil => exact pure mirrors rfl
  | cons first rest ih =>
      rw [List.map_cons, List.mapM_cons, List.mapM_cons]
      refine (own mirrors known.orderly first).bind fun owner after twin' owns mirrors => ?_
      exact (ih (known.leads (.evaluates (.owned owns ..))) mirrors).bind
        fun _ _ _ _ mirrors => pure mirrors rfl

/-- The members of an object are set alike, by induction over them. -/
theorem evaluateMembers {object : Handle} {members : List MemberValue}
    (each : ∀ expr ∈ members.map MemberValue.value, simulation.ExprMirrored depth? other expr)
    (known : simulation.Known ⟨depth?, .setMembers object members, machine, held⟩)
    (mirrors : machine.Mirrors simulation.names padding? twin)
    : simulation.Mirrored padding? machine twin id
        (Run.evaluateMembers (Run.caller depth?) object members)
        (Run.evaluateMembers other (object.rename simulation.names) members) := by
  induction members generalizing machine twin held with
  | nil => exact pure mirrors rfl
  | cons first rest ih =>
      obtain ⟨index, expr⟩ := first
      obtain ⟨one, others⟩ := List.forall_mem_cons.mp each
      refine (one machine twin padding? _ (known.leads (.evaluates (.member ..))) mirrors).bind
        fun value middle twin' evaluated mirrors => ?_
      have owning := known.leads (.evaluates (.memberOwned evaluated ..))
      refine (own mirrors owning.orderly value).bind fun owner later twin' owns mirrors => ?_
      refine (setMember mirrors object index owner).bind fun _ after twin' set mirrors => ?_
      exact ih others (known.leads (.evaluates (.memberSet evaluated owns set ..))) mirrors

/-- An expression is mirrored when those right inside of it are, by cases on what it does. -/
theorem evaluate_inherited (called : simulation.CallsMirrored depth? other)
    : TypedExpr.Inherited (simulation.ExprMirrored depth? other) := by
  intro kind type span parts machine twin padding? held known mirrors
  have operands (operand : TypedExpr) (member : operand ∈ kind.operands) :=
    parts operand (ExprKind.mem_parts_of_operands member)
  have inside := known.leads (.evaluates (.operands ..))
  have all := evaluateAll operands inside mirrors
  refine checked ?_
  cases kind with
  | bool | int | double | string | enumerator => exact new mirrors _ _ rfl
  | id index name => exact variableAt mirrors index name
  | binary lhs operator function rhs =>
      have alike := onObject called mirrors operands rfl (fun _ _ => rfl) (fun _ => rfl) known
      simpa only [Run.evaluateKind, Run.evaluateAll, bind_assoc, pure_bind] using alike
  | unary operator function operand =>
      have alike := onObject called mirrors operands rfl (fun _ _ => rfl) (fun _ => rfl) known
      simpa only [Run.evaluateKind, Run.evaluateAll, bind_assoc, pure_bind] using alike
  | memberCall object function arguments =>
      exact onObject called mirrors operands rfl (fun _ _ => rfl) (fun _ => rfl) known
  | ternary condition whenTrue whenFalse =>
      refine (operands condition List.mem_cons_self machine twin padding? held
        (inside.leads (.evaluates (.first ..))) mirrors).bind
          fun value after twin' evaluated mirrors => ?_
      have chosen := known.leads
        (.evaluates (.choice (Run.test_of_evaluate evaluated) whenTrue whenFalse type span held))
      have same : (twin'.store.heap.value (value.rename simulation.names).cell).asBool =
          (after.store.heap.value value.cell).asBool := by
        rw [Handle.cell_rename, mirrors.store.heap.value, Value.asBool_rename]
      refine get ?_
      split at chosen
      · next holds =>
          simp only [same, holds, ↓reduceIte]
          exact parts whenTrue (List.mem_cons_of_mem _ List.mem_cons_self) _ _ _ _ chosen mirrors
      · next fails =>
          simp only [same, fails]
          exact parts whenFalse (List.mem_cons_of_mem _ (List.mem_cons_of_mem _ List.mem_cons_self))
            _ _ _ _ chosen mirrors
  | member object name index =>
      exact (operands object List.mem_cons_self machine twin padding? held
        (inside.leads (.evaluates (.first ..))) mirrors).bind
          fun value _ _ _ mirrors => memberOf mirrors value name index
  | call function arguments =>
      exact all.bind fun values after twin' evaluated mirrors =>
        called _ _ _ _ _ _ _ (known.leads (.evaluates (.call evaluated rfl ..))) mirrors
  | implicitCall function arguments =>
      refine (currentObject mirrors).bind fun object after twin' found again => ?_
      obtain ⟨rfl, current⟩ := Run.of_currentObject found
      refine (evaluateAll operands inside again).bind fun values after twin' evaluated mirrors => ?_
      obtain ⟨handle, at_hand, rfl⟩ := Option.map_eq_some_iff.mp current
      refine called _ _ _ _ _ _ _
        (known.leads (.evaluates (.call evaluated ?_ type span held))) mirrors
      rw [at_hand]
      rfl
  | construct function? arguments =>
      exact all.bind fun values after twin' evaluated mirrors =>
        construct called mirrors known evaluated
  | scriptDirectory directory function arguments =>
      refine all.bind fun values after twin' evaluated mirrors => ?_
      refine enclosed ?_ fun mirrors => mirrors.request .leaveDirectory
      exact called _ _ _ _ _ _ _ (known.leads (.evaluates (.call evaluated rfl ..)))
        (mirrors.request _)
  | declarativeDirectory directory function =>
      refine enclosed ?_ fun mirrors => mirrors.request .leaveDirectory
      exact called _ _ _ _ _ _ _ (known.leads (.evaluates (.call rfl rfl ..))) (mirrors.request _)
  | declarativeFile file function =>
      exact called _ _ _ _ _ _ _ (known.leads (.evaluates (.call rfl rfl ..))) mirrors
  | listfileDirectory directory =>
      exact (request mirrors _).bind fun _ _ _ _ mirrors => new mirrors _ _ rfl
  | cast kind inner =>
      have starts := inside.leads (.evaluates (.first ..))
      exact (operands inner List.mem_cons_self machine twin padding? held starts mirrors).bind
        fun value _ _ evaluated mirrors =>
          cast mirrors (starts.evaluated evaluated).orderly kind type value
  | list values =>
      refine all.bind fun values _ _ evaluated mirrors => ?_
      refine (ownAll (known.leads (.evaluates (.elements evaluated ..))) mirrors).bind
        fun owners _ _ _ mirrors => new mirrors _ _ ?_
      simp [Function.comp_def]
  | designated members =>
      exact (createDefault mirrors type).bind fun object after twin' made mirrors =>
        (evaluateMembers parts (known.leads (.evaluates (.members made ..))) mirrors).bind
          fun _ _ _ _ mirrors => pure mirrors rfl
  | pending fields => exact fail mirrors _

/-- Every expression is mirrored, by induction along those right inside of it. -/
theorem evaluate (called : simulation.CallsMirrored depth? other) (expr : TypedExpr)
    : simulation.ExprMirrored depth? other expr :=
  (evaluate_inherited called).all expr

-----------------------------------------------------------------------------------------
-- Statements
-----------------------------------------------------------------------------------------

theorem test (called : simulation.CallsMirrored depth? other) {condition : TypedExpr}
    (known : simulation.Known ⟨depth?, .evaluate condition, machine, held⟩)
    (mirrors : machine.Mirrors simulation.names padding? twin)
    : simulation.Mirrored padding? machine twin id (Run.test (Run.caller depth?) condition)
        (Run.test other condition) := by
  refine (evaluate called condition machine twin padding? held known mirrors).bind
    fun value after twin' _ mirrors => get (pure mirrors ?_)
  rw [Handle.cell_rename, mirrors.store.heap.value, Value.asBool_rename]
  rfl

theorem initialValue (called : simulation.CallsMirrored depth? other) {decl : TypedVariable}
    (known : simulation.Known ⟨depth?, .initial decl, machine, held⟩)
    (mirrors : machine.Mirrors simulation.names padding? twin)
    : simulation.Mirrored padding? machine twin (Handle.rename simulation.names)
        (Run.initialValue (Run.caller depth?) decl) (Run.initialValue other decl) := by
  unfold Run.initialValue
  cases given : decl.initial? with
  | none =>
      refine (createDefault mirrors decl.type).bind fun value after twin' made mirrors => ?_
      have binds := known.leads (.executes (.bindDefault given made ..))
      exact bindIn mirrors binds.orderly decl.type value
  | some expr =>
      have starts := known.leads (.executes (.initial given ..))
      refine (evaluate called expr machine twin padding? held starts mirrors).bind
        fun value after twin' evaluated mirrors => ?_
      have binds := known.leads (.executes (.bindInitial given evaluated held))
      exact bindIn mirrors binds.orderly decl.type value

/-- The condition of a loop, if it has one. -/
theorem condition (called : simulation.CallsMirrored depth? other)
    {condition? iteration? : Option TypedExpr} {body : TypedBlock} {rounds : Nat}
    (known :
      simulation.Known ⟨depth?, .loop condition? iteration? body (rounds + 1), machine, held⟩)
    (mirrors : machine.Mirrors simulation.names padding? twin)
    : simulation.Mirrored padding? machine twin id (Run.condition (Run.caller depth?) condition?)
        (Run.condition other condition?) := by
  cases condition? with
  | none => exact pure mirrors rfl
  | some condition => exact test called (known.leads (.executes (.loopCondition ..))) mirrors

/-- A loop that goes on does so in both runs, and one that ends is done with a `break` in both. -/
theorem leavesLoop (mirrors : machine.Mirrors simulation.names padding? twin)
    : simulation.Mirrored padding? machine twin id Run.leavesLoop Run.leavesLoop := by
  unfold Mirrored
  rw [Run.Obeys.leavesLoop_run, Run.Obeys.leavesLoop_run, mirrors.breaking]
  split
  · exact ⟨rfl, { mirrors with breaking := rfl }⟩
  · exact ⟨by rw [mirrors.returned, Option.isSome_map]; rfl, mirrors⟩

/-- The step of a loop, if it has one. -/
theorem step (called : simulation.CallsMirrored depth? other) (iteration? : Option TypedExpr)
    (known : ∀ iteration, iteration? = some iteration →
      simulation.Known ⟨depth?, .evaluate iteration, machine, held⟩)
    (mirrors : machine.Mirrors simulation.names padding? twin)
    : simulation.Mirrored padding? machine twin id (Run.step (Run.caller depth?) iteration?)
        (Run.step other iteration?) := by
  cases iteration? with
  | none => exact pure mirrors rfl
  | some iteration =>
      exact (evaluate called iteration machine twin padding? held
        (known iteration rfl) mirrors).bind
        fun _ _ _ _ mirrors => pure mirrors rfl

/-- Loops whose bodies are mirrored are mirrored, by induction over the rounds that they may take.
-/
theorem loop (called : simulation.CallsMirrored depth? other)
    {condition? iteration? : Option TypedExpr} {body : TypedBlock} {rounds : Nat}
    (runs : ∀ machine twin held, simulation.Known ⟨depth?, .executeBlock body, machine, held⟩ →
      machine.Mirrors simulation.names padding? twin →
        simulation.Mirrored padding? machine twin id (Run.executeBlock (Run.caller depth?) body)
          (Run.executeBlock other body))
    (known : simulation.Known ⟨depth?, .loop condition? iteration? body rounds, machine, held⟩)
    (mirrors : machine.Mirrors simulation.names padding? twin)
    : simulation.Mirrored padding? machine twin id
        (Run.loop (Run.condition (Run.caller depth?) condition?)
          (Run.executeBlock (Run.caller depth?) body) (Run.step (Run.caller depth?) iteration?)
          rounds)
        (Run.loop (Run.condition other condition?) (Run.executeBlock other body)
          (Run.step other iteration?) rounds) := by
  induction rounds generalizing machine twin with
  | zero => exact throw mirrors .exhausted
  | succ rounds ih =>
      rw [Run.loop, Run.loop]
      refine (condition called known mirrors).bind fun holds before twin' tested mirrors => ?_
      cases holds with
      | false => exact pure mirrors rfl
      | true =>
          refine (runs _ _ _ (known.leads (.executes (.loopBody tested ..))) mirrors).bind
            fun _ middle twin' executed mirrors => ?_
          refine (leavesLoop mirrors).bind fun leaves later twin' stays mirrors => ?_
          cases leaves with
          | true => exact pure mirrors rfl
          | false =>
              have steps := step called iteration? (fun iteration same => by
                subst same
                exact known.leads (.executes (.loopStep tested executed stays ..))) mirrors
              exact steps.bind fun _ _ _ stepped mirrors =>
                ih (known.leads (.executes (.loopAgain tested executed stays stepped ..))) mirrors

mutual

/-- Every statement is mirrored, unless variables would be declared in an added scope, by induction
over statements.
-/
theorem execute (called : simulation.CallsMirrored depth? other) (stmt : TypedStmt)
    (machine twin : Machine) (padding? : Option Padding) (held : List Handle)
    (outer : ¬ IsInnermost padding?)
    (known : simulation.Known ⟨depth?, .execute stmt, machine, held⟩)
    (mirrors : machine.Mirrors simulation.names padding? twin)
    : simulation.Mirrored padding? machine twin id (Run.execute (Run.caller depth?) stmt)
        (Run.execute other stmt) := by
  have returned (value : Handle) {after twin' : Machine}
      (mirrors : after.Mirrors simulation.names padding? twin')
      : simulation.Mirrored padding? after twin' id
          (MonadState.modifyGet fun machine : Machine =>
            ((), { machine with returned? := some value }))
          (MonadState.modifyGet fun machine : Machine =>
            ((), { machine with returned? := some (value.rename simulation.names) })) :=
    modified { mirrors with returned := rfl }
  cases stmt with
  | expression value =>
      exact (evaluate called value machine twin padding? held
        (known.leads (.executes (.expression ..))) mirrors).bind
          fun _ _ _ _ mirrors => pure mirrors rfl
  | varDecl decl =>
      exact (initialValue called (known.leads (.executes (.varDecl ..))) mirrors).bind
        fun value _ _ _ mirrors => modified (mirrors.addVariable outer decl.index value)
  | returnValue value? span =>
      cases value? with
      | none => exact (void mirrors).bind fun value _ _ _ mirrors => returned value mirrors
      | some value =>
          exact (evaluate called value machine twin padding? held
            (known.leads (.executes (.returnValue ..))) mirrors).bind
              fun value _ _ _ mirrors => returned value mirrors
  | implicitReturn span =>
      exact (void mirrors).bind fun value _ _ _ mirrors => returned value mirrors
  | conditional branches otherwise? span =>
      have inside := known.leads (.executes (.conditional ..))
      cases otherwise? with
      | none =>
          exact executeBranches called branches none machine twin padding? held
            (fun _ _ _ _ mirrors => pure mirrors rfl) inside mirrors
      | some body =>
          exact executeBranches called branches (some body) machine twin padding? held
            (fun machine twin held known mirrors => executeBlock called body machine twin padding?
              held (known.leads (.executes (.otherwise ..))) mirrors) inside mirrors
  | whileLoop condition body span =>
      refine read ?_
      rw [simulation.iterations]
      exact loop called (fun machine twin => executeBlock called body machine twin padding?)
        (known.leads (.executes (.whileLoop ..))) mirrors
  | forLoop initial? condition? iteration? body span =>
      have runs (machine twin : Machine) := executeBlock called body machine twin (inner padding?)
      have entered := mirrors.enterScope
      cases initial? with
      | none =>
          refine inScope (read ?_)
          rw [simulation.iterations]
          exact loop called runs (known.leads (.executes (.forLoop ..))) entered
      | some initial =>
          have begins := execute called initial machine.enterScope twin.enterScope (inner padding?)
            held (not_isInnermost_inner padding?) (known.leads (.executes (.forInitial ..))) entered
          refine inScope (begins.bind fun _ _ _ executed mirrors => read ?_)
          rw [simulation.iterations]
          exact loop called runs (known.leads (.executes (.forLoopAfter executed ..))) mirrors
  | breakLoop span => exact modified { mirrors with breaking := rfl }
  | block body =>
      exact executeBlock called body machine twin padding? held
        (known.leads (.executes (.block ..))) mirrors
termination_by structural stmt

theorem executeBlock (called : simulation.CallsMirrored depth? other) (block : TypedBlock)
    (machine twin : Machine) (padding? : Option Padding) (held : List Handle)
    (known : simulation.Known ⟨depth?, .executeBlock block, machine, held⟩)
    (mirrors : machine.Mirrors simulation.names padding? twin)
    : simulation.Mirrored padding? machine twin id (Run.executeBlock (Run.caller depth?) block)
        (Run.executeBlock other block) := by
  cases block with
  | mk body span =>
      exact inScope (executeAll called body _ _ _ held (not_isInnermost_inner padding?)
        (known.leads (.executes (.body ..))) mirrors.enterScope)
termination_by structural block

theorem executeAll (called : simulation.CallsMirrored depth? other) (stmts : List TypedStmt)
    (machine twin : Machine) (padding? : Option Padding) (held : List Handle)
    (outer : ¬ IsInnermost padding?)
    (known : simulation.Known ⟨depth?, .executeAll stmts, machine, held⟩)
    (mirrors : machine.Mirrors simulation.names padding? twin)
    : simulation.Mirrored padding? machine twin id (Run.executeAll (Run.caller depth?) stmts)
        (Run.executeAll other stmts) := by
  cases stmts with
  | nil => exact pure mirrors rfl
  | cons first rest =>
      refine (execute called first machine twin padding? held outer
        (known.leads (.executes (.first ..))) mirrors).bind
          fun _ after twin' executed mirrors => get ?_
      rw [mirrors.interrupted]
      cases goesOn : Run.interrupted after with
      | true => exact pure mirrors rfl
      | false =>
          exact executeAll called rest after twin' padding? held outer
            (known.leads (.executes (.next executed goesOn ..))) mirrors
termination_by structural stmts

theorem executeBranches (called : simulation.CallsMirrored depth? other)
    (branches : List TypedBranch) (otherwise? : Option TypedBlock) (machine twin : Machine)
    (padding? : Option Padding) (held : List Handle) {otherwise another : Run Unit}
    (last : ∀ machine twin held,
      simulation.Known ⟨depth?, .executeBranches [] otherwise?, machine, held⟩ →
        machine.Mirrors simulation.names padding? twin →
          simulation.Mirrored padding? machine twin id otherwise another)
    (known : simulation.Known ⟨depth?, .executeBranches branches otherwise?, machine, held⟩)
    (mirrors : machine.Mirrors simulation.names padding? twin)
    : simulation.Mirrored padding? machine twin id
        (Run.executeBranches (Run.caller depth?) otherwise branches)
        (Run.executeBranches other another branches) := by
  cases branches with
  | nil => exact last machine twin held known mirrors
  | cons first rest =>
      cases first with
      | mk condition body =>
          refine (test called (known.leads (.executes (.condition ..))) mirrors).bind
            fun holds after twin' tested mirrors => ?_
          cases holds with
          | true =>
              exact executeBlock called body after twin' padding? held
                (known.leads (.executes (.branch tested ..))) mirrors
          | false =>
              exact executeBranches called rest otherwise? after twin' padding? held last
                (known.leads (.executes (.nextBranch tested ..))) mirrors
termination_by structural branches

end

-----------------------------------------------------------------------------------------
-- Calls
-----------------------------------------------------------------------------------------

/-- The body of a function is executed alike if it is in the frame of the call. -/
theorem inFrame {body another : Run Unit} (frame : Frame)
    (made : simulation.Mirrored (called padding?)
      { machine with frames := frame :: machine.frames }
      { twin with frames := frame.rename simulation.names :: twin.frames } id body another)
    : simulation.Mirrored padding? machine twin (Option.map (Handle.rename simulation.names))
        (Run.inFrame frame body) (Run.inFrame (frame.rename simulation.names) another) :=
  enclosed (made.bind fun _ _ _ _ mirrors => get (pure mirrors mirrors.returned))
    fun mirrors => mirrors.takeReturned

/-- The parameters of a function are bound alike, by induction over them. -/
theorem bindParams {params : List Param} {arguments : List Handle}
    (known : simulation.Known ⟨depth?, .bindParams params arguments, machine, held⟩)
    (mirrors : machine.Mirrors simulation.names padding? twin)
    : simulation.Mirrored padding? machine twin (Bindings.rename simulation.names)
        (Run.bindParams params arguments)
        (Run.bindParams params (arguments.map (Handle.rename simulation.names))) := by
  induction params generalizing machine twin arguments held with
  | nil => exact pure mirrors rfl
  | cons param params ih =>
      cases arguments with
      | nil => exact pure mirrors rfl
      | cons argument arguments =>
          have binds := known.leads (.calls (.param ..))
          refine (bindIn mirrors binds.orderly param.type argument).bind
            fun value after twin' bound mirrors => ?_
          exact (ih (known.leads (.calls (.nextParam bound ..))) mirrors).bind
            fun _ _ _ _ mirrors => pure mirrors rfl

/-- The call of a function of a script, whose body may open fewer calls. -/
theorem callScript {depth : Nat} {function : FunctionId} {body : TypedBlock}
    {self? : Option Handle} {arguments : List Handle}
    (called : simulation.CallsMirrored (some depth) other)
    (scripted : (simulation.setting.registry.function function).body = .script (some body))
    (known : simulation.Known ⟨some (depth + 1), .call function self? arguments, machine, held⟩)
    (mirrors : machine.Mirrors simulation.names padding? twin)
    : simulation.Mirrored padding? machine twin (Handle.rename simulation.names)
        (Run.callScript (Run.callWithin depth) function
          ((simulation.setting.registry.function function).returnType?.getD
            simulation.setting.builtins.void)
          (simulation.setting.registry.function function).params body self? arguments)
        (Run.callScript other function
          ((simulation.setting.registry.function function).returnType?.getD
            simulation.setting.builtins.void)
          (simulation.setting.registry.function function).params body
          (self?.map (Handle.rename simulation.names))
          (arguments.map (Handle.rename simulation.names))) := by
  refine (bindParams (known.leads (.calls (.params scripted ..))) mirrors).bind
    fun params before twin' bound mirrors => ?_
  have executed := executeBlock called body _ _ _ held
    (known.leads (.calls (.body scripted bound depth self? held)))
    (mirrors.enterCall ⟨function, [], params, self?⟩)
  refine (inFrame ⟨function, [], params, self?⟩ executed).bind
    fun returned? middle twin' ran mirrors => ?_
  cases returned? with
  | none =>
      refine (void mirrors).bind fun value after twin' made mirrors => ?_
      have binds := known.leads (.calls (.result scripted bound ran made held))
      exact bindIn mirrors binds.orderly _ value
  | some value =>
      have binds := known.leads (.calls (.result scripted bound ran rfl held))
      exact bindIn mirrors binds.orderly _ value

/-- Only the functions of scripts depend on how many calls may be opened. -/
theorem callWithin_of_script {depth more : Nat} {function : FunctionId} {self? : Option Handle}
    {arguments : List Handle}
    (scripts : ∀ body,
      (simulation.setting.registry.function function).body = .script (some body) →
        simulation.Mirrored padding? machine twin (Handle.rename simulation.names)
          (Run.callWithin depth function self? arguments)
          (Run.callWithin more function (self?.map (Handle.rename simulation.names))
            (arguments.map (Handle.rename simulation.names))))
    (known : simulation.Known ⟨some depth, .call function self? arguments, machine, held⟩)
    (mirrors : machine.Mirrors simulation.names padding? twin)
    : simulation.Mirrored padding? machine twin (Handle.rename simulation.names)
        (Run.callWithin depth function self? arguments)
        (Run.callWithin more function (self?.map (Handle.rename simulation.names))
          (arguments.map (Handle.rename simulation.names))) := by
  cases found : (simulation.setting.registry.function function).body with
  | builtin operation =>
      unfold Run.callWithin
      refine checked (read ?_)
      simp only [found, registry, builtins]
      exact perform mirrors (known.orderly.operation mirrors.store _ operation self? arguments _)
  | component component =>
      unfold Run.callWithin
      refine checked (read ?_)
      simp only [found, registry]
      exact perform mirrors (.componentCreate mirrors.store component)
  | script body? =>
      cases body? with
      | some body => exact scripts body found
      | none =>
          unfold Run.callWithin
          refine checked (read ?_)
          simp only [found, registry]
          exact fail mirrors _

/-- Calls that are rejected nowhere are mirrored where more may be opened, by induction over those
that may still be opened.
-/
theorem callWithin {depth more : Nat} (deeper : depth ≤ more)
    (accepts : depth < more →
      ∀ moment, simulation.holds moment → ¬ moment.Rejects simulation.setting)
    : simulation.CallsMirrored (some depth) (Run.callWithin more) := by
  induction depth generalizing more with
  | zero =>
      intro function self? arguments machine twin padding? held known mirrors
      refine callWithin_of_script (fun body scripted => ?_) known mirrors
      cases more with
      | zero =>
          unfold Run.callWithin
          refine checked (read ?_)
          simp only [registry, scripted]
          exact fail mirrors _
      | succ more =>
          exact absurd ⟨rfl, function, self?, arguments, body, rfl, scripted⟩
            (accepts (Nat.zero_lt_succ more) _ known.now)
  | succ depth ih =>
      intro function self? arguments machine twin padding? held known mirrors
      refine callWithin_of_script (fun body scripted => ?_) known mirrors
      cases more with
      | zero => exact absurd deeper (Nat.not_succ_le_zero depth)
      | succ more =>
          have inner := ih (Nat.le_of_succ_le_succ deeper) fun less =>
            accepts (Nat.succ_lt_succ less)
          unfold Run.callWithin
          refine checked (read ?_)
          simp only [registry, builtins, scripted]
          exact callScript inner scripted known mirrors

end Mirrored

end Simulation

end BuildScript
