import BuildScript.Proofs.Registry.Consistency
import BuildScript.Proofs.Typed.Making
import BuildScript.Proofs.Typed.StmtLaw

/-! Registries during checks. Whether or not a check succeeds, the registry goes on by operations
that keep the representation invariant. Types are made on the way of a check that fails, too, so
that every check is followed to where it ends.

Most checks only look. They leave the state as it is when they succeed, and they give no more than
messages when they fail.
-/

namespace BuildScript.Build

variable {α β : Type}

/-- A check only looks when it changes nothing if it succeeds, and gives messages at most. -/
def Looks (action : Build α) : Prop :=
  ∀ setting before outcome after, action setting before = (outcome, after) →
    (∀ value, outcome = some value → after = before)
      ∧ ∃ diagnostics, after.workspace = { before.workspace with diagnostics }

namespace Looks

-----------------------------------------------------------------------------------------
-- Combining
-----------------------------------------------------------------------------------------

/-- A check that always succeeds and changes nothing only looks. -/
theorem ofGives {action : Build α}
    (gives : ∀ setting before, ∃ value, Gives action setting before value before)
    : action.Looks := by
  intro setting before outcome after ran
  obtain ⟨value, given⟩ := gives setting before
  cases given.symm.trans ran
  exact ⟨fun _ _ => rfl, before.workspace.diagnostics, rfl⟩

/-- A check that tells an error and what explains it only looks. -/
theorem explained (problem : Problem) (span : Span) {next : Build α}
    (explains : ∀ setting, next.Explains setting)
    : (onWorkspace (Workspace.reportError problem span) >>= fun _ => next).Looks := by
  intro setting before outcome after ran
  rw [Made.bind_some (Made.gives_step (Workspace.reportError problem span) before)] at ran
  obtain ⟨last, told, failed, same, _⟩ := explains setting _
  cases failed.symm.trans ran
  exact ⟨(fun _ impossible => nomatch impossible), _, same⟩

theorem pure (value : α) : (Pure.pure value : Build α).Looks :=
  ofGives fun _ _ => ⟨value, gives_pure.mpr ⟨rfl, rfl⟩⟩

theorem failure : (Alternative.failure : Build α).Looks := by
  intro setting before outcome after ran
  cases ran
  exact ⟨(fun _ impossible => nomatch impossible), before.workspace.diagnostics, rfl⟩

theorem reject (problem : Problem) (span : Span)
    : (Build.reject problem span : Build α).Looks :=
  explained problem span fun _ => Made.failure_explains

theorem bind {action : Build α} {next : α → Build β} (first : action.Looks)
    (later : ∀ value, (next value).Looks)
    : (action >>= next).Looks := by
  intro setting before outcome after ran
  rcases start : action setting before with ⟨value?, middle⟩
  obtain ⟨same, told⟩ := first _ _ _ _ start
  cases value? with
  | none =>
      rw [Made.bind_none start] at ran
      cases ran
      exact ⟨(fun _ impossible => nomatch impossible), told⟩
  | some value =>
      rw [Made.bind_some start] at ran
      obtain rfl := same value rfl
      exact later value _ _ _ _ ran

theorem map {action : Build α} (change : α → β) (looks : action.Looks)
    : (change <$> action).Looks := by
  rw [← bind_pure_comp]
  exact looks.bind fun value => pure (change value)

theorem ite {condition : Prop} [Decidable condition] {whenTrue whenFalse : Build α}
    (first : whenTrue.Looks) (second : whenFalse.Looks)
    : (if condition then whenTrue else whenFalse).Looks := by
  split
  · exact first
  · exact second

theorem optionMapM {action : α → Build β} (looks : ∀ value, (action value).Looks)
    (value? : Option α)
    : (value?.mapM action).Looks := by
  cases value? with
  | none => exact pure none
  | some value => exact (looks value).map some

/-- Checks of the elements of a list, by induction over the list. -/
theorem mapM {action : α → Build β} (values : List α) (looks : ∀ value, (action value).Looks)
    : (values.mapM action).Looks := by
  induction values with
  | nil => exact pure []
  | cons value rest ih =>
      rw [List.mapM_cons]
      exact (looks value).bind fun _ => ih.bind fun _ => pure _

theorem get : (MonadState.get : Build BuildState).Looks :=
  ofGives fun _ before => ⟨before, gives_get.mpr ⟨rfl, rfl⟩⟩

theorem builtins : Build.builtins.Looks :=
  ofGives fun _ _ => ⟨_, gives_builtins.mpr ⟨rfl, rfl⟩⟩

theorem registry : Build.registry.Looks :=
  ofGives fun _ _ => ⟨_, gives_registry.mpr ⟨rfl, rfl⟩⟩

theorem symbols : Build.symbols.Looks :=
  ofGives fun _ _ => ⟨_, gives_symbols.mpr ⟨rfl, rfl⟩⟩

theorem isVoid (id : TypeId) : (Build.isVoid id).Looks := registry.bind fun _ => pure _

theorem isConvertible (target : TypeId) (value : TypedExpr)
    : (Build.isConvertible target value).Looks :=
  registry.bind fun _ => pure _

-----------------------------------------------------------------------------------------
-- Casts
-----------------------------------------------------------------------------------------

mutual

/-- Making an expression fit a type, by induction over the expression. -/
theorem fit (target : TypeId) (value : TypedExpr) : (Build.fit target value).Looks := by
  cases value with
  | mk kind type span =>
      rw [Build.fit]
      refine registry.bind fun registry => ite ?_ (ite (pure _) (pure _))
      split
      · next fields =>
          refine ite ((fitFields _ [] fields).bind fun _ => pure _) ?_
          exact builtins.bind fun _ => reject _ _
      · exact pure _

/-- Binding initialisers to the members of a class, by induction over them. -/
theorem fitFields (object : TypeId) (seen : List Nat) (fields : List PendingField)
    : (Build.fitFields object seen fields).Looks := by
  cases fields with
  | nil =>
      rw [Build.fitFields]
      exact pure _
  | cons first rest =>
      cases first with
      | mk name value span =>
          rw [Build.fitFields]
          refine registry.bind fun registry => ?_
          split
          · exact reject _ _
          · next member found =>
              refine ite (reject _ _) ((isConvertible _ _).bind fun _ => ite ?_ (reject _ _))
              exact (fit member.type value).bind fun _ =>
                (fitFields object (member.index :: seen) rest).bind fun _ => pure _

end

/-- Making arguments fit parameters, by induction over the parameters. -/
theorem fitArguments (params : List Param) (arguments : List TypedExpr)
    : (Build.fitArguments params arguments).Looks := by
  induction params generalizing arguments with
  | nil => exact pure _
  | cons param params ih =>
      cases arguments with
      | nil => exact pure _
      | cons argument arguments =>
          exact (fit _ _).bind fun _ => (ih arguments).bind fun _ => pure _

theorem fitCondition (condition : TypedExpr) : (Build.fitCondition condition).Looks :=
  builtins.bind fun _ => registry.bind fun _ => ite (fit _ _) (reject _ _)

/-- A value that is there is made to fit if it is convertible. -/
theorem fitConvertible (target : TypeId) (value : TypedExpr) (problem : Problem) (span : Span)
    : Looks (do
        if ← Build.isConvertible target value then return some (← Build.fit target value)
        else Build.reject problem span : Build (Option TypedExpr)) :=
  (isConvertible _ _).bind fun _ => ite ((fit _ _).bind fun _ => pure _) (reject _ _)

theorem fitInitial (decl : VariableDecl) (type : TypeId) (initial? : Option TypedExpr)
    : (Build.fitInitial decl type initial?).Looks := by
  refine registry.bind fun registry => ?_
  cases initial? with
  | none => exact ite (reject _ _) (pure _)
  | some initial => exact fitConvertible _ _ _ _

theorem fitReturn (expected : TypeId) (value? : Option TypedExpr) (span : Span)
    : (Build.fitReturn expected value? span).Looks := by
  refine registry.bind fun registry => ?_
  cases value? with
  | none => exact (isVoid _).bind fun _ => ite (pure _) (reject _ _)
  | some value => exact fitConvertible _ _ _ _

-----------------------------------------------------------------------------------------
-- Calls
-----------------------------------------------------------------------------------------

theorem chooseFunction (groups : List (List FunctionId)) (arguments : List TypedExpr)
    (name : String) (span : Span)
    : (Build.chooseFunction groups arguments name span).Looks := by
  refine registry.bind fun registry => ?_
  split
  · exact pure _
  · exact reject _ _
  · exact explained _ _ fun _ => Made.notes_explain _ _ Made.failure_explains _

theorem returnType (function : FunctionId) (span : Span)
    : (Build.returnType function span).Looks := by
  refine registry.bind fun registry => ?_
  split
  · exact pure _
  · exact get.bind fun _ => ite (reject _ _) (reject _ _)

theorem fitCall (function : FunctionId) (arguments : List TypedExpr)
    : (Build.fitCall function arguments).Looks :=
  registry.bind fun _ => fitArguments _ _

theorem memberFunction (groups : List (List FunctionId)) (arguments : List TypedExpr)
    (name : String) (span : Span)
    : (Build.memberFunction groups arguments name span).Looks :=
  (chooseFunction _ _ _ _).bind fun _ => (returnType _ _).bind fun _ =>
    (fitCall _ _).bind fun _ => pure _

theorem construction (type : TypeId) (arguments : List TypedExpr) (span : Span)
    : (Build.construction type arguments span).Looks := by
  refine registry.bind fun registry => ?_
  dsimp only
  split
  · exact ite (pure _) (reject _ _)
  · exact (chooseFunction _ _ _ _).bind fun _ => (fitCall _ _).bind fun _ => pure _

theorem functionCall (function : FunctionId) (arguments : List TypedExpr) (span : Span)
    : (Build.functionCall function arguments span).Looks :=
  (returnType _ _).bind fun _ => (fitCall _ _).bind fun _ => registry.bind fun _ => pure _

-----------------------------------------------------------------------------------------
-- Names and operators
-----------------------------------------------------------------------------------------

theorem identifier (path : List String) (span : Span) : (Build.identifier path span).Looks := by
  refine symbols.bind fun symbols => ?_
  dsimp only
  split
  · exact pure _
  · exact pure _
  · exact reject _ _

theorem binary (operator : Token) (lhs rhs : TypedExpr) (span : Span)
    : (Build.binary operator lhs rhs span).Looks := by
  refine registry.bind fun registry => ?_
  split
  · exact reject _ _
  · refine (memberFunction _ _ _ _).bind fun call => ?_
    split
    · exact pure _
    · exact failure

theorem unary (operator : Token) (operand : TypedExpr) (span : Span)
    : (Build.unary operator operand span).Looks := by
  refine registry.bind fun registry => ?_
  dsimp only
  split
  · exact reject _ _
  · exact (chooseFunction _ _ _ _).bind fun _ => (returnType _ _).bind fun _ => pure _

theorem ternary (condition whenTrue whenFalse : TypedExpr) (span : Span)
    : (Build.ternary condition whenTrue whenFalse span).Looks :=
  registry.bind fun _ => ite (pure _) (ite
    ((fit _ _).bind fun _ => (fit _ _).bind fun _ => pure _)
    (reject _ _))

theorem memberAccess (object : TypedExpr) (name : Token) (span : Span)
    : (Build.memberAccess object name span).Looks := by
  refine registry.bind fun registry => ?_
  split
  · exact pure _
  · exact reject _ _

theorem literalName (function : String) (arguments : List Expr) (span : Span)
    : (Build.literalName function arguments span).Looks := by
  unfold Build.literalName
  split
  · exact pure _
  · exact reject _ _

/-- The type of returns that agree. -/
theorem agreedType (name : Token) (returns : List (TypeId × Span))
    : (Build.agreedType name returns).Looks := by
  cases returns with
  | nil => exact builtins.bind fun _ => pure _
  | cons first rest =>
      exact registry.bind fun registry => ite (pure _)
        (explained _ _ fun _ => Made.notes_explain _ _ Made.failure_explains _)

theorem checkTypeName (name : Token) : (Build.checkTypeName name).Looks := by
  refine symbols.bind fun symbols => ?_
  split
  · exact pure _
  · exact explained _ _ fun _ => Made.registry_explains fun _ =>
      Made.note_explains _ _ Made.failure_explains

end Looks

end BuildScript.Build

namespace BuildScript

-----------------------------------------------------------------------------------------
-- Laws
-----------------------------------------------------------------------------------------

/-- A law of registries: how they may go on while a script is checked, and what this asks of the
neighbours of the script.
-/
structure RegistryLaw where
  moves : Registry → Registry → Prop
  suits : Neighbours → Prop
  trans : ∀ {before middle after}, moves before middle → moves middle after → moves before after
  furnishes : ∀ {before after}, before.Furnishes after → moves before after
  evolves : ∀ {before after}, moves before after → before.Evolves after
  grows : ∀ {before after}, moves before after → before.Grows after

/-- A registry expands to one that it grows into, that still has the contexts, and in which no
number is free again.
-/
structure Registry.Expands (before after : Registry) : Prop extends before.Grows after where
  knowsContext : ∀ id, before.KnowsContext id → after.KnowsContext id
  nextIndex : before.nextIndex ≤ after.nextIndex

theorem Registry.Expands.refl (registry : Registry) : registry.Expands registry :=
  ⟨.refl registry, fun _ => id, Nat.le_refl _⟩

theorem Registry.Expands.trans {before middle after : Registry} (first : before.Expands middle)
    (later : middle.Expands after)
    : before.Expands after :=
  ⟨first.toGrows.trans later.toGrows, fun id known =>
    later.knowsContext id (first.knowsContext id known),
    Nat.le_trans first.nextIndex later.nextIndex⟩

/-- A workspace is ready for a script when it is closed, when its registry is consistent and when
the global context is known.
-/
structure Workspace.Ready (basis : Prelude) (workspace : Workspace) : Prop where
  closed : workspace.Closed basis
  consistent : workspace.registry.Consistent
  globalContext : workspace.registry.KnowsContext basis.builtins.globalContext

/-- A state is ready for a check when it is closed, when its workspace is ready, and when the
current context is known.
-/
structure BuildState.Ready (basis : Prelude) (state : BuildState) : Prop where
  closed : state.Closed basis
  workspace : state.workspace.Ready basis
  context : state.workspace.registry.KnowsContext state.context

/-- A workspace moves on by a law when its registry does and it ends up closed. -/
structure Workspace.Moves (law : RegistryLaw) (basis : Prelude) (before after : Workspace)
    : Prop where
  moves : law.moves before.registry after.registry
  closed : after.Closed basis

namespace Workspace

variable {law : RegistryLaw} {basis : Prelude} {before middle after : Workspace}

/-- What a ready workspace moves on to is ready. -/
theorem Moves.ready (moves : before.Moves law basis after) (ready : before.Ready basis)
    : after.Ready basis := by
  have evolves := law.evolves moves.moves
  exact ⟨moves.closed, evolves.consistent ready.consistent,
    evolves.preserves.knowsContext _ ready.globalContext⟩

theorem Moves.grows (moves : before.Moves law basis after)
    : before.registry.Grows after.registry :=
  law.grows moves.moves

theorem Moves.expands (moves : before.Moves law basis after)
    : before.registry.Expands after.registry :=
  have preserves := (law.evolves moves.moves).preserves
  ⟨law.grows moves.moves, preserves.knowsContext, preserves.nextIndex⟩

theorem Moves.preserves (moves : before.Moves law basis after)
    : before.registry.Preserves after.registry :=
  (law.evolves moves.moves).preserves

theorem Moves.trans (first : before.Moves law basis middle) (later : middle.Moves law basis after)
    : before.Moves law basis after :=
  ⟨law.trans first.moves later.moves, later.closed⟩

/-- A workspace moves on with its registry. -/
theorem Moves.ofRegistry (ready : before.Ready basis) {registry : Registry}
    (moves : law.moves before.registry registry)
    : before.Moves law basis { before with registry } :=
  ⟨moves, ready.closed.ofRegistry (law.grows moves)
    ((law.evolves moves).consistent ready.consistent).toClosed⟩

/-- A workspace stays where it is when neither the registry nor what was imported changes. -/
theorem Moves.ofSame (ready : before.Ready basis) (registry : after.registry = before.registry)
    (imports : after.imports = before.imports)
    : before.Moves law basis after := by
  obtain ⟨closed, provides, begins, known⟩ := ready.closed
  refine ⟨?_, ?_, ?_, ?_, ?_⟩
  · rw [registry]
    exact law.furnishes (.refl _)
  all_goals rw [registry]
  · exact closed
  · exact provides
  · exact begins
  · rw [imports]
    exact known

end Workspace

/-- How registries go on while classes may be added as well. The neighbours that are asked move
workspaces on in the same way, whatever they find.
-/
structure Neighbours.Abide (basis : Prelude) (neighbours : Neighbours) : Prop where
  obey : neighbours.Obey basis fun _ _ => True
  importModule : ∀ name span before, before.Ready basis →
    before.registry.Evolves (neighbours.importModule name span before).2.registry
      ∧ before.registry.Grows (neighbours.importModule name span before).2.registry
      ∧ (neighbours.importModule name span before).2.Closed basis
  addDirectory : ∀ name span before, before.Ready basis →
    before.registry.Evolves (neighbours.addDirectory name span before).2.registry
      ∧ before.registry.Grows (neighbours.addDirectory name span before).2.registry
      ∧ (neighbours.addDirectory name span before).2.Closed basis
  addComponentFile : ∀ name span before, before.Ready basis →
    before.registry.Evolves (neighbours.addComponentFile name span before).2.registry
      ∧ before.registry.Grows (neighbours.addComponentFile name span before).2.registry
      ∧ (neighbours.addComponentFile name span before).2.Closed basis

namespace RegistryLaw

/-- Registries are furnished where no neighbour is asked. -/
def furnishing : RegistryLaw where
  moves := Registry.Furnishes
  suits _ := True
  trans := .trans
  furnishes := id
  evolves := (·.evolves)
  grows := (·.grows)

/-- Registries evolve and grow wherever a script leads. -/
def evolving (basis : Prelude) : RegistryLaw where
  moves before after := before.Evolves after ∧ before.Grows after
  suits neighbours := neighbours.Abide basis
  trans first later := ⟨first.1.trans later.1, first.2.trans later.2⟩
  furnishes furnishes := ⟨furnishes.evolves, furnishes.grows⟩
  evolves := (·.1)
  grows := (·.2)

end RegistryLaw

namespace Build

variable {α β : Type} {law : RegistryLaw} {basis : Prelude} {world : Registry}

-----------------------------------------------------------------------------------------
-- Checks that move on
-----------------------------------------------------------------------------------------

/-- A check runs by a law from a world on when every ready workspace moves on by it, whatever comes
of the check, and when a check that succeeds leaves a closed state of the same context and gives
what is asked for.
-/
def Runs (law : RegistryLaw) (basis : Prelude) (world : Registry) (post : Registry → α → Prop)
    (action : Build α)
    : Prop :=
  ∀ setting before outcome after, setting.builtins = basis.builtins →
    law.suits setting.neighbours → before.Ready basis → world.Expands before.workspace.registry →
    action setting before = (outcome, after) →
    before.workspace.Moves law basis after.workspace
      ∧ ∀ value, outcome = some value → after.Closed basis ∧ after.context = before.context
        ∧ post after.workspace.registry value

/-- A state that is reached by a check that succeeds is ready for the next one. -/
theorem ready_of_moves {before after : BuildState} (ready : before.Ready basis)
    (moves : before.workspace.Moves law basis after.workspace) (closed : after.Closed basis)
    (context : after.context = before.context)
    : after.Ready basis :=
  ⟨closed, moves.ready ready.workspace, context ▸ moves.preserves.knowsContext _ ready.context⟩

namespace Runs

variable {post : Registry → α → Prop} {last : Registry → β → Prop}

/-- A check that only looks runs by every law. -/
theorem ofLooks {action : Build α} (looks : action.Looks)
    : action.Runs law basis world anything := by
  intro setting before outcome after _ _ ready _ ran
  obtain ⟨same, diagnostics, told⟩ := looks _ _ _ _ ran
  refine ⟨.ofSame ready.workspace (by rw [told]) (by rw [told]), fun value given => ?_⟩
  rw [same value given]
  exact ⟨ready.closed, rfl, trivial⟩

theorem pure {value : α} (holds : ∀ later, world.Expands later → post later value)
    : Runs law basis world post (Pure.pure value) := by
  intro setting before outcome after _ _ ready grows ran
  cases ran
  refine ⟨.ofSame ready.workspace rfl rfl, fun given same => ?_⟩
  cases same
  exact ⟨ready.closed, rfl, holds _ grows⟩

theorem done (value : α) : Runs law basis world anything (Pure.pure value) :=
  pure fun _ _ => trivial

/-- A check that tells an error and what explains it gives nothing. -/
theorem explained (problem : Problem) (span : Span) {next : Build α}
    (explains : ∀ setting, next.Explains setting)
    : (Build.onWorkspace (Workspace.reportError problem span) >>= fun _ => next).Runs law basis
        world post := by
  intro setting before outcome after provided suits ready grows ran
  obtain ⟨moves, _⟩ := ofLooks (Looks.explained problem span explains) _ _ _ _ provided suits ready
    grows ran
  refine ⟨moves, fun value given => ?_⟩
  rw [Made.bind_some (Made.gives_step (Workspace.reportError problem span) before)] at ran
  obtain ⟨last, told, failed, _⟩ := explains setting _
  cases (failed.symm.trans ran).trans (congrArg (·, after) given)

theorem reject (problem : Problem) (span : Span)
    : Runs law basis world post (Build.reject problem span) :=
  explained problem span fun _ => Made.failure_explains

theorem bind {action : Build α} {next : α → Build β} (first : action.Runs law basis world post)
    (second : ∀ later, world.Expands later → ∀ value, post later value →
      (next value).Runs law basis later last)
    : (action >>= next).Runs law basis world last := by
  intro setting before outcome after provided suits ready grows ran
  rcases start : action setting before with ⟨value?, middle⟩
  obtain ⟨moves, given⟩ := first _ _ _ _ provided suits ready grows start
  cases value? with
  | none =>
      rw [Made.bind_none start] at ran
      cases ran
      exact ⟨moves, fun _ impossible => nomatch impossible⟩
  | some value =>
      rw [Made.bind_some start] at ran
      obtain ⟨closed, context, meets⟩ := given value rfl
      obtain ⟨further, result⟩ := second _ (grows.trans moves.expands) value meets _ _ _ _ provided
        suits (ready_of_moves ready moves closed context) (.refl _) ran
      refine ⟨moves.trans further, fun last same => ?_⟩
      obtain ⟨closed, sameContext, meets⟩ := result last same
      exact ⟨closed, sameContext.trans context, meets⟩

/-- What a check gives may be forgotten. -/
theorem weaken {weaker : Registry → α → Prop} {action : Build α}
    (runs : action.Runs law basis world post)
    (implies : ∀ later value, post later value → weaker later value)
    : action.Runs law basis world weaker := by
  intro setting before outcome after provided suits ready grows ran
  obtain ⟨moves, given⟩ := runs _ _ _ _ provided suits ready grows ran
  refine ⟨moves, fun value same => ?_⟩
  obtain ⟨closed, context, meets⟩ := given value same
  exact ⟨closed, context, implies _ _ meets⟩

theorem forget {action : Build α} (runs : action.Runs law basis world post)
    : action.Runs law basis world anything :=
  runs.weaken fun _ _ _ => trivial

/-- A check that rejects what it checks goes no further. -/
theorem rejectThen (problem : Problem) (span : Span) (next : α → Build β)
    : (Build.reject problem span >>= next).Runs law basis world last := by
  have rejected : Runs law basis world (fun _ _ => False) (Build.reject problem span : Build α) :=
    reject problem span
  exact rejected.bind fun _ _ _ impossible => impossible.elim

theorem map {action : Build α} (change : α → β) (runs : action.Runs law basis world post)
    (holds : ∀ later value, post later value → last later (change value))
    : (change <$> action).Runs law basis world last := by
  intro setting before outcome after provided suits ready grows ran
  rw [← bind_pure_comp] at ran
  rcases start : action setting before with ⟨value?, middle⟩
  obtain ⟨moves, given⟩ := runs _ _ _ _ provided suits ready grows start
  cases value? with
  | none =>
      rw [Made.bind_none start] at ran
      cases ran
      exact ⟨moves, fun _ impossible => nomatch impossible⟩
  | some value =>
      rw [Made.bind_some start] at ran
      cases ran
      obtain ⟨closed, context, meets⟩ := given value rfl
      refine ⟨moves, fun _ same => ?_⟩
      cases same
      exact ⟨closed, context, holds _ _ meets⟩

/-- One of two checks, followed by a third one. -/
theorem eitherThen {condition : Prop} [Decidable condition] {whenTrue whenFalse : Build α}
    {next : α → Build β} (first : whenTrue.Runs law basis world post)
    (second : whenFalse.Runs law basis world post)
    (later : ∀ registry, world.Expands registry → ∀ value, post registry value →
      (next value).Runs law basis registry last)
    : (if condition then whenTrue >>= next else whenFalse >>= next).Runs law basis world last := by
  split
  · exact first.bind later
  · exact second.bind later

-----------------------------------------------------------------------------------------
-- Looking at the state
-----------------------------------------------------------------------------------------

/-- A check may look at the registry first, which is consistent and has grown from the world. -/
theorem registryThen {next : Registry → Build β}
    (runs : ∀ later : Registry, world.Expands later → later.Consistent →
      later.Provides basis.builtins → (next later).Runs law basis later last)
    : (Build.registry >>= next).Runs law basis world last := by
  intro setting before outcome after provided suits ready grows ran
  rw [Made.bind_some (gives_registry.mpr ⟨rfl, rfl⟩)] at ran
  exact runs _ grows ready.workspace.consistent ready.closed.workspace.provides _ _ _ _ provided
    suits ready (.refl _) ran

/-- A check may look at the names first, which are closed. -/
theorem symbolsThen {next : Symbols → Build β}
    (runs : ∀ (later : Registry) (symbols : Symbols), world.Expands later →
      symbols.Closed later → (next symbols).Runs law basis later last)
    : (Build.symbols >>= next).Runs law basis world last := by
  intro setting before outcome after provided suits ready grows ran
  rw [Made.bind_some (gives_symbols.mpr ⟨rfl, rfl⟩)] at ran
  exact runs _ _ grows ready.closed.symbols _ _ _ _ provided suits ready (.refl _) ran

/-- A check may look at the state first, which is ready. -/
theorem getThen {next : BuildState → Build β}
    (runs : ∀ state : BuildState, world.Expands state.workspace.registry → state.Ready basis →
      (next state).Runs law basis state.workspace.registry last)
    : (get >>= next).Runs law basis world last := by
  intro setting before outcome after provided suits ready grows ran
  rw [Made.bind_some (gives_get.mpr ⟨rfl, rfl⟩)] at ran
  exact runs _ grows ready _ _ _ _ provided suits ready (.refl _) ran

/-- A check may look at the provided types first. -/
theorem builtinsThen {next : BuiltinTypes → Build β}
    (runs : (next basis.builtins).Runs law basis world last)
    : (Build.builtins >>= next).Runs law basis world last := by
  intro setting before outcome after provided suits ready grows ran
  rw [Made.bind_some (gives_builtins.mpr ⟨rfl, rfl⟩), provided] at ran
  exact runs _ _ _ _ provided suits ready grows ran

/-- A check may look at its setting first, whose neighbours suit the law. -/
theorem readThen {next : BuildSetting → Build β}
    (runs : ∀ setting : BuildSetting, law.suits setting.neighbours →
      (next setting).Runs law basis world last)
    : (read >>= next).Runs law basis world last := by
  intro setting before outcome after provided suits ready grows ran
  rw [Made.bind_some (gives_read.mpr ⟨rfl, rfl⟩)] at ran
  exact runs _ suits _ _ _ _ provided suits ready grows ran

-----------------------------------------------------------------------------------------
-- Changing the workspace
-----------------------------------------------------------------------------------------

/-- A step on the workspace runs by a law by which the workspace moves on. -/
theorem onWorkspace {step : StateM Workspace α}
    (moves : ∀ before, before.Ready basis → world.Expands before.registry →
      before.Moves law basis (step before).2 ∧ post (step before).2.registry (step before).1)
    : (Build.onWorkspace step).Runs law basis world post := by
  intro setting before outcome after _ _ ready grows ran
  cases (Made.gives_step step before).symm.trans ran
  obtain ⟨moves, meets⟩ := moves before.workspace ready.workspace grows
  refine ⟨moves, fun value same => ?_⟩
  cases same
  exact ⟨ready.closed.ofWorkspace moves.grows moves.closed, rfl, meets⟩

/-- A change of the registry runs by a law by which the registry moves on. -/
theorem changeRegistry {change : Registry → α × Registry}
    (moves : ∀ registry : Registry, world.Expands registry → registry.Consistent →
      registry.Provides basis.builtins → registry.KnowsContext basis.builtins.globalContext →
      law.moves registry (change registry).2 ∧ post (change registry).2 (change registry).1)
    : (Build.onRegistry change).Runs law basis world post := by
  refine onWorkspace fun before ready grows => ?_
  obtain ⟨moves, meets⟩ := moves before.registry grows ready.consistent ready.closed.provides
    ready.globalContext
  exact ⟨.ofRegistry ready moves, meets⟩

/-- A change of the registry runs by every law if it furnishes the registry. -/
theorem onRegistry {change : Registry → α × Registry}
    (furnishes : ∀ registry : Registry, world.Expands registry → registry.Consistent →
      registry.Provides basis.builtins → registry.KnowsContext basis.builtins.globalContext →
      registry.Furnishes (change registry).2 ∧ post (change registry).2 (change registry).1)
    : (Build.onRegistry change).Runs law basis world post :=
  changeRegistry fun registry grows consistent provides context =>
    have both := furnishes registry grows consistent provides context
    ⟨law.furnishes both.1, both.2⟩

/-- A number that is given out was not given out before. -/
theorem generateIndex
    : Build.generateIndex.Runs law basis world fun registry index =>
        world.nextIndex ≤ index ∧ index < registry.nextIndex :=
  onRegistry fun registry grows _ _ _ =>
    ⟨.generateIndex registry, grows.nextIndex, Nat.lt_succ_self _⟩

theorem addReference {id : TypeId} (known : world.Knows id)
    : (Build.onRegistry fun registry => registry.addReference id).Runs law basis world
        Registry.Knows :=
  onRegistry fun _ grows consistent _ _ =>
    ⟨.addReference (grows.knows known), (consistent.toClosed.addReference (grows.knows known)).2⟩

theorem addGeneric (family : GenericFamily) {value : TypeId} (known : world.Knows value)
    : (Build.onRegistry fun registry => registry.addGeneric basis.builtins family value).Runs law
        basis world Registry.Knows :=
  onRegistry fun _ grows consistent provides context =>
    ⟨.addGeneric consistent.toClosed provides context family (grows.knows known),
      (consistent.toClosed.addGeneric provides family (grows.knows known)).2⟩

/-- A change of the names runs by every law if the names stay closed. -/
theorem modifySymbols {change : Symbols → Symbols}
    (closed : ∀ later symbols, world.Expands later → symbols.Closed later →
      (change symbols).Closed later)
    : (Build.modifySymbols change).Runs law basis world anything := by
  intro setting before outcome after _ _ ready grows ran
  cases ran
  obtain ⟨workspace, symbols, functions, returns⟩ := ready.closed
  exact ⟨.ofSame ready.workspace rfl rfl, fun _ _ =>
    ⟨⟨workspace, closed _ _ grows symbols, functions, returns⟩, rfl, trivial⟩⟩

/-- A variable of a known type gets its name. -/
theorem registerVariable (name : String) {type : TypeId} (index : Nat) (exported : Bool)
    (known : world.Knows type)
    : (Build.modifySymbols fun symbols =>
        { symbols with ids := symbols.ids.register name ⟨type, index⟩ exported }).Runs law basis
          world anything :=
  modifySymbols fun _ _ grows closed => ⟨closed.types, closed.functions,
    closed.ids.register name exported (grows.knows known), closed.enums⟩

/-- What is known of a check that succeeds may be put together with where it runs. -/
theorem meeting {action : Build α} {weaker : Registry → α → Prop}
    (runs : action.Runs (.evolving basis) basis world weaker)
    (keeps : action.Keeps (StmtLaw.growing basis).toExprLaw world post)
    : action.Runs (.evolving basis) basis world post := by
  intro setting before outcome after provided suits ready grows ran
  obtain ⟨moves, given⟩ := runs _ _ _ _ provided suits ready grows ran
  refine ⟨moves, fun value same => ?_⟩
  subst same
  obtain ⟨closed, context, _⟩ := given value rfl
  exact ⟨closed, context, (keeps _ _ _ _ ⟨provided, suits.obey⟩ ready.closed grows.toGrows ran).2⟩

/-- A check that leaves the workspace and the context alone runs where it succeeds. -/
theorem ofKeeps {action : Build α}
    (same : ∀ setting before, (action setting before).2.workspace = before.workspace
      ∧ (action setting before).2.context = before.context)
    (keeps : action.Keeps (StmtLaw.growing basis).toExprLaw world post)
    : action.Runs (.evolving basis) basis world post := by
  intro setting before outcome after provided suits ready grows ran
  have same := same setting before
  rw [ran] at same
  refine ⟨.ofSame ready.workspace (by rw [same.1]) (by rw [same.1]), fun value given => ?_⟩
  subst given
  obtain ⟨advances, meets⟩ := keeps _ _ _ _ ⟨provided, suits.obey⟩ ready.closed grows.toGrows ran
  exact ⟨advances.closed, same.2, meets⟩

/-- Checks of the elements of a list run one after the other, by induction over the list. -/
theorem mapM (last : Registry → β → Prop) {action : α → Build β} (elements : List α)
    (runs : ∀ element ∈ elements, ∀ later, world.Expands later →
      (action element).Runs law basis later last)
    (mono : ∀ {earlier later value}, last earlier value → earlier.Expands later → last later value)
    : (elements.mapM action).Runs law basis world
        fun registry values => ∀ value ∈ values, last registry value := by
  induction elements generalizing world with
  | nil => exact pure fun _ _ _ absent => nomatch absent
  | cons first rest ih =>
      rw [List.mapM_cons]
      refine (runs first (.head _) world (.refl _)).bind fun later grows value meets => ?_
      refine (ih fun element among after grown => runs element (.tail _ among) after
        (grows.trans grown)).bind fun after grown values others => ?_
      refine pure fun final growth given among => ?_
      rcases List.mem_cons.mp among with rfl | inRest
      · exact mono meets (grown.trans growth)
      · exact mono (others given inRest) growth

theorem optionMapM {action : α → Build β} {element? : Option α}
    (runs : ∀ element, element? = some element → (action element).Runs law basis world last)
    : (element?.mapM action).Runs law basis world
        fun registry value? => ∀ value, value? = some value → last registry value := by
  cases element? with
  | none => exact pure fun _ _ _ impossible => nomatch impossible
  | some element =>
      refine (runs element rfl).map some fun later value meets given same => ?_
      cases same
      exact meets

end Runs

-----------------------------------------------------------------------------------------
-- Checks inside of others
-----------------------------------------------------------------------------------------

/-- (Encloses wrapped action enter leave result) says that a check runs another one between entering
and leaving, where a failure skips the leaving.
-/
def Encloses (wrapped : Build β) (action : Build α) (enter : BuildState → BuildState)
    (leave : BuildState → BuildState → BuildState) (result : BuildState → α → β) : Prop :=
  ∀ setting before, wrapped setting before =
    match action setting (enter before) with
    | (some value, after) => (some (result after value), leave before after)
    | (none, after) => (none, after)

theorem inLocalScope_encloses (action : Build α)
    : (Build.inLocalScope action).Encloses action
        (fun before => { before with symbols := before.symbols.enterLocal })
        (fun _ after => { after with symbols := after.symbols.leave }) fun _ value => value := by
  intro setting before
  have entered : Gives (Build.modifySymbols Symbols.enterLocal) setting before ()
      { before with symbols := before.symbols.enterLocal } :=
    gives_modifySymbols.mpr rfl
  refine (Made.bind_some entered).trans ?_
  rcases ran : action setting { before with symbols := before.symbols.enterLocal }
    with ⟨_ | value, after⟩
  · exact Made.bind_none ran
  · exact Made.bind_some ran

theorem inLoop_encloses (action : Build α)
    : (Build.inLoop action).Encloses action
        (fun before => { before with loopDepth := before.loopDepth + 1 })
        (fun _ after => { after with loopDepth := after.loopDepth - 1 }) fun _ value => value := by
  intro setting before
  have entered : Gives
      (modify fun state : BuildState => { state with loopDepth := state.loopDepth + 1 }) setting
      before PUnit.unit { before with loopDepth := before.loopDepth + 1 } :=
    gives_modify.mpr rfl
  refine (Made.bind_some entered).trans ?_
  rcases ran : action setting { before with loopDepth := before.loopDepth + 1 }
    with ⟨_ | value, after⟩
  · exact Made.bind_none ran
  · exact Made.bind_some ran

/-- A check runs around another one when entering makes a state ready and leaving keeps it closed.
-/
theorem Encloses.runs {wrapped : Build β} {action : Build α} {enter : BuildState → BuildState}
    {leave : BuildState → BuildState → BuildState} {result : BuildState → α → β}
    {post : Registry → α → Prop} {last : Registry → β → Prop}
    (encloses : wrapped.Encloses action enter leave result)
    (runs : action.Runs law basis world post)
    (entered : ∀ before, before.Ready basis → world.Expands before.workspace.registry →
      (enter before).Ready basis ∧ (enter before).workspace = before.workspace)
    (left : ∀ before after, before.Ready basis → world.Expands before.workspace.registry →
      before.workspace.registry.Grows after.workspace.registry → after.Closed basis →
      after.context = (enter before).context →
      (leave before after).Closed basis ∧ (leave before after).workspace = after.workspace
        ∧ (leave before after).context = before.context)
    (meets : ∀ after value, after.Closed basis → post after.workspace.registry value →
      last after.workspace.registry (result after value))
    : wrapped.Runs law basis world last := by
  intro setting before outcome after provided suits ready grows ran
  obtain ⟨enteredReady, same⟩ := entered before ready grows
  have start := ran.symm.trans (encloses setting before)
  rcases inner : action setting (enter before) with ⟨value?, middle⟩
  obtain ⟨moves, given⟩ := runs _ _ _ _ provided suits enteredReady (same ▸ grows) inner
  rw [same] at moves
  rw [inner] at start
  cases value? with
  | none =>
      cases start
      exact ⟨moves, fun _ impossible => nomatch impossible⟩
  | some value =>
      cases start
      obtain ⟨closed, context, holds⟩ := given value rfl
      obtain ⟨leftClosed, leftSame, leftContext⟩ := left before middle ready grows moves.grows
        closed context
      rw [leftSame]
      refine ⟨moves, fun _ given => ?_⟩
      cases given
      exact ⟨leftClosed, leftContext, meets middle value closed holds⟩

namespace Runs

variable {post : Registry → α → Prop}

theorem inLocalScope {action : Build α} (runs : action.Runs law basis world post)
    : (Build.inLocalScope action).Runs law basis world post := by
  refine (inLocalScope_encloses action).runs runs (fun before ready _ => ?entered)
    (fun before after _ _ _ closed context => ?left) fun _ _ _ holds => holds
  case entered =>
    obtain ⟨workspace, symbols, functions, returns⟩ := ready.closed
    exact ⟨⟨⟨workspace, symbols.enterLocal, functions, returns⟩, ready.workspace, ready.context⟩,
      rfl⟩
  case left =>
    obtain ⟨workspace, symbols, functions, returns⟩ := closed
    exact ⟨⟨workspace, symbols.leave, functions, returns⟩, rfl, context⟩

theorem inLoop {action : Build α} (runs : action.Runs law basis world post)
    : (Build.inLoop action).Runs law basis world post := by
  refine (inLoop_encloses action).runs runs (fun before ready _ => ?entered)
    (fun before after _ _ _ closed context => ?left) fun _ _ _ holds => holds
  case entered =>
    obtain ⟨workspace, symbols, functions, returns⟩ := ready.closed
    exact ⟨⟨⟨workspace, symbols, functions, returns⟩, ready.workspace, ready.context⟩, rfl⟩
  case left =>
    obtain ⟨workspace, symbols, functions, returns⟩ := closed
    exact ⟨⟨workspace, symbols, functions, returns⟩, rfl, context⟩

-----------------------------------------------------------------------------------------
-- Types
-----------------------------------------------------------------------------------------

/-- Making the instance of a generic type runs by every law, by induction over the type. -/
theorem genericType (type : TypeExpr)
    : (Build.genericType type).Runs law basis world Registry.Knows := by
  have made (family : GenericFamily) (argument : TypeExpr) {later : Registry} {value : TypeId}
      (known : later.Knows value) : Runs law basis later Registry.Knows (do
      let b ← Build.builtins
      let registry ← Build.registry
      let allowed := [b.bool, b.int, b.double, b.string].any (registry.sameType · value)
      if family == .external && !allowed then
        Build.reject (.wrongExternType (registry.typeName value)) argument.span
      else Build.onRegistry fun registry => registry.addGeneric b family value) := by
    refine builtinsThen (registryThen fun second grown _ _ => ?_)
    dsimp only
    split
    · exact reject _ _
    · exact addGeneric family (grown.knows known)
  induction type using Build.genericType.induct generalizing world with
  | case1 isReference span head family argument generic type named =>
      rename_i ih
      rw [Build.genericType]
      · rw [if_pos generic]
        exact ih.bind fun later _ value known => made family argument known
      · exact named
  | case2 isReference span head family argument plain type =>
      rename_i named
      rw [Build.genericType]
      · rw [if_neg plain]
        refine symbolsThen fun later symbols grows closed => ?_
        split
        · next value found =>
            have known : later.Knows value := closed.types.find? found
            exact (pure fun _ grown => grown.knows known).bind fun later _ value known =>
              made family argument known
        · exact rejectThen _ _ _
      · exact named
  | case3 generics isReference span head family several type =>
      rename_i named
      rw [Build.genericType]
      · exact reject _ _
      · exact family
      · exact named
      · exact several
  | case4 names generics isReference span type =>
      rename_i unnamed
      rw [Build.genericType]
      · refine symbolsThen fun later symbols grows closed => ?_
        split
        · exact reject _ _
        · exact reject _ _
      · exact unnamed

theorem namedType (type : TypeExpr) {next : TypeId → Build TypeId}
    (runs : ∀ {later : Registry} {id}, world.Expands later → later.Knows id →
      (next id).Runs law basis later Registry.Knows)
    : Runs law basis world Registry.Knows
        (if type.isGeneric then Build.genericType type.withoutReference >>= next
          else do
            match (← Build.symbols).types.find? type.path with
            | some id => Pure.pure id >>= next
            | none =>
              Build.reject (.typeNotFound type.withoutReference.text) type.span >>= next) := by
  split
  · exact (genericType _).bind fun _ grows _ known => runs grows known
  · refine symbolsThen fun later symbols grows closed => ?_
    split
    · next id found =>
        have known : later.Knows id := closed.types.find? found
        refine (pure fun _ grown => grown.knows known).bind fun _ grown _ known => ?_
        exact runs (grows.trans grown) known
    · exact rejectThen _ _ _

theorem resolveType (type : TypeExpr)
    : (Build.resolveType type).Runs law basis world Registry.Knows := by
  unfold Build.resolveType
  split
  · exact namedType type fun _ => addReference
  · exact namedType type fun _ known => pure fun _ grows => grows.knows known

end Runs

end Build

end BuildScript
