import BuildScript.Proofs.Registry.Closed
import BuildScript.Proofs.Scope.Entries
import BuildScript.Typed.Context
import BuildScript.Proofs.Typed.Admission
import BuildScript.Proofs.Typed.Success

/-! Checks without loose ends: the names in scope and the state of a check mention only types and
functions that the registry has.

Laws of the checks of expressions. The check of an expression changes no more than the
workspace: it gives messages, numbers identifiers, adds references and instances of generic
types, and asks the neighbours. A relation that is closed under these steps relates the states
before and after every such check. On the way the registry grows, nothing that is not known comes
up, and it admits what is checked.
-/

namespace BuildScript

-----------------------------------------------------------------------------------------
-- Names
-----------------------------------------------------------------------------------------

/-- Symbols are closed in a registry when all that they mean is known there, functions under their
own names.
-/
structure Symbols.Closed (symbols : Symbols) (registry : Registry) : Prop where
  types : symbols.types.Holds registry.Knows
  functions : symbols.functions.HoldsNamed registry.KnowsNamed
  ids : symbols.ids.Holds fun symbol => registry.Knows symbol.type
  enums : symbols.enums.Holds fun symbol => registry.Knows symbol.type

namespace Symbols.Closed

variable {symbols imported : Symbols} {registry after : Registry}

/-- Symbols stay closed in a registry that knows no less. -/
theorem widen (closed : symbols.Closed registry) (knows : ∀ id, registry.Knows id → after.Knows id)
    (knowsNamed : ∀ name id, registry.KnowsNamed name id → after.KnowsNamed name id)
    : symbols.Closed after :=
  ⟨closed.types.mono knows, closed.functions.mono knowsNamed,
    closed.ids.mono fun symbol => knows symbol.type,
    closed.enums.mono fun symbol => knows symbol.type⟩

theorem mono (closed : symbols.Closed registry) (grows : registry.Grows after)
    : symbols.Closed after :=
  closed.widen (fun _ => grows.knows) fun _ _ known => known.mono grows

/-- All functions that have names are known. -/
theorem knowsFunctions (closed : symbols.Closed registry)
    : symbols.functions.Holds registry.KnowsFunction :=
  closed.functions.mono fun _ _ known => known.known

theorem enterNamed (closed : symbols.Closed registry) (name : String) (exported : Bool)
    : (symbols.enterNamed name exported).Closed registry :=
  ⟨closed.types.enterNamed name exported, closed.functions.enterNamed name exported,
    closed.ids.enterNamed name exported, closed.enums.enterNamed name exported⟩

theorem enterLocal (closed : symbols.Closed registry) : symbols.enterLocal.Closed registry :=
  ⟨closed.types.enterLocal, closed.functions.enterLocal, closed.ids.enterLocal,
    closed.enums.enterLocal⟩

theorem leave (closed : symbols.Closed registry) : symbols.leave.Closed registry :=
  ⟨closed.types.leave, closed.functions.leave, closed.ids.leave, closed.enums.leave⟩

theorem collectExports (closed : symbols.Closed registry)
    : symbols.collectExports.Closed registry :=
  ⟨closed.types.collectExports, closed.functions.collectExports, closed.ids.collectExports,
    closed.enums.collectExports⟩

/-- Merged symbols mean what one of the two means. -/
theorem merge (closed : symbols.Closed registry) (known : imported.Closed registry)
    (context : Registry)
    : (symbols.merge context imported).2.Closed registry := by
  have types := closed.types.merge (mergeUnique id) known.types
  have functions := closed.functions.merge (mergeFunctions context) known.functions
  have ids := closed.ids.merge (mergeUnique (·.index)) known.ids
  have enums := closed.enums.merge (mergeUnique (·.index)) known.enums
  unfold Symbols.merge
  split
  · next outcome =>
      rw [outcome] at types
      exact ⟨types, closed.functions, closed.ids, closed.enums⟩
  next outcome =>
    rw [outcome] at types
    split
    · next outcome =>
        rw [outcome] at functions
        exact ⟨types, functions, closed.ids, closed.enums⟩
    next outcome =>
      rw [outcome] at functions
      split
      · next outcome =>
          rw [outcome] at ids
          exact ⟨types, functions, ids, closed.enums⟩
      next outcome =>
        rw [outcome] at ids
        exact ⟨types, functions, ids, enums⟩

/-- Numbered enumerators of a known type are known, by induction over the enumerators. -/
theorem registerEnumerators {type : TypeId} {enums : ScopeTable EnumeratorSymbol} (exported : Bool)
    (value : Nat) (numbers : Registry) (names : List String) (known : registry.Knows type)
    (holds : enums.Holds fun symbol => registry.Knows symbol.type)
    : (Symbols.registerEnumerators type exported value numbers enums names).2.Holds
        fun symbol => registry.Knows symbol.type := by
  induction names generalizing value numbers enums with
  | nil => exact holds
  | cons first rest ih =>
      refine ih (value + 1) _ (holds.register first exported ?_)
      exact known

end Symbols.Closed

-----------------------------------------------------------------------------------------
-- States
-----------------------------------------------------------------------------------------

/-- A workspace is closed when its registry is, has what every script begins with, and knows what
was exported.
-/
structure Workspace.Closed (basis : Prelude) (workspace : Workspace) : Prop where
  registry : workspace.registry.Closed
  provides : workspace.registry.Provides basis.builtins
  begins : basis.symbols.Closed workspace.registry
  imports : ∀ known ∈ workspace.imports, known.2.Closed workspace.registry

/-- The state of a check is closed when its workspace is, and when what has names and what the
functions that are being checked were seen to return is known.
-/
structure BuildState.Closed (basis : Prelude) (state : BuildState) : Prop where
  workspace : state.workspace.Closed basis
  symbols : state.symbols.Closed state.workspace.registry
  functions : ∀ innermost ∈ state.openFunctions,
    state.workspace.registry.KnowsFunction innermost.function
  returns : ∀ innermost ∈ state.openFunctions, ∀ returned ∈ innermost.returns,
    state.workspace.registry.Knows returned.1

theorem Workspace.Closed.ofRegistry {basis : Prelude} {workspace : Workspace}
    (closed : workspace.Closed basis) {registry : Registry}
    (grows : workspace.registry.Grows registry) (closedRegistry : registry.Closed)
    : Workspace.Closed basis { workspace with registry } :=
  ⟨closedRegistry, closed.provides.mono grows, closed.begins.mono grows,
    fun known among => (closed.imports known among).mono grows⟩

theorem BuildState.Closed.ofWorkspace {basis : Prelude} {state : BuildState}
    (closed : state.Closed basis) {workspace : Workspace}
    (grows : state.workspace.registry.Grows workspace.registry)
    (closedWorkspace : workspace.Closed basis)
    : BuildState.Closed basis { state with workspace } :=
  ⟨closedWorkspace, closed.symbols.mono grows,
    fun innermost among => grows.knowsFunction (closed.functions innermost among),
    fun innermost among returned inReturns =>
      grows.knows (closed.returns innermost among returned inReturns)⟩

/-- A state stays closed when a type gets members of known types. -/
theorem BuildState.Closed.setMembers {basis : Prelude} {state : BuildState}
    (closed : state.Closed basis) (object : TypeId) {members : List Member}
    (known : ∀ member ∈ members, state.workspace.registry.Knows member.type)
    : BuildState.Closed basis
        { state with
          workspace :=
            { state.workspace with
              registry := state.workspace.registry.setMembers object members } } := by
  have widened {symbols : Symbols} (known : symbols.Closed state.workspace.registry)
      : symbols.Closed (state.workspace.registry.setMembers object members) :=
    known.widen (fun _ => Registry.knows_setMembers.mpr) fun _ _ known => ⟨known.known, known.name⟩
  have workspace := closed.workspace
  refine ⟨⟨workspace.registry.setMembers object known, ?_, widened workspace.begins, ?_⟩,
    widened closed.symbols, closed.functions, ?_⟩
  · exact fun id among => Registry.knows_setMembers.mpr (workspace.provides id among)
  · exact fun known among => widened (workspace.imports known among)
  · exact fun innermost among returned inReturns =>
      Registry.knows_setMembers.mpr (closed.returns innermost among returned inReturns)

-----------------------------------------------------------------------------------------
-- Laws
-----------------------------------------------------------------------------------------

/-- A workspace advances along a relation when it is related to one with a grown registry, closed
if it was closed before.
-/
structure Workspace.Advances (basis : Prelude) (load : Workspace → Workspace → Prop)
    (before after : Workspace)
    : Prop where
  related : load before after
  grows : before.registry.Grows after.registry
  closed : before.Closed basis → after.Closed basis

/-- What a directory has is known in a registry: the function called `main` of a script, or the
function without parameters that makes a component.
-/
def DirectoryContent.Known (registry : Registry) : DirectoryContent → Prop
  | script main => registry.KnowsFunction main
  | component creation => registry.HasArity creation 0
  | listfile | failed => True

/-- The neighbours obey a relation when workspaces advance along it by whatever they bring in. -/
structure Neighbours.Obey (neighbours : Neighbours) (basis : Prelude)
    (load : Workspace → Workspace → Prop)
    : Prop where
  importModule : ∀ {name span before symbols after}, before.Closed basis →
    neighbours.importModule name span before = (some symbols, after) →
    before.Advances basis load after ∧ symbols.Closed after.registry
  addDirectory : ∀ {name span before content after}, before.Closed basis →
    neighbours.addDirectory name span before = (content, after) → content ≠ .failed →
    before.Advances basis load after ∧ content.Known after.registry
  addComponentFile : ∀ {name span before creation after}, before.Closed basis →
    neighbours.addComponentFile name span before = (some creation, after) →
    before.Advances basis load after ∧ after.registry.HasArity creation 0

/-- A law of the checks of expressions, for scripts that begin with a basis: a relation of states
with what it means for the workspace, closed under the steps of such checks.
-/
structure ExprLaw (basis : Prelude) where
  load : Workspace → Workspace → Prop
  keeps : BuildState → BuildState → Prop
  refl : ∀ state, keeps state state
  trans : ∀ {before middle after}, keeps before middle → keeps middle after → keeps before after
  workspace : ∀ {state workspace}, load state.workspace workspace →
    keeps state { state with workspace }
  report : ∀ workspace diagnostics, load workspace { workspace with diagnostics }
  index : ∀ workspace,
    load workspace { workspace with registry := workspace.registry.generateIndex.2 }
  reference : ∀ workspace id, workspace.registry.Knows id →
    load workspace { workspace with registry := (workspace.registry.addReference id).2 }
  generic : ∀ workspace family value, workspace.registry.Knows value →
    load workspace
      { workspace with registry := (workspace.registry.addGeneric basis.builtins family value).2 }

/-- A setting suits a law when it has the provided types of the law and its neighbours obey it. -/
structure BuildSetting.Suits (setting : BuildSetting) {basis : Prelude}
    (law : ExprLaw basis)
    : Prop where
  provided : setting.builtins = basis.builtins
  obey : setting.neighbours.Obey basis law.load

/-- A state advances by a law when it is related to one with a grown registry that is closed. -/
structure BuildState.Advances {basis : Prelude} (law : ExprLaw basis)
    (before after : BuildState)
    : Prop where
  keeps : law.keeps before after
  grows : before.workspace.registry.Grows after.workspace.registry
  closed : after.Closed basis

theorem BuildState.Advances.refl {basis : Prelude} {law : ExprLaw basis}
    {state : BuildState} (closed : state.Closed basis)
    : state.Advances law state :=
  ⟨law.refl state, .refl _, closed⟩

theorem BuildState.Advances.trans {basis : Prelude} {law : ExprLaw basis}
    {before middle after : BuildState} (first : before.Advances law middle)
    (later : middle.Advances law after)
    : before.Advances law after :=
  ⟨law.trans first.keeps later.keeps, first.grows.trans later.grows, later.closed⟩

/-- A state advances with its workspace. -/
theorem BuildState.Advances.ofWorkspace {basis : Prelude} {law : ExprLaw basis}
    {state : BuildState} {workspace : Workspace} (closed : state.Closed basis)
    (advances : state.workspace.Advances basis law.load workspace)
    : state.Advances law { state with workspace } :=
  ⟨law.workspace advances.related, advances.grows,
    closed.ofWorkspace advances.grows (advances.closed closed.workspace)⟩

namespace Build

-----------------------------------------------------------------------------------------
-- What checks give
-----------------------------------------------------------------------------------------

/-- Nothing is asked of what a check gives. -/
def anything {α : Type} (_ : Registry) (_ : α) : Prop := True

/-- The functions in groups are known. -/
def KnownGroups (registry : Registry) (groups : List (List FunctionId)) : Prop :=
  ∀ group ∈ groups, ∀ function ∈ group, registry.KnowsFunction function

variable {α β : Type} {basis : Prelude} {law : ExprLaw basis} {world : Registry}

theorem knownGroups_mono {registry after : Registry} {groups : List (List FunctionId)}
    (known : KnownGroups registry groups) (grows : registry.Grows after)
    : KnownGroups after groups :=
  fun group among function inGroup => grows.knowsFunction (known group among function inGroup)

/-- A check keeps a law from a world on when every state whose registry has grown from the world
advances by it, and what is given meets what is asked of it.
-/
def Keeps (law : ExprLaw basis) (world : Registry) (post : Registry → α → Prop)
    (action : Build α)
    : Prop :=
  ∀ setting before value after, setting.Suits law → before.Closed basis →
    world.Grows before.workspace.registry → action.Gives setting before value after →
    before.Advances law after ∧ post after.workspace.registry value

namespace Keeps

variable {post : Registry → α → Prop} {last : Registry → β → Prop}

theorem pure {value : α} (holds : ∀ later, world.Grows later → post later value)
    : Keeps law world post (Pure.pure value) := by
  intro setting before given after _ closed grows gives
  obtain ⟨rfl, rfl⟩ := gives_pure.mp gives
  exact ⟨.refl closed, holds _ grows⟩

theorem done (value : α) : Keeps law world anything (Pure.pure value) := pure fun _ _ => trivial

theorem reject (problem : Problem) (span : Span)
    : Keeps law world post (Build.reject problem span : Build α) :=
  fun _ _ _ _ _ _ _ gives => absurd gives gives_reject

/-- A check that fails at once does not succeed, whatever comes after. -/
theorem rejectThen (problem : Problem) (span : Span) (next : α → Build β)
    : (Build.reject problem span >>= next).Keeps law world last := by
  intro setting before value after _ _ _ gives
  obtain ⟨_, _, impossible, _⟩ := gives_bind.mp gives
  exact absurd impossible gives_reject

theorem knownType {id : TypeId} (known : world.Knows id)
    : Keeps law world Registry.Knows (Pure.pure id) :=
  pure fun _ grows => grows.knows known

theorem failure : Keeps law world post (Alternative.failure : Build α) :=
  fun _ _ _ _ _ _ _ gives => absurd gives gives_failure

theorem bind {action : Build α} {next : α → Build β} (first : action.Keeps law world post)
    (second : ∀ later, world.Grows later → ∀ value, post later value →
      (next value).Keeps law later last)
    : (action >>= next).Keeps law world last := by
  intro setting before value after suits closed grows gives
  obtain ⟨given, middle, start, rest⟩ := gives_bind.mp gives
  obtain ⟨advances, meets⟩ := first _ _ _ _ suits closed grows start
  obtain ⟨further, result⟩ := second _ (grows.trans advances.grows) given meets _ _ _ _ suits
    advances.closed (.refl _) rest
  exact ⟨advances.trans further, result⟩

/-- What a check that keeps a law gives may be forgotten. -/
theorem weaken {weaker : Registry → α → Prop} {action : Build α}
    (keeps : action.Keeps law world post)
    (implies : ∀ later value, post later value → weaker later value)
    : action.Keeps law world weaker := by
  intro setting before value after suits closed grows gives
  obtain ⟨advances, meets⟩ := keeps _ _ _ _ suits closed grows gives
  exact ⟨advances, implies _ _ meets⟩

/-- A check that goes on to fail does not succeed at all. -/
theorem thenFailure (action : Build α)
    : Keeps law world last (action >>= fun _ => Alternative.failure : Build β) := by
  intro setting before value after _ _ _ gives
  obtain ⟨_, _, _, impossible⟩ := gives_bind.mp gives
  exact absurd impossible gives_failure

theorem map {action : Build α} (change : α → β) (keeps : action.Keeps law world post)
    (holds : ∀ later value, post later value → last later (change value))
    : (change <$> action).Keeps law world last := by
  intro setting before value after suits closed grows gives
  obtain ⟨first, start, rfl⟩ := gives_map.mp gives
  obtain ⟨advances, meets⟩ := keeps _ _ _ _ suits closed grows start
  exact ⟨advances, holds _ _ meets⟩

-----------------------------------------------------------------------------------------
-- Looking at the state
-----------------------------------------------------------------------------------------

/-- A check may look at the registry first, which is closed and has grown from the world. -/
theorem registryThen {next : Registry → Build β}
    (keeps : ∀ later : Registry, world.Grows later → later.Closed → later.Provides basis.builtins →
      (next later).Keeps law later last)
    : (Build.registry >>= next).Keeps law world last := by
  intro setting before value after suits closed grows gives
  obtain ⟨given, middle, start, rest⟩ := gives_bind.mp gives
  obtain ⟨rfl, rfl⟩ := gives_registry.mp start
  exact keeps _ grows closed.workspace.registry closed.workspace.provides _ _ _ _ suits closed
    (.refl _) rest

/-- A check may look at the names first, which are closed. -/
theorem symbolsThen {next : Symbols → Build β}
    (keeps : ∀ (later : Registry) (symbols : Symbols), world.Grows later → later.Closed →
      symbols.Closed later → (next symbols).Keeps law later last)
    : (Build.symbols >>= next).Keeps law world last := by
  intro setting before value after suits closed grows gives
  obtain ⟨given, middle, start, rest⟩ := gives_bind.mp gives
  obtain ⟨rfl, rfl⟩ := gives_symbols.mp start
  exact keeps _ _ grows closed.workspace.registry closed.symbols _ _ _ _ suits closed (.refl _)
    rest

/-- A check may look at the state first, which is closed. -/
theorem getThen {next : BuildState → Build β}
    (keeps : ∀ state : BuildState, world.Grows state.workspace.registry →
      state.Closed basis → (next state).Keeps law state.workspace.registry last)
    : (get >>= next).Keeps law world last := by
  intro setting before value after suits closed grows gives
  obtain ⟨given, middle, start, rest⟩ := gives_bind.mp gives
  obtain ⟨rfl, rfl⟩ := gives_get.mp start
  exact keeps _ grows closed _ _ _ _ suits closed (.refl _) rest

/-- A check may look at the provided types first, which are those of the law. -/
theorem builtinsThen {next : BuiltinTypes → Build β}
    (keeps : ∀ later : Registry, world.Grows later → later.Provides basis.builtins →
      (next basis.builtins).Keeps law later last)
    : (Build.builtins >>= next).Keeps law world last := by
  intro setting before value after suits closed grows gives
  obtain ⟨given, middle, start, rest⟩ := gives_bind.mp gives
  obtain ⟨rfl, rfl⟩ := gives_builtins.mp start
  exact keeps _ grows closed.workspace.provides _ _ _ _ suits closed (.refl _)
    (suits.provided ▸ rest)

-----------------------------------------------------------------------------------------
-- Changing the workspace
-----------------------------------------------------------------------------------------

/-- A step on the workspace keeps a law along which it advances. -/
theorem onWorkspace {step : StateM Workspace α}
    (advances : ∀ {before value after}, before.Closed basis → world.Grows before.registry →
      step before = (value, after) →
      before.Advances basis law.load after ∧ post after.registry value)
    : (Build.onWorkspace step).Keeps law world post := by
  intro setting before value after _ closed grows gives
  obtain ⟨workspace, outcome, rfl⟩ := gives_onWorkspace.mp gives
  obtain ⟨advanced, meets⟩ := advances closed.workspace grows outcome
  exact ⟨.ofWorkspace closed advanced, meets⟩

/-- A check may ask the neighbours first, if it fails where they do. -/
theorem askThen {γ : Type} {step : BuildSetting → StateM Workspace γ} {next : γ → Build β}
    (found : Registry → γ → Prop) (failed : γ)
    (fails : ∀ setting before value after, ¬ (next failed).Gives setting before value after)
    (advances : ∀ {setting : BuildSetting} {before content after}, setting.Suits law →
      before.Closed basis → step setting before = (content, after) → content ≠ failed →
      before.Advances basis law.load after ∧ found after.registry content)
    (keeps : ∀ later, world.Grows later → ∀ content, content ≠ failed → found later content →
      (next content).Keeps law later last)
    : Keeps law world last (do next (← Build.onWorkspace (step (← read)))) := by
  intro setting before value after suits closed grows gives
  obtain ⟨_, _, asked, answered⟩ := gives_bind.mp gives
  obtain ⟨rfl, rfl⟩ := gives_read.mp asked
  obtain ⟨content, middle, loaded, rest⟩ := gives_bind.mp answered
  obtain ⟨workspace, outcome, rfl⟩ := gives_onWorkspace.mp loaded
  by_cases failure : content = failed
  · rw [failure] at rest
    exact absurd rest (fails _ _ _ _)
  · obtain ⟨loads, meets⟩ := advances suits closed.workspace outcome failure
    have advanced := BuildState.Advances.ofWorkspace closed loads
    obtain ⟨later, result⟩ := keeps _ (grows.trans loads.grows) content failure meets _ _ _ _ suits
      advanced.closed (.refl _) rest
    exact ⟨advanced.trans later, result⟩

theorem report (diagnostic : Diagnostic)
    : (Build.onWorkspace (Workspace.report diagnostic)).Keeps law world anything := by
  refine onWorkspace fun closed _ outcome => ?_
  cases outcome
  exact ⟨⟨law.report _ _, .refl _, fun closed => ⟨closed.registry, closed.provides, closed.begins,
    closed.imports⟩⟩, trivial⟩

theorem note (problem : Problem) (span : Span)
    : (Build.note problem span).Keeps law world anything :=
  report _

/-- A change of the registry keeps a law that relates its two sides. -/
theorem onRegistry {change : Registry → α × Registry}
    (related : ∀ workspace : Workspace, world.Grows workspace.registry →
      law.load workspace { workspace with registry := (change workspace.registry).2 })
    (grows : ∀ registry : Registry, world.Grows registry → registry.Grows (change registry).2)
    (closed : ∀ registry : Registry, world.Grows registry → registry.Provides basis.builtins →
      registry.Closed → (change registry).2.Closed ∧ post (change registry).2 (change registry).1)
    : (Build.onRegistry change).Keeps law world post := by
  refine onWorkspace fun known grown outcome => ?_
  cases outcome
  obtain ⟨closedAfter, meets⟩ := closed _ grown known.provides known.registry
  exact ⟨⟨related _ grown, grows _ grown, fun known =>
    known.ofRegistry (grows _ grown) closedAfter⟩, meets⟩

theorem generateIndex : Build.generateIndex.Keeps law world anything :=
  onRegistry (fun workspace _ => law.index workspace) (fun _ _ => .ofSame rfl rfl rfl rfl)
    fun _ _ _ closed => ⟨closed.generateIndex, trivial⟩

theorem addReference {id : TypeId} (known : world.Knows id)
    : (Build.onRegistry fun registry => registry.addReference id).Keeps law world
        Registry.Knows :=
  onRegistry (fun workspace grown => law.reference workspace id (grown.knows known))
    (fun registry _ => Registry.grows_addReference registry id)
    fun _ grown _ closed => closed.addReference (grown.knows known)

theorem addGeneric (family : GenericFamily) {value : TypeId} (known : world.Knows value)
    : (Build.onRegistry fun registry =>
        registry.addGeneric basis.builtins family value).Keeps law world
        Registry.Knows :=
  onRegistry (fun workspace grown => law.generic workspace family value (grown.knows known))
    (fun registry _ => Registry.grows_addGeneric registry basis.builtins family value)
    fun _ grown provides closed => closed.addGeneric provides family (grown.knows known)

/-- Checks of the elements of a list keep a law where what they give stays as it is asked, by
induction over the list.
-/
theorem mapM (last : Registry → β → Prop) {action : α → Build β} (elements : List α)
    (keeps : ∀ element ∈ elements, ∀ later, world.Grows later →
      (action element).Keeps law later last)
    (mono : ∀ {earlier later value}, last earlier value → earlier.Grows later → last later value)
    : (elements.mapM action).Keeps law world
        fun registry values => ∀ value ∈ values, last registry value := by
  induction elements generalizing world with
  | nil => exact pure fun _ _ _ absent => nomatch absent
  | cons first rest ih =>
      rw [List.mapM_cons]
      refine (keeps first (.head _) world (.refl _)).bind fun later grows value meets => ?_
      refine (ih fun element among after grown => keeps element (.tail _ among) after
        (grows.trans grown)).bind fun after grown values others => ?_
      refine pure fun final growth given among => ?_
      rcases List.mem_cons.mp among with rfl | inRest
      · exact mono meets (grown.trans growth)
      · exact mono (others given inRest) growth

theorem optionMapM {action : α → Build β} {element? : Option α}
    (keeps : ∀ element, element? = some element → (action element).Keeps law world last)
    : (element?.mapM action).Keeps law world
        fun registry value? => ∀ value, value? = some value → last registry value := by
  cases element? with
  | none => exact pure fun _ _ _ impossible => nomatch impossible
  | some element =>
      refine (keeps element rfl).map some fun later value meets given same => ?_
      cases same
      exact meets

end Keeps

end Build

end BuildScript
