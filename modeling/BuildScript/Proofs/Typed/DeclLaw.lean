import BuildScript.Proofs.Typed.StmtScoping

/-! Laws of the checks of declarations. A declaration changes the registry step by step, opens and
closes scopes of names, and declares types. What a relation of states needs to be closed under
is stated once, so that one walk through the checks serves every such relation.
-/

namespace BuildScript

-----------------------------------------------------------------------------------------
-- Declared types
-----------------------------------------------------------------------------------------

namespace TypedDecl

mutual

/-- The types that a declaration declares, those in namespaces included. -/
def types : TypedDecl → List TypeId
  | classDecl type _ _ => [type]
  | enumDecl type _ => [type]
  | namespaceDecl _ decls _ => typesOf decls
  | _ => []

/-- The types that several declarations declare, in order. -/
def typesOf : List TypedDecl → List TypeId
  | [] => []
  | decl :: rest => types decl ++ typesOf rest

end

end TypedDecl

/-- The types that a script declares, in order. -/
def TypedUnit.types (scriptUnit : TypedUnit) : List TypeId := TypedDecl.typesOf scriptUnit.decls

-----------------------------------------------------------------------------------------
-- Steps
-----------------------------------------------------------------------------------------

namespace Registry

/-- A registry has a function whose body is that of a script. -/
structure HasScript (registry : Registry) (id : FunctionId) : Prop where
  known : registry.KnowsFunction id
  body : ∃ body?, (registry.function id).body = .script body?

theorem HasScript.mono {registry after : Registry} {id : FunctionId}
    (script : registry.HasScript id) (grows : registry.Grows after)
    : after.HasScript id := by
  obtain ⟨body?, body⟩ := script.body
  have becomes := (grows.function script.known).body
  rw [body] at becomes
  generalize later : (after.function id).body = afterBody at becomes
  refine ⟨grows.knowsFunction script.known, ?_⟩
  cases becomes with
  | same => exact ⟨body?, later⟩
  | checked _ after? => exact ⟨after?, later⟩

/-- One change of the registry that a declaration makes, apart from the declaration of a type and
of its members. A body that a function gets is well scoped and ends in a `return`, and its
expressions are admitted.
-/
inductive Step (builtins : BuiltinTypes) (registry : Registry) : Registry → Prop where
  | index : Step builtins registry registry.generateIndex.2
  | reference (id : TypeId) (known : registry.Knows id)
      : Step builtins registry (registry.addReference id).2
  | component (component : Component)
      : Step builtins registry (registry.addComponent builtins component).2
  | context (kind : ContextKind) (name : String) (parent? : Option ContextId)
      : Step builtins registry (registry.addContext kind name parent?).2
  | function (info : FunctionInfo) (missing : info.body = .script none)
      (params : ∀ param ∈ info.params, registry.Knows param.type)
      (result : ∀ type, info.returnType? = some type → registry.Knows type)
      : Step builtins registry (registry.addFunction info).2
  | assignment (context : ContextId) (object reference : TypeId) (known : registry.Knows object)
      (referenceKnown : registry.Knows reference)
      : Step builtins registry
          (registry.addBuiltin context "=" [object] reference .assignObject).2
  | deduction (id : FunctionId) (type : TypeId) (known : registry.Knows type)
      (missing : (registry.function id).returnType? = none)
      : Step builtins registry
          (registry.modifyFunction id fun info => { info with returnType? := some type })
  | body (id : FunctionId) (body : TypedBlock) (script : registry.HasScript id)
      (inside : body.wellScoped false = true) (ends : body.endsInReturn = true)
      (admits : registry.AdmitsAll builtins body.exprs)
      : Step builtins registry
          (registry.modifyFunction id fun info => { info with body := .script (some body) })
  | enumeration (id : TypeId) (known : registry.Knows id)
      : Step builtins registry (registry.addEnumFunctions builtins id)

variable {registry after : Registry} {builtins : BuiltinTypes}

/-- A registry grows with every step, by cases on the step. -/
theorem Step.grows (step : registry.Step builtins after) : registry.Grows after := by
  cases step with
  | index => exact .ofSame rfl rfl rfl rfl
  | reference id known => exact grows_addReference registry id
  | component component => exact grows_addFunction registry _
  | context kind name parent? => exact .ofSame rfl rfl rfl rfl
  | function info => exact grows_addFunction registry info
  | assignment context object reference => exact grows_addBuiltin registry _ _ _ _ _
  | deduction id type known missing =>
      refine grows_modifyFunction registry ⟨rfl, rfl, rfl, fun other declared => ?_, .same _⟩
      rw [missing] at declared
      exact nomatch declared
  | body id body script =>
      obtain ⟨body?, before⟩ := script.body
      refine grows_modifyFunction registry ⟨rfl, rfl, rfl, fun _ declared => declared, ?_⟩
      rw [before]
      exact .checked _ _
  | enumeration id known => exact grows_addEnumFunctions registry builtins id

/-- A registry stays closed with every step, by cases on the step. -/
theorem Step.closed (step : registry.Step builtins after) (provides : registry.Provides builtins)
    (closed : registry.Closed)
    : after.Closed := by
  cases step with
  | index => exact closed.generateIndex
  | reference id known => exact (closed.addReference known).1
  | component component => exact closed.addComponent provides component
  | context kind name parent? => exact closed.addContext kind name parent?
  | function info missing params result => exact closed.addFunction params result
  | assignment context object reference known referenceKnown =>
      refine closed.addBuiltin context "=" .assignObject (fun type among => ?_) referenceKnown
      rw [List.mem_singleton.mp among]
      exact known
  | deduction id type known missing =>
      refine closed.modifyFunction (fun _ => rfl) fun info other deduced => .inr ?_
      cases deduced
      exact known
  | body id body script =>
      exact closed.modifyFunction (fun _ => rfl) fun info other declared => .inl declared
  | enumeration id known => exact closed.addEnumFunctions provides known

end Registry

namespace BuildState

/-- (addType state name contextKind kind base? exported) is the state after the declaration of a
type: the type has a context of its own, and its full name tells the namespaces around it.
-/
def addType (state : BuildState) (name : Token) (contextKind : ContextKind) (kind : TypeKind)
    (base? : Option TypeId) (exported : Bool)
    : BuildState :=
  let registry := state.workspace.registry
  let (context, registry) := registry.addContext contextKind name.value (some state.context)
  let (type, registry) := registry.addType
    ⟨TypeExpr.joinPath (state.namespaces ++ [name.value]), name.value, kind, context, [], base?,
      false, name.span⟩
  { state with
    workspace := { state.workspace with registry }
    symbols :=
      { state.symbols with types := state.symbols.types.register name.value type exported } }

/-- (enterScopes state names context) is the state in named scopes that belong to a context. -/
def enterScopes (state : BuildState) (names : List String) (context : ContextId) : BuildState :=
  { state with
    symbols := names.foldl (fun symbols name => symbols.enterNamed name false) state.symbols
    namespaces := state.namespaces ++ names
    context }

/-- (leaveScopes before names state) is the state after named scopes that were entered in the
state before.
-/
def leaveScopes (before : BuildState) (names : List String) (state : BuildState) : BuildState :=
  { state with
    symbols := names.foldl (fun symbols _ => symbols.leave) state.symbols
    namespaces := before.namespaces
    context := before.context }

variable {basis : Prelude} {state : BuildState}

/-- The declaration of a type lets the registry grow. -/
theorem grows_addType (state : BuildState) (name : Token) (contextKind : ContextKind)
    (kind : TypeKind) (base? : Option TypeId) (exported : Bool)
    : state.workspace.registry.Grows
        (state.addType name contextKind kind base? exported).workspace.registry := by
  let opened := (state.workspace.registry.addContext contextKind name.value
    (some state.context)).2
  have start : state.workspace.registry.Grows opened := .ofSame rfl rfl rfl rfl
  exact start.trans (Registry.grows_addType opened _)

theorem type_addType (state : BuildState) (name : Token) (contextKind : ContextKind)
    (kind : TypeKind) (base? : Option TypeId) (exported : Bool) (id : TypeId)
    : (state.addType name contextKind kind base? exported).workspace.registry.type id =
        if id = ⟨state.workspace.registry.types.size⟩ then
          ⟨TypeExpr.joinPath (state.namespaces ++ [name.value]), name.value, kind,
            ⟨state.workspace.registry.contexts.size⟩, [], base?, false, name.span⟩
        else state.workspace.registry.type id :=
  Registry.type_addType _ _ id

theorem knows_addType (state : BuildState) (name : Token) (contextKind : ContextKind)
    (kind : TypeKind) (base? : Option TypeId) (exported : Bool)
    : (state.addType name contextKind kind base? exported).workspace.registry.Knows
        ⟨state.workspace.registry.types.size⟩ :=
  Registry.knows_addType _ _

/-- A type that is not made from others and whose base is known keeps a state closed. -/
theorem Closed.addType (closed : state.Closed basis) (name : Token) (contextKind : ContextKind)
    {kind : TypeKind} {base? : Option TypeId} (exported : Bool) (alone : kind.inner? = none)
    (derived : ∀ base, base? = some base → state.workspace.registry.Knows base)
    : (state.addType name contextKind kind base? exported).Closed basis := by
  have grows := grows_addType state name contextKind kind base? exported
  have opened := closed.workspace.registry.addContext contextKind name.value (some state.context)
  have added : (state.addType name contextKind kind base? exported).workspace.registry.Closed :=
    opened.addType (fun inner made => nomatch alone.symm.trans made) derived
      fun _ absent => nomatch absent
  have known := closed.ofWorkspace grows (closed.workspace.ofRegistry grows added)
  exact ⟨known.workspace, ⟨known.symbols.types.register name.value exported
      (knows_addType state name contextKind kind base? exported),
    known.symbols.functions, known.symbols.ids, known.symbols.enums⟩, known.functions,
    known.returns⟩

theorem Closed.enterScopes (closed : state.Closed basis) (names : List String)
    (context : ContextId)
    : (state.enterScopes names context).Closed basis := by
  refine ⟨closed.workspace, ?_, closed.functions, closed.returns⟩
  exact ScopeTable.foldl_keeps (fun symbols : Symbols => symbols.Closed _) closed.symbols
    fun _ name _ known => known.enterNamed name false

theorem Closed.leaveScopes (closed : state.Closed basis) (before : BuildState)
    (names : List String)
    : (before.leaveScopes names state).Closed basis := by
  refine ⟨closed.workspace, ?_, closed.functions, closed.returns⟩
  exact ScopeTable.foldl_keeps (fun symbols : Symbols => symbols.Closed _) closed.symbols
    fun _ _ _ known => known.leave

end BuildState

-----------------------------------------------------------------------------------------
-- Laws
-----------------------------------------------------------------------------------------

/-- A law of the checks of declarations, which goes on from one of statements. Declarations are
related together with the types that they declare, and so are workspaces with the types of a
script that is not finished.
-/
structure DeclLaw (basis : Prelude) extends StmtLaw basis where
  declares : BuildState → List TypeId → BuildState → Prop
  loads : Workspace → List TypeId → Workspace → Prop
  kept : ∀ {before after}, keeps before after → declares before [] after
  follow : ∀ {before first middle second after}, declares before first middle →
    declares middle second after → declares before (first ++ second) after
  loadTrans : ∀ {before middle after}, load before middle → load middle after →
    load before after
  loadThenLoads : ∀ {before middle types after}, load before middle →
    loads middle types after → loads before types after
  loadsThenLoad : ∀ {before types middle after}, loads before types middle →
    load middle after → loads before types after
  quiet : ∀ {before after : Workspace}, after.registry = before.registry →
    after.modules = before.modules → load before after
  step : ∀ {workspace : Workspace} {registry},
    workspace.registry.Step basis.builtins registry → load workspace { workspace with registry }
  members : ∀ {workspace : Workspace} {object members},
    (workspace.registry.type object).members = [] →
    (∀ member ∈ members, workspace.registry.Knows member.type) →
    load workspace { workspace with registry := workspace.registry.setMembers object members }
  finished : ∀ {before after path} {scriptUnit : TypedUnit},
    loads before scriptUnit.types after →
    after.registry.AdmitsAll basis.builtins scriptUnit.exprs →
    load before { after with modules := after.modules ++ [⟨path, scriptUnit⟩] }
  script : ∀ {workspace types after},
    declares ⟨workspace, basis.symbols, basis.builtins.globalContext, [], [], 0⟩ types after →
    loads workspace types after.workspace
  declared : ∀ state name contextKind kind base? exported, isWord name.value = true →
    (kind = .object ∨ ∃ names, kind = .enumeration names) →
    (∀ base, base? = some base → state.workspace.registry.Knows base) →
    state.symbols.types.findHere? name.value = none →
    declares state [⟨state.workspace.registry.types.size⟩]
      (state.addType name contextKind kind base? exported)
  namedScopes : ∀ {before names context types after},
    (∀ name ∈ names, isWord name = true) →
    declares (before.enterScopes names context) types after →
    declares before types (before.leaveScopes names after)
  merged : ∀ state imported symbols,
    state.symbols.merge state.workspace.registry imported = (none, symbols) →
    declares state [] { state with symbols }

namespace Workspace

variable {basis : Prelude} {law : DeclLaw basis} {before middle after : Workspace}

/-- A workspace advances by each step of its registry. -/
theorem Advances.ofStep {workspace : Workspace} {registry : Registry}
    (step : workspace.registry.Step basis.builtins registry)
    : workspace.Advances basis law.load { workspace with registry } :=
  ⟨law.step step, step.grows, fun closed =>
    closed.ofRegistry step.grows (step.closed closed.provides closed.registry)⟩

/-- A workspace advances when neither the registry nor what was loaded changes. -/
theorem Advances.quiet (registry : after.registry = before.registry)
    (modules : after.modules = before.modules) (imports : after.imports = before.imports)
    : before.Advances basis law.load after := by
  refine ⟨law.quiet registry modules, ?_, fun closed => ?_⟩
  · rw [registry]
    exact .refl _
  · refine ⟨?_, ?_, ?_, ?_⟩
    · rw [registry]
      exact closed.registry
    · rw [registry]
      exact closed.provides
    · rw [registry]
      exact closed.begins
    · rw [registry, imports]
      exact closed.imports

theorem Advances.trans (first : before.Advances basis law.load middle)
    (later : middle.Advances basis law.load after)
    : before.Advances basis law.load after :=
  ⟨law.loadTrans first.related later.related, first.grows.trans later.grows,
    fun closed => later.closed (first.closed closed)⟩

end Workspace

/-- A state extends to another one by a law with declared types when it is related to it with
them, and to one with a grown registry that is closed.
-/
structure BuildState.Extends {basis : Prelude} (law : DeclLaw basis) (before : BuildState)
    (types : List TypeId) (after : BuildState)
    : Prop where
  declares : law.declares before types after
  grows : before.workspace.registry.Grows after.workspace.registry
  closed : after.Closed basis

namespace BuildState

variable {basis : Prelude} {law : DeclLaw basis} {before middle after : BuildState}
  {first second types : List TypeId}

/-- A state that advances extends with no declared types. -/
theorem Advances.extend (advances : before.Advances law.toExprLaw after)
    : before.Extends law [] after :=
  ⟨law.kept advances.keeps, advances.grows, advances.closed⟩

theorem Extends.trans (start : before.Extends law first middle)
    (rest : middle.Extends law second after)
    : before.Extends law (first ++ second) after :=
  ⟨law.follow start.declares rest.declares, start.grows.trans rest.grows, rest.closed⟩

theorem Extends.thenAdvances (start : before.Extends law types middle)
    (rest : middle.Advances law.toExprLaw after)
    : before.Extends law types after := by
  have both := start.trans rest.extend
  rw [List.append_nil] at both
  exact both

theorem Advances.thenExtends (start : before.Advances law.toExprLaw middle)
    (rest : middle.Extends law types after)
    : before.Extends law types after :=
  start.extend.trans rest

end BuildState

namespace Build

variable {basis : Prelude} {law : DeclLaw basis} {world : Registry}

namespace Keeps

/-- A step of the registry keeps a law. -/
theorem step {α : Type} {post : Registry → α → Prop} {change : Registry → α × Registry}
    (steps : ∀ registry : Registry, world.Grows registry → registry.Closed →
      registry.Provides basis.builtins → registry.Step basis.builtins (change registry).2)
    (meets : ∀ registry : Registry, world.Grows registry →
      post (change registry).2 (change registry).1)
    : (Build.onRegistry change).Keeps law.toExprLaw world post := by
  refine onWorkspace fun closed grows outcome => ?_
  cases outcome
  exact ⟨.ofStep (steps _ grows closed.registry closed.provides), meets _ grows⟩

theorem modifyRegistry {change : Registry → Registry}
    (steps : ∀ registry : Registry, world.Grows registry → registry.Closed →
      registry.Provides basis.builtins → registry.Step basis.builtins (change registry))
    : (Build.modifyRegistry change).Keeps law.toExprLaw world anything :=
  step steps fun _ _ => trivial

end Keeps

end Build

end BuildScript
