import BuildScript.Proofs.Registry.Closed
import BuildScript.Proofs.Typed.Admission
import Mathlib.Logic.Relation

/-! What can happen to a registry. A check changes the registry by one of a few operations at a
time, whether or not it succeeds in the end. What each of them leaves as it is stays as it is along
every chain of them.
-/

namespace BuildScript

-----------------------------------------------------------------------------------------
-- Bodies
-----------------------------------------------------------------------------------------

mutual

/-- The local variables that a statement and the statements in it declare, in order. -/
def TypedStmt.locals : TypedStmt → List TypedVariable
  | .varDecl decl => [decl]
  | .conditional branches none _ => TypedBranch.allLocals branches
  | .conditional branches (some body) _ => TypedBranch.allLocals branches ++ body.locals
  | .whileLoop _ body _ => body.locals
  | .forLoop none _ _ body _ => body.locals
  | .forLoop (some initial) _ _ body _ => initial.locals ++ body.locals
  | .block body => body.locals
  | .expression _ | .returnValue .. | .implicitReturn _ | .breakLoop _ => []

/-- The variables that are declared in a block, in order. -/
def TypedBlock.locals : TypedBlock → List TypedVariable
  | .mk body _ => TypedStmt.allLocals body

/-- The variables that are declared in several statements, in order. -/
def TypedStmt.allLocals : List TypedStmt → List TypedVariable
  | [] => []
  | first :: rest => first.locals ++ TypedStmt.allLocals rest

/-- The variables that are declared in several branches, in order. -/
def TypedBranch.allLocals : List TypedBranch → List TypedVariable
  | [] => []
  | .mk _ body :: rest => body.locals ++ TypedBranch.allLocals rest

end

namespace Registry

/-- The types of variables are known. -/
def KnowsLocals (registry : Registry) (locals : List TypedVariable) : Prop :=
  ∀ decl ∈ locals, registry.Knows decl.type

theorem KnowsLocals.mono {registry after : Registry} {locals : List TypedVariable}
    (known : registry.KnowsLocals locals) (grows : registry.Grows after)
    : after.KnowsLocals locals :=
  fun decl among => grows.knows (known decl among)

theorem KnowsLocals.append {registry : Registry} {first second : List TypedVariable}
    (known : registry.KnowsLocals first) (others : registry.KnowsLocals second)
    : registry.KnowsLocals (first ++ second) :=
  fun decl among => (List.mem_append.mp among).elim (known decl) (others decl)

/-- A registry knows a body when it has the types and functions that are mentioned in it. -/
structure KnowsBody (registry : Registry) (body : TypedBlock) : Prop where
  types : ∀ expr ∈ body.exprs, ∀ inner, expr.Contains inner → registry.Knows inner.type
  functions : ∀ expr ∈ body.exprs, ∀ inner, expr.Contains inner → ∀ function count,
    inner.kind.applied? = some (function, count) → registry.KnowsFunction function
  locals : registry.KnowsLocals body.locals

/-- A registry knows what it admits. -/
theorem KnowsBody.ofAdmits {registry : Registry} {b : BuiltinTypes} {body : TypedBlock}
    (admits : registry.AdmitsAll b body.exprs) (known : registry.KnowsLocals body.locals)
    : registry.KnowsBody body :=
  ⟨fun expr among inner inside => (admits expr among).types inner inside,
    fun expr among inner inside function count applied =>
      ((admits expr among).calls inner inside function count applied).known, known⟩

-----------------------------------------------------------------------------------------
-- Operations
-----------------------------------------------------------------------------------------

/-- A registry knows the contexts that it has. -/
def KnowsContext (registry : Registry) (id : ContextId) : Prop :=
  id.index < registry.contexts.size

instance (registry : Registry) (id : ContextId) : Decidable (registry.KnowsContext id) :=
  inferInstanceAs (Decidable (id.index < registry.contexts.size))

/-- (MayHave registry object member) says that objects of a class may have a member: its type is
known and no reference, and if that is a class then it was added earlier.
-/
structure MayHave (registry : Registry) (object : TypeId) (member : Member) : Prop where
  known : registry.Knows member.type
  value : (registry.type member.type).isReference = false
  earlier : (registry.type member.type).isObject = true → member.type.index < object.index
  numbered : member.index < registry.nextIndex
  fresh : ∀ id, ∀ other ∈ (registry.type id).members, other.index ≠ member.index

/-- One operation on a registry. Whatever is added mentions only what is there. -/
inductive Change (registry : Registry) : Registry → Prop where
  | index : Change registry registry.generateIndex.2
  | context (kind : ContextKind) (name : String) (parent? : Option ContextId)
      (inside : ∀ parent, parent? = some parent → registry.KnowsContext parent)
      : Change registry (registry.addContext kind name parent?).2
  | type (info : TypeInfo) (value : info.isReference = false) (bare : info.members = [])
      (placed : registry.KnowsContext info.context)
      (made : ∀ inner, info.kind.inner? = some inner → registry.Knows inner)
      (derived : ∀ base, info.base? = some base →
        registry.Knows base ∧ (registry.type base).isReference = false)
      : Change registry (registry.addType info).2
  | reference (id : TypeId) (known : registry.Knows id)
      : Change registry (registry.addReference id).2
  | generic (id : TypeId) (known : registry.Knows id)
      (made : ∃ (family : GenericFamily) (value : TypeId),
        (registry.type id).kind = family.kind value)
      (missing : registry.generics.lookup (registry.typeName id) = none)
      : Change registry
          { registry with generics := (registry.typeName id, id) :: registry.generics }
  | function (info : FunctionInfo) (unchecked : ∀ body, info.body ≠ .script (some body))
      (placed : registry.KnowsContext info.context)
      (params : ∀ param ∈ info.params, registry.Knows param.type)
      (result : ∀ type, info.returnType? = some type → registry.Knows type)
      : Change registry (registry.addFunction info).2
  | result (id : FunctionId) (type : TypeId) (known : registry.Knows type)
      : Change registry
          (registry.modifyFunction id fun info => { info with returnType? := some type })
  | body (id : FunctionId) (body : TypedBlock) (known : registry.KnowsBody body)
      : Change registry
          (registry.modifyFunction id fun info => { info with body := .script (some body) })
  | members (object : TypeId) (members : List Member)
      (isClass : (registry.type object).isObject = true)
      (may : ∀ member ∈ members, registry.MayHave object member)
      (distinct : (members.map (·.index)).Nodup)
      : Change registry (registry.setMembers object members)

/-- A registry evolves into another one by any number of operations. -/
def Evolves : Registry → Registry → Prop := Relation.ReflTransGen Change

-----------------------------------------------------------------------------------------
-- What no operation changes
-----------------------------------------------------------------------------------------

/-- A registry preserves what another one has when the types are still there with their names,
kinds, bases and contexts, and the functions with their names, parameters and contexts. Numbers are
not given out again.
-/
structure Preserves (before after : Registry) : Prop where
  knows : ∀ id, before.Knows id → after.Knows id
  knowsFunction : ∀ id, before.KnowsFunction id → after.KnowsFunction id
  knowsContext : ∀ id, before.KnowsContext id → after.KnowsContext id
  typeName : ∀ id, before.Knows id → after.typeName id = before.typeName id
  kind : ∀ id, before.Knows id → (after.type id).kind = (before.type id).kind
  base : ∀ id, before.Knows id → (after.type id).base? = (before.type id).base?
  context : ∀ id, before.Knows id → (after.type id).context = (before.type id).context
  functionName : ∀ id, before.KnowsFunction id →
    (after.function id).name = (before.function id).name
  params : ∀ id, before.KnowsFunction id →
    (after.function id).params = (before.function id).params
  functionContext : ∀ id, before.KnowsFunction id →
    (after.function id).context = (before.function id).context
  nextIndex : before.nextIndex ≤ after.nextIndex

namespace Preserves

variable {before middle after : Registry}

theorem refl (registry : Registry) : Preserves registry registry :=
  ⟨fun _ => id, fun _ => id, fun _ => id, fun _ _ => rfl, fun _ _ => rfl, fun _ _ => rfl,
    fun _ _ => rfl, fun _ _ => rfl, fun _ _ => rfl, fun _ _ => rfl, Nat.le_refl _⟩

theorem trans (first : before.Preserves middle) (later : middle.Preserves after)
    : before.Preserves after where
  knows id known := later.knows id (first.knows id known)
  knowsFunction id known := later.knowsFunction id (first.knowsFunction id known)
  knowsContext id known := later.knowsContext id (first.knowsContext id known)
  typeName id known := (later.typeName id (first.knows id known)).trans (first.typeName id known)
  kind id known := (later.kind id (first.knows id known)).trans (first.kind id known)
  base id known := (later.base id (first.knows id known)).trans (first.base id known)
  context id known := (later.context id (first.knows id known)).trans (first.context id known)
  functionName id known :=
    (later.functionName id (first.knowsFunction id known)).trans (first.functionName id known)
  params id known :=
    (later.params id (first.knowsFunction id known)).trans (first.params id known)
  functionContext id known :=
    (later.functionContext id (first.knowsFunction id known)).trans
      (first.functionContext id known)
  nextIndex := Nat.le_trans first.nextIndex later.nextIndex

/-- A registry that grows preserves what it has. -/
theorem ofGrows (grows : before.Grows after)
    (contexts : before.contexts.size ≤ after.contexts.size)
    (nextIndex : before.nextIndex ≤ after.nextIndex)
    : before.Preserves after where
  knows _ := grows.knows
  knowsFunction _ := grows.knowsFunction
  knowsContext _ known := Nat.lt_of_lt_of_le known contexts
  typeName _ known := grows.typeName known
  kind _ known := by rw [grows.type known]
  base _ known := by rw [grows.type known]
  context _ known := by rw [grows.type known]
  functionName _ known := (grows.function known).name
  params _ known := (grows.function known).params
  functionContext _ known := (grows.function known).context
  nextIndex := nextIndex

theorem isReference (preserves : before.Preserves after) {id : TypeId} (known : before.Knows id)
    : (after.type id).isReference = (before.type id).isReference := by
  rw [TypeInfo.isReference, TypeInfo.referenced?, preserves.kind id known]
  rfl

theorem isObject (preserves : before.Preserves after) {id : TypeId} (known : before.Knows id)
    : (after.type id).isObject = (before.type id).isObject := by
  rw [TypeInfo.isObject, preserves.kind id known]
  rfl

/-- What is preserved goes on to be mentioned by a body. -/
theorem knowsBody (preserves : before.Preserves after) {body : TypedBlock}
    (known : before.KnowsBody body)
    : after.KnowsBody body :=
  ⟨fun expr among inner inside => preserves.knows _ (known.types expr among inner inside),
    fun expr among inner inside function count applied =>
      preserves.knowsFunction _ (known.functions expr among inner inside function count applied),
    fun decl among => preserves.knows _ (known.locals decl among)⟩

/-- A function may be changed apart from its name, parameters and context. -/
theorem modifyFunction (registry : Registry) (id : FunctionId)
    {change : FunctionInfo → FunctionInfo} (name : ∀ info, (change info).name = info.name)
    (params : ∀ info, (change info).params = info.params)
    (context : ∀ info, (change info).context = info.context)
    : registry.Preserves (registry.modifyFunction id change) := by
  refine { refl registry with knowsFunction := fun other known => ?known,
                              functionName := fun other _ => ?name,
                              params := fun other _ => ?params,
                              functionContext := fun other _ => ?context }
  case known =>
    show other.index < (registry.functions.modify id.index change).size
    rwa [Array.size_modify]
  all_goals rw [function_modifyFunction]; split
  case name => exact name _
  case params => exact params _
  case context => exact context _
  all_goals rfl

/-- A type may be given members. -/
theorem setMembers (registry : Registry) (object : TypeId) (members : List Member)
    : registry.Preserves (registry.setMembers object members) := by
  refine { refl registry with knows := fun _ => knows_setMembers.mpr,
                              typeName := fun id _ => ?name, kind := fun id _ => ?kind,
                              base := fun id _ => ?base, context := fun id _ => ?context }
  case name => rw [Registry.typeName, type_setMembers]; split <;> rfl
  all_goals rw [type_setMembers]; split <;> rfl

end Preserves

variable {registry before middle after : Registry}

/-- No operation changes what is there, by cases on the operation. -/
theorem Change.preserves (change : registry.Change after) : registry.Preserves after := by
  cases change with
  | index =>
      exact .ofGrows (.ofSame rfl rfl rfl rfl) (Nat.le_refl _) (Nat.le_succ _)
  | context kind name parent? =>
      refine .ofGrows (.ofSame rfl rfl rfl rfl) ?_ (Nat.le_refl _)
      show registry.contexts.size ≤ (registry.contexts.push _).size
      rw [Array.size_push]
      exact Nat.le_succ _
  | type info =>
      refine .ofGrows (grows_addType registry info) ?_ (Nat.le_refl _)
      show registry.contexts.size ≤ (registry.contexts.modify _ _).size
      exact Nat.le_of_eq Array.size_modify.symm
  | reference id =>
      have grows := grows_addReference registry id
      rcases addReference_cases registry id with ⟨same, _⟩ | ⟨existing, same, _⟩ | ⟨_, _, added⟩
      · rw [same]
        exact .refl registry
      · rw [same]
        exact .refl registry
      · rw [added] at grows ⊢
        exact .ofGrows grows (Nat.le_refl _) (Nat.le_refl _)
  | generic id => exact { Preserves.refl registry with }
  | function info =>
      refine .ofGrows (grows_addFunction registry info) ?_ (Nat.le_refl _)
      show registry.contexts.size ≤ (registry.contexts.modify _ _).size
      exact Nat.le_of_eq Array.size_modify.symm
  | result id type => exact .modifyFunction registry id (fun _ => rfl) (fun _ => rfl) fun _ => rfl
  | body id body => exact .modifyFunction registry id (fun _ => rfl) (fun _ => rfl) fun _ => rfl
  | members object members => exact .setMembers registry object members

/-- Along any number of operations nothing of this changes, by induction over them. -/
theorem Evolves.preserves (evolves : before.Evolves after) : before.Preserves after := by
  induction evolves with
  | refl => exact .refl before
  | tail _ change ih => exact ih.trans change.preserves

theorem Evolves.refl (registry : Registry) : Evolves registry registry :=
  Relation.ReflTransGen.refl

theorem Evolves.trans (first : before.Evolves middle) (later : middle.Evolves after)
    : before.Evolves after :=
  Relation.ReflTransGen.trans first later

theorem Evolves.single (change : before.Change after) : before.Evolves after :=
  Relation.ReflTransGen.single change

-----------------------------------------------------------------------------------------
-- Operations that make no class
-----------------------------------------------------------------------------------------

/-- A registry is furnished when it evolves without new classes and new members. -/
structure Furnishes (before after : Registry) : Prop where
  evolves : before.Evolves after
  grows : before.Grows after
  bare : ∀ id, ¬ before.Knows id →
    (after.type id).isObject = false ∧ (after.type id).members = []

namespace Furnishes

theorem refl (registry : Registry) : Furnishes registry registry := by
  refine ⟨.refl registry, .refl registry, fun id unknown => ?_⟩
  rw [type_unknown unknown]
  exact ⟨rfl, rfl⟩

/-- What is new behind both is new behind one of them. -/
theorem trans (first : before.Furnishes middle) (later : middle.Furnishes after)
    : before.Furnishes after := by
  refine ⟨first.evolves.trans later.evolves, first.grows.trans later.grows, fun id unknown => ?_⟩
  by_cases known : middle.Knows id
  · rw [later.grows.type known]
    exact first.bare id unknown
  · exact later.bare id known

/-- An operation that leaves the types alone makes no class. -/
theorem ofTypes (change : registry.Change after) (grows : registry.Grows after)
    (same : after.types = registry.types)
    : registry.Furnishes after := by
  refine ⟨.single change, grows, fun id unknown => ?_⟩
  have missing : ¬ after.Knows id := by
    rwa [Knows, same]
  rw [type_unknown missing]
  exact ⟨rfl, rfl⟩

theorem generateIndex (registry : Registry) : registry.Furnishes registry.generateIndex.2 :=
  ofTypes .index (.ofSame rfl rfl rfl rfl) rfl

theorem addContext (registry : Registry) (kind : ContextKind) (name : String)
    {parent? : Option ContextId}
    (inside : ∀ parent, parent? = some parent → registry.KnowsContext parent)
    : registry.Furnishes (registry.addContext kind name parent?).2 :=
  ofTypes (.context kind name parent? inside) (.ofSame rfl rfl rfl rfl) rfl

theorem addFunction {info : FunctionInfo} (unchecked : ∀ body, info.body ≠ .script (some body))
    (placed : registry.KnowsContext info.context)
    (params : ∀ param ∈ info.params, registry.Knows param.type)
    (result : ∀ type, info.returnType? = some type → registry.Knows type)
    : registry.Furnishes (registry.addFunction info).2 :=
  ofTypes (.function info unchecked placed params result) (grows_addFunction registry info) rfl

/-- A type that is neither a class nor a reference may be added. -/
theorem addType {info : TypeInfo} (value : info.isReference = false)
    (noClass : info.isObject = false) (bare : info.members = [])
    (placed : registry.KnowsContext info.context)
    (made : ∀ inner, info.kind.inner? = some inner → registry.Knows inner)
    (derived : ∀ base, info.base? = some base →
        registry.Knows base ∧ (registry.type base).isReference = false)
    : registry.Furnishes (registry.addType info).2 := by
  refine ⟨.single (.type info value bare placed made derived), grows_addType registry info,
    fun id unknown => ?_⟩
  rw [type_addType]
  split
  · exact ⟨noClass, bare⟩
  · rw [type_unknown unknown]
    exact ⟨rfl, rfl⟩

theorem addReference {id : TypeId} (known : registry.Knows id)
    : registry.Furnishes (registry.addReference id).2 := by
  refine ⟨.single (.reference id known), grows_addReference registry id, fun other unknown => ?_⟩
  rcases addReference_cases registry id with ⟨same, _⟩ | ⟨existing, same, _⟩ | ⟨_, _, added⟩
  · rw [same]
    exact (refl registry).bare other unknown
  · rw [same]
    exact (refl registry).bare other unknown
  · rw [added, type_withReference]
    split
    · exact ⟨rfl, rfl⟩
    · exact (refl registry).bare other unknown

/-- Parameters are numbered one by one, by induction over them. -/
theorem numberParams (registry : Registry) (count : Nat) (types : List TypeId)
    : registry.Furnishes (registry.numberParams count types).2 := by
  induction types generalizing registry count with
  | nil => exact refl registry
  | cons type rest ih => exact (generateIndex registry).trans (ih _ _)

theorem addBuiltin {context : ContextId} (placed : registry.KnowsContext context) (name : String)
    {params : List TypeId} {result : TypeId} (operation : Operation)
    (known : ∀ type ∈ params, registry.Knows type) (resultKnown : registry.Knows result)
    : registry.Furnishes (registry.addBuiltin context name params result operation).2 := by
  have numbered := numberParams registry 0 params
  refine numbered.trans (addFunction ?_ ?_ ?_ ?_)
  · exact fun _ impossible => nomatch impossible
  · exact numbered.evolves.preserves.knowsContext context placed
  · intro param among
    refine numbered.grows.knows (known param.type ?_)
    rw [← numberParams_types registry 0 params]
    exact List.mem_map_of_mem among
  · intro type found
    cases found
    exact numbered.grows.knows resultKnown

/-- Provided functions are added one by one, by induction over their declarations. -/
theorem addBuiltins {context : ContextId} (placed : registry.KnowsContext context)
    {signatures : List Signature}
    (known : ∀ signature ∈ signatures, registry.KnowsSignature signature)
    : registry.Furnishes (registry.addBuiltins context signatures) := by
  induction signatures generalizing registry with
  | nil => exact refl registry
  | cons first rest ih =>
      obtain ⟨params, result⟩ := known first (.head _)
      have added := addBuiltin placed first.name first.operation params result
      refine added.trans (ih (added.evolves.preserves.knowsContext context placed)
        fun signature among => ?_)
      obtain ⟨params, result⟩ := known signature (.tail _ among)
      exact ⟨fun type inParams => added.grows.knows (params type inParams),
        added.grows.knows result⟩

/-- Functions that mention the type of references to a type are added behind it. -/
theorem addBuiltinsTo (closed : registry.Closed) {id : TypeId} (known : registry.Knows id)
    (placed : registry.KnowsContext (registry.type id).context)
    {signatures : TypeId → List Signature}
    (knows : ∀ (later : Registry) (ref : TypeId), registry.Grows later → later.Knows ref →
      ∀ signature ∈ signatures ref, later.KnowsSignature signature)
    : registry.Furnishes (registry.addBuiltinsTo id signatures) := by
  have first := addReference known
  obtain ⟨_, refKnown⟩ := closed.addReference known
  have kept : (registry.addReference id).2.KnowsContext
      ((registry.addReference id).2.type id).context := by
    rw [first.grows.type known]
    exact first.evolves.preserves.knowsContext _ placed
  exact first.trans (addBuiltins kept (knows _ _ first.grows refKnown))

theorem addEnumFunctions (closed : registry.Closed) {b : BuiltinTypes}
    (provides : registry.Provides b) {id : TypeId} (known : registry.Knows id)
    (placed : registry.KnowsContext (registry.type id).context)
    : registry.Furnishes (registry.addEnumFunctions b id) :=
  addBuiltinsTo closed known placed fun _ _ grows refKnown =>
    enumSignatures_known (provides.mono grows) (grows.knows known) refKnown

theorem addComponent {b : BuiltinTypes} (provides : registry.Provides b)
    (placed : registry.KnowsContext b.globalContext) (component : Component)
    : registry.Furnishes (registry.addComponent b component).2 := by
  refine addFunction ?_ placed (fun _ absent => nomatch absent) fun type found => ?_
  · exact fun _ impossible => nomatch impossible
  · cases found
    refine provides _ ?_
    cases component.kind <;> simp [componentType, BuiltinTypes.types]

theorem addGenericFunctions (closed : registry.Closed) {b : BuiltinTypes}
    (provides : registry.Provides b) (family : GenericFamily) {id value : TypeId}
    (known : registry.Knows id) (valueKnown : registry.Knows value)
    (placed : registry.KnowsContext (registry.type id).context)
    : registry.Furnishes (registry.addGenericFunctions b family id value) := by
  cases family with
  | list =>
      have first := addReference valueKnown
      obtain ⟨closed, valueRef⟩ := closed.addReference valueKnown
      have second := addReference (first.grows.knows known)
      obtain ⟨_, listRef⟩ := closed.addReference (first.grows.knows known)
      have both := first.trans second
      exact both.trans (addBuiltins (both.evolves.preserves.knowsContext _ placed)
        (listSignatures_known (provides.mono both.grows) (both.grows.knows known)
          (both.grows.knows valueKnown) listRef (second.grows.knows valueRef)))
  | external =>
      have first := addReference known
      obtain ⟨_, externalRef⟩ := closed.addReference known
      exact first.trans (addBuiltins (first.evolves.preserves.knowsContext _ placed)
        (externalSignatures_known (provides.mono first.grows) (first.grows.knows known)
          (first.grows.knows valueKnown) externalRef))

theorem addInstance {b : BuiltinTypes} (placed : registry.KnowsContext b.globalContext)
    (family : GenericFamily) {value : TypeId} (known : registry.Knows value)
    (missing : registry.generics.lookup (registry.instanceName family value) = none)
    : registry.Furnishes (registry.addInstance b family value) := by
  let info : TypeInfo := ⟨registry.instanceName family value, family.text, family.kind value,
    ⟨registry.contexts.size⟩, [], none, true, Span.unknown⟩
  let opened := (registry.addContext .classContext info.name (some b.globalContext)).2
  have first : registry.Furnishes opened := addContext registry .classContext info.name
    fun parent same => Option.some.inj same ▸ placed
  have second : opened.Furnishes (opened.addType info).2 := by
    refine addType (by cases family <;> rfl) (by cases family <;> rfl) rfl ?_ ?_ ?_
    · show registry.contexts.size < (registry.contexts.push _).size
      rw [Array.size_push]
      exact Nat.lt_succ_self _
    · intro inner made
      rw [GenericFamily.inner?_kind] at made
      cases made
      exact known
    · exact fun _ impossible => nomatch impossible
  have added : (opened.addType info).2.type ⟨registry.types.size⟩ = info :=
    (type_addType opened info ⟨registry.types.size⟩).trans (if_pos rfl)
  have named : (opened.addType info).2.typeName ⟨registry.types.size⟩ = info.name :=
    congrArg TypeInfo.name added
  have listed : (opened.addType info).2.Change (registry.addInstance b family value) := by
    have asked : (opened.addType info).2.generics.lookup
        ((opened.addType info).2.typeName ⟨registry.types.size⟩) = none := by
      rw [named]
      exact missing
    have change := Change.generic ⟨registry.types.size⟩ (knows_addType opened info)
      ⟨family, value, congrArg TypeInfo.kind added⟩ asked
    rw [named] at change
    exact change
  have typed := first.trans second
  exact ⟨typed.evolves.trans (.single listed), grows_addInstance registry missing, typed.bare⟩

/-- The instance of a family for a known type may be asked for. -/
theorem addGeneric (closed : registry.Closed) {b : BuiltinTypes} (provides : registry.Provides b)
    (placed : registry.KnowsContext b.globalContext) (family : GenericFamily) {value : TypeId}
    (known : registry.Knows value)
    : registry.Furnishes (registry.addGeneric b family value).2 := by
  have decayedKnown := closed.decayed_known known
  rcases addGeneric_cases registry b family value with ⟨existing, same, _⟩ | ⟨missing, added⟩
  · rw [same]
    exact refl registry
  · rw [added]
    have first := addInstance placed family decayedKnown missing
    have new : (registry.addInstance b family (registry.decayed value)).Knows
        ⟨registry.types.size⟩ :=
      knows_addInstance b family (registry.decayed value)
    refine first.trans (addGenericFunctions (closed.addInstance decayedKnown missing)
      (provides.mono first.grows) family new (first.grows.knows decayedKnown) ?_)
    rw [type_addInstance, if_pos rfl]
    show registry.contexts.size < ((registry.contexts.push _).modify _ _).size
    rw [Array.size_modify, Array.size_push]
    exact Nat.lt_succ_self _

end Furnishes

end Registry

end BuildScript
