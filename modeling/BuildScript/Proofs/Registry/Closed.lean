import BuildScript.Proofs.Registry.Growth

/-! Registries without loose ends. What a registry says of its types and functions mentions only
types and functions that it has, and what a type is made of stands before it.
-/

namespace BuildScript

/-- The type that a kind is made from. -/
def TypeKind.inner? : TypeKind → Option TypeId
  | .list value | .external value => some value
  | .reference referenced => some referenced
  | _ => none

theorem GenericFamily.inner?_kind (family : GenericFamily) (value : TypeId)
    : (family.kind value).inner? = some value := by
  cases family <;> rfl

/-- A type refers to a type exactly if it is made from it as a reference. -/
theorem TypeInfo.referenced?_eq_some {info : TypeInfo} {referenced : TypeId}
    (found : info.referenced? = some referenced)
    : info.kind = .reference referenced := by
  unfold TypeInfo.referenced? at found
  split at found
  · next kind =>
      cases found
      exact kind
  · exact nomatch found

/-- The types that every program begins with. -/
def BuiltinTypes.types (b : BuiltinTypes) : List TypeId :=
  [b.void, b.bool, b.int, b.double, b.string, b.version, b.project, b.target, b.library,
    b.executable, b.visibility, b.designated]

namespace Registry

/-- A registry has the types that every program begins with. -/
def Provides (registry : Registry) (b : BuiltinTypes) : Prop :=
  ∀ id ∈ b.types, registry.Knows id

theorem Provides.mono {before after : Registry} {b : BuiltinTypes} (provides : before.Provides b)
    (grows : before.Grows after)
    : after.Provides b :=
  fun id among => grows.knows (provides id among)

theorem Provides.void {registry : Registry} {b : BuiltinTypes} (provides : registry.Provides b)
    : registry.Knows b.void :=
  provides _ (by simp [BuiltinTypes.types])

theorem Provides.bool {registry : Registry} {b : BuiltinTypes} (provides : registry.Provides b)
    : registry.Knows b.bool :=
  provides _ (by simp [BuiltinTypes.types])

theorem Provides.int {registry : Registry} {b : BuiltinTypes} (provides : registry.Provides b)
    : registry.Knows b.int :=
  provides _ (by simp [BuiltinTypes.types])

theorem Provides.double {registry : Registry} {b : BuiltinTypes} (provides : registry.Provides b)
    : registry.Knows b.double :=
  provides _ (by simp [BuiltinTypes.types])

theorem Provides.string {registry : Registry} {b : BuiltinTypes} (provides : registry.Provides b)
    : registry.Knows b.string :=
  provides _ (by simp [BuiltinTypes.types])

theorem Provides.designated {registry : Registry} {b : BuiltinTypes}
    (provides : registry.Provides b)
    : registry.Knows b.designated :=
  provides _ (by simp [BuiltinTypes.types])

/-- A registry is closed when all that it mentions is known, and when types stand behind those
that they are made from and derived from.
-/
structure Closed (registry : Registry) : Prop where
  kinds : ∀ id inner, (registry.type id).kind.inner? = some inner → inner.index < id.index
  bases : ∀ id base, (registry.type id).base? = some base → base.index < id.index
  members : ∀ id, ∀ member ∈ (registry.type id).members, registry.Knows member.type
  params : ∀ id, ∀ param ∈ (registry.function id).params, registry.Knows param.type
  results : ∀ id type, (registry.function id).returnType? = some type → registry.Knows type
  references : ∀ id reference, registry.references.lookup id = some reference →
    registry.Knows reference
  generics : ∀ name id, registry.generics.lookup name = some id → registry.Knows id
  functions : ∀ context, ∀ id ∈ (registry.context context).functions, registry.KnowsFunction id

namespace Closed

variable {registry : Registry}

/-- What a type is made from is known. -/
theorem inner_known (closed : registry.Closed) {id inner : TypeId}
    (made : (registry.type id).kind.inner? = some inner)
    : registry.Knows inner := by
  by_cases known : registry.Knows id
  · exact Nat.lt_trans (closed.kinds id inner made) known
  · rw [type_unknown known] at made
    exact nomatch made

/-- What a type is derived from is known. -/
theorem base_known (closed : registry.Closed) {id base : TypeId}
    (derived : (registry.type id).base? = some base)
    : registry.Knows base := by
  by_cases known : registry.Knows id
  · exact Nat.lt_trans (closed.bases id base derived) known
  · rw [type_unknown known] at derived
    exact nomatch derived

theorem decayed_known (closed : registry.Closed) {id : TypeId} (known : registry.Knows id)
    : registry.Knows (registry.decayed id) := by
  unfold decayed
  cases found : (registry.type id).referenced? with
  | none => exact known
  | some referenced =>
      have made : (registry.type id).kind.inner? = some referenced := by
        rw [TypeInfo.referenced?_eq_some found]
        rfl
      exact closed.inner_known made

/-- A type and its bases are known, by induction over the number of steps. -/
theorem lineage_known (closed : registry.Closed) (bound : Nat) {id : TypeId}
    (known : registry.Knows id)
    : ∀ ancestor ∈ registry.lineageWithin bound id, registry.Knows ancestor := by
  induction bound generalizing id with
  | zero => exact fun _ absent => nomatch absent
  | succ bound ih =>
      intro ancestor among
      rw [lineageWithin] at among
      rcases List.mem_cons.mp among with rfl | above
      · exact known
      · split at above
        · exact nomatch above
        · next base derived => exact ih (closed.base_known derived) ancestor above

theorem findMember_known (closed : registry.Closed) {id : TypeId} {name : String}
    {member : Member} (found : registry.findMember? id name = some member)
    : registry.Knows member.type := by
  obtain ⟨ancestor, _, here⟩ := List.exists_of_findSome?_eq_some found
  exact closed.members ancestor member (List.mem_of_find?_eq_some here)

theorem allMembers_known (closed : registry.Closed) (id : TypeId)
    : ∀ member ∈ registry.allMembers id, registry.Knows member.type := by
  intro member among
  obtain ⟨ancestor, _, here⟩ := List.mem_flatMap.mp among
  exact closed.members ancestor member here

theorem functionsNamed_known (closed : registry.Closed) (context : ContextId) (name : String)
    : ∀ id ∈ registry.functionsNamed context name, registry.KnowsFunction id :=
  fun id among => closed.functions context id (List.mem_filter.mp among).1

theorem findMemberFunctions_known (closed : registry.Closed) (id : TypeId) (name : String)
    : ∀ group ∈ registry.findMemberFunctions id name, ∀ function ∈ group,
        registry.KnowsFunction function := by
  intro group among function inGroup
  obtain ⟨ancestor, _, here⟩ := List.mem_filterMap.mp among
  split at here
  · exact nomatch here
  · cases here
    exact closed.functionsNamed_known _ name function inGroup

end Closed

-----------------------------------------------------------------------------------------
-- Steps
-----------------------------------------------------------------------------------------

variable {registry : Registry}

theorem Closed.generateIndex (closed : registry.Closed) : registry.generateIndex.2.Closed :=
  ⟨closed.kinds, closed.bases, closed.members, closed.params, closed.results, closed.references,
    closed.generics, closed.functions⟩

/-- The functions of a context after one context was changed. -/
theorem context_modify (contexts : Array ContextInfo) (changed : Nat)
    (change : ContextInfo → ContextInfo) {met : FunctionId → Prop}
    (kept : ∀ place, ∀ id ∈ (contexts.getD place default).functions, met id)
    (changes : ∀ context : ContextInfo, (∀ id ∈ context.functions, met id) →
      ∀ id ∈ (change context).functions, met id)
    : ∀ place, ∀ id ∈ ((contexts.modify changed change).getD place default).functions, met id := by
  intro place id among
  rw [getD_modify] at among
  split at among
  · exact changes _ (kept place) id among
  · exact kept place id among

theorem Closed.addContext (closed : registry.Closed) (kind : ContextKind) (name : String)
    (parent? : Option ContextId)
    : (registry.addContext kind name parent?).2.Closed := by
  refine ⟨closed.kinds, closed.bases, closed.members, closed.params, closed.results,
    closed.references, closed.generics, fun context id among => ?_⟩
  have opened : id ∈ ((registry.contexts.push ⟨kind, name, parent?, [], []⟩).getD context.index
    default).functions := among
  rw [getD_push] at opened
  split at opened
  · exact nomatch opened
  · exact closed.functions context id opened

/-- A type that is made from, derived from and has members of known types keeps a registry
closed.
-/
theorem Closed.addType (closed : registry.Closed) {info : TypeInfo}
    (kind : ∀ inner, info.kind.inner? = some inner → registry.Knows inner)
    (derived : ∀ base, info.base? = some base → registry.Knows base)
    (members : ∀ member ∈ info.members, registry.Knows member.type)
    : (registry.addType info).2.Closed := by
  have grows := grows_addType registry info
  refine ⟨fun id inner made => ?_, fun id base found => ?_, fun id member among => ?_,
    fun id param among => grows.knows (closed.params id param among),
    fun id type result => grows.knows (closed.results id type result),
    fun id reference found => grows.knows (closed.references id reference found),
    fun name id found => grows.knows (closed.generics name id found), ?_⟩
  · rw [type_addType] at made
    split at made
    · next new =>
        subst new
        exact kind inner made
    · exact closed.kinds id inner made
  · rw [type_addType] at found
    split at found
    · next new =>
        subst new
        exact derived base found
    · exact closed.bases id base found
  · rw [type_addType] at among
    split at among
    · exact grows.knows (members member among)
    · exact grows.knows (closed.members id member among)
  · intro context
    exact context_modify registry.contexts info.context.index
      (fun context => { context with types := context.types ++ [⟨registry.types.size⟩] })
      (fun place => closed.functions ⟨place⟩) (fun context kept => kept) context.index

theorem Closed.addFunction (closed : registry.Closed) {info : FunctionInfo}
    (params : ∀ param ∈ info.params, registry.Knows param.type)
    (result : ∀ type, info.returnType? = some type → registry.Knows type)
    : (registry.addFunction info).2.Closed := by
  have grows := grows_addFunction registry info
  refine ⟨closed.kinds, closed.bases, closed.members, fun id param among => ?_,
    fun id type found => ?_, closed.references, closed.generics, ?_⟩
  · rw [function_addFunction] at among
    split at among
    · exact params param among
    · exact closed.params id param among
  · rw [function_addFunction] at found
    split at found
    · exact result type found
    · exact closed.results id type found
  · intro context
    refine context_modify registry.contexts info.context.index
      (fun context =>
        { context with functions := context.functions ++ [⟨registry.functions.size⟩] })
      (fun place id among => grows.knowsFunction (closed.functions ⟨place⟩ id among))
      (fun context kept id among => ?_) context.index
    rcases List.mem_append.mp among with old | new
    · exact kept id old
    · rw [List.mem_singleton.mp new]
      exact knowsFunction_addFunction registry info

theorem Closed.modifyFunction (closed : registry.Closed) {changed : FunctionId}
    {change : FunctionInfo → FunctionInfo}
    (params : ∀ info : FunctionInfo, (change info).params = info.params)
    (result : ∀ (info : FunctionInfo) type, (change info).returnType? = some type →
      info.returnType? = some type ∨ registry.Knows type)
    : (registry.modifyFunction changed change).Closed := by
  refine ⟨closed.kinds, closed.bases, closed.members, fun id param among => ?_,
    fun id type found => ?_, closed.references, closed.generics, fun context id among => ?_⟩
  · rw [function_modifyFunction] at among
    split at among
    · rw [params] at among
      exact closed.params id param among
    · exact closed.params id param among
  · rw [function_modifyFunction] at found
    split at found
    · rcases result _ type found with old | known
      · exact closed.results id type old
      · exact known
    · exact closed.results id type found
  · show id.index < (registry.functions.modify changed.index change).size
    rw [Array.size_modify]
    exact closed.functions context id among

theorem type_setMembers (object : TypeId) (members : List Member) (id : TypeId)
    : (registry.setMembers object members).type id =
        if object = id ∧ registry.Knows id then { registry.type id with members }
        else registry.type id := by
  rw [Registry.type]
  show (registry.types.modify object.index _).getD id.index default = _
  rw [getD_modify]
  have same : object.index = id.index ↔ object = id :=
    ⟨fun same => congrArg TypeId.mk same, congrArg TypeId.index⟩
  simp only [same]
  rfl

theorem knows_setMembers {object : TypeId} {members : List Member} {id : TypeId}
    : (registry.setMembers object members).Knows id ↔ registry.Knows id := by
  show id.index < (registry.types.modify object.index _).size ↔ id.index < registry.types.size
  rw [Array.size_modify]

/-- A registry grows when a type that it does not have gets members later. -/
theorem Grows.setMembers {before : Registry} (grows : before.Grows registry) {object : TypeId}
    (new : ¬ before.Knows object) (members : List Member)
    : before.Grows (registry.setMembers object members) := by
  refine ⟨fun id known => ⟨knows_setMembers.mpr (grows.knows known), ?_⟩, grows.functions,
    grows.generics, grows.references⟩
  rw [type_setMembers, if_neg, grows.type known]
  rintro ⟨rfl, _⟩
  exact new known

theorem Closed.setMembers (closed : registry.Closed) (object : TypeId) {members : List Member}
    (known : ∀ member ∈ members, registry.Knows member.type)
    : (registry.setMembers object members).Closed := by
  refine ⟨fun id inner made => ?_, fun id base derived => ?_, fun id member among => ?_,
    fun id param among => knows_setMembers.mpr (closed.params id param among),
    fun id type result => knows_setMembers.mpr (closed.results id type result),
    fun id reference found => knows_setMembers.mpr (closed.references id reference found),
    fun name id found => knows_setMembers.mpr (closed.generics name id found), closed.functions⟩
  · rw [type_setMembers] at made
    split at made
    · exact closed.kinds id inner made
    · exact closed.kinds id inner made
  · rw [type_setMembers] at derived
    split at derived
    · exact closed.bases id base derived
    · exact closed.bases id base derived
  · rw [type_setMembers] at among
    refine knows_setMembers.mpr ?_
    split at among
    · exact known member among
    · exact closed.members id member among

theorem Closed.numberParams (closed : registry.Closed) (count : Nat) (types : List TypeId)
    : (registry.numberParams count types).2.Closed := by
  rw [numberParams_same]
  exact ⟨closed.kinds, closed.bases, closed.members, closed.params, closed.results,
    closed.references, closed.generics, closed.functions⟩

theorem Closed.addBuiltin (closed : registry.Closed) (context : ContextId) (name : String)
    {params : List TypeId} {result : TypeId} (operation : Operation)
    (known : ∀ type ∈ params, registry.Knows type) (resultKnown : registry.Knows result)
    : (registry.addBuiltin context name params result operation).2.Closed := by
  have same := numberParams_same registry 0 params
  refine Closed.addFunction (closed.numberParams 0 params) ?_ ?_
  · intro param among
    rw [same]
    refine known param.type ?_
    rw [← numberParams_types registry 0 params]
    exact List.mem_map_of_mem among
  · intro type found
    cases found
    rw [same]
    exact resultKnown

/-- The types of provided functions are known. -/
def KnowsSignature (registry : Registry) (signature : Signature) : Prop :=
  (∀ type ∈ signature.params, registry.Knows type) ∧ registry.Knows signature.result

/-- Provided functions of known types keep a registry closed, by induction over their
declarations.
-/
theorem Closed.addBuiltins (closed : registry.Closed) (context : ContextId)
    {signatures : List Signature}
    (known : ∀ signature ∈ signatures, registry.KnowsSignature signature)
    : (registry.addBuiltins context signatures).Closed := by
  induction signatures generalizing registry with
  | nil => exact closed
  | cons first rest ih =>
      obtain ⟨params, result⟩ := known first (.head _)
      refine ih (closed.addBuiltin context first.name first.operation params result) ?_
      have grows := grows_addBuiltin registry context first.name first.params first.result
        first.operation
      intro signature among
      obtain ⟨params, result⟩ := known signature (.tail _ among)
      exact ⟨fun type inParams => grows.knows (params type inParams), grows.knows result⟩

theorem Closed.withReference (closed : registry.Closed) {id : TypeId} (known : registry.Knows id)
    (missing : registry.references.lookup id = none)
    : (registry.withReference id).Closed := by
  have grows := grows_withReference registry missing
  refine ⟨fun other inner made => ?_, fun other base derived => ?_, fun other member among => ?_,
    fun other param among => grows.knows (closed.params other param among),
    fun other type result => grows.knows (closed.results other type result),
    fun other reference found => ?_,
    fun name other found => grows.knows (closed.generics name other found), closed.functions⟩
  · rw [type_withReference] at made
    split at made
    · next latest =>
        cases made
        rw [latest]
        exact known
    · exact closed.kinds other inner made
  · rw [type_withReference] at derived
    split at derived
    · exact nomatch derived
    · exact closed.bases other base derived
  · rw [type_withReference] at among
    split at among
    · exact nomatch among
    · exact grows.knows (closed.members other member among)
  · have found : List.lookup other ((id, ⟨registry.types.size⟩) :: registry.references)
        = some reference := found
    rw [List.lookup_cons] at found
    split at found
    · cases found
      exact knows_withReference registry id
    · exact grows.knows (closed.references other reference found)

/-- The type of references to a known type is known. -/
theorem Closed.addReference (closed : registry.Closed) {id : TypeId} (known : registry.Knows id)
    : (registry.addReference id).2.Closed ∧ (registry.addReference id).2.Knows
        (registry.addReference id).1 := by
  rcases addReference_cases registry id with ⟨same, _⟩ | ⟨existing, same, found⟩ |
    ⟨_, missing, added⟩
  · rw [same]
    exact ⟨closed, known⟩
  · rw [same]
    exact ⟨closed, closed.references id existing found⟩
  · rw [added]
    exact ⟨closed.withReference known missing, knows_withReference registry id⟩

-----------------------------------------------------------------------------------------
-- Instances and enumerations
-----------------------------------------------------------------------------------------

theorem type_addInstance (b : BuiltinTypes) (family : GenericFamily) (value id : TypeId)
    : (registry.addInstance b family value).type id =
        if id = ⟨registry.types.size⟩ then
          ⟨registry.instanceName family value, family.text, family.kind value,
            ⟨registry.contexts.size⟩, [], none, true, Span.unknown⟩
        else registry.type id :=
  type_addType _ _ id

theorem knows_addInstance (b : BuiltinTypes) (family : GenericFamily) (value : TypeId)
    : (registry.addInstance b family value).Knows ⟨registry.types.size⟩ :=
  knows_addType _ _

theorem Closed.addInstance (closed : registry.Closed) {b : BuiltinTypes} {family : GenericFamily}
    {value : TypeId} (known : registry.Knows value)
    (missing : registry.generics.lookup (registry.instanceName family value) = none)
    : (registry.addInstance b family value).Closed := by
  have opened := closed.addContext .classContext (registry.instanceName family value)
    (some b.globalContext)
  have typed : ((registry.addContext .classContext (registry.instanceName family value)
      (some b.globalContext)).2.addType ⟨registry.instanceName family value, family.text,
        family.kind value, ⟨registry.contexts.size⟩, [], none, true, Span.unknown⟩).2.Closed := by
    refine opened.addType (fun inner made => ?_) (fun _ none => nomatch none)
      (fun _ absent => nomatch absent)
    rw [GenericFamily.inner?_kind] at made
    cases made
    exact known
  have grows := grows_addInstance (b := b) registry missing
  refine ⟨typed.kinds, typed.bases, typed.members, typed.params, typed.results, typed.references,
    fun name id found => ?_, typed.functions⟩
  have found : List.lookup name ((registry.instanceName family value, ⟨registry.types.size⟩)
      :: registry.generics) = some id := found
  rw [List.lookup_cons] at found
  split at found
  · cases found
    exact knows_addInstance b family value
  · exact grows.knows (closed.generics name id found)

/-- The functions of lists mention what they are given only. -/
theorem listSignatures_known {b : BuiltinTypes} {list value listRef valueRef : TypeId}
    (provides : registry.Provides b) (listKnown : registry.Knows list)
    (valueKnown : registry.Knows value) (listRefKnown : registry.Knows listRef)
    (valueRefKnown : registry.Knows valueRef)
    : ∀ signature ∈ listSignatures b list value listRef valueRef,
        registry.KnowsSignature signature := by
  simp [listSignatures, KnowsSignature, provides.void, provides.bool, provides.int, listKnown,
    valueKnown, listRefKnown, valueRefKnown]

theorem externalSignatures_known {b : BuiltinTypes} {external value externalRef : TypeId}
    (provides : registry.Provides b) (externalKnown : registry.Knows external)
    (valueKnown : registry.Knows value) (externalRefKnown : registry.Knows externalRef)
    : ∀ signature ∈ externalSignatures b external value externalRef,
        registry.KnowsSignature signature := by
  simp [externalSignatures, KnowsSignature, provides.bool, provides.string,
    externalKnown, valueKnown, externalRefKnown]

theorem enumSignatures_known {b : BuiltinTypes} {id ref : TypeId}
    (provides : registry.Provides b) (known : registry.Knows id) (refKnown : registry.Knows ref)
    : ∀ signature ∈ enumSignatures b id ref, registry.KnowsSignature signature := by
  simp [enumSignatures, KnowsSignature, provides.bool, provides.string, known, refKnown]

theorem Closed.addGenericFunctions (closed : registry.Closed) {b : BuiltinTypes}
    (provides : registry.Provides b) (family : GenericFamily) {id value : TypeId}
    (known : registry.Knows id) (valueKnown : registry.Knows value)
    : (registry.addGenericFunctions b family id value).Closed := by
  cases family with
  | list =>
      obtain ⟨closed, valueRef⟩ := closed.addReference valueKnown
      have first := grows_addReference registry value
      obtain ⟨closed, listRef⟩ := closed.addReference (first.knows known)
      have second := grows_addReference (registry.addReference value).2 id
      have both := first.trans second
      exact closed.addBuiltins _ (listSignatures_known (provides.mono both) (both.knows known)
        (both.knows valueKnown) listRef (second.knows valueRef))
  | external =>
      obtain ⟨closed, externalRef⟩ := closed.addReference known
      have grows := grows_addReference registry id
      exact closed.addBuiltins _ (externalSignatures_known (provides.mono grows)
        (grows.knows known) (grows.knows valueKnown) externalRef)

/-- The instance of a family for a known type is known. -/
theorem Closed.addGeneric (closed : registry.Closed) {b : BuiltinTypes}
    (provides : registry.Provides b) (family : GenericFamily) {value : TypeId}
    (known : registry.Knows value)
    : (registry.addGeneric b family value).2.Closed
      ∧ (registry.addGeneric b family value).2.Knows (registry.addGeneric b family value).1 := by
  have decayedKnown := closed.decayed_known known
  rcases addGeneric_cases registry b family value with ⟨existing, same, found⟩ | ⟨missing, added⟩
  · rw [same]
    exact ⟨closed, closed.generics _ existing found⟩
  · rw [added]
    have grows := grows_addInstance (b := b) registry missing
    have new : (registry.addInstance b family (registry.decayed value)).Knows
        ⟨registry.types.size⟩ := knows_addInstance b family (registry.decayed value)
    refine ⟨Closed.addGenericFunctions (closed.addInstance decayedKnown missing)
      (provides.mono grows) family new (grows.knows decayedKnown), ?_⟩
    exact (grows_addGenericFunctions _ b family _ _).knows new

theorem grows_addEnumFunctions (registry : Registry) (b : BuiltinTypes) (id : TypeId)
    : registry.Grows (registry.addEnumFunctions b id) :=
  (grows_addReference registry id).trans (grows_addBuiltins _ _ _)

theorem Closed.addEnumFunctions (closed : registry.Closed) {b : BuiltinTypes}
    (provides : registry.Provides b) {id : TypeId} (known : registry.Knows id)
    : (registry.addEnumFunctions b id).Closed := by
  obtain ⟨closed, ref⟩ := closed.addReference known
  have grows := grows_addReference registry id
  exact closed.addBuiltins _ (enumSignatures_known (provides.mono grows) (grows.knows known) ref)

theorem Closed.addComponent (closed : registry.Closed) {b : BuiltinTypes}
    (provides : registry.Provides b) (component : Component)
    : (registry.addComponent b component).2.Closed := by
  refine closed.addFunction (fun _ absent => nomatch absent) (fun type result => ?_)
  cases result
  refine provides _ ?_
  cases component.kind <;> simp [componentType, BuiltinTypes.types]

end Registry

-----------------------------------------------------------------------------------------
-- Checking
-----------------------------------------------------------------------------------------

namespace Registry

/-- Whether a type at a place is made from, derived from and has members of known types. -/
def isClosedType (registry : Registry) (info : TypeInfo) (index : Nat) : Bool :=
  info.kind.inner?.all (·.index < index) && info.base?.all (·.index < index)
    && info.members.all fun member => registry.Knows member.type

/-- Whether a function mentions known types only. -/
def isClosedFunction (registry : Registry) (info : FunctionInfo) : Bool :=
  (info.params.all fun param => registry.Knows param.type)
    && info.returnType?.all fun type => registry.Knows type

/-- Whether a registry is closed. -/
def isClosed (registry : Registry) : Bool :=
  (registry.types.toList.zipIdx.all fun entry => registry.isClosedType entry.1 entry.2)
    && registry.functions.toList.all registry.isClosedFunction
    && (registry.references.all fun entry => registry.Knows entry.2)
    && (registry.generics.all fun entry => registry.Knows entry.2)
    && registry.contexts.toList.all fun context =>
      context.functions.all fun id => registry.KnowsFunction id

/-- The check is right. -/
theorem closed_of_isClosed {registry : Registry} (checked : registry.isClosed = true)
    : registry.Closed := by
  simp only [isClosed, Bool.and_eq_true, List.all_eq_true, decide_eq_true_eq] at checked
  obtain ⟨⟨⟨⟨types, functions⟩, references⟩, generics⟩, contexts⟩ := checked
  have typed (id : TypeId) (known : registry.Knows id)
      : registry.isClosedType (registry.type id) id.index = true := by
    refine types (registry.type id, id.index) ?_
    rw [List.mem_zipIdx_iff_getElem?, Registry.type, Array.getD_eq_getD_getElem?,
      Array.getElem?_toList, Array.getElem?_eq_getElem known]
    rfl
  have called (id : FunctionId) (known : registry.KnowsFunction id)
      : registry.isClosedFunction (registry.function id) = true := by
    refine functions (registry.function id) ?_
    rw [Registry.function, Array.getD_eq_getD_getElem?, Array.getElem?_eq_getElem known]
    exact Array.getElem_mem_toList known
  refine ⟨fun id inner made => ?_, fun id base derived => ?_, fun id member among => ?_,
    fun id param among => ?_, fun id type result => ?_,
    fun id reference found => references _ (mem_of_lookup found),
    fun name id found => generics _ (mem_of_lookup found), fun context id among => ?_⟩
  · by_cases known : registry.Knows id
    · have checked := typed id known
      simp only [isClosedType, Bool.and_eq_true, made, Option.all_some, decide_eq_true_eq]
        at checked
      exact checked.1.1
    · rw [type_unknown known] at made
      cases made
  · by_cases known : registry.Knows id
    · have checked := typed id known
      simp only [isClosedType, Bool.and_eq_true, derived, Option.all_some, decide_eq_true_eq]
        at checked
      exact checked.1.2
    · rw [type_unknown known] at derived
      cases derived
  · by_cases known : registry.Knows id
    · have checked := typed id known
      simp only [isClosedType, Bool.and_eq_true, List.all_eq_true, decide_eq_true_eq] at checked
      exact checked.2 member among
    · rw [type_unknown known] at among
      cases among
  · by_cases known : registry.KnowsFunction id
    · have checked := called id known
      simp only [isClosedFunction, Bool.and_eq_true, List.all_eq_true, decide_eq_true_eq]
        at checked
      exact checked.1 param among
    · rw [function_unknown known] at among
      cases among
  · by_cases known : registry.KnowsFunction id
    · have checked := called id known
      simp only [isClosedFunction, Bool.and_eq_true, result, Option.all_some,
        decide_eq_true_eq] at checked
      exact checked.2
    · rw [function_unknown known] at result
      cases result
  · cases found : registry.contexts[context.index]? with
    | none =>
        rw [Registry.context, Array.getD_eq_getD_getElem?, found] at among
        cases among
    | some info =>
        rw [Registry.context, Array.getD_eq_getD_getElem?, found] at among
        exact contexts info (Array.mem_toList_iff.mpr (Array.mem_of_getElem? found)) id among

end Registry

end BuildScript
