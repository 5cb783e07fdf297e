import BuildScript.Registry.Builtin

/-! How a registry grows. Types and functions are only ever added. A type stays as it is, and a
function of a script may get the type of its result and its body later.
-/

namespace BuildScript

/-- The element at a place after one was added at the end. -/
theorem getD_push {α : Type} (elements : Array α) (value fallback : α) (place : Nat)
    : (elements.push value).getD place fallback =
        if place = elements.size then value else elements.getD place fallback := by
  simp only [Array.getD_eq_getD_getElem?, Array.getElem?_push]
  split
  · rfl
  · rfl

/-- The element at a place after the one at another place was changed. -/
theorem getD_modify {α : Type} (elements : Array α) (changed place : Nat) (change : α → α)
    (fallback : α)
    : (elements.modify changed change).getD place fallback =
        if changed = place ∧ place < elements.size then change (elements.getD place fallback)
        else elements.getD place fallback := by
  simp only [Array.getD_eq_getD_getElem?, Array.getElem?_modify]
  by_cases same : changed = place
  · by_cases inside : place < elements.size
    · simp [same, inside]
    · simp [same, inside]
  · simp [same]

/-- What is looked up in a list of pairs is one of them. -/
theorem mem_of_lookup {α β : Type} [BEq α] [LawfulBEq α] {pairs : List (α × β)} {key : α}
    {value : β} (found : pairs.lookup key = some value)
    : (key, value) ∈ pairs := by
  obtain ⟨before, after, rfl, _⟩ := List.lookup_eq_some_iff.mp found
  exact List.mem_append_right _ (.head _)

-----------------------------------------------------------------------------------------
-- Functions
-----------------------------------------------------------------------------------------

/-- What a function does may only change from one body of a script to another. -/
inductive FunctionBody.Becomes : FunctionBody → FunctionBody → Prop where
  | same (body : FunctionBody) : Becomes body body
  | checked (before? after? : Option TypedBlock) : Becomes (.script before?) (.script after?)

theorem FunctionBody.Becomes.trans {before middle after : FunctionBody}
    (first : before.Becomes middle) (later : middle.Becomes after)
    : before.Becomes after := by
  cases first with
  | same => exact later
  | checked =>
      cases later with
      | same => exact .checked _ _
      | checked => exact .checked _ _

/-- One function becomes another when its result is deduced or its body is checked. -/
structure FunctionInfo.Becomes (before after : FunctionInfo) : Prop where
  name : after.name = before.name
  params : after.params = before.params
  context : after.context = before.context
  result : ∀ type, before.returnType? = some type → after.returnType? = some type
  body : before.body.Becomes after.body

theorem FunctionInfo.Becomes.refl (info : FunctionInfo) : info.Becomes info :=
  ⟨rfl, rfl, rfl, fun _ known => known, .same _⟩

theorem FunctionInfo.Becomes.trans {before middle after : FunctionInfo}
    (first : before.Becomes middle) (later : middle.Becomes after)
    : before.Becomes after :=
  ⟨later.name.trans first.name, later.params.trans first.params,
    later.context.trans first.context, fun type known =>
      later.result type (first.result type known),
    first.body.trans later.body⟩

-----------------------------------------------------------------------------------------
-- Growth
-----------------------------------------------------------------------------------------

namespace Registry

/-- A registry knows the types that it has. -/
def Knows (registry : Registry) (id : TypeId) : Prop := id.index < registry.types.size

/-- A registry knows the functions that it has. -/
def KnowsFunction (registry : Registry) (id : FunctionId) : Prop :=
  id.index < registry.functions.size

instance (registry : Registry) (id : TypeId) : Decidable (registry.Knows id) :=
  inferInstanceAs (Decidable (id.index < registry.types.size))

instance (registry : Registry) (id : FunctionId) : Decidable (registry.KnowsFunction id) :=
  inferInstanceAs (Decidable (id.index < registry.functions.size))

/-- Nothing is said of a type that is not known. -/
theorem type_unknown {registry : Registry} {id : TypeId} (unknown : ¬ registry.Knows id)
    : registry.type id = default := by
  rw [Registry.type, Array.getD_eq_getD_getElem?,
    Array.getElem?_eq_none (Nat.le_of_not_lt unknown)]
  rfl

/-- Nothing is said of a function that is not known. -/
theorem function_unknown {registry : Registry} {id : FunctionId}
    (unknown : ¬ registry.KnowsFunction id)
    : registry.function id = default := by
  rw [Registry.function, Array.getD_eq_getD_getElem?,
    Array.getElem?_eq_none (Nat.le_of_not_lt unknown)]
  rfl

/-- One registry grows to another when known types stay as they are, known functions become what
they are later, and what was made once is not made again.
-/
structure Grows (before after : Registry) : Prop where
  types : ∀ id, before.Knows id → after.Knows id ∧ after.type id = before.type id
  functions : ∀ id, before.KnowsFunction id →
    after.KnowsFunction id ∧ (before.function id).Becomes (after.function id)
  generics : ∀ name id, before.generics.lookup name = some id →
    after.generics.lookup name = some id
  references : ∀ id reference, before.references.lookup id = some reference →
    after.references.lookup id = some reference

namespace Grows

variable {before middle after : Registry}

theorem refl (registry : Registry) : Grows registry registry :=
  ⟨fun _ known => ⟨known, rfl⟩, fun _ known => ⟨known, .refl _⟩, fun _ _ known => known,
    fun _ _ known => known⟩

theorem trans (first : Grows before middle) (later : Grows middle after) : Grows before after := by
  refine ⟨fun id known => ?_, fun id known => ?_, fun name id known => ?_,
    fun id reference known => ?_⟩
  · obtain ⟨known, start⟩ := first.types id known
    obtain ⟨known, rest⟩ := later.types id known
    exact ⟨known, rest.trans start⟩
  · obtain ⟨known, start⟩ := first.functions id known
    obtain ⟨known, rest⟩ := later.functions id known
    exact ⟨known, start.trans rest⟩
  · exact later.generics name id (first.generics name id known)
  · exact later.references id reference (first.references id reference known)

theorem knows (grows : Grows before after) {id : TypeId} (known : before.Knows id)
    : after.Knows id :=
  (grows.types id known).1

theorem type (grows : Grows before after) {id : TypeId} (known : before.Knows id)
    : after.type id = before.type id :=
  (grows.types id known).2

theorem typeName (grows : Grows before after) {id : TypeId} (known : before.Knows id)
    : after.typeName id = before.typeName id := by
  rw [Registry.typeName, grows.type known, Registry.typeName]

theorem knowsFunction (grows : Grows before after) {id : FunctionId}
    (known : before.KnowsFunction id)
    : after.KnowsFunction id :=
  (grows.functions id known).1

theorem function (grows : Grows before after) {id : FunctionId} (known : before.KnowsFunction id)
    : (before.function id).Becomes (after.function id) :=
  (grows.functions id known).2

/-- A known function keeps its parameters. -/
theorem params (grows : Grows before after) {id : FunctionId} (known : before.KnowsFunction id)
    : (after.function id).params = (before.function id).params :=
  (grows.function known).params

/-- Growth depends neither on the contexts nor on the number of identifiers. -/
theorem ofSame (types : after.types = before.types) (functions : after.functions = before.functions)
    (generics : after.generics = before.generics)
    (references : after.references = before.references)
    : Grows before after := by
  refine ⟨fun id known => ?_, fun id known => ?_, fun name id known => ?_,
    fun id reference known => ?_⟩
  · refine ⟨?_, ?_⟩
    · rw [Knows, types]
      exact known
    · rw [Registry.type, types]
      rfl
  · refine ⟨?_, ?_⟩
    · rw [KnowsFunction, functions]
      exact known
    · have same : after.function id = before.function id := by
        rw [Registry.function, functions]
        rfl
      rw [same]
      exact .refl _
  · rw [generics]
    exact known
  · rw [references]
    exact known

end Grows

/-- (KnowsNamed registry name id) says that a registry has a function under a name. -/
structure KnowsNamed (registry : Registry) (name : String) (id : FunctionId) : Prop where
  known : registry.KnowsFunction id
  name : (registry.function id).name = name

instance (registry : Registry) (name : String) (id : FunctionId)
    : Decidable (registry.KnowsNamed name id) :=
  decidable_of_iff (registry.KnowsFunction id ∧ (registry.function id).name = name)
    ⟨fun ⟨known, same⟩ => ⟨known, same⟩, fun ⟨known, same⟩ => ⟨known, same⟩⟩

theorem KnowsNamed.mono {before after : Registry} {name : String} {id : FunctionId}
    (known : before.KnowsNamed name id) (grows : before.Grows after)
    : after.KnowsNamed name id :=
  ⟨grows.knowsFunction known.known, (grows.function known.known).name.trans known.name⟩

/-- (HasArity registry id count) says that a registry has a function with so many parameters. -/
structure HasArity (registry : Registry) (id : FunctionId) (count : Nat) : Prop where
  known : registry.KnowsFunction id
  params : (registry.function id).params.length = count

theorem HasArity.mono {before after : Registry} {id : FunctionId} {count : Nat}
    (arity : before.HasArity id count) (grows : before.Grows after)
    : after.HasArity id count :=
  ⟨grows.knowsFunction arity.known, by rw [grows.params arity.known, arity.params]⟩

-----------------------------------------------------------------------------------------
-- Steps
-----------------------------------------------------------------------------------------

variable (registry : Registry)

theorem type_addType (info : TypeInfo) (id : TypeId)
    : (registry.addType info).2.type id =
        if id = (registry.addType info).1 then info else registry.type id := by
  rw [Registry.type]
  show (registry.types.push info).getD id.index default = _
  rw [getD_push]
  by_cases new : id.index = registry.types.size
  · rw [if_pos new, if_pos]
    exact congrArg TypeId.mk new
  · rw [if_neg new, if_neg]
    · rfl
    · exact fun same => new (congrArg TypeId.index same)

theorem grows_addType (info : TypeInfo) : registry.Grows (registry.addType info).2 := by
  refine ⟨fun id known => ⟨?_, ?_⟩, fun id known => ⟨known, .refl _⟩, fun _ _ known => known,
    fun _ _ known => known⟩
  · show id.index < (registry.types.push info).size
    rw [Array.size_push]
    exact Nat.lt_succ_of_lt known
  · rw [type_addType, if_neg]
    rintro rfl
    exact Nat.lt_irrefl _ known

theorem knows_addType (info : TypeInfo)
    : (registry.addType info).2.Knows (registry.addType info).1 := by
  show registry.types.size < (registry.types.push info).size
  rw [Array.size_push]
  exact Nat.lt_succ_self _

theorem function_addFunction (info : FunctionInfo) (id : FunctionId)
    : (registry.addFunction info).2.function id =
        if id = (registry.addFunction info).1 then info else registry.function id := by
  rw [Registry.function]
  show (registry.functions.push info).getD id.index default = _
  rw [getD_push]
  by_cases new : id.index = registry.functions.size
  · rw [if_pos new, if_pos]
    exact congrArg FunctionId.mk new
  · rw [if_neg new, if_neg]
    · rfl
    · exact fun same => new (congrArg FunctionId.index same)

theorem knowsFunction_addFunction (info : FunctionInfo)
    : (registry.addFunction info).2.KnowsFunction (registry.addFunction info).1 := by
  show registry.functions.size < (registry.functions.push info).size
  rw [Array.size_push]
  exact Nat.lt_succ_self _

theorem grows_addFunction (info : FunctionInfo)
    : registry.Grows (registry.addFunction info).2 := by
  refine ⟨fun id known => ⟨known, rfl⟩, fun id known => ⟨?_, ?_⟩, fun _ _ known => known,
    fun _ _ known => known⟩
  · show id.index < (registry.functions.push info).size
    rw [Array.size_push]
    exact Nat.lt_succ_of_lt known
  · rw [function_addFunction, if_neg]
    · exact .refl _
    · rintro rfl
      exact Nat.lt_irrefl _ known

theorem function_modifyFunction (changed : FunctionId) (change : FunctionInfo → FunctionInfo)
    (id : FunctionId)
    : (registry.modifyFunction changed change).function id =
        if changed = id ∧ registry.KnowsFunction id then change (registry.function id)
        else registry.function id := by
  rw [Registry.function]
  show (registry.functions.modify changed.index change).getD id.index default = _
  rw [getD_modify]
  have same : changed.index = id.index ↔ changed = id :=
    ⟨fun same => congrArg FunctionId.mk same, congrArg FunctionId.index⟩
  simp only [same]
  rfl

theorem grows_modifyFunction {changed : FunctionId} {change : FunctionInfo → FunctionInfo}
    (becomes : (registry.function changed).Becomes (change (registry.function changed)))
    : registry.Grows (registry.modifyFunction changed change) := by
  refine ⟨fun id known => ⟨known, rfl⟩, fun id known => ⟨?_, ?_⟩, fun _ _ known => known,
    fun _ _ known => known⟩
  · show id.index < (registry.functions.modify changed.index change).size
    rw [Array.size_modify]
    exact known
  · rw [function_modifyFunction]
    split
    · next same =>
        obtain ⟨rfl, _⟩ := same
        exact becomes
    · exact .refl _

theorem numberParams_same (count : Nat) (types : List TypeId)
    : (registry.numberParams count types).2
        = { registry with nextIndex := (registry.numberParams count types).2.nextIndex } := by
  induction types generalizing count registry with
  | nil => rfl
  | cons type rest ih =>
      rw [numberParams]
      dsimp only [generateIndex]
      rw [ih]

theorem numberParams_types (count : Nat) (types : List TypeId)
    : (registry.numberParams count types).1.map (·.type) = types := by
  induction types generalizing count registry with
  | nil => rfl
  | cons type rest ih =>
      rw [numberParams]
      dsimp only
      rw [List.map_cons, ih]

theorem grows_addBuiltin (context : ContextId) (name : String) (params : List TypeId)
    (result : TypeId) (operation : Operation)
    : registry.Grows (registry.addBuiltin context name params result operation).2 := by
  have numbered : registry.Grows (registry.numberParams 0 params).2 := by
    rw [numberParams_same]
    exact .ofSame rfl rfl rfl rfl
  exact numbered.trans (grows_addFunction _ _)

/-- Adding provided functions lets a registry grow, by induction over their declarations. -/
theorem grows_addBuiltins (context : ContextId) (signatures : List Signature)
    : registry.Grows (registry.addBuiltins context signatures) := by
  induction signatures generalizing registry with
  | nil => exact .refl registry
  | cons first rest ih => exact (grows_addBuiltin registry _ _ _ _ _).trans (ih _)

/-- The type of references to a type. -/
def referenceTo (registry : Registry) (id : TypeId) : TypeInfo :=
  { registry.type id with
    name := registry.typeName id ++ "&"
    kind := .reference id
    members := []
    base? := none }

/-- The registry with a new type of references. -/
def withReference (registry : Registry) (id : TypeId) : Registry :=
  { registry with
    types := registry.types.push (registry.referenceTo id)
    references := (id, ⟨registry.types.size⟩) :: registry.references }

/-- The type of references to a type is the type itself, one that exists, or a new one. -/
theorem addReference_cases (id : TypeId)
    : (registry.addReference id = (id, registry) ∧ (registry.type id).isReference = true)
      ∨ (∃ existing, registry.addReference id = (existing, registry)
          ∧ registry.references.lookup id = some existing)
      ∨ ((registry.type id).isReference = false ∧ registry.references.lookup id = none
          ∧ registry.addReference id = (⟨registry.types.size⟩, registry.withReference id)) := by
  unfold addReference
  dsimp only
  split
  · next reference => exact .inl ⟨rfl, reference⟩
  · next value =>
      split
      · next existing found => exact .inr (.inl ⟨existing, rfl, found⟩)
      · next missing => exact .inr (.inr ⟨by simpa using value, missing, rfl⟩)

theorem type_withReference (id other : TypeId)
    : (registry.withReference id).type other =
        if other = ⟨registry.types.size⟩ then registry.referenceTo id
        else registry.type other := by
  rw [Registry.type]
  show (registry.types.push (registry.referenceTo id)).getD other.index default = _
  rw [getD_push]
  by_cases new : other.index = registry.types.size
  · rw [if_pos new, if_pos]
    exact congrArg TypeId.mk new
  · rw [if_neg new, if_neg]
    · rfl
    · exact fun same => new (congrArg TypeId.index same)

theorem knows_withReference (id : TypeId)
    : (registry.withReference id).Knows ⟨registry.types.size⟩ := by
  show registry.types.size < (registry.types.push _).size
  rw [Array.size_push]
  exact Nat.lt_succ_self _

theorem grows_withReference {id : TypeId} (missing : registry.references.lookup id = none)
    : registry.Grows (registry.withReference id) := by
  refine ⟨fun other known => ⟨?_, ?_⟩, fun _ known => ⟨known, .refl _⟩, fun _ _ known => known,
    fun other reference known => ?_⟩
  · show other.index < (registry.types.push _).size
    rw [Array.size_push]
    exact Nat.lt_succ_of_lt known
  · rw [type_withReference, if_neg]
    rintro rfl
    exact Nat.lt_irrefl _ known
  · show List.lookup other ((id, _) :: registry.references) = some reference
    rw [List.lookup_cons]
    cases equal : other == id with
    | true =>
        rw [eq_of_beq equal, missing] at known
        exact nomatch known
    | false => exact known

theorem grows_addReference (id : TypeId) : registry.Grows (registry.addReference id).2 := by
  rcases addReference_cases registry id with ⟨same, _⟩ | ⟨existing, same, _⟩ | ⟨_, missing, added⟩
  · rw [same]
    exact .refl registry
  · rw [same]
    exact .refl registry
  · rw [added]
    exact grows_withReference registry missing

theorem grows_addGenericFunctions (b : BuiltinTypes) (family : GenericFamily) (id value : TypeId)
    : registry.Grows (registry.addGenericFunctions b family id value) := by
  cases family with
  | list =>
      exact ((grows_addReference registry value).trans (grows_addReference _ id)).trans
        (grows_addBuiltins _ _ _)
  | external => exact (grows_addReference registry id).trans (grows_addBuiltins _ _ _)

/-- The name of an instance of a family. -/
def instanceName (registry : Registry) (family : GenericFamily) (value : TypeId) : String :=
  family.text ++ "<" ++ registry.typeName value ++ ">"

/-- The registry with a new instance of a family, still without its functions. -/
def addInstance (registry : Registry) (b : BuiltinTypes) (family : GenericFamily)
    (value : TypeId)
    : Registry :=
  let name := registry.instanceName family value
  let (context, registry) := registry.addContext .classContext name (some b.globalContext)
  let (id, registry) := registry.addType
    ⟨name, family.text, family.kind value, context, [], none, true, Span.unknown⟩
  { registry with generics := (name, id) :: registry.generics }

/-- An instance of a family exists, or it is new and gets its functions. -/
theorem addGeneric_cases (b : BuiltinTypes) (family : GenericFamily) (value : TypeId)
    : (∃ existing, registry.addGeneric b family value = (existing, registry)
          ∧ registry.generics.lookup (registry.instanceName family (registry.decayed value))
            = some existing)
      ∨ (registry.generics.lookup (registry.instanceName family (registry.decayed value)) = none
          ∧ registry.addGeneric b family value = (⟨registry.types.size⟩,
            (registry.addInstance b family (registry.decayed value)).addGenericFunctions b family
              ⟨registry.types.size⟩ (registry.decayed value))) := by
  unfold addGeneric
  dsimp only
  split
  · next existing found => exact .inl ⟨existing, rfl, found⟩
  · next missing => exact .inr ⟨missing, rfl⟩

theorem grows_addInstance {b : BuiltinTypes} {family : GenericFamily} {value : TypeId}
    (missing : registry.generics.lookup (registry.instanceName family value) = none)
    : registry.Grows (registry.addInstance b family value) := by
  have opened : registry.Grows (registry.addContext .classContext
      (registry.instanceName family value) (some b.globalContext)).2 := .ofSame rfl rfl rfl rfl
  have typed := opened.trans (grows_addType _ ⟨registry.instanceName family value, family.text,
    family.kind value, ⟨registry.contexts.size⟩, [], none, true, Span.unknown⟩)
  refine ⟨typed.types, typed.functions, fun name id known => ?_, typed.references⟩
  show List.lookup name ((registry.instanceName family value, _) :: registry.generics) = some id
  rw [List.lookup_cons]
  cases equal : name == registry.instanceName family value with
  | true =>
      rw [eq_of_beq equal, missing] at known
      exact nomatch known
  | false => exact known

theorem grows_addGeneric (b : BuiltinTypes) (family : GenericFamily) (value : TypeId)
    : registry.Grows (registry.addGeneric b family value).2 := by
  rcases addGeneric_cases registry b family value with ⟨existing, same, _⟩ | ⟨missing, added⟩
  · rw [same]
    exact .refl registry
  · rw [added]
    exact (grows_addInstance registry missing).trans (grows_addGenericFunctions _ _ _ _ _)

end Registry

end BuildScript
