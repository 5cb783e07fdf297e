import BuildScript.Proofs.Registry.Changes
import BuildScript.Scope.Symbols

/-! The representation invariant of registries. Every operation keeps it, so that it holds of every
registry that evolves from one of which it holds, and the provided registry is one.
-/

namespace BuildScript

namespace Registry

variable {registry before middle after : Registry}

-----------------------------------------------------------------------------------------
-- Contexts
-----------------------------------------------------------------------------------------

/-- Contexts are in order when types, functions and contexts are put into known contexts only, and
when each context lists once and exactly what is put into it. Types of references are not listed.
-/
structure Placed (registry : Registry) : Prop where
  types : ∀ id, registry.Knows id → registry.KnowsContext (registry.type id).context
  functions : ∀ id, registry.KnowsFunction id →
    registry.KnowsContext (registry.function id).context
  parents : ∀ context parent, (registry.context context).parent? = some parent →
    registry.KnowsContext parent
  listsTypes : ∀ context id, id ∈ (registry.context context).types ↔
    registry.Knows id ∧ (registry.type id).context = context
      ∧ (registry.type id).isReference = false
  listsFunctions : ∀ context id, id ∈ (registry.context context).functions ↔
    registry.KnowsFunction id ∧ (registry.function id).context = context
  typesOnce : ∀ context, (registry.context context).types.Nodup
  functionsOnce : ∀ context, (registry.context context).functions.Nodup

theorem context_addContext (registry : Registry) (kind : ContextKind) (name : String)
    (parent? : Option ContextId) (id : ContextId)
    : (registry.addContext kind name parent?).2.context id =
        if id = ⟨registry.contexts.size⟩ then ⟨kind, name, parent?, [], []⟩
        else registry.context id := by
  rw [Registry.context]
  show (registry.contexts.push _).getD id.index default = _
  rw [getD_push]
  by_cases new : id.index = registry.contexts.size
  · rw [if_pos new, if_pos]
    exact congrArg ContextId.mk new
  · rw [if_neg new, if_neg]
    · rfl
    · exact fun same => new (congrArg ContextId.index same)

/-- A type is listed behind the others in its context. -/
theorem context_addType (registry : Registry) (info : TypeInfo) (id : ContextId)
    : (registry.addType info).2.context id =
        if info.context = id ∧ registry.KnowsContext id then
          { registry.context id with
            types := (registry.context id).types ++ [⟨registry.types.size⟩] }
        else registry.context id := by
  rw [Registry.context]
  show (registry.contexts.modify info.context.index _).getD id.index default = _
  rw [getD_modify]
  have same : info.context.index = id.index ↔ info.context = id :=
    ⟨fun same => congrArg ContextId.mk same, congrArg ContextId.index⟩
  simp only [same]
  rfl

/-- A function is listed behind the others in its context. -/
theorem context_addFunction (registry : Registry) (info : FunctionInfo) (id : ContextId)
    : (registry.addFunction info).2.context id =
        if info.context = id ∧ registry.KnowsContext id then
          { registry.context id with
            functions := (registry.context id).functions ++ [⟨registry.functions.size⟩] }
        else registry.context id := by
  rw [Registry.context]
  show (registry.contexts.modify info.context.index _).getD id.index default = _
  rw [getD_modify]
  have same : info.context.index = id.index ↔ info.context = id :=
    ⟨fun same => congrArg ContextId.mk same, congrArg ContextId.index⟩
  simp only [same]
  rfl

theorem knows_addType_iff (registry : Registry) (info : TypeInfo) (id : TypeId)
    : (registry.addType info).2.Knows id ↔ registry.Knows id ∨ id = ⟨registry.types.size⟩ := by
  show id.index < (registry.types.push info).size ↔ _
  rw [Array.size_push, Nat.lt_succ_iff_lt_or_eq]
  exact or_congr_right ⟨congrArg TypeId.mk, congrArg TypeId.index⟩

theorem knowsFunction_addFunction_iff (registry : Registry) (info : FunctionInfo)
    (id : FunctionId)
    : (registry.addFunction info).2.KnowsFunction id ↔
        registry.KnowsFunction id ∨ id = ⟨registry.functions.size⟩ := by
  show id.index < (registry.functions.push info).size ↔ _
  rw [Array.size_push, Nat.lt_succ_iff_lt_or_eq]
  exact or_congr_right ⟨congrArg FunctionId.mk, congrArg FunctionId.index⟩

theorem knowsContext_addContext_iff (registry : Registry) (kind : ContextKind) (name : String)
    (parent? : Option ContextId) (id : ContextId)
    : (registry.addContext kind name parent?).2.KnowsContext id ↔
        registry.KnowsContext id ∨ id = ⟨registry.contexts.size⟩ := by
  show id.index < (registry.contexts.push _).size ↔ _
  rw [Array.size_push, Nat.lt_succ_iff_lt_or_eq]
  exact or_congr_right ⟨congrArg ContextId.mk, congrArg ContextId.index⟩

theorem not_knows_size (registry : Registry) : ¬ registry.Knows ⟨registry.types.size⟩ :=
  Nat.lt_irrefl _

theorem not_knowsFunction_size (registry : Registry)
    : ¬ registry.KnowsFunction ⟨registry.functions.size⟩ :=
  Nat.lt_irrefl _

theorem context_unknown {id : ContextId} (unknown : ¬ registry.KnowsContext id)
    : registry.context id = default := by
  rw [Registry.context, Array.getD_eq_getD_getElem?,
    Array.getElem?_eq_none (Nat.le_of_not_lt unknown)]
  rfl

namespace Placed

/-- Contexts stay in order when they are left alone and nothing but references is new. -/
theorem ofSame (placed : registry.Placed) (preserves : registry.Preserves after)
    (same : after.contexts = registry.contexts)
    (types : ∀ id, after.Knows id → registry.Knows id ∨ (after.type id).isReference = true
      ∧ after.KnowsContext (after.type id).context)
    (functions : ∀ id, after.KnowsFunction id → registry.KnowsFunction id)
    : after.Placed := by
  have contexts (id : ContextId) : after.context id = registry.context id := by
    rw [Registry.context, same, Registry.context]
  refine ⟨fun id known => ?types, fun id known => ?functions, fun context parent found => ?parents,
    fun context id => ?listsTypes, fun context id => ?listsFunctions,
    fun context => contexts context ▸ placed.typesOnce context,
    fun context => contexts context ▸ placed.functionsOnce context⟩
  case types =>
    rcases types id known with old | ⟨_, inside⟩
    · rw [preserves.context id old]
      exact preserves.knowsContext _ (placed.types id old)
    · exact inside
  case functions =>
    rw [preserves.functionContext id (functions id known)]
    exact preserves.knowsContext _ (placed.functions id (functions id known))
  case parents =>
    rw [contexts] at found
    exact preserves.knowsContext _ (placed.parents context parent found)
  case listsTypes =>
    rw [contexts, placed.listsTypes]
    constructor
    · rintro ⟨known, inside, value⟩
      exact ⟨preserves.knows id known, (preserves.context id known).trans inside,
        (preserves.isReference known).trans value⟩
    · rintro ⟨known, inside, value⟩
      rcases types id known with old | ⟨reference, _⟩
      · exact ⟨old, (preserves.context id old).symm.trans inside,
          (preserves.isReference old).symm.trans value⟩
      · rw [reference] at value
        cases value
  case listsFunctions =>
    rw [contexts, placed.listsFunctions]
    constructor
    · rintro ⟨known, inside⟩
      exact ⟨preserves.knowsFunction id known, (preserves.functionContext id known).trans inside⟩
    · rintro ⟨known, inside⟩
      exact ⟨functions id known,
        (preserves.functionContext id (functions id known)).symm.trans inside⟩

/-- A new context lists nothing, and nothing is put into it. -/
theorem addContext (placed : registry.Placed) (kind : ContextKind) (name : String)
    {parent? : Option ContextId}
    (inside : ∀ parent, parent? = some parent → registry.KnowsContext parent)
    : (registry.addContext kind name parent?).2.Placed := by
  have preserves := (Change.context kind name parent? inside).preserves
  have outside {info : ContextId} (known : registry.KnowsContext info)
      : info ≠ ⟨registry.contexts.size⟩ := by
    rintro rfl
    exact Nat.lt_irrefl _ known
  refine ⟨fun id known => preserves.knowsContext _ (placed.types id known),
    fun id known => preserves.knowsContext _ (placed.functions id known),
    fun context parent found => ?parents, fun context id => ?listsTypes,
    fun context id => ?listsFunctions, fun context => ?typesOnce, fun context => ?functionsOnce⟩
  all_goals rw [context_addContext] at *; split at *
  case parents.isTrue => exact preserves.knowsContext _ (inside parent found)
  case parents.isFalse => exact preserves.knowsContext _ (placed.parents context parent found)
  case listsTypes.isTrue new =>
    refine ⟨(fun absent => nomatch absent), fun ⟨known, same, _⟩ => ?_⟩
    exact absurd (same.trans new) (outside (placed.types id known))
  case listsTypes.isFalse => exact placed.listsTypes context id
  case listsFunctions.isTrue new =>
    refine ⟨(fun absent => nomatch absent), fun ⟨known, same⟩ => ?_⟩
    exact absurd (same.trans new) (outside (placed.functions id known))
  case listsFunctions.isFalse => exact placed.listsFunctions context id
  case typesOnce.isTrue => exact List.nodup_nil
  case typesOnce.isFalse => exact placed.typesOnce context
  case functionsOnce.isTrue => exact List.nodup_nil
  case functionsOnce.isFalse => exact placed.functionsOnce context

/-- A new type is listed in its context, and in no other. -/
theorem addType (placed : registry.Placed) {info : TypeInfo} (value : info.isReference = false)
    (inside : registry.KnowsContext info.context)
    (preserves : registry.Preserves (registry.addType info).2)
    : (registry.addType info).2.Placed := by
  have unlisted (context : ContextId)
      : (⟨registry.types.size⟩ : TypeId) ∉ (registry.context context).types :=
    fun listed => not_knows_size registry ((placed.listsTypes context _).mp listed).1
  refine ⟨fun id known => preserves.knowsContext _ ?types,
    fun id known => preserves.knowsContext _ (placed.functions id known),
    fun context parent found => preserves.knowsContext _ ?parents, fun context id => ?listsTypes,
    fun context id => ?listsFunctions, fun context => ?typesOnce, fun context => ?functionsOnce⟩
  case types =>
    rw [type_addType]
    split
    · exact inside
    · next old =>
        exact placed.types id (((knows_addType_iff registry info id).mp known).resolve_right old)
  all_goals rw [context_addType] at *
  case parents => split at found <;> exact placed.parents context parent found
  case listsTypes =>
    have added : (registry.addType info).2.type id =
        if id = ⟨registry.types.size⟩ then info else registry.type id :=
      type_addType registry info id
    rw [knows_addType_iff, added]
    by_cases new : id = ⟨registry.types.size⟩
    · rw [if_pos new]
      subst new
      by_cases same : info.context = context
      · subst same
        rw [if_pos ⟨rfl, inside⟩]
        exact ⟨fun _ => ⟨.inr rfl, rfl, value⟩, fun _ => List.mem_append_right _ (.head _)⟩
      · rw [if_neg fun both => same both.1]
        exact ⟨fun listed => absurd listed (unlisted context), fun other => absurd other.2.1 same⟩
    · rw [if_neg new, or_iff_left new, ← placed.listsTypes]
      split
      · rw [List.mem_append, List.mem_singleton, or_iff_left new]
      · rfl
  case listsFunctions =>
    split <;> exact placed.listsFunctions context id
  case typesOnce =>
    split
    · exact List.nodup_append.mpr ⟨placed.typesOnce context, List.nodup_singleton _,
        fun id listed other new same => unlisted context
          (List.mem_singleton.mp new ▸ same ▸ listed)⟩
    · exact placed.typesOnce context
  case functionsOnce =>
    split <;> exact placed.functionsOnce context

/-- A new function is listed in its context, and in no other. -/
theorem addFunction (placed : registry.Placed) {info : FunctionInfo}
    (inside : registry.KnowsContext info.context)
    (preserves : registry.Preserves (registry.addFunction info).2)
    : (registry.addFunction info).2.Placed := by
  have unlisted (context : ContextId)
      : (⟨registry.functions.size⟩ : FunctionId) ∉ (registry.context context).functions :=
    fun listed => not_knowsFunction_size registry ((placed.listsFunctions context _).mp listed).1
  refine ⟨fun id known => preserves.knowsContext _ (placed.types id known),
    fun id known => preserves.knowsContext _ ?functions,
    fun context parent found => preserves.knowsContext _ ?parents, fun context id => ?listsTypes,
    fun context id => ?listsFunctions, fun context => ?typesOnce, fun context => ?functionsOnce⟩
  case functions =>
    rw [function_addFunction]
    split
    · exact inside
    · next old =>
        exact placed.functions id
          (((knowsFunction_addFunction_iff registry info id).mp known).resolve_right old)
  all_goals rw [context_addFunction] at *
  case parents => split at found <;> exact placed.parents context parent found
  case listsTypes =>
    split <;> exact placed.listsTypes context id
  case listsFunctions =>
    have added : (registry.addFunction info).2.function id =
        if id = ⟨registry.functions.size⟩ then info else registry.function id :=
      function_addFunction registry info id
    rw [knowsFunction_addFunction_iff, added]
    by_cases new : id = ⟨registry.functions.size⟩
    · rw [if_pos new]
      subst new
      by_cases same : info.context = context
      · subst same
        rw [if_pos ⟨rfl, inside⟩]
        exact ⟨fun _ => ⟨.inr rfl, rfl⟩, fun _ => List.mem_append_right _ (.head _)⟩
      · rw [if_neg fun both => same both.1]
        exact ⟨fun listed => absurd listed (unlisted context), fun other => absurd other.2 same⟩
    · rw [if_neg new, or_iff_left new, ← placed.listsFunctions]
      split
      · rw [List.mem_append, List.mem_singleton, or_iff_left new]
      · rfl
  case typesOnce =>
    split <;> exact placed.typesOnce context
  case functionsOnce =>
    split
    · exact List.nodup_append.mpr ⟨placed.functionsOnce context, List.nodup_singleton _,
        fun id listed other new same => unlisted context
          (List.mem_singleton.mp new ▸ same ▸ listed)⟩
    · exact placed.functionsOnce context

end Placed

-----------------------------------------------------------------------------------------
-- References and instances
-----------------------------------------------------------------------------------------

/-- References and instances of generic types are in order when bases and what references refer to
are values, when exactly the pairs of a type and the type of references to it are recorded, and when
what is recorded under a name is an instance of that name.
-/
structure Referenced (registry : Registry) : Prop where
  values : ∀ id referenced, (registry.type id).kind = .reference referenced →
    (registry.type referenced).isReference = false
  bases : ∀ id base, (registry.type id).base? = some base →
    (registry.type base).isReference = false
  exact : ∀ id reference, registry.references.lookup id = some reference ↔
    (registry.type reference).kind = .reference id
  instances : ∀ name id, registry.generics.lookup name = some id →
    registry.typeName id = name ∧
      ∃ (family : GenericFamily) (value : TypeId), (registry.type id).kind = family.kind value

theorem isReference_iff {info : TypeInfo}
    : info.isReference = true ↔ ∃ referenced, info.kind = .reference referenced := by
  unfold TypeInfo.isReference TypeInfo.referenced?
  split
  · next referenced kind => exact ⟨fun _ => ⟨referenced, kind⟩, fun _ => rfl⟩
  · next other => exact ⟨(fun impossible => nomatch impossible),
      fun ⟨referenced, kind⟩ => absurd kind (other referenced)⟩

theorem isReference_of_kind {info : TypeInfo} {referenced : TypeId}
    (kind : info.kind = .reference referenced)
    : info.isReference = true :=
  isReference_iff.mpr ⟨referenced, kind⟩

theorem isReference_unknown {id : TypeId} (unknown : ¬ registry.Knows id)
    : (registry.type id).isReference = false := by
  rw [type_unknown unknown]
  rfl

theorem knows_of_kind {id referenced : TypeId}
    (kind : (registry.type id).kind = .reference referenced)
    : registry.Knows id := by
  by_contra unknown
  rw [type_unknown unknown] at kind
  cases kind

namespace Referenced

/-- References and instances stay in order when they are left alone and no reference is new. -/
theorem ofSame (referenced : registry.Referenced) (closed : registry.Closed)
    (preserves : registry.Preserves after) (references : after.references = registry.references)
    (generics : after.generics = registry.generics)
    (new : ∀ id, ¬ registry.Knows id → (after.type id).isReference = false)
    (derived : ∀ id base, ¬ registry.Knows id → (after.type id).base? = some base →
      registry.Knows base ∧ (registry.type base).isReference = false)
    : after.Referenced := by
  have old {id inner : TypeId} (kind : (after.type id).kind = .reference inner)
      : registry.Knows id := by
    by_contra unknown
    exact Bool.false_ne_true ((new id unknown).symm.trans (isReference_of_kind kind))
  refine ⟨fun id inner kind => ?values, fun id base found => ?bases, fun id reference => ?exact,
    fun name id found => ?instances⟩
  case bases =>
    have both : registry.Knows base ∧ (registry.type base).isReference = false := by
      by_cases known : registry.Knows id
      · rw [preserves.base id known] at found
        exact ⟨closed.base_known found, referenced.bases id base found⟩
      · exact derived id base known found
    rw [preserves.isReference both.1]
    exact both.2
  case values =>
    have known := old kind
    rw [preserves.kind id known] at kind
    have innerKnown : registry.Knows inner :=
      closed.inner_known (congrArg TypeKind.inner? kind)
    rw [preserves.isReference innerKnown]
    exact referenced.values id inner kind
  case exact =>
    rw [references, referenced.exact]
    constructor
    · intro kind
      rw [preserves.kind reference (knows_of_kind kind)]
      exact kind
    · intro kind
      rw [← preserves.kind reference (old kind)]
      exact kind
  case instances =>
    rw [generics] at found
    have known := closed.generics name id found
    rw [preserves.typeName id known, preserves.kind id known]
    exact referenced.instances name id found

/-- A type of references that is new is recorded for the type that it refers to. -/
theorem withReference (referenced : registry.Referenced) (closed : registry.Closed) {id : TypeId}
    (known : registry.Knows id) (value : (registry.type id).isReference = false)
    (missing : registry.references.lookup id = none)
    : (registry.withReference id).Referenced := by
  have grows := grows_withReference registry missing
  have older {other : TypeId} (known : registry.Knows other) : other ≠ ⟨registry.types.size⟩ := by
    rintro rfl
    exact not_knows_size registry known
  refine ⟨fun other inner kind => ?values, fun other base found => ?bases,
    fun other reference => ?exact, fun name other found => ?instances⟩
  case bases =>
    rw [type_withReference] at found
    split at found
    · cases found
    · rw [grows.type (closed.base_known found)]
      exact referenced.bases other base found
  case values =>
    rw [type_withReference] at kind
    split at kind
    · cases kind
      rw [grows.type known]
      exact value
    · have innerKnown : registry.Knows inner :=
        closed.inner_known (congrArg TypeKind.inner? kind)
      rw [grows.type innerKnown]
      exact referenced.values other inner kind
  case exact =>
    show List.lookup other ((id, ⟨registry.types.size⟩) :: registry.references) = some reference ↔ _
    rw [List.lookup_cons, type_withReference]
    by_cases same : other = id
    · subst same
      rw [beq_self_eq_true]
      constructor
      · rintro ⟨⟩
        rw [if_pos rfl]
        rfl
      · intro kind
        split at kind
        · next new => rw [new]
        · rw [(referenced.exact other reference).mpr kind] at missing
          cases missing
    · rw [beq_false_of_ne same]
      dsimp only
      rw [referenced.exact]
      split
      · next new =>
          subst new
          constructor
          · exact fun kind => absurd (knows_of_kind kind) (not_knows_size registry)
          · rintro ⟨⟩
            exact absurd rfl same
      · rfl
  case instances =>
    have known := closed.generics name other found
    rw [Registry.typeName, type_withReference, if_neg (older known)]
    exact referenced.instances name other found

end Referenced

-----------------------------------------------------------------------------------------
-- Classes
-----------------------------------------------------------------------------------------

/-- Classes are layered when only they have members, when the types of members are values, and when
a member that is an object itself is one of an earlier class. No number is that of two members.
-/
structure Layered (registry : Registry) : Prop where
  bare : ∀ id, (registry.type id).isObject = false → (registry.type id).members = []
  values : ∀ id, ∀ member ∈ (registry.type id).members,
    (registry.type member.type).isReference = false
  earlier : ∀ id, ∀ member ∈ (registry.type id).members,
    (registry.type member.type).isObject = true → member.type.index < id.index
  numbered : ∀ id, ∀ member ∈ (registry.type id).members, member.index < registry.nextIndex
  distinct : ∀ id, ((registry.type id).members.map (·.index)).Nodup
  apart : ∀ first second, ∀ member ∈ (registry.type first).members,
    ∀ other ∈ (registry.type second).members, member.index = other.index → first = second

namespace Layered

/-- Classes stay layered when no member is new. -/
theorem ofSame (layered : registry.Layered) (closed : registry.Closed)
    (preserves : registry.Preserves after)
    (members : ∀ id, (after.type id).members = (registry.type id).members)
    : after.Layered := by
  refine ⟨fun id noClass => ?bare, fun id member among => ?values,
    fun id member among isClass => ?earlier, fun id member among => ?numbered,
    fun id => members id ▸ layered.distinct id, fun first second member among other inSecond =>
      layered.apart first second member (members first ▸ among) other (members second ▸ inSecond)⟩
  case bare =>
    rw [members]
    by_cases known : registry.Knows id
    · exact layered.bare id ((preserves.isObject known).symm.trans noClass)
    · rw [type_unknown known]
      rfl
  case values =>
    rw [members] at among
    rw [preserves.isReference (closed.members id member among)]
    exact layered.values id member among
  case earlier =>
    rw [members] at among
    rw [preserves.isObject (closed.members id member among)] at isClass
    exact layered.earlier id member among isClass
  case numbered =>
    rw [members] at among
    exact Nat.lt_of_lt_of_le (layered.numbered id member among) preserves.nextIndex

/-- A class may get members of values of earlier types, with numbers that no other member has. -/
theorem setMembers (layered : registry.Layered) (closed : registry.Closed) {object : TypeId}
    {members : List Member} (isClass : (registry.type object).isObject = true)
    (may : ∀ member ∈ members, registry.MayHave object member)
    (distinct : (members.map (·.index)).Nodup)
    : (registry.setMembers object members).Layered := by
  have preserves := Preserves.setMembers registry object members
  have cases {id : TypeId} {member : Member}
      (among : member ∈ ((registry.setMembers object members).type id).members)
      : (object = id ∧ member ∈ members) ∨ member ∈ (registry.type id).members := by
    rw [type_setMembers] at among
    split at among
    · next same => exact .inl ⟨same.1, among⟩
    · exact .inr among
  refine ⟨fun id noClass => ?bare, fun id member among => ?values,
    fun id member among isObject => ?earlier, fun id member among => ?numbered,
    fun id => ?distinct, fun first second member among other inSecond same => ?apart⟩
  case bare =>
    rw [type_setMembers] at noClass ⊢
    split at noClass
    · next same =>
        obtain ⟨rfl, _⟩ := same
        exact absurd (isClass.symm.trans noClass) nofun
    · next other => rw [if_neg other]; exact layered.bare id noClass
  case values =>
    rcases cases among with ⟨_, new⟩ | old
    · rw [preserves.isReference (may member new).known]
      exact (may member new).value
    · rw [preserves.isReference (closed.members id member old)]
      exact layered.values id member old
  case earlier =>
    rcases cases among with ⟨rfl, new⟩ | old
    · rw [preserves.isObject (may member new).known] at isObject
      exact (may member new).earlier isObject
    · rw [preserves.isObject (closed.members id member old)] at isObject
      exact layered.earlier id member old isObject
  case numbered =>
    rcases cases among with ⟨_, new⟩ | old
    · exact (may member new).numbered
    · exact layered.numbered id member old
  case distinct =>
    rw [type_setMembers]
    split
    · exact distinct
    · exact layered.distinct id
  case apart =>
    rcases cases among with ⟨rfl, new⟩ | old
    · rcases cases inSecond with ⟨rfl, _⟩ | oldOther
      · rfl
      · exact absurd same.symm ((may member new).fresh second other oldOther)
    · rcases cases inSecond with ⟨rfl, new⟩ | oldOther
      · exact absurd same ((may other new).fresh first member old)
      · exact layered.apart first second member old other oldOther same

end Layered

-----------------------------------------------------------------------------------------
-- Consistency
-----------------------------------------------------------------------------------------

/-- The representation invariant of registries: all that is mentioned is there, bases stand before
the types derived from them, and contexts, references, instances and classes are in order.
-/
structure Consistent (registry : Registry) : Prop extends registry.Closed where
  placed : registry.Placed
  referenced : registry.Referenced
  layered : registry.Layered
  bodies : ∀ id body, (registry.function id).body = .script (some body) → registry.KnowsBody body

/-- Every operation keeps contexts in order, by cases on the operation. -/
theorem Change.placed (change : registry.Change after) (placed : registry.Placed)
    : after.Placed := by
  have preserves := change.preserves
  cases change with
  | index => exact placed.ofSame preserves rfl (fun _ => .inl) fun _ => id
  | context kind name parent? inside => exact placed.addContext kind name inside
  | type info value bare inside => exact placed.addType value inside preserves
  | reference id known =>
      rcases addReference_cases registry id with ⟨same, _⟩ | ⟨existing, same, _⟩ | ⟨_, _, added⟩
      · rwa [same]
      · rwa [same]
      · rw [added] at preserves ⊢
        refine placed.ofSame preserves rfl (fun other otherKnown => ?_) fun _ => fun known => known
        rw [type_withReference]
        split
        · exact .inr ⟨rfl, placed.types id known⟩
        · next old =>
            rcases (knows_addType_iff registry (registry.referenceTo id) other).mp otherKnown with
              known | new
            · exact .inl known
            · exact absurd new old
  | generic id => exact placed.ofSame preserves rfl (fun _ => .inl) fun _ => fun known => known
  | function info unchecked inside => exact placed.addFunction inside preserves
  | result id type =>
      refine placed.ofSame preserves rfl (fun _ => .inl) fun other known => ?_
      rwa [KnowsFunction, Registry.modifyFunction, Array.size_modify] at known
  | body id body =>
      refine placed.ofSame preserves rfl (fun _ => .inl) fun other known => ?_
      rwa [KnowsFunction, Registry.modifyFunction, Array.size_modify] at known
  | members object members =>
      exact placed.ofSame preserves rfl (fun _ known => .inl (knows_setMembers.mp known))
        fun _ => id

/-- Every operation keeps references and instances in order, by cases on the operation. -/
theorem Change.referenced (change : registry.Change after) (closed : registry.Closed)
    (referenced : registry.Referenced)
    : after.Referenced := by
  have preserves := change.preserves
  have baseless (id base : TypeId) (unknown : ¬ registry.Knows id)
      (found : (registry.type id).base? = some base)
      : registry.Knows base ∧ (registry.type base).isReference = false := by
    rw [type_unknown unknown] at found
    cases found
  cases change with
  | index | context | function | result | body =>
      exact referenced.ofSame closed preserves rfl rfl (fun _ => isReference_unknown) baseless
  | type info value bare placed made derived =>
      refine referenced.ofSame closed preserves rfl rfl (fun id unknown => ?_)
        fun id base unknown found => ?_
      · rw [type_addType]
        split
        · exact value
        · exact isReference_unknown unknown
      · rw [type_addType] at found
        split at found
        · exact derived base found
        · exact baseless id base unknown found
  | reference id known =>
      rcases addReference_cases registry id with ⟨same, _⟩ | ⟨existing, same, _⟩ |
        ⟨value, missing, added⟩
      · rwa [same]
      · rwa [same]
      · rw [added]
        exact referenced.withReference closed known value missing
  | generic id known made missing =>
      refine ⟨referenced.values, referenced.bases, referenced.exact, fun name other found => ?_⟩
      have found : List.lookup name ((registry.typeName id, id) :: registry.generics)
          = some other := found
      rw [List.lookup_cons] at found
      split at found
      · next same =>
          cases found
          exact ⟨(eq_of_beq same).symm, made⟩
      · exact referenced.instances name other found
  | members object members =>
      refine referenced.ofSame closed preserves rfl rfl (fun id unknown => ?_)
        fun id base unknown found => ?_
      · exact isReference_unknown (mt knows_setMembers.mp unknown)
      · rw [type_unknown (mt knows_setMembers.mp unknown)] at found
        cases found

/-- Every operation keeps classes layered, by cases on the operation. -/
theorem Change.layered (change : registry.Change after) (closed : registry.Closed)
    (layered : registry.Layered)
    : after.Layered := by
  have preserves := change.preserves
  cases change with
  | index | context | generic | function | result | body =>
      exact layered.ofSame closed preserves fun _ => rfl
  | type info value bare =>
      refine layered.ofSame closed preserves fun id => ?_
      rw [type_addType]
      split
      · next new =>
          have unknown : ¬ registry.Knows id := new ▸ not_knows_size registry
          rw [bare, type_unknown unknown]
          rfl
      · rfl
  | reference id =>
      rcases addReference_cases registry id with ⟨same, _⟩ | ⟨existing, same, _⟩ | ⟨_, _, added⟩
      · rwa [same]
      · rwa [same]
      · rw [added] at preserves ⊢
        refine layered.ofSame closed preserves fun other => ?_
        rw [type_withReference]
        split
        · next new =>
            rw [new, type_unknown (not_knows_size registry)]
            rfl
        · rfl
  | members object members isClass may distinct =>
      exact layered.setMembers closed isClass may distinct

/-- Every operation keeps a registry closed, by cases on the operation. -/
theorem Change.closed (change : registry.Change after) (closed : registry.Closed)
    : after.Closed := by
  cases change with
  | index => exact closed.generateIndex
  | context kind name parent? => exact closed.addContext kind name parent?
  | type info value bare placed made derived =>
      exact closed.addType made (fun base found => (derived base found).1)
        (bare ▸ fun _ absent => nomatch absent)
  | reference id known => exact (closed.addReference known).1
  | generic id known =>
      refine ⟨closed.kinds, closed.bases, closed.members, closed.params, closed.results,
        closed.references, fun name other found => ?_, closed.functions⟩
      have found : List.lookup name ((registry.typeName id, id) :: registry.generics)
          = some other := found
      rw [List.lookup_cons] at found
      split at found
      · cases found
        exact known
      · exact closed.generics name other found
  | function info unchecked placed params result => exact closed.addFunction params result
  | result id type known =>
      refine closed.modifyFunction (fun _ => rfl) fun info other found => .inr ?_
      cases found
      exact known
  | body id body => exact closed.modifyFunction (fun _ => rfl) fun _ _ => .inl
  | members object members isClass may =>
      exact closed.setMembers object fun member among => (may member among).known

/-- A body that is there after an operation was there before, or it is the one that was set. -/
theorem Change.bodies (change : registry.Change after)
    (bodies : ∀ id body, (registry.function id).body = .script (some body) →
      registry.KnowsBody body)
    (id : FunctionId) (body : TypedBlock) (found : (after.function id).body = .script (some body))
    : registry.KnowsBody body := by
  cases change with
  | index | context | type | generic | members => exact bodies id body found
  | reference other =>
      rcases addReference_cases registry other with ⟨same, _⟩ | ⟨existing, same, _⟩ | ⟨_, _, added⟩
      · rw [same] at found
        exact bodies id body found
      · rw [same] at found
        exact bodies id body found
      · rw [added] at found
        exact bodies id body found
  | function info unchecked =>
      rw [function_addFunction] at found
      split at found
      · exact absurd found (unchecked body)
      · exact bodies id body found
  | result other type =>
      rw [function_modifyFunction] at found
      split at found
      · exact bodies id body found
      · exact bodies id body found
  | body other checked known =>
      rw [function_modifyFunction] at found
      split at found
      · cases found
        exact known
      · exact bodies id body found

/-- Every operation keeps the invariant. -/
theorem Change.consistent (change : registry.Change after) (consistent : registry.Consistent)
    : after.Consistent where
  toClosed := change.closed consistent.toClosed
  placed := change.placed consistent.placed
  referenced := change.referenced consistent.toClosed consistent.referenced
  layered := change.layered consistent.toClosed consistent.layered
  bodies id body found :=
    change.preserves.knowsBody (change.bodies consistent.bodies id body found)

/-- The invariant holds along any number of operations, by induction over them. -/
theorem Evolves.consistent (evolves : before.Evolves after) (consistent : before.Consistent)
    : after.Consistent := by
  induction evolves with
  | refl => exact consistent
  | tail _ change ih => exact change.consistent ih

-----------------------------------------------------------------------------------------
-- The provided registry
-----------------------------------------------------------------------------------------

/-- Nothing can be wrong with a registry that has nothing. -/
theorem empty_consistent : Registry.empty.Consistent := by
  have noType (id : TypeId) : Registry.empty.type id = default := type_unknown (Nat.not_lt_zero _)
  have noFunction (id : FunctionId) : Registry.empty.function id = default :=
    function_unknown (Nat.not_lt_zero _)
  have noContext (id : ContextId) : Registry.empty.context id = default :=
    context_unknown (Nat.not_lt_zero _)
  have noneKnown (id : TypeId) : ¬ Registry.empty.Knows id := Nat.not_lt_zero _
  have noneCalled (id : FunctionId) : ¬ Registry.empty.KnowsFunction id := Nat.not_lt_zero _
  have closed : Registry.empty.Closed := by
    refine ⟨?_, ?_, ?_, ?_, ?_, nofun, nofun, ?_⟩
    all_goals simp only [noType, noFunction, noContext]
    all_goals exact nofun
  have placed : Registry.empty.Placed := by
    refine ⟨nofun, nofun, ?_, ?_, ?_, ?_, ?_⟩
    all_goals simp only [noContext, noneKnown, noneCalled, false_and, iff_false]
    · exact nofun
    · exact fun _ _ => List.not_mem_nil
    · exact fun _ _ => List.not_mem_nil
    · exact fun _ => List.nodup_nil
    · exact fun _ => List.nodup_nil
  have referenced : Registry.empty.Referenced := by
    refine ⟨?_, ?_, ?_, nofun⟩
    all_goals simp only [noType]
    · exact nofun
    · exact nofun
    · exact fun _ _ => ⟨nofun, nofun⟩
  have layered : Registry.empty.Layered := by
    refine ⟨fun _ _ => ?_, ?_, ?_, ?_, ?_, ?_⟩
    all_goals simp only [noType]
    · rfl
    · exact nofun
    · exact nofun
    · exact nofun
    · exact fun _ => List.nodup_nil
    · exact nofun
  refine { closed with placed, referenced, layered, bodies := fun id body found => ?_ }
  rw [noFunction] at found
  cases found

namespace Furnishes

/-- A provided type is put into a context of its own. -/
theorem addBuiltinType (registry : Registry) (parent : ContextId) (name primaryName : String)
    (kind : TypeKind) (base? : Option TypeId) (placed : registry.KnowsContext parent)
    (plain : kind.inner? = none) (noClass : kind ≠ .object)
    (derived : ∀ base, base? = some base →
      registry.Knows base ∧ (registry.type base).isReference = false)
    : registry.Furnishes (registry.addBuiltinType parent name primaryName kind base?).2 := by
  unfold Registry.addBuiltinType
  dsimp only
  refine (addContext registry _ name fun _ same => Option.some.inj same ▸ placed).trans
    (addType ?value ?noClass rfl ?placed ?made derived)
  case value =>
    rw [← Bool.not_eq_true, isReference_iff]
    rintro ⟨referenced, rfl⟩
    cases plain
  case noClass => exact beq_false_of_ne noClass
  case placed => exact (knowsContext_addContext_iff _ _ _ _ _).mpr (.inr rfl)
  case made =>
    intro inner made
    rw [plain] at made
    cases made

/-- The provided types are added one by one. -/
theorem addBuiltinTypes : Registry.empty.Furnishes Registry.empty.addBuiltinTypes.2 := by
  have plain (registry : Registry) (parent : ContextId) (name primaryName : String)
      (kind : TypeKind) (placed : registry.KnowsContext parent) (alone : kind.inner? = none)
      (noClass : kind ≠ .object)
      : registry.Furnishes (registry.addBuiltinType parent name primaryName kind none).2 :=
    addBuiltinType registry parent name primaryName kind none placed alone noClass nofun
  have derived (registry : Registry) (parent : ContextId) (name primaryName : String)
      (kind : TypeKind) (base : TypeId) (placed : registry.KnowsContext parent)
      (alone : kind.inner? = none) (noClass : kind ≠ .object) (known : registry.Knows base)
      (value : (registry.type base).isReference = false)
      : registry.Furnishes
          (registry.addBuiltinType parent name primaryName kind (some base)).2 :=
    addBuiltinType registry parent name primaryName kind (some base) placed alone noClass
      fun _ same => Option.some.inj same ▸ ⟨known, value⟩
  have outside : ∀ parent, (none : Option ContextId) = some parent →
      Registry.empty.KnowsContext parent :=
    fun _ impossible => nomatch impossible
  have opened : ∀ parent, some (⟨0⟩ : ContextId) = some parent →
      (Registry.empty.addContext .namespaceContext "" none).2.KnowsContext parent := by
    rintro _ ⟨⟩
    decide
  refine (addContext _ .namespaceContext "" outside).trans ?_
  refine (addContext _ .namespaceContext "cmake" opened).trans ?_
  refine (plain _ ⟨0⟩ "void" "void" .void (by decide) rfl nofun).trans ?_
  refine (plain _ ⟨0⟩ "bool" "bool" .bool (by decide) rfl nofun).trans ?_
  refine (plain _ ⟨0⟩ "int" "int" .int (by decide) rfl nofun).trans ?_
  refine (plain _ ⟨0⟩ "double" "double" .double (by decide) rfl nofun).trans ?_
  refine (plain _ ⟨0⟩ "string" "string" .string (by decide) rfl nofun).trans ?_
  refine (plain _ ⟨0⟩ "version" "version" .version (by decide) rfl nofun).trans ?_
  refine (plain _ ⟨1⟩ "cmake::project" "project" .project (by decide) rfl nofun).trans ?_
  refine (plain _ ⟨1⟩ "cmake::target" "target" (.target .target) (by decide) rfl nofun).trans ?_
  refine (derived _ ⟨1⟩ "cmake::library" "library" (.target .library) ⟨7⟩ (by decide) rfl nofun
    (by decide) rfl).trans ?_
  refine (derived _ ⟨1⟩ "cmake::executable" "executable" (.target .executable) ⟨7⟩ (by decide) rfl
    nofun (by decide) rfl).trans ?_
  refine (plain _ ⟨1⟩ "cmake::visibility" "visibility" (.enumeration visibilityNames) (by decide)
    rfl nofun).trans ?_
  exact plain _ ⟨0⟩ "designated initializer" "designated initializer" .designated (by decide) rfl
    nofun

/-- What was begun goes on with functions that mention the type of references to a type. -/
theorem thenBuiltinsTo (begun : registry.Furnishes middle) (consistent : registry.Consistent)
    {b : BuiltinTypes} (provides : registry.Provides b) (id : TypeId)
    (signatures : TypeId → List Signature) (known : registry.Knows id)
    (knows : ∀ (later : Registry) (ref : TypeId), registry.Grows later → later.Provides b →
      later.Knows ref → ∀ signature ∈ signatures ref, later.KnowsSignature signature)
    : registry.Furnishes (middle.addBuiltinsTo id signatures) := by
  have consistent := begun.evolves.consistent consistent
  have idKnown := begun.grows.knows known
  refine begun.trans (addBuiltinsTo consistent.toClosed idKnown
    (consistent.placed.types id idKnown) fun later ref grows => ?_)
  have grows := begun.grows.trans grows
  exact knows later ref grows (provides.mono grows)

end Furnishes

/-- All of the provided types are known. -/
theorem Provides.each {b : BuiltinTypes} (provides : registry.Provides b)
    : (registry.Knows b.void ∧ registry.Knows b.bool ∧ registry.Knows b.int
        ∧ registry.Knows b.double ∧ registry.Knows b.string ∧ registry.Knows b.version)
      ∧ registry.Knows b.project ∧ registry.Knows b.target ∧ registry.Knows b.library
        ∧ registry.Knows b.executable ∧ registry.Knows b.visibility := by
  simp [Provides, BuiltinTypes.types] at provides
  simp [provides]

theorem systemSignatures_known {b : BuiltinTypes} {texts targetRef executableRef : TypeId}
    (provides : registry.Provides b) (textsKnown : registry.Knows texts)
    (targetRefKnown : registry.Knows targetRef) (executableRefKnown : registry.Knows executableRef)
    : ∀ signature ∈ systemSignatures b texts targetRef executableRef,
        registry.KnowsSignature signature := by
  simp [systemSignatures, KnowsSignature, provides.each, textsKnown, targetRefKnown,
    executableRefKnown]

/-- The functions of the provided types are added type by type, first those that mention no lists.
-/
theorem Furnishes.addBuiltinFunctions (consistent : registry.Consistent) {b : BuiltinTypes}
    (provides : registry.Provides b) (globalContext : registry.KnowsContext b.globalContext)
    (systemContext : registry.KnowsContext b.systemContext)
    : registry.Furnishes (registry.addBuiltinFunctions b) := by
  obtain ⟨⟨void, bool, int, double, string, version⟩, project, target, library, executable,
    visibility⟩ := provides.each
  have bools := (refl registry).thenBuiltinsTo consistent provides b.bool (boolSignatures b) bool
    fun _ _ _ provides ref => by
      simp [boolSignatures, KnowsSignature, provides.each, ref]
  have ints := bools.thenBuiltinsTo consistent provides b.int (intSignatures b) int
    fun _ _ _ provides ref => by
      simp [intSignatures, KnowsSignature, provides.each, ref]
  have doubles := ints.thenBuiltinsTo consistent provides b.double (doubleSignatures b) double
    fun _ _ _ provides ref => by
      simp [doubleSignatures, KnowsSignature, provides.each, ref]
  have strings := doubles.thenBuiltinsTo consistent provides b.string (stringSignatures b) string
    fun _ _ _ provides ref => by
      simp [stringSignatures, KnowsSignature, provides.each, ref]
  have versions := strings.thenBuiltinsTo consistent provides b.version (versionSignatures b)
    version fun _ _ _ provides ref => by
      simp [versionSignatures, KnowsSignature, provides.each, ref]
  have enums := versions.thenBuiltinsTo consistent provides b.visibility
    (enumSignatures b b.visibility) visibility fun _ _ _ provides ref => by
      simp [enumSignatures, KnowsSignature, provides.each, ref]
  have closed := (enums.evolves.consistent consistent).toClosed
  have provided := provides.mono enums.grows
  have lists := enums.trans (addGeneric closed provided
    (enums.evolves.preserves.knowsContext _ globalContext) .list provided.string)
  obtain ⟨_, list⟩ := closed.addGeneric provided .list provided.string
  unfold Registry.addBuiltinFunctions Registry.addEnumFunctions
  dsimp only
  generalize Registry.addGeneric _ b .list b.string = made at lists list ⊢
  obtain ⟨texts, earlier⟩ := made
  -- From here on the functions mention lists of texts.
  have later := lists.evolves.consistent consistent
  have provides := provides.mono lists.grows
  have projects := (refl earlier).thenBuiltinsTo later provides b.project
    (projectSignatures b texts) (lists.grows.knows project) fun _ _ grows provides ref => by
      simp [projectSignatures, KnowsSignature, provides.each, ref, grows.knows list]
  have targets := projects.thenBuiltinsTo later provides b.target
    (targetSignatures b texts) (lists.grows.knows target) fun _ _ grows provides ref => by
      simp [targetSignatures, propertySignatures, KnowsSignature, provides.each, ref,
        grows.knows list]
  have libraries := targets.thenBuiltinsTo later provides b.library
    (fun ref => [⟨"=", [b.library], ref, .target .assign⟩]) (lists.grows.knows library)
    fun _ _ _ provides ref => by simp [KnowsSignature, provides.each, ref]
  have executables := libraries.thenBuiltinsTo later provides b.executable
    (fun ref => [⟨"=", [b.executable], ref, .target .assign⟩]) (lists.grows.knows executable)
    fun _ _ _ provides ref => by simp [KnowsSignature, provides.each, ref]
  have first := executables.grows.knows (lists.grows.knows target)
  have targetRef := addReference first
  obtain ⟨closed, targetRefKnown⟩ :=
    (executables.evolves.consistent later).toClosed.addReference first
  have all := lists.trans (executables.trans targetRef)
  have second := all.grows.knows executable
  have executableRef := addReference second
  obtain ⟨_, executableRefKnown⟩ := closed.addReference second
  have all := all.trans executableRef
  have grows := ((executables.trans targetRef).trans executableRef).grows
  have known := systemSignatures_known (provides.mono grows) (grows.knows list)
    (executableRef.grows.knows targetRefKnown) executableRefKnown
  exact all.trans (addBuiltins (all.evolves.preserves.knowsContext _ systemContext) known)

/-- Numbering enumerators makes no types, by induction over the enumerators. -/
theorem Furnishes.registerEnumerators (type : TypeId) (exported : Bool) (value : Nat)
    (registry : Registry) (enums : ScopeTable EnumeratorSymbol) (names : List String)
    : registry.Furnishes
        (Symbols.registerEnumerators type exported value registry enums names).1 := by
  induction names generalizing value registry enums with
  | nil => exact refl registry
  | cons first rest ih => exact (generateIndex registry).trans (ih _ _ _)

end Registry

-- The kernel evaluates the stage at which the provided types are there without functions.
set_option maxRecDepth 100000 in
/-- The provided registry evolves from the empty one without classes. -/
theorem Prelude.standard_furnished : Registry.empty.Furnishes Prelude.standard.registry := by
  have types := Registry.Furnishes.addBuiltinTypes
  have provides : Registry.empty.addBuiltinTypes.2.Provides Registry.empty.addBuiltinTypes.1 := by
    unfold Registry.Provides
    decide +kernel
  have functions := Registry.Furnishes.addBuiltinFunctions
    (types.evolves.consistent Registry.empty_consistent) provides (by decide +kernel)
    (by decide +kernel)
  -- The three enumerators of visibility are numbered last.
  exact (((types.trans functions).trans (.generateIndex _)).trans (.generateIndex _)).trans
    (.generateIndex _)

/-- The provided registry is consistent. -/
theorem Prelude.standard_consistent : Prelude.standard.registry.Consistent :=
  Prelude.standard_furnished.evolves.consistent Registry.empty_consistent

end BuildScript
