import BuildScript.Proofs.Registry.Closed
import BuildScript.Typed.Overload
import Mathlib.Data.List.Nodup

/-! Names of types. A type that is not named by a declaration gets its name from the type that it
is made from, and no type is made twice from a name. So names identify types as far as they
identify those with names of their own.
-/

namespace BuildScript

namespace Registry

variable {registry before middle after : Registry}

-----------------------------------------------------------------------------------------
-- Precedence
-----------------------------------------------------------------------------------------

/-- One registry precedes another one when known types keep their names and kinds, and when what
was made once is not made again. Members may be added in between.
-/
structure Precedes (before after : Registry) : Prop where
  knows : ∀ id, before.Knows id → after.Knows id
  typeName : ∀ id, before.Knows id → after.typeName id = before.typeName id
  kind : ∀ id, before.Knows id → (after.type id).kind = (before.type id).kind
  generics : ∀ name id, before.generics.lookup name = some id →
    after.generics.lookup name = some id
  references : ∀ id reference, before.references.lookup id = some reference →
    after.references.lookup id = some reference

theorem Precedes.trans (first : before.Precedes middle) (later : middle.Precedes after)
    : before.Precedes after := by
  refine ⟨fun id known => later.knows id (first.knows id known), fun id known => ?_,
    fun id known => ?_, fun name id found => later.generics name id (first.generics name id found),
    fun id reference found => later.references id reference (first.references id reference found)⟩
  · rw [later.typeName id (first.knows id known), first.typeName id known]
  · rw [later.kind id (first.knows id known), first.kind id known]

theorem Grows.precedes (grows : before.Grows after) : before.Precedes after := by
  refine ⟨fun _ => grows.knows, fun _ => grows.typeName, fun id known => ?_, grows.generics,
    grows.references⟩
  rw [grows.type known]

theorem Precedes.refl (registry : Registry) : registry.Precedes registry :=
  (Grows.refl registry).precedes

theorem precedes_setMembers (registry : Registry) (object : TypeId) (members : List Member)
    : registry.Precedes (registry.setMembers object members) := by
  refine ⟨fun _ => knows_setMembers.mpr, fun id _ => ?_, fun id _ => ?_, fun _ _ found => found,
    fun _ _ found => found⟩
  · rw [Registry.typeName, type_setMembers]
    split
    · rfl
    · rfl
  · rw [type_setMembers]
    split
    · rfl
    · rfl

-----------------------------------------------------------------------------------------
-- Origins
-----------------------------------------------------------------------------------------

/-- Where a type comes from: it has a name of its own, or it is made from a known type under that
name. Nothing refers to a reference.
-/
inductive Origin (registry : Registry) (own : List TypeId) (id : TypeId) : Prop where
  | own (among : id ∈ own)
  | reference (referenced : TypeId) (known : registry.Knows referenced)
      (kind : (registry.type id).kind = .reference referenced)
      (name : registry.typeName id = registry.typeName referenced ++ "&")
      (found : registry.references.lookup referenced = some id)
      (value : (registry.type referenced).isReference = false)
  | generic (family : GenericFamily) (value : TypeId) (known : registry.Knows value)
      (kind : (registry.type id).kind = family.kind value)
      (name : registry.typeName id = registry.instanceName family value)
      (found : registry.generics.lookup (registry.instanceName family value) = some id)

/-- A type is plain when it is known, is no reference, and does not have a name like those of
types that are made from others.
-/
structure Plain (registry : Registry) (id : TypeId) : Prop where
  known : registry.Knows id
  value : (registry.type id).isReference = false
  notReference : (registry.typeName id).toList.getLast? ≠ some '&'
  notGeneric : (registry.typeName id).toList.getLast? ≠ some '>'

/-- A registry is named by types when these are plain and all others are made from known types. -/
structure Named (registry : Registry) (own : List TypeId) : Prop where
  origin : ∀ id, registry.Knows id → registry.Origin own id
  plain : ∀ id ∈ own, registry.Plain id
  unique : own.Nodup
  generics : ∀ name id, registry.generics.lookup name = some id →
    registry.Knows id ∧ registry.typeName id = name

theorem instanceName_of_precedes (precedes : before.Precedes after) (family : GenericFamily)
    {value : TypeId} (known : before.Knows value)
    : after.instanceName family value = before.instanceName family value := by
  rw [instanceName, precedes.typeName value known, instanceName]

theorem isReference_eq {registry after : Registry} {id : TypeId}
    (same : (after.type id).kind = (registry.type id).kind)
    : (after.type id).isReference = (registry.type id).isReference := by
  rw [TypeInfo.isReference, TypeInfo.referenced?, same]
  rfl

theorem Origin.mono {own : List TypeId} {id : TypeId} (origin : before.Origin own id)
    (precedes : before.Precedes after) (known : before.Knows id)
    : after.Origin own id := by
  cases origin with
  | own among => exact .own among
  | reference referenced referencedKnown kind name found value =>
      refine .reference referenced (precedes.knows _ referencedKnown) ?_ ?_
        (precedes.references _ _ found) ?_
      · rw [precedes.kind id known, kind]
      · rw [precedes.typeName id known, name, precedes.typeName _ referencedKnown]
      · rw [isReference_eq (precedes.kind _ referencedKnown)]
        exact value
  | generic family value valueKnown kind name found =>
      have same := instanceName_of_precedes precedes family valueKnown
      refine .generic family value (precedes.knows _ valueKnown) ?_ ?_ ?_
      · rw [precedes.kind id known, kind]
      · rw [precedes.typeName id known, name, same]
      · rw [same]
        exact precedes.generics _ _ found

theorem Origin.widen {own others : List TypeId} {id : TypeId} (origin : registry.Origin own id)
    (included : ∀ id ∈ own, id ∈ others)
    : registry.Origin others id := by
  cases origin with
  | own among => exact .own (included id among)
  | reference referenced known kind name found value =>
      exact .reference referenced known kind name found value
  | generic family value known kind name found => exact .generic family value known kind name found

theorem Plain.mono {id : TypeId} (plain : before.Plain id) (precedes : before.Precedes after)
    : after.Plain id := by
  have name := precedes.typeName id plain.known
  refine ⟨precedes.knows id plain.known, ?_, ?_, ?_⟩
  · rw [isReference_eq (precedes.kind id plain.known)]
    exact plain.value
  · rw [name]
    exact plain.notReference
  · rw [name]
    exact plain.notGeneric

-----------------------------------------------------------------------------------------
-- Steps
-----------------------------------------------------------------------------------------

variable {own : List TypeId}

/-- A registry stays named when all types and instances that are new have an origin. -/
theorem Named.grow (named : before.Named own) (precedes : before.Precedes after)
    (fresh : ∀ id, after.Knows id → ¬ before.Knows id → after.Origin own id)
    (generics : ∀ name id, after.generics.lookup name = some id →
      before.generics.lookup name = some id ∨ after.Knows id ∧ after.typeName id = name)
    : after.Named own := by
  refine ⟨fun id known => ?_, fun id among => (named.plain id among).mono precedes, named.unique,
    fun name id found => ?_⟩
  · by_cases old : before.Knows id
    · exact (named.origin id old).mono precedes old
    · exact fresh id known old
  · rcases generics name id found with old | new
    · obtain ⟨known, same⟩ := named.generics name id old
      exact ⟨precedes.knows id known, (precedes.typeName id known).trans same⟩
    · exact new

/-- A registry stays named when one new type has a name of its own. -/
theorem Named.addOwn (named : before.Named own) (precedes : before.Precedes after) {new : TypeId}
    (unknown : ¬ before.Knows new) (plain : after.Plain new)
    (only : ∀ id, after.Knows id → ¬ before.Knows id → id = new)
    (generics : after.generics = before.generics)
    : after.Named (own ++ [new]) := by
  refine ⟨fun id known => ?_, fun id among => ?_, ?_, fun name id found => ?_⟩
  · by_cases old : before.Knows id
    · exact ((named.origin id old).mono precedes old).widen fun _ => List.mem_append_left _
    · rw [only id known old]
      exact .own (List.mem_append_right _ (.head _))
  · rcases List.mem_append.mp among with old | last
    · exact (named.plain id old).mono precedes
    · rw [List.mem_singleton.mp last]
      exact plain
  · refine List.nodup_append.mpr ⟨named.unique, List.nodup_singleton new, ?_⟩
    rintro old among last inLast rfl
    rw [List.mem_singleton.mp inLast] at among
    exact unknown (named.plain new among).known
  · rw [generics] at found
    obtain ⟨known, same⟩ := named.generics name id found
    exact ⟨precedes.knows id known, (precedes.typeName id known).trans same⟩

/-- It does not matter in which order types have names of their own. -/
theorem Named.perm {others : List TypeId} (named : registry.Named own) (perm : own.Perm others)
    : registry.Named others :=
  ⟨fun id known => (named.origin id known).widen fun _ among => perm.mem_iff.mp among,
    fun id among => named.plain id (perm.mem_iff.mpr among), perm.nodup_iff.mp named.unique,
    named.generics⟩

/-- One registry has the types of another one. -/
structure SameTypes (before after : Registry) : Prop where
  types : after.types = before.types
  generics : after.generics = before.generics
  references : after.references = before.references

theorem SameTypes.trans (first : before.SameTypes middle) (later : middle.SameTypes after)
    : before.SameTypes after :=
  ⟨later.types.trans first.types, later.generics.trans first.generics,
    later.references.trans first.references⟩

theorem SameTypes.precedes (same : before.SameTypes after) : before.Precedes after := by
  have type (id : TypeId) : after.type id = before.type id := by
    rw [Registry.type, same.types, Registry.type]
  refine ⟨fun id known => ?_, fun id _ => ?_, fun id _ => ?_, fun name id found => ?_,
    fun id reference found => ?_⟩
  · rw [Knows, same.types]
    exact known
  · rw [Registry.typeName, type, Registry.typeName]
  · rw [type]
  · rw [same.generics]
    exact found
  · rw [same.references]
    exact found

theorem Named.ofSame (named : before.Named own) (same : before.SameTypes after)
    : after.Named own := by
  refine named.grow same.precedes (fun id known unknown => ?_) fun name id found => .inl ?_
  · rw [Knows, same.types] at known
    exact absurd known unknown
  · rw [same.generics] at found
    exact found

theorem sameTypes_addBuiltin (registry : Registry) (context : ContextId) (name : String)
    (params : List TypeId) (result : TypeId) (operation : Operation)
    : registry.SameTypes (registry.addBuiltin context name params result operation).2 := by
  have same := numberParams_same registry 0 params
  refine ⟨?_, ?_, ?_⟩
  · show (registry.numberParams 0 params).2.types = _
    rw [same]
  · show (registry.numberParams 0 params).2.generics = _
    rw [same]
  · show (registry.numberParams 0 params).2.references = _
    rw [same]

/-- Provided functions leave the types as they are, by induction over their declarations. -/
theorem sameTypes_addBuiltins (registry : Registry) (context : ContextId)
    (signatures : List Signature)
    : registry.SameTypes (registry.addBuiltins context signatures) := by
  induction signatures generalizing registry with
  | nil => exact ⟨rfl, rfl, rfl⟩
  | cons first rest ih => exact (sameTypes_addBuiltin registry _ _ _ _ _).trans (ih _)

theorem Named.setMembers (named : registry.Named own) (object : TypeId) (members : List Member)
    : (registry.setMembers object members).Named own := by
  refine named.grow (precedes_setMembers registry object members) (fun id known unknown => ?_)
    fun name id found => .inl found
  exact absurd (knows_setMembers.mp known) unknown

/-- A type that becomes known when a type is added is the one that is added. -/
theorem eq_of_new {size : Nat} {id : TypeId} (known : id.index < size + 1)
    (unknown : ¬ id.index < size)
    : id = ⟨size⟩ := by
  have same : id.index = size := by omega
  exact congrArg TypeId.mk same

theorem Named.addReference (named : registry.Named own) {id : TypeId} (known : registry.Knows id)
    : (registry.addReference id).2.Named own := by
  rcases addReference_cases registry id with ⟨same, _⟩ | ⟨existing, same, _⟩ |
    ⟨value, missing, added⟩
  · rw [same]
    exact named
  · rw [same]
    exact named
  · rw [added]
    have grows := grows_withReference registry missing
    refine named.grow grows.precedes (fun other otherKnown unknown => ?_)
      fun name id found => .inl found
    have size : (registry.withReference id).types.size = registry.types.size + 1 :=
      Array.size_push ..
    rw [Knows, size] at otherKnown
    obtain rfl := eq_of_new otherKnown unknown
    have info : (registry.withReference id).type ⟨registry.types.size⟩
        = registry.referenceTo id := by
      rw [type_withReference, if_pos rfl]
    refine .reference id (grows.knows known) ?_ ?_ ?_ ?_
    · rw [info]
      rfl
    · rw [Registry.typeName, info, grows.typeName known]
      rfl
    · show List.lookup id ((id, _) :: registry.references) = _
      rw [List.lookup_cons, beq_self_eq_true]
    · rw [grows.type known]
      exact value

/-- What a known type decays to is known, since references refer to known types. -/
theorem Named.decayed_known (named : registry.Named own) {id : TypeId} (known : registry.Knows id)
    : registry.Knows (registry.decayed id) := by
  unfold decayed
  cases found : (registry.type id).referenced? with
  | none => exact known
  | some referenced =>
      have kind := TypeInfo.referenced?_eq_some found
      cases named.origin id known with
      | own among =>
          have plain := (named.plain id among).value
          rw [TypeInfo.isReference, found] at plain
          exact nomatch plain
      | reference other otherKnown otherKind =>
          rw [kind] at otherKind
          cases otherKind
          exact otherKnown
      | generic family value _ otherKind =>
          rw [kind] at otherKind
          cases family with
          | list => exact nomatch otherKind
          | external => exact nomatch otherKind

theorem Named.addInstance (named : registry.Named own) {b : BuiltinTypes} (family : GenericFamily)
    {value : TypeId} (known : registry.Knows value)
    (missing : registry.generics.lookup (registry.instanceName family value) = none)
    : (registry.addInstance b family value).Named own := by
  have grows := grows_addInstance (b := b) registry missing
  have info := @type_addInstance registry b family value ⟨registry.types.size⟩
  rw [if_pos rfl] at info
  have name : (registry.addInstance b family value).typeName ⟨registry.types.size⟩
      = registry.instanceName family value := by
    rw [Registry.typeName, info]
  have lookup (other : String)
      : (registry.addInstance b family value).generics.lookup other =
        List.lookup other ((registry.instanceName family value, ⟨registry.types.size⟩)
          :: registry.generics) := rfl
  refine named.grow grows.precedes (fun other otherKnown unknown => ?_) fun other id found => ?_
  · have size : (registry.addInstance b family value).types.size = registry.types.size + 1 :=
      Array.size_push ..
    rw [Knows, size] at otherKnown
    obtain rfl := eq_of_new otherKnown unknown
    have same := instanceName_of_precedes grows.precedes family known
    refine .generic family value (grows.knows known) ?_ ?_ ?_
    · rw [info]
    · rw [name, same]
    · rw [same, lookup, List.lookup_cons, beq_self_eq_true]
  · rw [lookup, List.lookup_cons] at found
    split at found
    · next equal =>
        cases found
        rw [eq_of_beq equal]
        exact .inr ⟨knows_addInstance b family value, name⟩
    · exact .inl found

theorem Named.addGenericFunctions (named : registry.Named own) (b : BuiltinTypes)
    (family : GenericFamily) {id value : TypeId} (known : registry.Knows id)
    (valueKnown : registry.Knows value)
    : (registry.addGenericFunctions b family id value).Named own := by
  cases family with
  | list =>
      have first := named.addReference valueKnown
      have second := first.addReference ((grows_addReference registry value).knows known)
      exact second.ofSame (sameTypes_addBuiltins _ _ _)
  | external => exact (named.addReference known).ofSame (sameTypes_addBuiltins _ _ _)

theorem Named.addGeneric (named : registry.Named own) (b : BuiltinTypes) (family : GenericFamily)
    {value : TypeId} (known : registry.Knows value)
    : (registry.addGeneric b family value).2.Named own := by
  rcases addGeneric_cases registry b family value with ⟨existing, same, _⟩ | ⟨missing, added⟩
  · rw [same]
    exact named
  · rw [added]
    have decayedKnown := named.decayed_known known
    have grows := grows_addInstance (b := b) registry missing
    exact Named.addGenericFunctions (named.addInstance family decayedKnown missing) b family
      (knows_addInstance b family _) (grows.knows decayedKnown)

theorem Named.addEnumFunctions (named : registry.Named own) (b : BuiltinTypes) {id : TypeId}
    (known : registry.Knows id)
    : (registry.addEnumFunctions b id).Named own :=
  (named.addReference known).ofSame (sameTypes_addBuiltins _ _ _)

-----------------------------------------------------------------------------------------
-- Identity
-----------------------------------------------------------------------------------------

theorem getLast?_referenceName (name : String) : (name ++ "&").toList.getLast? = some '&' := by
  simp

theorem getLast?_instanceName (registry : Registry) (family : GenericFamily) (value : TypeId)
    : (registry.instanceName family value).toList.getLast? = some '>' := by
  rw [instanceName, String.toList_append, List.getLast?_append]
  rfl

/-- Instances of one name are instances of one family for types of one name. -/
theorem instanceName_inj {family other : GenericFamily} {value otherValue : TypeId}
    (same : registry.instanceName family value = registry.instanceName other otherValue)
    : family = other ∧ registry.typeName value = registry.typeName otherValue := by
  have chars := congrArg String.toList same
  simp only [instanceName, String.toList_append] at chars
  cases family with
  | list =>
      cases other with
      | list =>
          refine ⟨rfl, String.toList_injective ?_⟩
          simpa using chars
      | external => simp [GenericFamily.text] at chars
  | external =>
      cases other with
      | list => simp [GenericFamily.text] at chars
      | external =>
          refine ⟨rfl, String.toList_injective ?_⟩
          simpa using chars

/-- Names identify types that are known. -/
def NamesIdentify (registry : Registry) : Prop :=
  ∀ a b, registry.Knows a → registry.Knows b → registry.typeName a = registry.typeName b → a = b

/-- Names identify types if those with names of their own have different ones, by induction over
the place of one of the two types.
-/
theorem Named.identify (named : registry.Named own) (closed : registry.Closed)
    (distinct : (own.map registry.typeName).Nodup)
    : registry.NamesIdentify := by
  intro a
  induction place : a.index using Nat.strongRecOn generalizing a with
  | ind place ih =>
  intro b aKnown bKnown same
  cases named.origin a aKnown with
  | own aOwn =>
      have plain := named.plain a aOwn
      cases named.origin b bKnown with
      | own bOwn => exact List.inj_on_of_nodup_map distinct aOwn bOwn same
      | reference referenced _ _ name =>
          refine absurd ?_ plain.notReference
          rw [same, name]
          exact getLast?_referenceName _
      | generic family value _ _ name =>
          refine absurd ?_ plain.notGeneric
          rw [same, name]
          exact getLast?_instanceName registry family value
  | reference referenced referencedKnown kind name found =>
      cases named.origin b bKnown with
      | own bOwn =>
          refine absurd ?_ (named.plain b bOwn).notReference
          rw [← same, name]
          exact getLast?_referenceName _
      | reference other otherKnown otherKind otherName otherFound =>
          have stem : registry.typeName referenced = registry.typeName other := by
            rw [name, otherName] at same
            have chars := congrArg String.toList same
            simp only [String.toList_append] at chars
            exact String.toList_injective (List.append_cancel_right chars)
          have before : referenced.index < a.index := by
            refine closed.kinds a referenced ?_
            rw [kind]
            rfl
          have equal := ih referenced.index (place ▸ before) referenced rfl other referencedKnown
            otherKnown stem
          rw [equal, otherFound] at found
          exact (Option.some.inj found).symm
      | generic family value _ _ otherName =>
          have ending := getLast?_referenceName (registry.typeName referenced)
          rw [← name, same, otherName, getLast?_instanceName] at ending
          exact absurd ending (by decide)
  | generic family value valueKnown kind name found =>
      cases named.origin b bKnown with
      | own bOwn =>
          refine absurd ?_ (named.plain b bOwn).notGeneric
          rw [← same, name]
          exact getLast?_instanceName registry family value
      | reference referenced _ _ otherName =>
          have ending := getLast?_referenceName (registry.typeName referenced)
          rw [← otherName, ← same, name, getLast?_instanceName] at ending
          exact absurd ending (by decide)
      | generic other otherValue otherKnown otherKind otherName otherFound =>
          rw [name, otherName] at same
          rw [same, otherFound] at found
          exact (Option.some.inj found).symm

/-- Types with names of their own have different ones if names identify types. -/
theorem Named.distinct (named : registry.Named own) (identify : registry.NamesIdentify)
    : (own.map registry.typeName).Nodup := by
  refine named.unique.map_on fun a aOwn b bOwn same => ?_
  exact identify a b (named.plain a aOwn).known (named.plain b bOwn).known same

-----------------------------------------------------------------------------------------
-- What names decide
-----------------------------------------------------------------------------------------

theorem NamesIdentify.eq_of_sameType (identify : registry.NamesIdentify) {a b : TypeId}
    (aKnown : registry.Knows a) (bKnown : registry.Knows b)
    (same : registry.sameType a b = true)
    : a = b := by
  rw [sameType, Bool.or_eq_true] at same
  rcases same with equal | named
  · exact eq_of_beq equal
  · exact identify a b aKnown bKnown (eq_of_beq named)

theorem decayed_of_isObject {id : TypeId} (object : (registry.type id).isObject = true)
    : registry.decayed id = id := by
  have kind : (registry.type id).kind = .object := eq_of_beq object
  rw [decayed, TypeInfo.referenced?, kind]
  rfl

/-- What an instance of a family under a name is made from, as seen from a registry in which names
identify types.
-/
theorem Named.generic_kind (named : registry.Named own) (identify : registry.NamesIdentify)
    {family : GenericFamily} {value id : TypeId} (valueKnown : registry.Knows value)
    (found : registry.generics.lookup (registry.instanceName family value) = some id)
    : (registry.type id).kind = family.kind value := by
  obtain ⟨known, name⟩ := named.generics _ id found
  cases named.origin id known with
  | own among =>
      refine absurd ?_ (named.plain id among).notGeneric
      rw [name]
      exact getLast?_instanceName registry family value
  | reference referenced _ _ otherName =>
      have ending := getLast?_referenceName (registry.typeName referenced)
      rw [← otherName, name, getLast?_instanceName] at ending
      exact absurd ending (by decide)
  | generic other otherValue otherKnown kind otherName =>
      rw [name] at otherName
      obtain ⟨sameFamily, stem⟩ := instanceName_inj otherName
      rw [kind, sameFamily, identify value otherValue valueKnown otherKnown stem]

/-- Asking for an instance of a family for a class gives one that is made from this very class, at
every moment before names identify types.
-/
theorem Named.addGeneric_kind {earlier : Registry} (named : registry.Named own)
    (identify : registry.NamesIdentify) (closed : earlier.Closed)
    (precedes : earlier.Precedes registry) (b : BuiltinTypes) (family : GenericFamily)
    {value : TypeId} (known : earlier.Knows value)
    (object : (earlier.type value).isObject = true)
    : ((earlier.addGeneric b family value).2.type (earlier.addGeneric b family value).1).kind
        = family.kind value := by
  have same := decayed_of_isObject object
  rcases addGeneric_cases earlier b family value with ⟨existing, given, found⟩ | ⟨missing, added⟩
  · rw [given]
    rw [same] at found
    have later := precedes.generics _ _ found
    rw [← instanceName_of_precedes precedes family known] at later
    rw [← precedes.kind existing (closed.generics _ _ found)]
    exact named.generic_kind identify (precedes.knows value known) later
  · rw [added, same]
    have grows := grows_addGenericFunctions (earlier.addInstance b family value) b family
      ⟨earlier.types.size⟩ value
    rw [grows.type (knows_addInstance b family value), type_addInstance, if_pos rfl]

/-- A value of a class fits where a class is expected only if it is the class that is expected or
one derived from it.
-/
theorem NamesIdentify.derived_of_fitness (identify : registry.NamesIdentify)
    (closed : registry.Closed) {param argument : TypeId} (paramKnown : registry.Knows param)
    (argumentKnown : registry.Knows argument)
    (expected : (registry.type (registry.decayed param)).isObject = true)
    (object : (registry.type (registry.decayed argument)).isObject = true)
    (fits : (registry.fitness? param argument).isSome = true)
    : registry.decayed param ∈ registry.lineage (registry.decayed argument) := by
  have paramDecayed := closed.decayed_known paramKnown
  have argumentDecayed := closed.decayed_known argumentKnown
  have self : registry.decayed argument ∈ registry.lineage (registry.decayed argument) :=
    List.mem_cons_self
  unfold fitness? at fits
  split at fits
  · next designated =>
      have kind : (registry.type argument).kind = .designated := eq_of_beq designated
      have plain : registry.decayed argument = argument := by
        rw [decayed, TypeInfo.referenced?, kind]
        rfl
      rw [plain, TypeInfo.isObject, kind] at object
      exact absurd object (by decide)
  · split at fits
    · next same =>
        rw [identify.eq_of_sameType paramKnown argumentKnown same]
        exact self
    · split at fits
      · next same =>
          rw [identify.eq_of_sameType paramDecayed argumentDecayed same]
          exact self
      · split at fits
        · next derived =>
            rw [isDerivedFrom, decayed_of_isObject object, decayed_of_isObject expected] at derived
            obtain ⟨ancestor, above, same⟩ := List.any_eq_true.mp derived
            have among := List.mem_of_mem_tail above
            have known := closed.lineage_known _ argumentDecayed ancestor among
            rw [← identify.eq_of_sameType known paramDecayed same]
            exact among
        · cases fits

-----------------------------------------------------------------------------------------
-- Checking
-----------------------------------------------------------------------------------------

/-- Whether a type has a name of its own or is made from a known type under that name. -/
def hasOrigin (registry : Registry) (own : List TypeId) (id : TypeId) : Bool :=
  own.contains id ||
    match (registry.type id).kind with
    | .reference referenced =>
      decide (registry.Knows referenced)
        && registry.typeName id == registry.typeName referenced ++ "&"
        && registry.references.lookup referenced == some id
        && !(registry.type referenced).isReference
    | .list value => isInstance .list value
    | .external value => isInstance .external value
    | _ => false
where
  /-- Whether it is the instance of a family for a type. -/
  isInstance (family : GenericFamily) (value : TypeId) : Bool :=
    decide (registry.Knows value) && registry.typeName id == registry.instanceName family value
      && registry.generics.lookup (registry.instanceName family value) == some id

/-- Whether a type is plain. -/
def isPlain (registry : Registry) (id : TypeId) : Bool :=
  decide (registry.Knows id) && !(registry.type id).isReference
    && (registry.typeName id).toList.getLast? != some '&'
    && (registry.typeName id).toList.getLast? != some '>'

/-- Whether a registry is named by types. -/
def isNamed (registry : Registry) (own : List TypeId) : Bool :=
  ((List.range registry.types.size).all fun index => registry.hasOrigin own ⟨index⟩)
    && own.all registry.isPlain && decide own.Nodup
    && registry.generics.all fun entry =>
      decide (registry.Knows entry.2) && registry.typeName entry.2 == entry.1

theorem origin_of_hasOrigin {id : TypeId} (checked : registry.hasOrigin own id = true)
    : registry.Origin own id := by
  have made (family : GenericFamily) (value : TypeId)
      (kind : (registry.type id).kind = family.kind value)
      (checked : hasOrigin.isInstance registry id family value = true)
      : registry.Origin own id := by
    simp only [hasOrigin.isInstance, Bool.and_eq_true, decide_eq_true_eq, beq_iff_eq] at checked
    exact .generic family value checked.1.1 kind checked.1.2 checked.2
  rw [hasOrigin, Bool.or_eq_true] at checked
  rcases checked with among | checked
  · exact .own (List.contains_iff_mem.mp among)
  · split at checked
    · next referenced kind =>
        simp only [Bool.and_eq_true, decide_eq_true_eq, beq_iff_eq, Bool.not_eq_true'] at checked
        exact .reference referenced checked.1.1.1 kind checked.1.1.2 checked.1.2 checked.2
    · next value kind => exact made .list value kind checked
    · next value kind => exact made .external value kind checked
    · exact nomatch checked

/-- The check is right. -/
theorem named_of_isNamed (checked : registry.isNamed own = true) : registry.Named own := by
  simp only [isNamed, Bool.and_eq_true, List.all_eq_true, decide_eq_true_eq, List.mem_range,
    beq_iff_eq] at checked
  obtain ⟨⟨⟨origins, plain⟩, unique⟩, generics⟩ := checked
  refine ⟨fun id known => origin_of_hasOrigin (origins id.index known), fun id among => ?_, unique,
    fun name id found => generics _ (mem_of_lookup found)⟩
  have checked := plain id among
  simp only [isPlain, Bool.and_eq_true, decide_eq_true_eq, Bool.not_eq_true', bne_iff_ne] at checked
  exact ⟨checked.1.1.1, checked.1.1.2, checked.1.2, checked.2⟩

end Registry

end BuildScript
