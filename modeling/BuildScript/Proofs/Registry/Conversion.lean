import BuildScript.Proofs.Registry.Names
import BuildScript.Typed.Cast

/-! What casts convert. A value that fits a place is put there as it is, or it is converted by a
cast of a kind that depends on both types. What fits still does when the registry has gone on.
-/

namespace BuildScript.Registry

variable {registry before middle after : Registry} {b : BuiltinTypes} {target source : TypeId}

-----------------------------------------------------------------------------------------
-- Conversions
-----------------------------------------------------------------------------------------

/-- A type is strictly derived from another one when it is derived from it and not the same. -/
def StrictlyDerived (registry : Registry) (derived base : TypeId) : Prop :=
  registry.isDerivedFrom derived base = true ∧ registry.sameType derived base = false

/-- (Converts registry kind target source) says that a cast of a kind to one type makes sense for a
value of the other. Between a value and a reference both are of one type, and a cast to a base is
one of a strictly derived type. The kind tells whether the outcome is a reference.
-/
def Converts (registry : Registry) : CastKind → TypeId → TypeId → Prop
  | .reference, target, source =>
    registry.sameType (registry.decayed target) (registry.decayed source) = true
      ∧ (registry.type target).isReference = true ∧ (registry.type source).isReference = false
  | .value, target, source =>
    registry.sameType (registry.decayed target) (registry.decayed source) = true
      ∧ (registry.type target).isReference = false ∧ (registry.type source).isReference = true
  | .baseReference, target, source =>
    registry.StrictlyDerived (registry.decayed source) (registry.decayed target)
      ∧ (registry.type target).isReference = true
  | .baseValue, target, source =>
    registry.StrictlyDerived (registry.decayed source) (registry.decayed target)
      ∧ (registry.type target).isReference = false

/-- References are regular when they are named after the types that they refer to, and when neither
one of these nor the type of conditions is a reference.
-/
structure Regular (registry : Registry) (b : BuiltinTypes) : Prop where
  name : ∀ {id referenced}, (registry.type id).kind = .reference referenced →
    registry.typeName id = registry.typeName referenced ++ "&"
  value : ∀ {id referenced}, (registry.type id).kind = .reference referenced →
    (registry.type referenced).isReference = false
  bool : (registry.type b.bool).isReference = false

/-- The references of a registry that is named by types are regular. -/
theorem Named.regular {own : List TypeId} (named : registry.Named own) (bool : b.bool ∈ own)
    : registry.Regular b := by
  have origin {id referenced : TypeId} (kind : (registry.type id).kind = .reference referenced)
      : registry.typeName id = registry.typeName referenced ++ "&"
        ∧ (registry.type referenced).isReference = false := by
    have known : registry.Knows id := by
      by_contra unknown
      rw [type_unknown unknown] at kind
      cases kind
    cases named.origin id known with
    | own among =>
        have plain := (named.plain id among).value
        rw [TypeInfo.isReference, TypeInfo.referenced?, kind] at plain
        cases plain
    | reference other otherKnown otherKind name found value =>
        rw [kind] at otherKind
        cases otherKind
        exact ⟨name, value⟩
    | generic family value valueKnown otherKind name found =>
        rw [kind] at otherKind
        cases family <;> cases otherKind
  exact ⟨fun kind => (origin kind).1, fun kind => (origin kind).2, (named.plain _ bool).value⟩

theorem sameType_iff {first second : TypeId}
    : registry.sameType first second = true ↔
        registry.typeName first = registry.typeName second := by
  rw [sameType, Bool.or_eq_true, beq_iff_eq, beq_iff_eq, or_iff_right_iff_imp]
  exact congrArg registry.typeName

theorem sameType_comm (first second : TypeId)
    : registry.sameType first second = registry.sameType second first := by
  rw [Bool.eq_iff_iff, sameType_iff, sameType_iff]
  exact eq_comm

/-- What is no reference decays to itself. -/
theorem decayed_of_value {id : TypeId} (value : (registry.type id).isReference = false)
    : registry.decayed id = id := by
  rw [decayed, Option.not_isSome_iff_eq_none.mp (Bool.eq_false_iff.mp value)]
  rfl

namespace Regular

/-- What a type decays to is no reference. -/
theorem decayed_value (regular : registry.Regular b) (id : TypeId)
    : (registry.type (registry.decayed id)).isReference = false := by
  cases found : (registry.type id).referenced? with
  | none =>
      have value : (registry.type id).isReference = false := by
        rw [TypeInfo.isReference, found]
        rfl
      rw [decayed_of_value value]
      exact value
  | some referenced =>
      rw [decayed, found]
      exact regular.value (TypeInfo.referenced?_eq_some found)

/-- References to one type are the same. -/
theorem sameType_of_references (regular : registry.Regular b) {first second : TypeId}
    (firstReference : (registry.type first).isReference = true)
    (secondReference : (registry.type second).isReference = true)
    (same : registry.sameType (registry.decayed first) (registry.decayed second) = true)
    : registry.sameType first second = true := by
  have named {id : TypeId} (reference : (registry.type id).isReference = true)
      : registry.typeName id = registry.typeName (registry.decayed id) ++ "&" := by
    obtain ⟨referenced, found⟩ := Option.isSome_iff_exists.mp reference
    rw [regular.name (TypeInfo.referenced?_eq_some found), decayed, found]
    rfl
  rw [sameType_iff, named firstReference, named secondReference, sameType_iff.mp same]

/-- A cast of the kind that depends on two types makes sense between them, if a value of the one
fits the other and is of another type.
-/
theorem converts (regular : registry.Regular b)
    (undesignated : (registry.type source).isDesignated = false)
    (differs : registry.sameType target source = false)
    (fits : (registry.fitness? target source).isSome = true)
    : registry.Converts (registry.castKind target source) target source := by
  unfold castKind
  by_cases same : registry.sameType (registry.decayed target) (registry.decayed source) = true
  · rw [if_pos same]
    -- If both were references or both were values, they would be the same.
    cases targetReference : (registry.type target).isReference with
    | true =>
        refine ⟨same, targetReference, ?_⟩
        cases sourceReference : (registry.type source).isReference with
        | false => rfl
        | true =>
            rw [regular.sameType_of_references targetReference sourceReference same] at differs
            cases differs
    | false =>
        refine ⟨same, targetReference, ?_⟩
        cases sourceReference : (registry.type source).isReference with
        | true => rfl
        | false =>
            rw [decayed_of_value targetReference, decayed_of_value sourceReference, differs] at same
            cases same
  · have derived : registry.StrictlyDerived (registry.decayed source)
        (registry.decayed target) := by
      rw [Bool.not_eq_true] at same
      simp only [fitness?, undesignated, differs, same, Bool.false_eq_true, if_false] at fits
      refine ⟨?_, (sameType_comm _ _).trans same⟩
      split at fits
      · assumption
      · cases fits
    rw [if_neg same]
    cases targetReference : (registry.type target).isReference with
    | true => exact ⟨derived, targetReference⟩
    | false => exact ⟨derived, targetReference⟩

end Regular

-----------------------------------------------------------------------------------------
-- Registries that go on
-----------------------------------------------------------------------------------------

/-- One registry retains what another one says of types when it precedes it and known types are
derived from the same types as before. Only members may be added. Known functions have as many
parameters as before.
-/
structure Retains (before after : Registry) : Prop extends before.Precedes after where
  base : ∀ id, before.Knows id → (after.type id).base? = (before.type id).base?
  arity : ∀ {id count}, before.HasArity id count → after.HasArity id count

theorem Grows.retains (grows : before.Grows after) : before.Retains after := by
  refine ⟨grows.precedes, fun id known => ?_, fun arity => arity.mono grows⟩
  rw [grows.type known]

theorem retains_setMembers (registry : Registry) (object : TypeId) (members : List Member)
    : registry.Retains (registry.setMembers object members) := by
  refine ⟨precedes_setMembers registry object members, fun id _ => ?_, fun arity => ?_⟩
  · rw [type_setMembers]
    split
    · rfl
    · rfl
  · exact ⟨arity.known, arity.params⟩

namespace Retains

theorem refl (registry : Registry) : registry.Retains registry := (Grows.refl registry).retains

theorem trans (first : before.Retains middle) (later : middle.Retains after)
    : before.Retains after := by
  refine ⟨first.toPrecedes.trans later.toPrecedes, fun id known => ?_,
    fun arity => later.arity (first.arity arity)⟩
  rw [later.base id (first.knows id known), first.base id known]

theorem isReference (retains : before.Retains after) {id : TypeId} (known : before.Knows id)
    : (after.type id).isReference = (before.type id).isReference :=
  isReference_eq (retains.kind id known)

theorem isDesignated (retains : before.Retains after) {id : TypeId} (known : before.Knows id)
    : (after.type id).isDesignated = (before.type id).isDesignated := by
  rw [TypeInfo.isDesignated, retains.kind id known]
  rfl

theorem decayed (retains : before.Retains after) {id : TypeId} (known : before.Knows id)
    : after.decayed id = before.decayed id := by
  rw [Registry.decayed, TypeInfo.referenced?, retains.kind id known]
  rfl

theorem sameType (retains : before.Retains after) {first second : TypeId}
    (firstKnown : before.Knows first) (secondKnown : before.Knows second)
    : after.sameType first second = before.sameType first second := by
  rw [Registry.sameType, retains.typeName first firstKnown, retains.typeName second secondKnown]
  rfl

/-- A known type has the same ancestors as before, by induction over the number of steps. -/
theorem lineageWithin (retains : before.Retains after) (closed : before.Closed) (bound : Nat)
    {id : TypeId} (known : before.Knows id)
    : after.lineageWithin bound id = before.lineageWithin bound id := by
  induction bound generalizing id with
  | zero => rfl
  | succ bound ih =>
      rw [Registry.lineageWithin, Registry.lineageWithin, retains.base id known]
      split
      · rfl
      · next base derived => rw [ih (closed.base_known derived)]

theorem isDerivedFrom (retains : before.Retains after) (closed : before.Closed)
    {derived base : TypeId} (derivedKnown : before.Knows derived) (baseKnown : before.Knows base)
    : after.isDerivedFrom derived base = before.isDerivedFrom derived base := by
  have known := closed.decayed_known derivedKnown
  rw [Registry.isDerivedFrom, Registry.isDerivedFrom, lineage, lineage,
    retains.decayed derivedKnown,
    retains.decayed baseKnown, retains.lineageWithin closed _ known, Bool.eq_iff_iff,
    List.any_eq_true, List.any_eq_true]
  refine exists_congr fun ancestor => and_congr_right fun above => ?_
  rw [retains.sameType (closed.lineage_known _ known ancestor (List.mem_of_mem_tail above))
    (closed.decayed_known baseKnown)]

theorem fitness? (retains : before.Retains after) (closed : before.Closed)
    (targetKnown : before.Knows target) (sourceKnown : before.Knows source)
    : after.fitness? target source = before.fitness? target source := by
  have targetDecayed := closed.decayed_known targetKnown
  have sourceDecayed := closed.decayed_known sourceKnown
  have object : (after.type (before.decayed target)).isObject =
      (before.type (before.decayed target)).isObject := by
    rw [TypeInfo.isObject, retains.kind _ targetDecayed]
    rfl
  rw [Registry.fitness?, retains.isDesignated sourceKnown, retains.decayed targetKnown,
    retains.decayed sourceKnown, object, retains.sameType targetKnown sourceKnown,
    retains.sameType targetDecayed sourceDecayed,
    retains.isDerivedFrom closed sourceDecayed targetDecayed]
  rfl

theorem castKind (retains : before.Retains after) (closed : before.Closed)
    (targetKnown : before.Knows target) (sourceKnown : before.Knows source)
    : after.castKind target source = before.castKind target source := by
  rw [Registry.castKind, retains.isReference targetKnown, retains.decayed targetKnown,
    retains.decayed sourceKnown,
    retains.sameType (closed.decayed_known targetKnown) (closed.decayed_known sourceKnown)]
  rfl

end Retains

-----------------------------------------------------------------------------------------
-- Fitting
-----------------------------------------------------------------------------------------

/-- A value of one type fits another one from a registry on when it does, or is a list of
initialisers, wherever the registry has gone on to one with regular references.
-/
def Fits (b : BuiltinTypes) (registry : Registry) (target source : TypeId) : Prop :=
  ∀ later : Registry, registry.Retains later → later.Regular b →
    (later.type source).isDesignated = true ∨ (later.fitness? target source).isSome = true

theorem Fits.mono (fits : before.Fits b target source) (retains : before.Retains after)
    : after.Fits b target source :=
  fun later growth => fits later (retains.trans growth)

/-- What was seen to fit does so from there on. -/
theorem fits_of_fitness (closed : registry.Closed) (targetKnown : registry.Knows target)
    (sourceKnown : registry.Knows source) (fits : (registry.fitness? target source).isSome = true)
    : registry.Fits b target source := by
  intro later retains _
  rw [retains.fitness? closed targetKnown sourceKnown]
  exact .inr fits

/-- What decays to a type fits it, if this is no reference. -/
theorem fits_of_value
    (value : ∀ later : Registry, registry.Retains later → later.Regular b →
      (later.type target).isReference = false)
    (closed : registry.Closed) (targetKnown : registry.Knows target)
    (sourceKnown : registry.Knows source)
    (same : registry.sameType target (registry.decayed source) = true)
    : registry.Fits b target source := by
  intro later retains regular
  cases designated : (later.type source).isDesignated with
  | true => exact .inl rfl
  | false =>
      rw [← retains.sameType targetKnown (closed.decayed_known sourceKnown),
        ← retains.decayed sourceKnown] at same
      rw [fitness?, designated, decayed_of_value (value later retains regular), same,
        if_neg Bool.false_ne_true, if_pos rfl]
      right
      split
      · rfl
      · rfl

theorem fits_decayed (closed : registry.Closed) {other : TypeId} (known : registry.Knows other)
    (sourceKnown : registry.Knows source)
    (same : registry.sameType (registry.decayed other) (registry.decayed source) = true)
    : registry.Fits b (registry.decayed other) source := by
  refine fits_of_value (fun later retains regular => ?_) closed (closed.decayed_known known)
    sourceKnown same
  rw [← retains.decayed known]
  exact regular.decayed_value other

theorem fits_bool (closed : registry.Closed) (provides : registry.Provides b)
    (sourceKnown : registry.Knows source)
    (same : registry.sameType (registry.decayed source) b.bool = true)
    : registry.Fits b b.bool source :=
  fits_of_value (fun _ _ regular => regular.bool) closed provides.bool sourceKnown
    ((sameType_comm _ _).trans same)

/-- Values of several types fit parameters one by one. -/
def FitsAll (b : BuiltinTypes) (registry : Registry) (params : List Param)
    (types : List TypeId)
    : Prop :=
  List.Forall₂ (fun param type => registry.Fits b param.type type) params types

theorem FitsAll.mono {params : List Param} {types : List TypeId}
    (fits : before.FitsAll b params types) (retains : before.Retains after)
    : after.FitsAll b params types :=
  List.Forall₂.imp (fun _ _ own => own.mono retains) fits

/-- Arguments that a function takes fit its parameters, by induction over the parameters. -/
theorem fitsAll_of_totalFitness (closed : registry.Closed) {params : List Param}
    {types : List TypeId} (paramsKnown : ∀ param ∈ params, registry.Knows param.type)
    (known : ∀ type ∈ types, registry.Knows type)
    (fits : (registry.totalFitness? params types).isSome = true)
    : registry.FitsAll b params types := by
  induction params generalizing types with
  | nil =>
      cases types with
      | nil => exact .nil
      | cons type types => cases fits
  | cons param params ih =>
      cases types with
      | nil => cases fits
      | cons type types =>
          rw [totalFitness?] at fits
          obtain ⟨total, found⟩ := Option.isSome_iff_exists.mp fits
          obtain ⟨own, first, rest⟩ := Option.bind_eq_some_iff.mp found
          obtain ⟨others, restFits, _⟩ := Option.map_eq_some_iff.mp rest
          refine .cons ?_ (ih (fun param among => paramsKnown param (.tail _ among))
            (fun type among => known type (.tail _ among)) (restFits ▸ rfl))
          exact fits_of_fitness closed (paramsKnown param (.head _)) (known type (.head _))
            (first ▸ rfl)

end BuildScript.Registry
