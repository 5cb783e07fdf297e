import BuildScript.Proofs.Registry.Closed
import BuildScript.Proofs.Typed.Parts
import BuildScript.Proofs.Typed.Designation
import BuildScript.Scope.Symbols
import Mathlib.Data.List.Nodup

/-! The numbers of identifiers. A registry gives every number out once, and keeps those of
parameters, members and the variables of functions. What becomes of numbers is counted, so that
one that was given out is in one place at most, in a declaration that is being checked or in the
registry.
-/

namespace BuildScript

-----------------------------------------------------------------------------------------
-- Counting
-----------------------------------------------------------------------------------------

/-- The number that is given out next, and all numbers that are kept. -/
structure Numbering where
  next : Nat
  kept : List Nat

namespace Numbering

/-- (Allots taken made before after) says that numbers which are in hand or kept in the end were in
hand or kept before, or were given out in between, each of them once.
-/
structure Allots (taken made : List Nat) (before after : Numbering) : Prop where
  next : before.next ≤ after.next
  counted : ∀ number, made.count number + after.kept.count number ≤
    taken.count number + before.kept.count number
      + if before.next ≤ number ∧ number < after.next then 1 else 0

namespace Allots

variable {before middle after : Numbering} {taken carried made more : List Nat}

/-- Numbers may go from those in hand to those that are kept. -/
theorem ofKept (next : after.next = before.next)
    (kept : ∀ number, made.count number + after.kept.count number ≤
      taken.count number + before.kept.count number)
    : Allots taken made before after :=
  ⟨Nat.le_of_eq next.symm, fun number => Nat.le_add_right_of_le (kept number)⟩

theorem refl (numbering : Numbering) : Allots taken taken numbering numbering :=
  ofKept rfl fun _ => Nat.le_refl _

theorem trans (start : Allots taken carried before middle) (rest : Allots carried made middle after)
    : Allots taken made before after := by
  refine ⟨Nat.le_trans start.next rest.next, fun number => ?_⟩
  have counted := start.counted number
  have countedRest := rest.counted number
  have grows := start.next
  have growsRest := rest.next
  -- The spans in which numbers are given out follow each other.
  split at counted <;> split at countedRest <;> split <;> omega

/-- More numbers may be in hand all the time. -/
theorem frame (allots : Allots taken made before after) (more : List Nat)
    : Allots (taken ++ more) (made ++ more) before after := by
  refine ⟨allots.next, fun number => ?_⟩
  have counted := allots.counted number
  rw [List.count_append, List.count_append]
  omega

/-- Fewer numbers may be in hand than were made. -/
theorem fewer (allots : Allots taken made before after)
    (among : ∀ number, more.count number ≤ made.count number)
    : Allots taken more before after :=
  allots.trans (ofKept rfl fun number => Nat.add_le_add_right (among number) _)

/-- More numbers may be kept all the time. -/
theorem beside (allots : Allots taken made before after) (more : List Nat)
    : Allots taken made ⟨before.next, before.kept ++ more⟩ ⟨after.next, after.kept ++ more⟩ := by
  refine ⟨allots.next, fun number => ?_⟩
  have counted := allots.counted number
  dsimp only
  rw [List.count_append, List.count_append]
  omega

/-- No number is in two places where that was so before and where those that were kept had been
given out.
-/
theorem nodup (allots : Allots [] made before after) (distinct : before.kept.Nodup)
    (given : ∀ number ∈ before.kept, number < before.next)
    : (made ++ after.kept).Nodup := by
  refine List.nodup_iff_count_le_one.mpr fun number => ?_
  have counted := allots.counted number
  have once := List.nodup_iff_count_le_one.mp distinct number
  rw [List.count_append]
  rw [List.count_nil] at counted
  split at counted
  · next new =>
      have absent : before.kept.count number = 0 :=
        List.count_eq_zero.mpr fun kept => Nat.not_lt.mpr new.1 (given number kept)
      omega
  · omega

end Allots

end Numbering

/-- Changing one element adds no more to what is gathered from all than to what is gathered from
it, by induction over the elements.
-/
theorem count_flatMap_modify_le {α : Type} (gather : α → List Nat) (change : α → α)
    (more : List Nat) (number : Nat)
    (changes : ∀ element, (gather (change element)).count number ≤
      (gather element).count number + more.count number)
    (elements : List α) (place : Nat)
    : ((elements.modify place change).flatMap gather).count number ≤
        (elements.flatMap gather).count number + more.count number := by
  induction elements generalizing place with
  | nil => simp
  | cons first rest ih =>
      cases place with
      | zero =>
          have changed := changes first
          simp only [List.modify_zero_cons, List.flatMap_cons, List.count_append]
          omega
      | succ place =>
          have later := ih place
          simp only [List.modify_succ_cons, List.flatMap_cons, List.count_append]
          omega

-----------------------------------------------------------------------------------------
-- Registries
-----------------------------------------------------------------------------------------

/-- The numbers of the parameters of a function and of the variables in its body. -/
def FunctionInfo.numbers (info : FunctionInfo) : List Nat :=
  info.params.map (·.index) ++ info.body.declared

/-- The numbers of the members of a type. -/
def TypeInfo.numbers (info : TypeInfo) : List Nat := info.members.map (·.index)

namespace Registry

/-- The numbers that a registry keeps: those of functions, then those of members. -/
def numbers (registry : Registry) : List Nat :=
  registry.functions.toList.flatMap FunctionInfo.numbers
    ++ registry.types.toList.flatMap TypeInfo.numbers

/-- The numbers of a registry, with the next one. -/
def numbering (registry : Registry) : Numbering := ⟨registry.nextIndex, registry.numbers⟩

/-- (MembersAmong allowed registry) says that the members of all types have allowed numbers. -/
def MembersAmong (allowed : Nat → Prop) (registry : Registry) : Prop :=
  ∀ id, ∀ member ∈ (registry.type id).members, allowed member.index

/-- (SetsOnly allowed registry) says that the bodies of all functions set members of allowed
numbers only.
-/
def SetsOnly (allowed : Nat → Prop) (registry : Registry) : Prop :=
  ∀ id, (registry.function id).body.SetsOnly allowed

/-- Known types stay known and keep their members. -/
def KeepsMembers (before after : Registry) : Prop :=
  ∀ id, before.Knows id → after.Knows id ∧ (after.type id).members = (before.type id).members

/-- (Allots taken made before after) says that the numbers in hand were made on the way from one
registry to another one, that types keep their members, and that functions set no others than
before.
-/
structure Allots (taken made : List Nat) (before after : Registry) : Prop where
  numbers : before.numbering.Allots taken made after.numbering
  members : before.KeepsMembers after
  sets : ∀ allowed, before.SetsOnly allowed → after.SetsOnly allowed

theorem KeepsMembers.trans {before middle after : Registry} (first : before.KeepsMembers middle)
    (later : middle.KeepsMembers after)
    : before.KeepsMembers after := by
  intro id known
  obtain ⟨known, same⟩ := first id known
  obtain ⟨known, sameLater⟩ := later id known
  exact ⟨known, sameLater.trans same⟩

theorem Grows.keepsMembers {before after : Registry} (grows : before.Grows after)
    : before.KeepsMembers after :=
  fun _ known => ⟨grows.knows known, congrArg TypeInfo.members (grows.type known)⟩

/-- The members that there were are among those that there are. -/
theorem KeepsMembers.membersAmong {before after : Registry} (keeps : before.KeepsMembers after)
    {allowed : Nat → Prop} (among : after.MembersAmong allowed)
    : before.MembersAmong allowed := by
  intro id member inType
  by_cases known : before.Knows id
  · rw [← (keeps id known).2] at inType
    exact among id member inType
  · rw [type_unknown known] at inType
    cases inType

namespace Allots

variable {before middle after : Registry} {taken carried made : List Nat}

theorem refl (registry : Registry) : Allots taken taken registry registry :=
  ⟨.refl _, fun _ known => ⟨known, rfl⟩, fun _ sets => sets⟩

theorem trans (start : Allots taken carried before middle) (rest : Allots carried made middle after)
    : Allots taken made before after :=
  ⟨start.numbers.trans rest.numbers, start.members.trans rest.members,
    fun allowed sets => rest.sets allowed (start.sets allowed sets)⟩

/-- More numbers may be in hand all the time. -/
theorem frame (allots : Allots taken made before after) (more : List Nat)
    : Allots (taken ++ more) (made ++ more) before after :=
  ⟨allots.numbers.frame more, allots.members, allots.sets⟩

/-- Whatever numbers are in hand, they may stay there. -/
theorem around (allots : Allots [] [] before after) : Allots taken taken before after :=
  allots.frame taken

end Allots

-----------------------------------------------------------------------------------------
-- Steps
-----------------------------------------------------------------------------------------

variable (registry : Registry)

/-- A new number is in hand. -/
theorem allots_generateIndex
    : registry.Allots [] [registry.nextIndex] registry.generateIndex.2 := by
  refine ⟨⟨Nat.le_succ _, fun number => ?_⟩, fun _ known => ⟨known, rfl⟩, fun _ sets => sets⟩
  show _ + registry.numbers.count number ≤ 0 + registry.numbers.count number +
    if registry.nextIndex ≤ number ∧ number < registry.nextIndex + 1 then 1 else 0
  rw [List.count_singleton]
  by_cases new : registry.nextIndex = number
  · subst new
    simp
    omega
  · rw [beq_eq_false_iff_ne.mpr new]
    simp

theorem allots_addContext (kind : ContextKind) (name : String) (parent? : Option ContextId)
    : registry.Allots [] [] (registry.addContext kind name parent?).2 :=
  ⟨.refl _, fun _ known => ⟨known, rfl⟩, fun _ sets => sets⟩

/-- A type that has no members yet makes no numbers. -/
theorem allots_addType (info : TypeInfo) (empty : info.members = [])
    : registry.Allots [] [] (registry.addType info).2 := by
  refine ⟨.ofKept rfl fun number => ?_, (registry.grows_addType info).keepsMembers,
    fun _ sets => sets⟩
  have none : info.numbers = [] := by
    rw [TypeInfo.numbers, empty]
    rfl
  simp [numbering, numbers, addType, none]

/-- A function is added with the numbers of its parameters, if it sets nothing yet. -/
theorem allots_addFunction (info : FunctionInfo) (declares : info.body.declared = [])
    (sets : ∀ allowed, info.body.SetsOnly allowed)
    : registry.Allots (info.params.map (·.index)) [] (registry.addFunction info).2 := by
  refine ⟨.ofKept rfl fun number => ?_, (registry.grows_addFunction info).keepsMembers,
    fun allowed given id => ?_⟩
  · have own : info.numbers = info.params.map (·.index) := by
      rw [FunctionInfo.numbers, declares, List.append_nil]
    simp only [numbering, numbers, addFunction, Array.toList_push, List.flatMap_append,
      List.flatMap_cons, List.flatMap_nil, List.append_nil, List.count_append, List.count_nil, own]
    omega
  · rw [function_addFunction]
    split
    · exact sets allowed
    · exact given id

/-- Numbering the parameters of a provided function makes their numbers, by induction over them. -/
theorem allots_numberParams (count : Nat) (types : List TypeId)
    : registry.Allots [] ((registry.numberParams count types).1.map (·.index))
        (registry.numberParams count types).2 := by
  induction types generalizing count registry with
  | nil => exact .refl registry
  | cons type rest ih =>
      have later := (ih registry.generateIndex.2 (count + 1)).frame [registry.nextIndex]
      have whole := registry.allots_generateIndex.trans later
      refine ⟨whole.numbers.fewer fun number => ?_, whole.members, whole.sets⟩
      simp only [numberParams, generateIndex, List.map_cons, List.count_append, List.count_cons,
        List.count_nil]
      omega

theorem allots_addBuiltin (context : ContextId) (name : String) (params : List TypeId)
    (result : TypeId) (operation : Operation)
    : registry.Allots [] [] (registry.addBuiltin context name params result operation).2 :=
  (registry.allots_numberParams 0 params).trans
    (allots_addFunction _ ⟨name, (registry.numberParams 0 params).1, Span.unknown, some result,
      context, .builtin operation⟩ rfl fun _ => trivial)

/-- Adding provided functions leaves no numbers in hand, by induction over their declarations. -/
theorem allots_addBuiltins (context : ContextId) (signatures : List Signature)
    : registry.Allots [] [] (registry.addBuiltins context signatures) := by
  induction signatures generalizing registry with
  | nil => exact .refl registry
  | cons first rest ih => exact (registry.allots_addBuiltin _ _ _ _ _).trans (ih _)

theorem allots_addReference (id : TypeId) : registry.Allots [] [] (registry.addReference id).2 := by
  rcases addReference_cases registry id with ⟨same, _⟩ | ⟨existing, same, _⟩ | ⟨_, missing, added⟩
  · rw [same]
    exact .refl registry
  · rw [same]
    exact .refl registry
  · rw [added]
    refine ⟨.ofKept rfl fun number => ?_, (grows_withReference registry missing).keepsMembers,
      fun _ sets => sets⟩
    simp [numbering, numbers, withReference, referenceTo, TypeInfo.numbers]

theorem allots_addGenericFunctions (b : BuiltinTypes) (family : GenericFamily)
    (id value : TypeId)
    : registry.Allots [] [] (registry.addGenericFunctions b family id value) := by
  cases family with
  | list =>
      exact ((registry.allots_addReference value).trans (allots_addReference _ id)).trans
        (allots_addBuiltins _ _ _)
  | external => exact (registry.allots_addReference id).trans (allots_addBuiltins _ _ _)

theorem allots_addInstance (b : BuiltinTypes) (family : GenericFamily) (value : TypeId)
    : registry.Allots [] [] (registry.addInstance b family value) := by
  have opened := registry.allots_addContext .classContext (registry.instanceName family value)
    (some b.globalContext)
  have typed := opened.trans (allots_addType _ ⟨registry.instanceName family value, family.text,
    family.kind value, ⟨registry.contexts.size⟩, [], none, true, Span.unknown⟩ rfl)
  exact ⟨typed.numbers, typed.members, typed.sets⟩

theorem allots_addGeneric (b : BuiltinTypes) (family : GenericFamily) (value : TypeId)
    : registry.Allots [] [] (registry.addGeneric b family value).2 := by
  rcases addGeneric_cases registry b family value with ⟨existing, same, _⟩ | ⟨missing, added⟩
  · rw [same]
    exact .refl registry
  · rw [added]
    exact (registry.allots_addInstance b family _).trans
      (allots_addGenericFunctions _ b family _ _)

theorem allots_addEnumFunctions (b : BuiltinTypes) (id : TypeId)
    : registry.Allots [] [] (registry.addEnumFunctions b id) :=
  (registry.allots_addReference id).trans (allots_addBuiltins _ _ _)

theorem allots_addComponent (b : BuiltinTypes) (component : Component)
    : registry.Allots [] [] (registry.addComponent b component).2 :=
  allots_addFunction registry ⟨componentFunctionName, [], component.span,
    some (componentType b component.kind), b.globalContext, .component component⟩ rfl
    fun _ => trivial

/-- The numbers of enumerators are never in hand, by induction over the enumerators. -/
theorem allots_registerEnumerators (type : TypeId) (exported : Bool) (value : Nat)
    (enums : ScopeTable EnumeratorSymbol) (names : List String)
    : registry.Allots [] []
        (Symbols.registerEnumerators type exported value registry enums names).1 := by
  induction names generalizing registry value enums with
  | nil => exact .refl registry
  | cons name rest ih =>
      have numbered := registry.allots_generateIndex
      have dropped : registry.Allots [] [] registry.generateIndex.2 :=
        ⟨numbered.numbers.fewer fun _ => Nat.zero_le _, numbered.members, numbered.sets⟩
      exact dropped.trans (ih _ _ _)

/-- A function may be changed apart from its parameters and its body. -/
theorem allots_modifyFunction (id : FunctionId) {change : FunctionInfo → FunctionInfo}
    (params : ∀ info, (change info).params = info.params)
    (body : ∀ info, (change info).body = info.body)
    : registry.Allots [] [] (registry.modifyFunction id change) := by
  have kept (info : FunctionInfo) : (change info).numbers = info.numbers := by
    rw [FunctionInfo.numbers, params, body, FunctionInfo.numbers]
  refine ⟨.ofKept rfl fun number => ?_, fun _ known => ⟨known, rfl⟩, fun allowed sets other => ?_⟩
  · have changed := count_flatMap_modify_le FunctionInfo.numbers change [] number
      (fun info => Nat.le_of_eq (by rw [kept]; rfl)) registry.functions.toList id.index
    simp only [numbering, numbers, modifyFunction, Array.toList_modify, List.count_append]
    simpa using changed
  · rw [function_modifyFunction]
    split
    · rw [body]
      exact sets other
    · exact sets other

/-- The numbers of a body are kept with its function. -/
theorem numbers_setBody (id : FunctionId) (body : TypedBlock)
    : registry.numbering.Allots body.declared []
        (registry.modifyFunction id fun info => { info with body := .script (some body) }).numbering
      := by
  refine .ofKept rfl fun number => ?_
  have changed := count_flatMap_modify_le FunctionInfo.numbers
    (fun info => { info with body := .script (some body) }) body.declared number
    (fun info => by
      simp only [FunctionInfo.numbers, FunctionBody.declared, List.count_append]
      omega)
    registry.functions.toList id.index
  simp only [numbering, numbers, modifyFunction, Array.toList_modify, List.count_append,
    List.count_nil]
  omega

theorem setsOnly_setBody {allowed : Nat → Prop} (given : registry.SetsOnly allowed)
    (id : FunctionId) {body : TypedBlock} (sets : body.SetsOnly allowed)
    : Registry.SetsOnly allowed
        (registry.modifyFunction id fun info => { info with body := .script (some body) }) := by
  intro other
  rw [function_modifyFunction]
  split
  · exact sets
  · exact given other

/-- The numbers of members are kept with their type. -/
theorem numbers_setMembers (id : TypeId) (members : List Member)
    : registry.numbering.Allots (members.map (·.index)) []
        (registry.setMembers id members).numbering := by
  refine .ofKept rfl fun number => ?_
  have changed := count_flatMap_modify_le TypeInfo.numbers (fun info => { info with members })
    (members.map (·.index)) number (fun info => Nat.le_add_left _ _) registry.types.toList id.index
  simp only [numbering, numbers, setMembers, Array.toList_modify, List.count_append,
    List.count_nil]
  omega

/-- A type that is not known to an earlier registry may get members. -/
theorem KeepsMembers.setMembers {earlier : Registry} (keeps : earlier.KeepsMembers registry)
    {id : TypeId} (new : ¬ earlier.Knows id) (members : List Member)
    : earlier.KeepsMembers (registry.setMembers id members) := by
  intro other known
  obtain ⟨knownStill, same⟩ := keeps other known
  have apart : ¬ (id = other ∧ registry.Knows other) := fun both => new (both.1 ▸ known)
  rw [type_setMembers, if_neg apart]
  refine ⟨?_, same⟩
  show other.index < (registry.types.modify id.index _).size
  rw [Array.size_modify]
  exact knownStill

/-- A type that has no members yet may get allowed ones only. -/
theorem MembersAmong.beforeSetMembers {allowed : Nat → Prop} {id : TypeId} {members : List Member}
    (among : (registry.setMembers id members).MembersAmong allowed)
    (empty : (registry.type id).members = [])
    : registry.MembersAmong allowed := by
  intro other member inType
  by_cases same : id = other
  · rw [← same, empty] at inType
    cases inType
  · refine among other member ?_
    rw [type_setMembers, if_neg fun both => same both.1]
    exact inType

end Registry

end BuildScript
