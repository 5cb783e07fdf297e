import BuildScript.Proofs.Run.Overwriting
import BuildScript.Proofs.Workspace.Evolution
import Mathlib.Logic.Function.Basic

/-! What classes inherit, and defaults. Lookups that go on at bases end, and so does the making of a
default, since a class has no members but those of earlier classes and of types without members. A
default is what a kind begins with, or an object with a default in each of its members.
-/

namespace BuildScript

/-- What values of a kind begin with, unless they are made of members. -/
def TypeKind.initial? : TypeKind → Option Value
  | .void | .designated | .reference _ => some .void
  | .bool => some (.bool false)
  | .int => some (.int 0)
  | .double => some (.double 0.0)
  | .string => some (.string "")
  | .version => some (.version Version.zero)
  | .enumeration _ => some (.enumerator 0)
  | .list _ => some (.list [])
  | .external _ => some (.external none)
  | .project => some (.project "")
  | .target _ => some (.target "")
  | .object => none

theorem TypeKind.eq_object {kind : TypeKind} (none : kind.initial? = none) : kind = .object := by
  cases kind <;> first | rfl | exact nomatch none

namespace Registry

variable {registry : Registry}

-----------------------------------------------------------------------------------------
-- Lineages
-----------------------------------------------------------------------------------------

/-- A type may have more steps to its bases than its place, by induction over the steps. -/
theorem lineageWithin_congr (closed : registry.Closed) {bound more : Nat} {id : TypeId}
    (enough : id.index < bound) (alsoEnough : id.index < more)
    : registry.lineageWithin bound id = registry.lineageWithin more id := by
  induction bound generalizing id more with
  | zero => exact absurd enough (Nat.not_lt_zero _)
  | succ bound ih =>
      obtain ⟨more, rfl⟩ := Nat.exists_eq_succ_of_ne_zero (Nat.ne_zero_of_lt alsoEnough)
      rw [lineageWithin, lineageWithin]
      cases found : (registry.type id).base? with
      | none => rfl
      | some base =>
          have before := closed.bases id base found
          exact congrArg (id :: ·) (ih (by omega) (by omega))

/-- A type comes before the lineage of its base. -/
theorem lineage_eq (closed : registry.Closed) (id : TypeId)
    : registry.lineage id =
        id :: match (registry.type id).base? with
          | none => []
          | some base => registry.lineage base := by
  rw [lineage, lineageWithin]
  cases found : (registry.type id).base? with
  | none => rfl
  | some base =>
      exact congrArg (id :: ·)
        (lineageWithin_congr closed (closed.bases id base found) (Nat.lt_succ_self _))

/-- No type stands behind those that are derived from it, by induction over the steps. -/
theorem index_le_of_lineageWithin (closed : registry.Closed) {bound : Nat} {id ancestor : TypeId}
    (among : ancestor ∈ registry.lineageWithin bound id)
    : ancestor.index ≤ id.index := by
  induction bound generalizing id with
  | zero => cases among
  | succ bound ih =>
      rw [lineageWithin] at among
      rcases List.mem_cons.mp among with rfl | above
      · exact Nat.le_refl _
      · split at above
        · cases above
        · next base found =>
            exact Nat.le_trans (ih above) (Nat.le_of_lt (closed.bases id base found))

/-- No type is derived from itself, by induction over the steps. -/
theorem lineageWithin_nodup (closed : registry.Closed) (bound : Nat) (id : TypeId)
    : (registry.lineageWithin bound id).Nodup := by
  induction bound generalizing id with
  | zero => exact List.nodup_nil
  | succ bound ih =>
      rw [lineageWithin, List.nodup_cons]
      cases found : (registry.type id).base? with
      | none => exact ⟨List.not_mem_nil, List.nodup_nil⟩
      | some base =>
          refine ⟨fun again => ?_, ih base⟩
          exact Nat.not_lt_of_le (index_le_of_lineageWithin closed again)
            (closed.bases id base found)

-----------------------------------------------------------------------------------------
-- Lookups
-----------------------------------------------------------------------------------------

/-- (BaseOf base derived) says that lookups go on from a type, or from what it refers to, at its
base.
-/
def BaseOf (registry : Registry) (base derived : TypeId) : Prop :=
  (registry.type (registry.decayed derived)).base? = some base

/-- A type inherits when each lookup looks at the type itself, or at what it refers to, and then
goes on at the base if there is one.
-/
structure Inherits (registry : Registry) (id : TypeId) : Prop where
  derived : ∀ ancestor, registry.isDerivedFrom id ancestor =
    match (registry.type (registry.decayed id)).base? with
    | none => false
    | some base =>
      registry.sameType base (registry.decayed ancestor) || registry.isDerivedFrom base ancestor
  member : ∀ name, registry.findMember? id name =
    match (registry.type (registry.decayed id)).members.find? (·.name == name) with
    | some member => some member
    | none =>
      match (registry.type (registry.decayed id)).base? with
      | none => none
      | some base => registry.findMember? base name
  functions : ∀ name, registry.findMemberFunctions id name =
    (match registry.functionsNamed (registry.type (registry.decayed id)).context name with
      | [] => []
      | functions => [functions]) ++
    match (registry.type (registry.decayed id)).base? with
    | none => []
    | some base => registry.findMemberFunctions base name
  members : registry.allMembers id =
    (match (registry.type (registry.decayed id)).base? with
      | none => []
      | some base => registry.allMembers base) ++
    (registry.type (registry.decayed id)).members

theorem decayed_le (closed : registry.Closed) (id : TypeId)
    : (registry.decayed id).index ≤ id.index := by
  unfold decayed
  cases found : (registry.type id).referenced? with
  | none => exact Nat.le_refl _
  | some referenced =>
      exact Nat.le_of_lt
        (closed.kinds id referenced (congrArg TypeKind.inner? (TypeInfo.referenced?_eq_some found)))

/-- Lookups that go on at bases end. -/
theorem Closed.baseOf_wellFounded (closed : registry.Closed) : WellFounded registry.BaseOf :=
  Subrelation.wf
    (fun {_ derived} found =>
      Nat.lt_of_lt_of_le (closed.bases _ _ found) (decayed_le closed derived))
    (measure TypeId.index).wf

/-- Lookups go through the lineage of a type, and a base refers to nothing. -/
theorem Consistent.inherits (consistent : registry.Consistent) (id : TypeId)
    : registry.Inherits id := by
  have closed := consistent.toClosed
  have lineage := lineage_eq closed (registry.decayed id)
  cases found : (registry.type (registry.decayed id)).base? with
  | none =>
      rw [found] at lineage
      refine ⟨fun ancestor => ?_, fun name => ?_, fun name => ?_, ?_⟩
      all_goals rw [found]
      · rw [isDerivedFrom, lineage]
        rfl
      · rw [findMember?, lineage, List.findSome?_cons]
        cases (registry.type (registry.decayed id)).members.find? (·.name == name) <;> rfl
      · rw [findMemberFunctions, lineage, List.filterMap_cons, List.append_nil]
        cases registry.functionsNamed (registry.type (registry.decayed id)).context name <;> rfl
      · rw [allMembers, lineage]
        exact List.append_nil _
  | some base =>
      rw [found] at lineage
      have value := decayed_of_value (consistent.referenced.bases _ base found)
      refine ⟨fun ancestor => ?_, fun name => ?_, fun name => ?_, ?_⟩
      all_goals rw [found]
      · have further := lineage_eq closed base
        simp only [isDerivedFrom, lineage, List.tail_cons, value]
        rw [further]
        rfl
      · simp only [findMember?, lineage, List.findSome?_cons, value]
        cases (registry.type (registry.decayed id)).members.find? (·.name == name) <;> rfl
      · simp only [findMemberFunctions, lineage, List.filterMap_cons, value]
        cases registry.functionsNamed (registry.type (registry.decayed id)).context name <;> rfl
      · simp only [allMembers, lineage, List.reverse_cons, List.flatMap_append, value]
        rw [List.flatMap_singleton]

-----------------------------------------------------------------------------------------
-- Members
-----------------------------------------------------------------------------------------

/-- All members are those of the type itself and of types before it. -/
theorem mem_allMembers (closed : registry.Closed) {id : TypeId} {member : Member}
    (among : member ∈ registry.allMembers id)
    : ∃ ancestor : TypeId, ancestor.index ≤ (registry.decayed id).index
        ∧ member ∈ (registry.type ancestor).members := by
  obtain ⟨ancestor, above, own⟩ := List.mem_flatMap.mp among
  exact ⟨ancestor, index_le_of_lineageWithin closed (List.mem_reverse.mp above), own⟩

/-- No two members of a type have one number, whether they are inherited or not. -/
theorem Consistent.allMembers_once (consistent : registry.Consistent) (id : TypeId)
    : ((registry.allMembers id).map (·.index)).Nodup := by
  rw [allMembers, List.map_flatMap, List.nodup_flatMap]
  refine ⟨fun ancestor _ => consistent.layered.distinct ancestor, ?_⟩
  have lineage : (registry.lineage (registry.decayed id)).reverse.Nodup :=
    List.nodup_reverse.mpr (lineageWithin_nodup consistent.toClosed _ _)
  refine lineage.imp fun {first second} other number inFirst inSecond => other ?_
  obtain ⟨member, among, rfl⟩ := List.mem_map.mp inFirst
  obtain ⟨twin, alsoAmong, same⟩ := List.mem_map.mp inSecond
  exact consistent.layered.apart first second member among twin alsoAmong same.symm

/-- (PartOf inner outer) says that the objects of a class have a member of a type. -/
def PartOf (registry : Registry) (inner outer : TypeId) : Prop :=
  (registry.type (registry.decayed outer)).isObject = true
    ∧ ∃ member ∈ registry.allMembers (registry.decayed outer), member.type = inner

/-- How many classes may be inside a type: as many as are before it, if it is a class. -/
def height (registry : Registry) (id : TypeId) : Nat :=
  if (registry.type id).isObject then id.index else 0

/-- A registry is founded when it is consistent and its first type is no class. -/
structure Founded (registry : Registry) : Prop extends registry.Consistent where
  first : (registry.type ⟨0⟩).isObject = false

namespace Founded

/-- Members are less high than the class that has or inherits them. -/
theorem height_member (founded : registry.Founded) {id : TypeId}
    (isClass : (registry.type id).isObject = true) {member : Member}
    (among : member ∈ registry.allMembers id)
    : registry.decayed member.type = member.type
      ∧ registry.height member.type < registry.height id := by
  obtain ⟨ancestor, before, own⟩ := mem_allMembers founded.toClosed among
  rw [decayed_of_isObject isClass] at before
  refine ⟨decayed_of_value (founded.layered.values ancestor member own), ?_⟩
  rw [height, height, if_pos isClass]
  split
  · next inner =>
      exact Nat.lt_of_lt_of_le (founded.layered.earlier ancestor member own inner) before
  · refine Nat.pos_of_ne_zero fun zero => ?_
    have isFirst : id = ⟨0⟩ := congrArg TypeId.mk zero
    rw [isFirst, founded.first] at isClass
    cases isClass

/-- No object is made of objects of its own class, however deep. -/
theorem partOf_wellFounded (founded : registry.Founded) : WellFounded registry.PartOf := by
  refine Subrelation.wf ?_ (measure fun id => registry.height (registry.decayed id)).wf
  rintro inner outer ⟨isClass, member, among, rfl⟩
  obtain ⟨value, lower⟩ := founded.height_member isClass among
  show registry.height (registry.decayed member.type) < registry.height (registry.decayed outer)
  rwa [value]

end Founded

end Registry

-----------------------------------------------------------------------------------------
-- Defaults
-----------------------------------------------------------------------------------------

namespace Heap

variable {registry : Registry} {heap after : Heap}

/-- What is made of the elements of a list depends on the elements only. -/
theorem mapM_congr {α β : Type} {first second : α → StateM Heap β} {elements : List α}
    (same : ∀ element ∈ elements, first element = second element)
    : elements.mapM first = elements.mapM second := by
  induction elements with
  | nil => rfl
  | cons element rest ih =>
      rw [List.mapM_cons, List.mapM_cons, same element List.mem_cons_self,
        ih fun other among => same other (List.mem_cons_of_mem _ among)]

/-- How the default of a type is made, when the defaults of its members are made in some way. -/
def defaultBy (registry : Registry) (create : TypeId → StateM Heap CellId) (type : TypeId)
    : StateM Heap CellId :=
  match (registry.type type).kind.initial? with
  | some value => new type value
  | none => do
    let members ← (registry.allMembers type).mapM fun member =>
      (member.index, ·) <$> create member.type
    new type (.object members)

/-- Ways that make the same defaults of all members make the same default of a class. -/
theorem defaultBy_congr {create other : TypeId → StateM Heap CellId} {type : TypeId}
    (same : (registry.type type).isObject = true →
      ∀ member ∈ registry.allMembers type, create member.type = other member.type)
    : defaultBy registry create type = defaultBy registry other type := by
  unfold defaultBy
  cases kind : (registry.type type).kind.initial? with
  | some value => rfl
  | none =>
      have isClass := beq_iff_eq.mpr (TypeKind.eq_object kind)
      exact congrArg (· >>= _)
        (mapM_congr fun member among => congrArg _ (same isClass member among))

theorem defaultWithin_succ (registry : Registry) (bound : Nat) (type : TypeId)
    : defaultWithin registry (bound + 1) type =
        defaultBy registry (defaultWithin registry bound ∘ registry.decayed) type := by
  rw [defaultWithin, defaultBy]
  cases (registry.type type).kind <;> rfl

/-- Any bound above the height of a type will do, by induction over the bound. -/
theorem defaultWithin_congr (founded : registry.Founded) {bound more : Nat} {type : TypeId}
    (enough : registry.height type < bound) (alsoEnough : registry.height type < more)
    : defaultWithin registry bound type = defaultWithin registry more type := by
  induction bound generalizing type more with
  | zero => exact absurd enough (Nat.not_lt_zero _)
  | succ bound ih =>
      obtain ⟨more, rfl⟩ := Nat.exists_eq_succ_of_ne_zero (Nat.ne_zero_of_lt alsoEnough)
      rw [defaultWithin_succ, defaultWithin_succ]
      refine defaultBy_congr fun isClass member among => ?_
      obtain ⟨value, lower⟩ := founded.height_member isClass among
      rw [Function.comp_apply, Function.comp_apply, value]
      exact ih (by omega) (by omega)

/-- A default is what the kind of its type begins with, or is made of the defaults of all members.
-/
theorem createDefault_eq (founded : registry.Founded) (type : TypeId)
    : createDefault registry type =
        defaultBy registry (createDefault registry) (registry.decayed type) := by
  have low (id : TypeId) : registry.height id < id.index + 1 := by
    rw [Registry.height]
    split <;> omega
  rw [createDefault, defaultWithin_succ]
  refine defaultBy_congr fun isClass member among => ?_
  obtain ⟨value, lower⟩ := founded.height_member isClass among
  rw [Function.comp_apply, createDefault, value]
  exact defaultWithin_congr founded (Nat.lt_of_lt_of_le lower (Nat.le_of_lt_succ (low _))) (low _)

/-- (IsDefault registry heap type cell) says that a cell holds the default of a type: what its kind
begins with, or an object with one slot for each member of the class, inherited ones first, and in
each slot the default of the type of that member.
-/
inductive IsDefault (registry : Registry) (heap : Heap) : TypeId → CellId → Prop where
  | initial {type : TypeId} {cell : CellId} {value : Value}
      (kind : (registry.type (registry.decayed type)).kind.initial? = some value)
      (inside : cell.index < heap.cells.size)
      (holds : heap.read cell = ⟨registry.decayed type, value⟩)
      : IsDefault registry heap type cell
  | object {type : TypeId} {cell : CellId} (part : Member → CellId)
      (isClass : (registry.type (registry.decayed type)).isObject = true)
      (inside : cell.index < heap.cells.size)
      (holds : heap.read cell = ⟨registry.decayed type,
        .object ((registry.allMembers (registry.decayed type)).map fun member =>
          (member.index, part member))⟩)
      (parts : ∀ member ∈ registry.allMembers (registry.decayed type),
        IsDefault registry heap member.type (part member))
      : IsDefault registry heap type cell

namespace IsDefault

theorem inside {type : TypeId} {cell : CellId} (isDefault : IsDefault registry heap type cell)
    : cell.index < heap.cells.size := by
  cases isDefault with
  | initial _ inside _ => exact inside
  | object _ _ inside _ _ => exact inside

/-- Defaults stay defaults as long as the cells that are there stay as they are, by induction over
the default.
-/
theorem mono {type : TypeId} {cell : CellId} (isDefault : IsDefault registry heap type cell)
    (grows : heap.cells.size ≤ after.cells.size)
    (kept : ∀ cell : CellId, cell.index < heap.cells.size → after.read cell = heap.read cell)
    : IsDefault registry after type cell := by
  induction isDefault with
  | initial kind inside holds =>
      exact .initial kind (Nat.lt_of_lt_of_le inside grows) ((kept _ inside).trans holds)
  | object part isClass inside holds _ ih =>
      exact .object part isClass (Nat.lt_of_lt_of_le inside grows) ((kept _ inside).trans holds) ih

end IsDefault

theorem IsDefault.alloc {type : TypeId} {cell : CellId}
    (isDefault : IsDefault registry heap type cell) (object : Object)
    : IsDefault registry (heap.alloc object).2 type cell := by
  refine isDefault.mono ?_ fun cell inside => ?_
  · rw [size_alloc]
    exact Nat.le_succ _
  · rw [read_alloc, if_neg (Nat.ne_of_lt inside)]

theorem IsDefault.makes {type : TypeId} {cell : CellId}
    (isDefault : IsDefault registry heap type cell) {α : Type} {action : StateM Heap α}
    {cells : α → List CellId} (makes : Makes (fun _ => True) action cells)
    : IsDefault registry (action heap).2 type cell :=
  isDefault.mono (makes heap).grows fun cell inside =>
    (makes heap).kept cell inside List.not_mem_nil

/-- The defaults of members are made one after the other, by induction over the members. -/
theorem mapM_isDefault {members : List Member}
    (each : ∀ member ∈ members, ∀ heap, IsDefault registry
      (createDefault registry member.type heap).2 member.type
      (createDefault registry member.type heap).1)
    (once : members.Nodup) (heap : Heap)
    : ∃ part : Member → CellId,
        (members.mapM (fun member =>
          (member.index, ·) <$> createDefault registry member.type) heap).1 =
          members.map (fun member => (member.index, part member))
        ∧ ∀ member ∈ members, IsDefault registry
            (members.mapM (fun member =>
              (member.index, ·) <$> createDefault registry member.type) heap).2
            member.type (part member) := by
  induction members generalizing heap with
  | nil => exact ⟨fun _ => default, rfl, fun _ absent => nomatch absent⟩
  | cons first rest ih =>
      obtain ⟨isNew, restOnce⟩ := List.nodup_cons.mp once
      obtain ⟨part, made, parts⟩ := ih
        (fun member among => each member (List.mem_cons_of_mem _ among)) restOnce
        (createDefault registry first.type heap).2
      have elsewhere {member : Member} (among : member ∈ rest) : member ≠ first := by
        rintro rfl
        exact isNew among
      rw [List.mapM_cons]
      refine ⟨Function.update part first (createDefault registry first.type heap).1, ?_, ?_⟩
      · rw [List.map_cons, Function.update_self]
        refine congrArg (_ :: ·) (made.trans (List.map_congr_left fun member among => ?_))
        rw [Function.update_of_ne (elsewhere among)]
      · intro member among
        rcases List.mem_cons.mp among with rfl | later
        · rw [Function.update_self]
          refine (each member List.mem_cons_self heap).makes (Makes.mapM Prod.snd ?_ rest)
          exact fun other => Makes.createDefault (fun _ _ _ => trivial) other.type
        · rw [Function.update_of_ne (elsewhere later)]
          exact parts member later

/-- What is made for a type is the default of that type, by induction over the types that are parts
of it.
-/
theorem createDefault_isDefault (founded : registry.Founded) (type : TypeId) (heap : Heap)
    : IsDefault registry (createDefault registry type heap).2 type
        (createDefault registry type heap).1 := by
  induction type using founded.partOf_wellFounded.induction generalizing heap with
  | _ type ih =>
    rw [createDefault_eq founded, defaultBy]
    cases kind : (registry.type (registry.decayed type)).kind.initial? with
    | some value =>
        refine .initial kind ?_ ((read_alloc heap _ _).trans (if_pos rfl))
        show heap.cells.size < (heap.alloc _).2.cells.size
        rw [size_alloc]
        exact Nat.lt_succ_self _
    | none =>
        have isClass : (registry.type (registry.decayed type)).isObject = true :=
          beq_iff_eq.mpr (TypeKind.eq_object kind)
        have once := (founded.allMembers_once (registry.decayed type)).of_map
        obtain ⟨part, made, parts⟩ := mapM_isDefault
          (fun member among heap => ih member.type ⟨isClass, member, among, rfl⟩ heap) once heap
        refine .object part isClass ?_ ?_ fun member among => (parts member among).alloc _
        · show _ < (Heap.alloc _ _).2.cells.size
          rw [size_alloc]
          exact Nat.lt_succ_self _
        · refine (read_alloc _ _ _).trans ((if_pos rfl).trans ?_)
          exact congrArg (fun slots => (⟨registry.decayed type, .object slots⟩ : Object)) made

end Heap

-----------------------------------------------------------------------------------------
-- Registries of compilations
-----------------------------------------------------------------------------------------

namespace Registry

variable {registry before after : Registry}

/-- Defaults end in a registry when neither lookups go on at bases forever nor the making of
defaults at members. Then a class has one member under each number that it has at all, what is made
for a type is the default of that type, and it is made of new cells.
-/
structure DefaultsEnd (registry : Registry) : Prop where
  bases : WellFounded registry.BaseOf
  inherits : ∀ id, registry.Inherits id
  parts : WellFounded registry.PartOf
  made : ∀ id, Heap.createDefault registry id =
    Heap.defaultBy registry (Heap.createDefault registry) (registry.decayed id)
  once : ∀ id, ((registry.allMembers id).map (·.index)).Nodup
  isDefault : ∀ id heap, Heap.IsDefault registry (Heap.createDefault registry id heap).2 id
    (Heap.createDefault registry id heap).1
  kept : ∀ id, ∀ heap : Heap, ∀ cell : CellId, cell.index < heap.cells.size →
    (Heap.createDefault registry id heap).2.read cell = heap.read cell

theorem Founded.defaultsEnd (founded : registry.Founded) : registry.DefaultsEnd where
  bases := founded.baseOf_wellFounded
  inherits := founded.inherits
  parts := founded.partOf_wellFounded
  made := Heap.createDefault_eq founded
  once := founded.allMembers_once
  isDefault := Heap.createDefault_isDefault founded
  kept id heap cell inside := by
    have makes : Heap.Makes (fun _ => True) (Heap.createDefault registry id) fun made => [made] :=
      .createDefault (fun _ _ _ => trivial) id
    exact (makes heap).kept cell inside List.not_mem_nil

/-- A registry stays founded, since the kind of its first type stays. -/
theorem Evolves.founded (evolves : before.Evolves after) (founded : before.Founded)
    (known : before.Knows ⟨0⟩)
    : after.Founded := by
  refine ⟨evolves.consistent founded.toConsistent, ?_⟩
  rw [TypeInfo.isObject, evolves.preserves.kind _ known]
  exact founded.first

/-- Defaults end in all registries on the way, by induction over the operations. -/
theorem Evolves.defaultsEnd (evolves : before.Evolves after) (founded : before.Founded)
    (known : before.Knows ⟨0⟩)
    : Relation.ReflTransGen (fun before after => before.Change after ∧ after.DefaultsEnd)
        before after := by
  induction evolves with
  | refl => exact .refl
  | tail first change ih =>
      have further : before.Evolves _ := Relation.ReflTransGen.tail first change
      exact ih.tail ⟨change, (further.founded founded known).defaultsEnd⟩

end Registry

theorem Prelude.standard_founded
    : Prelude.standard.registry.Founded ∧ Prelude.standard.registry.Knows ⟨0⟩ :=
  ⟨⟨Prelude.standard_consistent, by decide +kernel⟩, by decide +kernel⟩

namespace Workspace

theorem Reaches.founded {start workspace : Workspace} (fresh : start.IsFresh)
    (reaches : start.Reaches workspace)
    : workspace.registry.Founded := by
  obtain ⟨founded, known⟩ := Prelude.standard_founded
  rw [← fresh.registry] at founded known
  exact (reaches.moves fresh.ready).moves.1.founded founded known

/-- Default construction ends. In every registry that builds reach from the provided one, whether
they succeed or fail, and in all registries on the way, lookups along bases end, and so does the
making of a default of any type. The default of a class has exactly one slot for each member that
the class has or inherits, with the default of the type of that member in it.
-/
theorem Reaches.defaults_end {start workspace : Workspace} (fresh : start.IsFresh)
    (reaches : start.Reaches workspace)
    : workspace.registry.DefaultsEnd
      ∧ Relation.ReflTransGen
          (fun before after : Registry => before.Change after ∧ after.DefaultsEnd)
          start.registry workspace.registry := by
  obtain ⟨founded, known⟩ := Prelude.standard_founded
  rw [← fresh.registry] at founded known
  exact ⟨(reaches.founded fresh).defaultsEnd,
    (reaches.moves fresh.ready).moves.1.defaultsEnd founded known⟩

set_option maxRecDepth 100000 in
/-- The default of a class that is derived from another one has a slot for the inherited member, an
object of the base, and a list that is empty although it is one of objects of the class itself.
-/
theorem Reaches.defaults_end_continued
    : (continued.1.isSome = true
        ∧ (continued.2.registry.allMembers ⟨30⟩).map (·.name) = ["x", "inner", "others"]
        ∧ (Heap.createDefault continued.2.registry ⟨30⟩ Heap.empty).2.cells.toList.map
            (fun object => (continued.2.registry.typeName object.type, object.value.slots)) =
          [("int", []), ("int", []), ("A", [211]), ("list<B>", []), ("B", [211, 213, 243])])
      ∧ continued.2.registry.DefaultsEnd
      ∧ Relation.ReflTransGen
          (fun before after : Registry => before.Change after ∧ after.DefaultsEnd)
          Prelude.standard.registry continued.2.registry := by
  have fresh : (ofRegistry Prelude.standard.registry).IsFresh := ⟨rfl, rfl⟩
  exact ⟨by decide +kernel, Reaches.defaults_end fresh
    ((Relation.ReflTransGen.single (attempt_builds _ _)).tail (attempt_builds _ _))⟩

end Workspace

/-- The registry of an accepted program is reached from the provided one. -/
theorem Program.Accepted.reached {program : Program} (accepted : program.Accepted)
    : ∃ start workspace : Workspace,
        start.IsFresh ∧ start.Reaches workspace ∧ program.registry = workspace.registry := by
  obtain ⟨nesting, path, source, session, compiled⟩ := accepted
  obtain ⟨built, after, builds, _, same⟩ := Session.exists_builds compiled
  have begins : session.loadSetting.Begins .standard := ⟨rfl, rfl⟩
  have next : (session.workspace path source).BuildsNext _ := .source _ begins nesting path source
  rw [builds] at next
  exact ⟨session.workspace path source, after, ⟨rfl, rfl⟩, .single next,
    congrArg Program.registry same⟩

/-- Whatever type an accepted program asks a default of, it gets the default of that type. -/
theorem Program.Accepted.isDefault {program : Program} (accepted : program.Accepted)
    (type : TypeId) (heap : Heap)
    : Heap.IsDefault program.registry (Heap.createDefault program.registry type heap).2 type
        (Heap.createDefault program.registry type heap).1 := by
  obtain ⟨start, workspace, fresh, reaches, same⟩ := accepted.reached
  rw [same]
  exact Heap.createDefault_isDefault (reaches.founded fresh) type heap

end BuildScript
