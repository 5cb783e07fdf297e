import BuildScript.Component.Check
import BuildScript.Operation
import BuildScript.Typed.Tree

/-! The types, functions and contexts of a program. They refer to each other by their places,
and a base type always stands before the types derived from it.
-/

namespace BuildScript

/-- The kinds of build targets. -/
inductive TargetKind where
  | target
  | library
  | executable
deriving Repr, DecidableEq, Inhabited

/-- What the values of a type are. -/
inductive TypeKind where
  | void
  | bool
  | int
  | double
  | string
  | version
  | enumeration (enumerators : List String)
  | list (value : TypeId)
  | external (value : TypeId)
  | project
  | target (kind : TargetKind)
  | object
  | designated
  | reference (referenced : TypeId)
deriving Repr, DecidableEq, Inhabited

/-- A member variable of a class. -/
structure Member where
  name : String
  type : TypeId
  index : Nat
deriving Repr, DecidableEq, Inhabited

/-- A type. Its context holds its member functions. -/
structure TypeInfo where
  name : String
  primaryName : String
  kind : TypeKind
  context : ContextId
  members : List Member
  base? : Option TypeId
  builtin : Bool
  span : Span
deriving Repr, DecidableEq, Inhabited

namespace TypeInfo

/-- The type that a reference refers to. -/
def referenced? (type : TypeInfo) : Option TypeId :=
  match type.kind with
  | .reference referenced => some referenced
  | _ => none

/-- Whether the type is a reference. -/
def isReference (type : TypeInfo) : Bool := type.referenced?.isSome

/-- Whether the type is that of initialisers whose class is not known yet. -/
def isDesignated (type : TypeInfo) : Bool := type.kind == .designated

/-- Whether the type is a class. -/
def isObject (type : TypeInfo) : Bool := type.kind == .object

/-- Whether the type has no values. -/
def isVoid (type : TypeInfo) : Bool := type.kind == .void

/-- Whether the type is an enumeration. -/
def isEnumeration (type : TypeInfo) : Bool :=
  match type.kind with
  | .enumeration _ => true
  | _ => false

/-- Whether the values of the type have members. -/
def isComplex (type : TypeInfo) : Bool := !type.members.isEmpty || type.isObject

end TypeInfo

/-- A parameter of a function. -/
structure Param where
  type : TypeId
  name : String
  index : Nat
deriving Repr, DecidableEq, Inhabited

/-- What a function does. The body of a script's function is missing until it is checked. -/
inductive FunctionBody where
  | script (body? : Option TypedBlock)
  | builtin (operation : Operation)
  | component (component : Component)

instance : Inhabited FunctionBody := ⟨.script none⟩

/-- A function. The type of its result is missing until it is deduced. -/
structure FunctionInfo where
  name : String
  params : List Param
  span : Span
  returnType? : Option TypeId
  context : ContextId
  body : FunctionBody
deriving Inhabited

/-- The operation that a function stands for. -/
def FunctionInfo.operation? (function : FunctionInfo) : Option Operation :=
  match function.body with
  | .builtin operation => some operation
  | _ => none

/-- Whether the language itself provides a function. -/
def FunctionInfo.isBuiltin (function : FunctionInfo) : Bool := function.operation?.isSome

/-- What opens a context. -/
inductive ContextKind where
  | namespaceContext
  | classContext
  | enumContext
deriving Repr, DecidableEq, Inhabited

/-- A namespace, class or enumeration with the functions and types declared in it. -/
structure ContextInfo where
  kind : ContextKind
  name : String
  parent? : Option ContextId
  functions : List FunctionId
  types : List TypeId
deriving Repr, DecidableEq, Inhabited

/-- All types, functions and contexts of a program. -/
structure Registry where
  types : Array TypeInfo
  functions : Array FunctionInfo
  contexts : Array ContextInfo
  generics : List (String × TypeId)
  references : List (TypeId × TypeId)
  nextIndex : Nat
deriving Inhabited

namespace Registry

/-- The registry with nothing in it. -/
def empty : Registry := ⟨#[], #[], #[], [], [], 0⟩

/-! ## Reading -/

/-- The type at a place. -/
def type (registry : Registry) (id : TypeId) : TypeInfo := registry.types.getD id.index default

/-- The function at a place. -/
def function (registry : Registry) (id : FunctionId) : FunctionInfo :=
  registry.functions.getD id.index default

/-- The context at a place. -/
def context (registry : Registry) (id : ContextId) : ContextInfo :=
  registry.contexts.getD id.index default

/-- The name of a type. -/
def typeName (registry : Registry) (id : TypeId) : String := (registry.type id).name

/-- The type that a reference refers to, and any other type itself. -/
def decayed (registry : Registry) (id : TypeId) : TypeId :=
  (registry.type id).referenced?.getD id

/-- Whether two types are the same: they have one name. -/
def sameType (registry : Registry) (a b : TypeId) : Bool :=
  a == b || registry.typeName a == registry.typeName b

/-- A type and those it is derived from, nearest first, as far as `bound` steps go. -/
def lineageWithin (registry : Registry) : Nat → TypeId → List TypeId
  | 0, _ => []
  | bound + 1, id =>
    id :: match (registry.type id).base? with
      | none => []
      | some base => registry.lineageWithin bound base

/-- A type and those it is derived from, nearest first. A base stands before the types derived
from it, so that no more steps are needed.
-/
def lineage (registry : Registry) (id : TypeId) : List TypeId :=
  registry.lineageWithin (id.index + 1) id

/-- Whether a type is derived from another one. -/
def isDerivedFrom (registry : Registry) (derived base : TypeId) : Bool :=
  (registry.lineage (registry.decayed derived)).tail.any fun ancestor =>
    registry.sameType ancestor (registry.decayed base)

/-- The nearest member of a name. -/
def findMember? (registry : Registry) (id : TypeId) (name : String) : Option Member :=
  (registry.lineage (registry.decayed id)).findSome? fun ancestor =>
    (registry.type ancestor).members.find? (·.name == name)

/-- All members, those of bases first. -/
def allMembers (registry : Registry) (id : TypeId) : List Member :=
  (registry.lineage (registry.decayed id)).reverse.flatMap fun ancestor =>
    (registry.type ancestor).members

/-- The functions of a name that are declared in a context. -/
def functionsNamed (registry : Registry) (context : ContextId) (name : String)
    : List FunctionId :=
  (registry.context context).functions.filter fun id => (registry.function id).name == name

/-- The member functions of a name, grouped by class, nearest first. -/
def findMemberFunctions (registry : Registry) (id : TypeId) (name : String)
    : List (List FunctionId) :=
  (registry.lineage (registry.decayed id)).filterMap fun ancestor =>
    match registry.functionsNamed (registry.type ancestor).context name with
    | [] => none
    | functions => some functions

/-- Whether two parameter lists take the same types. -/
def sameParams (registry : Registry) (first second : List Param) : Bool :=
  first.length == second.length
    && (first.zip second).all fun pair => registry.sameType pair.1.type pair.2.type

/-! ## Adding -/

/-- The next number for an identifier. -/
def generateIndex (registry : Registry) : Nat × Registry :=
  (registry.nextIndex, { registry with nextIndex := registry.nextIndex + 1 })

/-- Adds a context. -/
def addContext (registry : Registry) (kind : ContextKind) (name : String)
    (parent? : Option ContextId) : ContextId × Registry :=
  (⟨registry.contexts.size⟩,
    { registry with contexts := registry.contexts.push ⟨kind, name, parent?, [], []⟩ })

/-- Adds a type to its context. -/
def addType (registry : Registry) (type : TypeInfo) : TypeId × Registry :=
  let id : TypeId := ⟨registry.types.size⟩
  (id,
    { registry with
      types := registry.types.push type
      contexts := registry.contexts.modify type.context.index fun context =>
        { context with types := context.types ++ [id] } })

/-- Adds a function to its context. -/
def addFunction (registry : Registry) (function : FunctionInfo) : FunctionId × Registry :=
  let id : FunctionId := ⟨registry.functions.size⟩
  (id,
    { registry with
      functions := registry.functions.push function
      contexts := registry.contexts.modify function.context.index fun context =>
        { context with functions := context.functions ++ [id] } })

/-- The type of references to a type. It is added when it is first asked for, and a reference
to a reference is that reference.
-/
def addReference (registry : Registry) (id : TypeId) : TypeId × Registry :=
  let base := registry.type id
  if base.isReference then (id, registry)
  else
    match registry.references.lookup id with
    | some existing => (existing, registry)
    | none =>
      let reference : TypeId := ⟨registry.types.size⟩
      (reference,
        { registry with
          types := registry.types.push
            { base with
              name := base.name ++ "&"
              kind := .reference id
              members := []
              base? := none }
          references := (id, reference) :: registry.references })

/-- The parameters of a provided function, which are only numbered. -/
def numberParams (registry : Registry) (count : Nat) : List TypeId → List Param × Registry
  | [] => ([], registry)
  | type :: rest =>
    let (index, registry) := registry.generateIndex
    let (params, registry) := registry.numberParams (count + 1) rest
    (⟨type, "p" ++ toString count, index⟩ :: params, registry)

/-- Adds a function that the language itself provides. -/
def addBuiltin (registry : Registry) (context : ContextId) (name : String)
    (params : List TypeId) (returnType : TypeId) (operation : Operation)
    : FunctionId × Registry :=
  let (params, registry) := registry.numberParams 0 params
  registry.addFunction
    ⟨name, params, Span.unknown, some returnType, context, .builtin operation⟩

/-- Changes what is known of a function. -/
def modifyFunction (registry : Registry) (id : FunctionId)
    (change : FunctionInfo → FunctionInfo) : Registry :=
  { registry with functions := registry.functions.modify id.index change }

/-- Gives a class its members. -/
def setMembers (registry : Registry) (id : TypeId) (members : List Member) : Registry :=
  { registry with
    types := registry.types.modify id.index fun type => { type with members } }

end Registry

end BuildScript
