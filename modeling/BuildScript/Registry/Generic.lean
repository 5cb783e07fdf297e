import BuildScript.Registry.Basic

/-! The families of types with one type argument. Each instance is made when it is first asked
for, together with its functions.
-/

namespace BuildScript

/-- The contexts and types that every program begins with. -/
structure BuiltinTypes where
  globalContext : ContextId
  systemContext : ContextId
  void : TypeId
  bool : TypeId
  int : TypeId
  double : TypeId
  string : TypeId
  version : TypeId
  project : TypeId
  target : TypeId
  library : TypeId
  executable : TypeId
  visibility : TypeId
  designated : TypeId
deriving Repr, DecidableEq, Inhabited

/-- The families of generic types. -/
inductive GenericFamily where
  | list
  | external
deriving Repr, DecidableEq, Inhabited

namespace GenericFamily

/-- The name of the family. -/
def text : GenericFamily → String
  | list => "list"
  | external => "extern"

/-- The family of a name. -/
def ofName? (name : String) : Option GenericFamily := [list, external].find? (·.text == name)

/-- What the values of an instance are. -/
def kind : GenericFamily → TypeId → TypeKind
  | list, value => .list value
  | external, value => .external value

end GenericFamily

/-- The declaration of a provided function. -/
structure Signature where
  name : String
  params : List TypeId
  result : TypeId
  operation : Operation

namespace Registry

/-- Adds provided functions in order. -/
def addBuiltins (registry : Registry) (context : ContextId) (signatures : List Signature)
    : Registry :=
  signatures.foldl
    (fun registry signature =>
      (registry.addBuiltin context signature.name signature.params signature.result
        signature.operation).2)
    registry

/-- The functions of a type of lists, given the types of references to its values and to its
lists.
-/
def listSignatures (b : BuiltinTypes) (list value listRef valueRef : TypeId)
    : List Signature :=
  [⟨"list", [], list, .list .default⟩,
    ⟨"push_back", [value], b.void, .list .pushBack⟩,
    ⟨"push_back", [list], b.void, .list .pushBackAll⟩,
    ⟨"push_front", [value], b.void, .list .pushFront⟩,
    ⟨"push_front", [list], b.void, .list .pushFrontAll⟩,
    ⟨"pop_back", [], b.void, .list .popBack⟩,
    ⟨"pop_front", [], b.void, .list .popFront⟩,
    ⟨"at", [b.int], valueRef, .list .at⟩,
    ⟨"front", [], valueRef, .list .front⟩,
    ⟨"back", [], valueRef, .list .back⟩,
    ⟨"insert", [b.int, value], b.void, .list .insert⟩,
    ⟨"insert", [b.int, list], b.void, .list .insertAll⟩,
    ⟨"erase", [b.int], b.void, .list .eraseAt⟩,
    ⟨"erase", [b.int, b.int], b.void, .list .erase⟩,
    ⟨"remove", [value], b.int, .list .remove⟩,
    ⟨"remove", [value, b.int], b.int, .list .removeFirst⟩,
    ⟨"remove_last", [value, b.int], b.int, .list .removeLast⟩,
    ⟨"clear", [], b.void, .list .clear⟩,
    ⟨"resize", [b.int], b.void, .list .resize⟩,
    ⟨"sort", [], b.void, .list .sort⟩,
    ⟨"reverse", [], b.void, .list .reverse⟩,
    ⟨"min", [], value, .list .min⟩,
    ⟨"max", [], value, .list .max⟩,
    ⟨"sublist", [b.int], list, .list .sublistFrom⟩,
    ⟨"sublist", [b.int, b.int], list, .list .sublist⟩,
    ⟨"size", [], b.int, .list .size⟩,
    ⟨"empty", [], b.bool, .list .isEmpty⟩,
    ⟨"find", [value], b.int, .list .find⟩,
    ⟨"find", [value, b.int], b.int, .list .findFrom⟩,
    ⟨"+", [value], list, .list .append⟩,
    ⟨"+", [list], list, .list .appendAll⟩,
    ⟨"+=", [value], listRef, .list .appendTo⟩,
    ⟨"+=", [list], listRef, .list .appendAllTo⟩,
    ⟨"=", [list], listRef, .list .assign⟩]

/-- The functions of a type of external values. -/
def externalSignatures (b : BuiltinTypes) (external value externalRef : TypeId)
    : List Signature :=
  [⟨"extern", [b.string], external, .external .ofName⟩,
    ⟨"has_value", [], b.bool, .external .hasValue⟩,
    ⟨"value", [], value, .external .value⟩,
    ⟨"=", [external], externalRef, .external .assign⟩]

/-- Adds the functions of an instance of a family. -/
def addGenericFunctions (registry : Registry) (b : BuiltinTypes) (family : GenericFamily)
    (id value : TypeId) : Registry :=
  let context := (registry.type id).context
  match family with
  | .list =>
    let (valueRef, registry) := registry.addReference value
    let (listRef, registry) := registry.addReference id
    registry.addBuiltins context (listSignatures b id value listRef valueRef)
  | .external =>
    let (externalRef, registry) := registry.addReference id
    registry.addBuiltins context (externalSignatures b id value externalRef)

/-- The instance of a family for values of a type, or of the type that it refers to. -/
def addGeneric (registry : Registry) (b : BuiltinTypes) (family : GenericFamily)
    (value : TypeId) : TypeId × Registry :=
  let value := registry.decayed value
  let name := family.text ++ "<" ++ registry.typeName value ++ ">"
  match registry.generics.lookup name with
  | some existing => (existing, registry)
  | none =>
    let (context, registry) := registry.addContext .classContext name (some b.globalContext)
    let (id, registry) := registry.addType
      ⟨name, family.text, family.kind value, context, [], none, true, Span.unknown⟩
    let registry := { registry with generics := (name, id) :: registry.generics }
    (id, registry.addGenericFunctions b family id value)

end Registry

end BuildScript
