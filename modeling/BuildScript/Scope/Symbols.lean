import BuildScript.Registry.Builtin
import BuildScript.Scope.Table

/-! The names of a script, in four tables that are moved through together: types, functions,
variables and enumerators.
-/

namespace BuildScript

/-- A variable: its type and its number. -/
structure VariableSymbol where
  type : TypeId
  index : Nat
deriving Repr, DecidableEq, Inhabited

/-- An enumerator: its type, its place among the enumerators and its number. -/
structure EnumeratorSymbol where
  type : TypeId
  value : Nat
  index : Nat
deriving Repr, DecidableEq, Inhabited

/-- The names of a script. -/
structure Symbols where
  types : ScopeTable TypeId
  functions : ScopeTable FunctionId
  ids : ScopeTable VariableSymbol
  enums : ScopeTable EnumeratorSymbol
deriving Inhabited

namespace Symbols

/-- No names at all. -/
def empty : Symbols := ⟨.empty, .empty, .empty, .empty⟩

/-- Enters a named scope. -/
def enterNamed (symbols : Symbols) (name : String) (exported : Bool) : Symbols :=
  ⟨symbols.types.enterNamed name exported, symbols.functions.enterNamed name exported,
    symbols.ids.enterNamed name exported, symbols.enums.enterNamed name exported⟩

/-- Enters a new anonymous scope. -/
def enterLocal (symbols : Symbols) : Symbols :=
  ⟨symbols.types.enterLocal, symbols.functions.enterLocal, symbols.ids.enterLocal,
    symbols.enums.enterLocal⟩

/-- Leaves the current scope. -/
def leave (symbols : Symbols) : Symbols :=
  ⟨symbols.types.leave, symbols.functions.leave, symbols.ids.leave, symbols.enums.leave⟩

/-- The exported names. -/
def collectExports (symbols : Symbols) : Symbols :=
  ⟨symbols.types.collectExports, symbols.functions.collectExports, symbols.ids.collectExports,
    symbols.enums.collectExports⟩

/-! ## Imports -/

/-- The same thing is not imported twice, and one name does not mean two things. -/
def mergeUnique {α β : Type} [BEq β] (identity : α → β) (old new : α) : MergeDecision :=
  if identity old == identity new then .skip else .conflict

/-- Functions may share a name if their parameters differ. -/
def mergeFunctions (registry : Registry) (old new : FunctionId) : MergeDecision :=
  if old == new then .skip
  else if registry.sameParams (registry.function old).params (registry.function new).params
  then .conflict
  else .add

/-- Merges imported names, and tells the first name in conflict. What was merged before it
stays.
-/
def merge (registry : Registry) (symbols imported : Symbols) : Option String × Symbols :=
  match symbols.types.merge (mergeUnique id) imported.types with
  | (some name, types) => (some name, { symbols with types })
  | (none, types) =>
    match symbols.functions.merge (mergeFunctions registry) imported.functions with
    | (some name, functions) => (some name, { symbols with types, functions })
    | (none, functions) =>
      match symbols.ids.merge (mergeUnique (·.index)) imported.ids with
      | (some name, ids) => (some name, { symbols with types, functions, ids })
      | (none, ids) =>
        let (conflict?, enums) := symbols.enums.merge (mergeUnique (·.index)) imported.enums
        (conflict?, ⟨types, functions, ids, enums⟩)

/-! ## Provided names -/

/-- Registers types under their primary names. -/
def registerTypes (symbols : Symbols) (registry : Registry) (ids : List TypeId) : Symbols :=
  ids.foldl
    (fun symbols id =>
      { symbols with
        types := symbols.types.register (registry.type id).primaryName id false })
    symbols

/-- Registers functions under their names. -/
def registerFunctions (symbols : Symbols) (registry : Registry) (ids : List FunctionId)
    : Symbols :=
  ids.foldl
    (fun symbols id =>
      { symbols with
        functions := symbols.functions.register (registry.function id).name id false })
    symbols

/-- Numbers the enumerators of a type and registers them in the current scope of the table,
counting from `value`.
-/
def registerEnumerators (type : TypeId) (exported : Bool) (value : Nat) (registry : Registry)
    (enums : ScopeTable EnumeratorSymbol)
    : List String → Registry × ScopeTable EnumeratorSymbol
  | [] => (registry, enums)
  | name :: rest =>
    let (index, registry) := registry.generateIndex
    registerEnumerators type exported (value + 1) registry
      (enums.register name ⟨type, value, index⟩ exported) rest

/-- Registers the enumerators of a type in a scope of its name. -/
def registerEnum (symbols : Symbols) (registry : Registry) (name : String) (type : TypeId)
    (enumerators : List String) (exported : Bool) : Registry × Symbols :=
  let (registry, enums) :=
    registerEnumerators type exported 0 registry (symbols.enums.enterNamed name exported)
      enumerators
  (registry, { symbols with enums := enums.leave })

end Symbols

/-- What every script begins with: the registry, its provided types and the names for them. -/
structure Prelude where
  registry : Registry
  builtins : BuiltinTypes
  symbols : Symbols
deriving Inhabited

/-- The provided types and functions. -/
def Prelude.standard : Prelude :=
  let (b, registry) := Registry.empty.addBuiltinTypes
  let registry := registry.addBuiltinFunctions b
  let symbols := Symbols.empty.registerTypes registry
    [b.void, b.bool, b.int, b.double, b.string, b.version]
  let symbols := (symbols.enterNamed "cmake" false).registerTypes registry
    [b.project, b.target, b.library, b.executable, b.visibility]
  let symbols := symbols.registerFunctions registry
    (registry.context b.systemContext).functions
  let (registry, symbols) :=
    symbols.registerEnum registry "visibility" b.visibility visibilityNames false
  ⟨registry, b, symbols.leave⟩

end BuildScript
