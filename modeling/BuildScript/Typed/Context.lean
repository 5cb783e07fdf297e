import BuildScript.Syntax.Stmt
import BuildScript.Typed.Overload
import BuildScript.Workspace.Basic

/-! What is known while a script is checked, and the checks that all parts of it share. -/

namespace BuildScript

/-- A function whose body is being checked, and the types that it was seen to return. -/
structure OpenFunction where
  function : FunctionId
  returns : List (TypeId × Span)
deriving Inhabited

/-- The state of the check of one script. The functions whose bodies are being checked come
innermost first.
-/
structure BuildState where
  workspace : Workspace
  symbols : Symbols
  context : ContextId
  namespaces : List String
  openFunctions : List OpenFunction
  loopDepth : Nat
deriving Inhabited

/-- What does not change during the check of a script. -/
structure BuildSetting where
  builtins : BuiltinTypes
  neighbours : Neighbours

/-- Checks. A check that fails has told why and keeps the state that it reached. -/
abbrev Build := ReaderT BuildSetting (OptionT (StateM BuildState))

namespace Build

/-! ## State -/

/-- Runs a step of the whole compilation. -/
def onWorkspace {α : Type} (step : StateM Workspace α) : Build α :=
  modifyGet fun state =>
    let (value, workspace) := step.run state.workspace
    (value, { state with workspace })

/-- The provided types. -/
def builtins : Build BuiltinTypes := return (← read).builtins

/-- The registry. -/
def registry : Build Registry := return (← get).workspace.registry

/-- Changes the registry. -/
def onRegistry {α : Type} (change : Registry → α × Registry) : Build α :=
  onWorkspace (Workspace.onRegistry change)

/-- Changes the registry for its own sake. -/
def modifyRegistry (change : Registry → Registry) : Build Unit :=
  onRegistry fun registry => ((), change registry)

/-- The next number for an identifier. -/
def generateIndex : Build Nat := onRegistry Registry.generateIndex

/-- The names that are known. -/
def symbols : Build Symbols := return (← get).symbols

/-- Changes the names that are known. -/
def modifySymbols (change : Symbols → Symbols) : Build Unit :=
  modify fun state => { state with symbols := change state.symbols }

/-- Runs a check in a new anonymous scope. -/
def inLocalScope {α : Type} (body : Build α) : Build α := do
  modifySymbols Symbols.enterLocal
  let value ← body
  modifySymbols Symbols.leave
  return value

/-- Runs a check in named scopes, one inside the other, that belong to a context. -/
def inNamedScopes {α : Type} (names : List String) (context : ContextId) (body : Build α)
    : Build α := do
  let before ← get
  set { before with
    symbols := names.foldl (fun symbols name => symbols.enterNamed name false) before.symbols
    namespaces := before.namespaces ++ names
    context }
  let value ← body
  modify fun state =>
    { state with
      symbols := names.foldl (fun symbols _ => symbols.leave) state.symbols
      namespaces := before.namespaces
      context := before.context }
  return value

/-! ## Messages -/

/-- Fails because something is wrong at a place. -/
def reject {α : Type} (problem : Problem) (span : Span) : Build α := do
  onWorkspace (Workspace.reportError problem span)
  failure

/-- Explains a failure. -/
def note (problem : Problem) (span : Span) : Build Unit :=
  onWorkspace (Workspace.report (Diagnostic.note problem span))

/-! ## Types -/

/-- The name of a type. -/
def typeName (id : TypeId) : Build String := return (← registry).typeName id

/-- Whether values of a type, or what its references refer to, do not exist. -/
def isVoid (id : TypeId) : Build Bool := do
  let registry ← registry
  return (registry.type (registry.decayed id)).isVoid

/-- A name behind those of the namespaces and classes around it. -/
def qualify (name : String) : Build String := do
  return TypeExpr.joinPath ((← get).namespaces ++ [name])

/-- Whether an expression can give a value of a type. -/
def isConvertible (target : TypeId) (value : TypedExpr) : Build Bool := do
  return ((← registry).fitness? target value.type).isSome

/-- The instance of a generic type. -/
def genericType : TypeExpr → Build TypeId
  | ⟨names, generics, isReference, span⟩ => do
    let type : TypeExpr := ⟨names, generics, isReference, span⟩
    match names, GenericFamily.ofName? type.primaryName with
    | [_], some family =>
      match generics with
      | [argument] =>
        let value ←
          if argument.isGeneric then genericType argument
          else
            match (← symbols).types.find? argument.path with
            | some value => pure value
            | none => reject .valueTypeNotFound argument.span
        let b ← builtins
        let registry ← registry
        let allowed := [b.bool, b.int, b.double, b.string].any (registry.sameType · value)
        if family == .external && !allowed then
          reject (.wrongExternType (registry.typeName value)) argument.span
        else onRegistry fun registry => registry.addGeneric b family value
      | _ => reject (.genericParameterCount family.text generics.length) span
    | _, _ =>
      if ((← symbols).types.find? type.path).isSome then
        reject (.notGeneric (TypeExpr.joinPath type.path)) span
      else reject (.typeNotFound type.text) span

/-- The type that is written. -/
def resolveType (type : TypeExpr) : Build TypeId := do
  let id ←
    if type.isGeneric then genericType type.withoutReference
    else
      match (← symbols).types.find? type.path with
      | some id => pure id
      | none => reject (.typeNotFound type.withoutReference.text) type.span
  if type.isReference then onRegistry fun registry => registry.addReference id
  else return id

end Build

end BuildScript
