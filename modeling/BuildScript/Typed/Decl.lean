import BuildScript.Typed.Stmt

/-! Checking declarations and whole scripts. -/

namespace BuildScript

namespace Build

/-! ## Functions -/

/-- The parameters of a function, in order. -/
def paramList : List ParamDecl → Build (List Param)
  | [] => return []
  | decl :: rest => do
    let type ← resolveType decl.type
    if ← isVoid type then reject .voidVariable decl.name.span
    else
      let index ← generateIndex
      let rest ← paramList rest
      return ⟨type, decl.name.value, index⟩ :: rest

/-- Declares a function, so that its own body and all that follows can call it. -/
def functionDecl (decl : FunctionDecl) : Build FunctionId := do
  let name := decl.name.value
  let returnType? ←
    if decl.returnType.isAuto then pure none else some <$> resolveType decl.returnType
  let params ← paramList decl.params
  let registry ← registry
  let same? := ((← symbols).functions.findAllHere name).find? fun id =>
    registry.sameParams (registry.function id).params params
  match same? with
  | some existing =>
    onWorkspace (Workspace.reportError .functionRedefinition decl.name.span)
    note .previousDefinitionIsHere (registry.function existing).span
    failure
  | none =>
    let context := (← get).context
    let function ← onRegistry fun registry =>
      registry.addFunction ⟨name, params, decl.name.span, returnType?, context, .script none⟩
    modifySymbols fun symbols =>
      { symbols with functions := symbols.functions.register name function decl.exported }
    return function

/-- The type that all the returns of a function agree on. Without any it is `void`. -/
def agreedType (name : Token) (returns : List (TypeId × Span)) : Build TypeId := do
  match returns with
  | [] => return (← builtins).void
  | (type, _) :: rest =>
    let registry ← registry
    if rest.all fun other => registry.sameType other.1 type then return type
    else
      onWorkspace (Workspace.reportError .inconsistentAutoDeduction name.span)
      for (other, span) in returns do
        note (.deducedAs (registry.typeName other)) span
      failure

/-- Runs the check of the body of a function, and gives what was seen to be returned. -/
def inFunction {α : Type} (function : FunctionId) (body : Build α)
    : Build (α × List (TypeId × Span)) := do
  let before ← get
  set { before with openFunctions := ⟨function, []⟩ :: before.openFunctions, loopDepth := 0 }
  let value ← body
  let returns := ((← get).openFunctions.head?.map (·.returns)).getD []
  modify fun state =>
    { state with openFunctions := before.openFunctions, loopDepth := before.loopDepth }
  return (value, returns)

/-- A body that ends in a return, if need be in an implicit one. -/
def endInReturn : TypedBlock → TypedBlock
  | .mk body span =>
    match body.getLast? with
    | some (.returnValue _ _) => .mk body span
    | _ => .mk (body ++ [.implicitReturn span]) span

/-- Checks the body of a declared function. -/
def functionBody (function : FunctionId) (decl : FunctionDecl) : Build FunctionDefinition := do
  let (body, returns) ← inFunction function <| inLocalScope do
    let params := ((← registry).function function).params
    modifySymbols fun symbols =>
      { symbols with
        ids := params.foldl
          (fun ids param => ids.register param.name ⟨param.type, param.index⟩ false)
          symbols.ids }
    block decl.body
  if ((← registry).function function).returnType?.isNone then
    let type ← agreedType decl.name returns
    modifyRegistry fun registry =>
      registry.modifyFunction function fun info => { info with returnType? := some type }
  let body := endInReturn body
  modifyRegistry fun registry =>
    registry.modifyFunction function fun info => { info with body := .script (some body) }
  return ⟨function, body, decl.span⟩

/-! ## Types -/

/-- Fails if the current scope already has a type of the name. -/
def checkTypeName (name : Token) : Build Unit := do
  match (← symbols).types.findHere? name.value with
  | none => return ()
  | some existing =>
    onWorkspace (Workspace.reportError .typeRedefinition name.span)
    note .previouslyDefinedHere ((← registry).type existing).span
    failure

/-- Adds a type that a script declares, with a context of its own. -/
def addDeclaredType (name : Token) (contextKind : ContextKind) (kind : TypeKind)
    (base? : Option TypeId) (exported : Bool) : Build TypeId := do
  let parent := (← get).context
  let fullName ← qualify name.value
  let context ← onRegistry fun registry =>
    registry.addContext contextKind name.value (some parent)
  let type ← onRegistry fun registry =>
    registry.addType ⟨fullName, name.value, kind, context, [], base?, false, name.span⟩
  modifySymbols fun symbols =>
    { symbols with types := symbols.types.register name.value type exported }
  return type

/-- The class that a class is derived from. -/
def baseClass (type : TypeExpr) : Build TypeId := do
  let base ← resolveType type
  let registry ← registry
  let base := registry.decayed base
  if (registry.type base).isObject then return base
  else reject (.invalidBaseType (registry.typeName base)) type.span

/-- Makes the members and member functions of a class and its bases visible without an object.
Constructors and assignments are not inherited.
-/
def inheritMembers (base : TypeId) : Build Unit := do
  let registry ← registry
  let functions := (registry.lineage base).flatMap fun ancestor =>
    let type := registry.type ancestor
    (registry.context type.context).functions.filter fun id =>
      let name := (registry.function id).name
      name != "=" && name != type.primaryName
  modifySymbols fun symbols =>
    { symbols with
      ids := (registry.allMembers base).foldl
        (fun ids member => ids.register member.name ⟨member.type, member.index⟩ false)
        symbols.ids
      functions := functions.foldl
        (fun table id => table.register (registry.function id).name id false)
        symbols.functions }

/-- A member variable of a class. -/
def memberVariable (object : TypeId) (decl : VariableDecl) : Build Member := do
  if decl.type.isAuto then reject .autoWithoutInitializer decl.span
  else
    let type ← resolveType decl.type
    let registry ← registry
    if ← isVoid type then reject .voidVariable decl.name.span
    else if (registry.type type).isReference then
      reject .referenceWithoutInitializer decl.span
    else if registry.sameType type object then
      reject (.incompleteMemberType (registry.typeName object)) decl.type.span
    else
      let index ← generateIndex
      modifySymbols fun symbols =>
        { symbols with ids := symbols.ids.register decl.name.value ⟨type, index⟩ false }
      return ⟨decl.name.value, type, index⟩

/-- The members of a class. All functions are declared before the body of any is checked, so
that they can call each other in any order.
-/
def classBody (object : TypeId) (base? : Option TypeId) (members : List ClassMember)
    : Build (List FunctionDefinition) := do
  if let some base := base? then inheritMembers base
  let varDecls := members.filterMap fun
    | .varDecl decl => some decl
    | .function _ => none
  let functions := members.filterMap fun
    | .varDecl _ => none
    | .function decl => some decl
  let memberVariables ← varDecls.mapM (memberVariable object)
  modifyRegistry fun registry => registry.setMembers object memberVariables
  let declared ← functions.mapM functionDecl
  (declared.zip functions).mapM fun (function, decl) => functionBody function decl

/-- A class. -/
def classDecl : ClassDecl → Build TypedDecl
  | .mk name written? members exported span => do
    checkTypeName name
    let base? ← written?.mapM baseClass
    let type ← addDeclaredType name .classContext .object base? exported
    let context := ((← registry).type type).context
    let reference ← onRegistry fun registry => registry.addReference type
    let _ ← onRegistry fun registry =>
      registry.addBuiltin context "=" [type] reference .assignObject
    let functions ← inNamedScopes [name.value] context (classBody type base? members)
    return .classDecl type functions span

/-- The first of several names that was already used before it. -/
def firstRepeated? (seen : List String) : List Token → Option Token
  | [] => none
  | name :: rest =>
    if seen.contains name.value then some name else firstRepeated? (name.value :: seen) rest

/-- An enumeration. -/
def enumDecl (decl : EnumDecl) : Build TypedDecl := do
  checkTypeName decl.name
  match firstRepeated? [] decl.enumerators with
  | some enumerator => reject .enumeratorRedefinition enumerator.span
  | none =>
    let names := decl.enumerators.map (·.value)
    let b ← builtins
    let type ← addDeclaredType decl.name .enumContext (.enumeration names) none decl.exported
    modifyRegistry fun registry => registry.addEnumFunctions b type
    let (registry, symbols) :=
      (← symbols).registerEnum (← registry) decl.name.value type names decl.exported
    modifyRegistry fun _ => registry
    modifySymbols fun _ => symbols
    return .enumDecl type decl.span

/-! ## Scripts -/

/-- The import of another script. -/
def importModule (path : Token) (span : Span) : Build TypedDecl := do
  match ← onWorkspace ((← read).neighbours.importModule path.value span) with
  | none => reject .importFailed span
  | some imported =>
    let (conflict?, symbols) := (← symbols).merge (← registry) imported
    modifySymbols fun _ => symbols
    match conflict? with
    | some name => reject (.importConflict name) span
    | none => return .importModule path.value span

mutual

/-- The checked form of a declaration. -/
def decl : Stmt → Build TypedDecl
  | .varDecl decl => do return .varDecl (← variableDecl decl)
  | .function decl => do
    let function ← functionDecl decl
    return .function (← functionBody function decl)
  | .classDecl decl => classDecl decl
  | .enumDecl decl => enumDecl decl
  | .namespaceDecl names body span => do
    let names := names.map (·.value)
    let name := TypeExpr.joinPath names
    let parent := (← get).context
    let context ← onRegistry fun registry =>
      registry.addContext .namespaceContext name (some parent)
    let body ← inNamedScopes names context (decls body)
    return .namespaceDecl name body span
  | .importModule path span => importModule path span
  | .expression _ span => reject .statementNotAllowed span
  | .block body => reject .statementNotAllowed body.span
  | .conditional _ _ span => reject .statementNotAllowed span
  | .whileLoop _ _ span => reject .statementNotAllowed span
  | .forLoop _ _ _ _ span => reject .statementNotAllowed span
  | .breakLoop span => reject .statementNotAllowed span
  | .returnValue _ span => reject .statementNotAllowed span

/-- The checked forms of declarations, in order. -/
def decls : List Stmt → Build (List TypedDecl)
  | [] => return []
  | first :: rest => do
    let first ← decl first
    let rest ← decls rest
    return first :: rest

end

end Build

/-- A checked script with the names it exports and its function called `main`, if it has one.
-/
structure BuiltScript where
  scriptUnit : TypedUnit
  exports : Symbols
  main? : Option FunctionId
deriving Inhabited

/-- Checks a script that begins with the given names. -/
def ScriptUnit.build (scriptUnit : ScriptUnit) (builtins : BuiltinTypes) (symbols : Symbols)
    (neighbours : Neighbours) : StateM Workspace (Option BuiltScript) := fun workspace =>
  let start : BuildState := ⟨workspace, symbols, builtins.globalContext, [], [], 0⟩
  let (decls?, state) := ((Build.decls scriptUnit.body).run ⟨builtins, neighbours⟩).run.run start
  (decls?.map fun decls =>
    { scriptUnit := ⟨scriptUnit.span.file, decls, scriptUnit.span⟩
      exports := state.symbols.collectExports
      main? := state.symbols.functions.find? ["main"] },
    state.workspace)

end BuildScript
