import BuildScript.Typed.Expr

/-! Checking statements. -/

namespace BuildScript.Build

/-- The type of a variable whose type is to be deduced from its initial value. -/
def deducedType (decl : VariableDecl) (initial? : Option TypedExpr) : Build TypeId := do
  match initial? with
  | none => reject .autoWithoutInitializer decl.span
  | some initial =>
    let registry ← registry
    if (registry.type initial.type).isDesignated then
      reject .designatedInitializerWithoutType initial.span
    else
      let value := registry.decayed initial.type
      if decl.type.isReference then onRegistry fun registry => registry.addReference value
      else return value

/-- The initial value of a variable, made to fit its type. References need one. -/
def fitInitial (decl : VariableDecl) (type : TypeId) (initial? : Option TypedExpr)
    : Build (Option TypedExpr) := do
  let registry ← registry
  match initial? with
  | none =>
    if (registry.type type).isReference then reject .referenceWithoutInitializer decl.span
    else return none
  | some initial =>
    if ← isConvertible type initial then return some (← fit type initial)
    else
      reject
        (.incompatibleInitialization (registry.typeName type) (registry.typeName initial.type))
        initial.span

/-- The declaration of a variable, which is not yet visible in its own initial value. -/
def variableDecl (decl : VariableDecl) : Build TypedVariable := do
  let state ← get
  if decl.exported && !(state.openFunctions.isEmpty && state.symbols.ids.isGlobal) then
    reject .exportingLocalVariable decl.span
  else
    let initial? ← decl.initial?.mapM expr
    let type ←
      if decl.type.isAuto then deducedType decl initial? else resolveType decl.type
    if ← isVoid type then reject .voidVariable decl.name.span
    else
      let initial? ← fitInitial decl type initial?
      let index ← generateIndex
      modifySymbols fun symbols =>
        { symbols with
          ids := symbols.ids.register decl.name.value ⟨type, index⟩ decl.exported }
      return ⟨type, decl.name.value, index, initial?, decl.span⟩

/-- Remembers what the innermost function returns, for the deduction of its type. -/
def noteReturn (type : TypeId) (span : Span) : Build Unit :=
  modify fun state =>
    { state with
      openFunctions :=
        match state.openFunctions with
        | [] => []
        | innermost :: rest =>
          { innermost with returns := innermost.returns ++ [(type, span)] } :: rest }

/-- A returned value, made to fit the declared type of the result. -/
def fitReturn (expected : TypeId) (value? : Option TypedExpr) (span : Span)
    : Build (Option TypedExpr) := do
  let registry ← registry
  match value? with
  | some value =>
    if ← isConvertible expected value then return some (← fit expected value)
    else
      reject (.returnTypeMismatch (registry.typeName expected) (registry.typeName value.type))
        value.span
  | none =>
    if ← isVoid expected then return none
    else reject (.returnTypeMismatch (registry.typeName expected) "void") span

/-- A `return`. In a function whose type is to be deduced it returns by value. -/
def returnStmt (value? : Option TypedExpr) (span : Span) : Build TypedStmt := do
  match (← get).openFunctions with
  | [] => reject .statementNotAllowed span
  | innermost :: _ =>
    let registry ← registry
    match (registry.function innermost.function).returnType? with
    | some expected => return .returnValue (← fitReturn expected value? span) span
    | none =>
      let b ← builtins
      let returned :=
        match value? with
        | some value => registry.decayed value.type
        | none => b.void
      noteReturn returned span
      return .returnValue (← value?.mapM (fit returned)) span

/-- Runs the check of the body of a loop, in which `break` is allowed. -/
def inLoop {α : Type} (body : Build α) : Build α := do
  modify fun state => { state with loopDepth := state.loopDepth + 1 }
  let value ← body
  modify fun state => { state with loopDepth := state.loopDepth - 1 }
  return value

mutual

/-- The checked form of a statement. -/
def stmt : Stmt → Build TypedStmt
  | .expression value _ => do return .expression (← expr value)
  | .varDecl decl => do return .varDecl (← variableDecl decl)
  | .block body => do
    let body ← block body
    return .block body
  | .conditional branches otherwise? span => do
    let branches ← branchList branches
    let otherwise? ← otherwiseBlock otherwise?
    return .conditional branches otherwise? span
  | .whileLoop condition body span => do
    let condition ← expr condition
    let condition ← fitCondition condition
    let body ← inLoop (block body)
    return .whileLoop condition body span
  | .forLoop initial? condition? iteration? body span => inLocalScope do
    let initial? ← initialStmt initial?
    let condition? ← condition?.mapM fun condition => do fitCondition (← expr condition)
    let iteration? ← iteration?.mapM expr
    let body ← inLoop (block body)
    return .forLoop initial? condition? iteration? body span
  | .breakLoop span => do
    if (← get).loopDepth == 0 then reject .breakOutsideLoop span else return .breakLoop span
  | .returnValue value? span => do
    let value? ← value?.mapM expr
    returnStmt value? span
  | .function decl => reject .declarationNotAllowed decl.span
  | .classDecl (.mk _ _ _ _ span) => reject .declarationNotAllowed span
  | .enumDecl decl => reject .declarationNotAllowed decl.span
  | .namespaceDecl _ _ span => reject .declarationNotAllowed span
  | .importModule _ span => reject .declarationNotAllowed span

/-- The checked forms of statements, in order. -/
def stmts : List Stmt → Build (List TypedStmt)
  | [] => return []
  | first :: rest => do
    let first ← stmt first
    let rest ← stmts rest
    return first :: rest

/-- The checked form of a block, which has a scope of its own. -/
def block : Block → Build TypedBlock
  | .mk body span => inLocalScope do
    let body ← stmts body
    return .mk body span

/-- The checked form of the first part of the head of a loop. -/
def initialStmt : Option Stmt → Build (Option TypedStmt)
  | none => return none
  | some initial => do
    let initial ← stmt initial
    return some initial

/-- The checked form of the block for when no condition holds. -/
def otherwiseBlock : Option Block → Build (Option TypedBlock)
  | none => return none
  | some body => do
    let body ← block body
    return some body

/-- The checked forms of branches, in order. -/
def branchList : List Branch → Build (List TypedBranch)
  | [] => return []
  | .mk condition body :: rest => do
    let condition ← expr condition
    let condition ← fitCondition condition
    let body ← block body
    let rest ← branchList rest
    return .mk condition body :: rest

end

end BuildScript.Build
