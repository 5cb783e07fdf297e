import BuildScript.Typed.Cast

/-! Checking expressions. -/

namespace BuildScript.Build

/-! ## Calls -/

/-- The function that a call means, or the reason why there is none. -/
def chooseFunction (groups : List (List FunctionId)) (arguments : List TypedExpr)
    (name : String) (span : Span) : Build FunctionId := do
  let registry ← registry
  match registry.chooseOverload (arguments.map (·.type)) groups with
  | .ok function => return function
  | .error .noMatch => reject (.noMatchingFunction name) span
  | .error (.ambiguous candidates) =>
    onWorkspace (Workspace.reportError (.ambiguousCall name) span)
    for candidate in candidates do
      note .candidateFunction (registry.function candidate).span
    failure

/-- The type of what a function returns. While it is still to be deduced, the function cannot be
called.
-/
def returnType (function : FunctionId) (span : Span) : Build TypeId := do
  match ((← registry).function function).returnType? with
  | some type => return type
  | none =>
    if (← get).openFunctions.any (·.function == function) then reject .recursiveAutoCall span
    else reject .autoUsedBeforeDefinition span

/-- The arguments of a call, made to fit the function's parameters. -/
def fitCall (function : FunctionId) (arguments : List TypedExpr) : Build (List TypedExpr) := do
  fitArguments ((← registry).function function).params arguments

/-- A call of a member function or operator among the given ones. -/
def memberFunction (groups : List (List FunctionId)) (arguments : List TypedExpr)
    (name : String) (span : Span) : Build (FunctionId × TypeId × List TypedExpr) := do
  let function ← chooseFunction groups arguments name span
  let type ← returnType function span
  let arguments ← fitCall function arguments
  return (function, type, arguments)

/-- The construction of an object. A class without a constructor can be constructed without
arguments.
-/
def construction (type : TypeId) (arguments : List TypedExpr) (span : Span)
    : Build TypedExpr := do
  let registry ← registry
  let name := (registry.type type).primaryName
  match registry.findMemberFunctions type name with
  | [] =>
    if (registry.type type).isObject && arguments.isEmpty then
      return .mk (.construct none []) type span
    else reject (.noMatchingFunction (registry.typeName type)) span
  | groups =>
    let function ← chooseFunction groups arguments name span
    let arguments ← fitCall function arguments
    return .mk (.construct (some function) arguments) type span

/-- The call of a function that is found by name. A function of a class is called on the object
at hand.
-/
def functionCall (function : FunctionId) (arguments : List TypedExpr) (span : Span)
    : Build TypedExpr := do
  let type ← returnType function span
  let arguments ← fitCall function arguments
  let registry ← registry
  let kind :=
    if (registry.context (registry.function function).context).kind == .classContext then
      .implicitCall function arguments
    else .call function arguments
  return .mk kind type span

/-- The name of the function that adds a directory. -/
def addDirectoryName : String := "add_subdirectory"

/-- The name of the function that adds a declarative file. -/
def addComponentFileName : String := "add_declarative_file"

/-- What is added when a directory is. Arguments go to the script that is found in it. -/
def addedDirectory (directory : String) (arguments : List TypedExpr) (span : Span)
    : Build TypedExpr := do
  match ← onWorkspace ((← read).neighbours.addDirectory directory span) with
  | .script main =>
    let function ← chooseFunction [[main]] arguments "main" span
    let type ← returnType function span
    let arguments ← fitCall function arguments
    return .mk (.scriptDirectory directory function arguments) type span
  | .component creation =>
    let type ← returnType creation span
    return .mk (.declarativeDirectory directory creation) type span
  | .listfile => return .mk (.listfileDirectory directory) (← builtins).void span
  | .failed => reject (.addSubdirectoryFailed directory) span

/-- What is added when a declarative file is. -/
def addedComponentFile (file : String) (span : Span) : Build TypedExpr := do
  match ← onWorkspace ((← read).neighbours.addComponentFile file span) with
  | some creation =>
    let type ← returnType creation span
    return .mk (.declarativeFile file creation) type span
  | none => reject (.addDeclarativeFileFailed file) span

/-! ## Names and operators -/

/-- The variable or enumerator of a qualified name. -/
def identifier (path : List String) (span : Span) : Build TypedExpr := do
  let symbols ← symbols
  let name := TypeExpr.joinPath path
  match symbols.ids.find? path, symbols.enums.find? path with
  | some found, _ => return .mk (.id found.index name) found.type span
  | none, some found => return .mk (.enumerator found.value) found.type span
  | none, none => reject (.identifierNotFound name) span

/-- The result of an operator with two operands. -/
def binary (operator : Token) (lhs rhs : TypedExpr) (span : Span) : Build TypedExpr := do
  let registry ← registry
  match registry.findMemberFunctions lhs.type operator.value with
  | [] =>
    reject (.operatorNotSupported (registry.typeName lhs.type) operator.value) operator.span
  | groups =>
    match ← memberFunction groups [rhs] operator.value span with
    | (function, type, [rhs]) =>
      return .mk (.binary lhs operator.value function rhs) type span
    | _ => failure

/-- The result of an operator before its only operand. -/
def unary (operator : Token) (operand : TypedExpr) (span : Span) : Build TypedExpr := do
  let registry ← registry
  let groups := (registry.findMemberFunctions operand.type operator.value).map fun group =>
    group.filter fun id => (registry.function id).params.isEmpty
  match groups.filter (!·.isEmpty) with
  | [] =>
    reject (.operatorNotSupported (registry.typeName operand.type) operator.value)
      operator.span
  | groups =>
    let function ← chooseFunction groups [] operator.value span
    let type ← returnType function span
    return .mk (.unary operator.value function operand) type span

/-- The choice between two values. If their types differ, both are taken by value. -/
def ternary (condition whenTrue whenFalse : TypedExpr) (span : Span) : Build TypedExpr := do
  let registry ← registry
  if registry.sameType whenTrue.type whenFalse.type then
    return .mk (.ternary condition whenTrue whenFalse) whenTrue.type span
  else
    let value := registry.decayed whenTrue.type
    if registry.sameType value (registry.decayed whenFalse.type) then
      let whenTrue ← fit value whenTrue
      let whenFalse ← fit value whenFalse
      return .mk (.ternary condition whenTrue whenFalse) whenTrue.type span
    else
      reject
        (.incompatibleOperands (registry.typeName whenTrue.type)
          (registry.typeName whenFalse.type))
        span

/-- A member variable of an object. -/
def memberAccess (object : TypedExpr) (name : Token) (span : Span) : Build TypedExpr := do
  let registry ← registry
  match registry.findMember? object.type name.value with
  | some member => return .mk (.member object member.name member.index) member.type span
  | none => reject (.memberNotFound (registry.typeName object.type) name.value) name.span

/-- A list of values of one type. -/
def listValue (values : List TypedExpr) (span : Span) : Build TypedExpr := do
  match values with
  | [] => reject .emptyInitializerList span
  | first :: _ =>
    let b ← builtins
    let registry ← registry
    let value := registry.decayed first.type
    if values.all fun other => registry.sameType (registry.decayed other.type) value then
      let list ← onRegistry fun registry => registry.addGeneric b .list value
      let values ← values.mapM (fit value)
      return .mk (.list values) list span
    else reject .initializerListTypeMismatch span

/-! ## Expressions -/

/-- How the callee of a call is to be understood. -/
inductive CallTarget where
  | directory (name : String)
  | componentFile (name : String)
  | constructor (type : TypeId)
  | functions (groups : List (List FunctionId)) (name : String)

/-- The name of a directory or file, which must be given literally. -/
def literalName (function : String) (arguments : List Expr) (span : Span) : Build String := do
  match arguments with
  | .string name _ :: _ => return name
  | _ => reject (.expectedDirectoryName function) span

/-- What the callee of a call means. -/
def callTarget (callee : TypeExpr) (arguments : List Expr) (span : Span) : Build CallTarget := do
  if callee.isGeneric then
    let type ← resolveType callee.withoutReference
    return .constructor ((← registry).decayed type)
  else if callee.path == [addDirectoryName] then
    return .directory (← literalName addDirectoryName arguments span)
  else if callee.path == [addComponentFileName] then
    return .componentFile (← literalName addComponentFileName arguments span)
  else
    let symbols ← symbols
    match symbols.types.find? callee.path with
    | some type => return .constructor ((← registry).decayed type)
    | none =>
      let name := TypeExpr.joinPath callee.path
      match symbols.functions.findAll callee.path with
      | [] => reject (.functionNotFound name) span
      | groups => return .functions groups name

mutual

/-- The checked form of an expression. -/
def expr : Expr → Build TypedExpr
  | .bool value span => do return .mk (.bool value) (← builtins).bool span
  | .int value span => do return .mk (.int value) (← builtins).int span
  | .double value span => do return .mk (.double value) (← builtins).double span
  | .string value span => do return .mk (.string value) (← builtins).string span
  | .id names span => identifier (names.map (·.value)) span
  | .binary operator lhs rhs span => do
    let lhs ← expr lhs
    let rhs ← expr rhs
    binary operator lhs rhs span
  | .unary operator operand span => do
    let operand ← expr operand
    unary operator operand span
  | .ternary condition whenTrue whenFalse span => do
    let condition ← expr condition
    let condition ← fitCondition condition
    let whenTrue ← expr whenTrue
    let whenFalse ← expr whenFalse
    ternary condition whenTrue whenFalse span
  | .member object name span => do
    let object ← expr object
    memberAccess object name span
  | .call callee arguments span => do
    match ← callTarget callee arguments span with
    | .directory name =>
      match arguments with
      | [] => failure
      | _ :: rest =>
        let rest ← exprs rest
        addedDirectory name rest span
    | .componentFile name => addedComponentFile name span
    | .constructor type =>
      let arguments ← exprs arguments
      construction type arguments span
    | .functions groups name =>
      let arguments ← exprs arguments
      let function ← chooseFunction groups arguments name span
      functionCall function arguments span
  | .memberCall object name arguments span => do
    let object ← expr object
    let registry ← registry
    match registry.findMemberFunctions object.type name.value with
    | [] =>
      reject (.memberFunctionNotFound (registry.typeName object.type) name.value) name.span
    | groups =>
      let arguments ← exprs arguments
      let (function, type, arguments) ← memberFunction groups arguments name.value span
      return .mk (.memberCall object function arguments) type span
  | .list values span => do
    let values ← exprs values
    listValue values span
  | .designated fields span => do
    let fields ← fieldInits fields
    return .mk (.pending fields) (← builtins).designated span

/-- The checked forms of several expressions, in order. -/
def exprs : List Expr → Build (List TypedExpr)
  | [] => return []
  | first :: rest => do
    let first ← expr first
    let rest ← exprs rest
    return first :: rest

/-- The checked forms of initialisers of members, in order. -/
def fieldInits : List FieldInit → Build (List PendingField)
  | [] => return []
  | .mk name value :: rest => do
    let value ← expr value
    let rest ← fieldInits rest
    return .mk name.value value name.span :: rest

end

end BuildScript.Build
