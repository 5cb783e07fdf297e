import BuildScript.Run.Machine

/-! Evaluating expressions, where calls of functions are left to a parameter. -/

namespace BuildScript

/-- How functions are called: with the object that they work on, if any, and the arguments. -/
abbrev Caller := FunctionId → Option Handle → List Handle → Run Handle

namespace Run

/-- A handle on a new value of a type. -/
def new (type : TypeId) (value : Value) : Run Handle := perform (Effect.new type value)

/-- The variable with a number. -/
def variableAt (index : Nat) (name : String) : Run Handle := do
  match (← get).lookup? index with
  | some handle => return handle.toReference
  | none => fail (.uninitializedName name)

/-- The member of an object. -/
def memberOf (object : Handle) (name : String) (index : Nat) : Run Handle := do
  match (← valueOf object).member? index with
  | some cell => return (Handle.owned cell).toReference
  | none => fail (.missingMember name)

/-- The object that the innermost call works on. -/
def currentObject : Run Handle := do
  match (← get).frames.head?.bind (·.self?) with
  | some handle => return handle.toReference
  | none => fail .missingObject

/-- A new object of a class, made by a function of the class. -/
def construct (call : Caller) (type : TypeId) (function? : Option FunctionId)
    (arguments : List Handle)
    : Run Handle := do
  match function? with
  | none => createDefault type
  | some function =>
    if ((← read).registry.function function).isBuiltin then call function none arguments
    else
      let object ← createDefault type
      let _ ← call function (some object.toReference) arguments
      return object

/-- Carries out an action with the build system in a directory. -/
def inDirectory {α : Type} (directory : String) (action : Run α) : Run α := do
  modify (Machine.request (.enterDirectory directory))
  ensuring (Machine.request .leaveDirectory) action

/-- A copy of a value as it is seen: of an object, only the part that belongs to the class. -/
def copySeen (handle : Handle) : Run Handle := do
  let registry := (← read).registry
  perform <| .owned <$> Effect.onHeap (
    match handle.base? with
    | some base => Heap.slicedCopy registry base handle.cell
    | none => Heap.copy handle.cell)

/-- Makes a value fit a place of a type. -/
def cast (kind : CastKind) (type : TypeId) (handle : Handle) : Run Handle := do
  let registry := (← read).registry
  match kind with
  | .reference => return handle.toReference
  | .baseReference => return handle.toReferenceAs (registry.decayed type)
  | .value => copySeen handle
  | .baseValue =>
    perform (.owned <$> Effect.onHeap (
      Heap.slicedCopy registry (registry.decayed type) handle.cell))

/-- Stores a value as a member of an object. -/
def setMember (object : Handle) (index : Nat) (value : Handle) : Run Unit := do
  match (← valueOf object).members? with
  | none => return ()
  | some members =>
    perform (Effect.setValue object (.object (Value.setMember index value.cell members)))

mutual

/-- The value of an expression. -/
def evaluate (call : Caller) : TypedExpr → Run Handle
  | .mk kind type _ => checked (evaluateKind call type kind)

/-- The value of an expression of a type. -/
def evaluateKind (call : Caller) (type : TypeId) : ExprKind → Run Handle
  | .bool value => new type (.bool value)
  | .int value => new type (.int value)
  | .double value => new type (.double value)
  | .string value => new type (.string value)
  | .enumerator value => new type (.enumerator value)
  | .id index name => variableAt index name
  | .binary lhs _ function rhs => do
    let lhs ← evaluate call lhs
    let rhs ← evaluate call rhs
    call function (some lhs) [rhs]
  | .unary _ function operand => do
    let operand ← evaluate call operand
    call function (some operand) []
  | .ternary condition whenTrue whenFalse => do
    let condition ← evaluate call condition
    if (← valueOf condition).asBool then evaluate call whenTrue else evaluate call whenFalse
  | .member object name index => do
    let object ← evaluate call object
    memberOf object name index
  | .call function arguments => do
    let arguments ← evaluateAll call arguments
    call function none arguments
  | .memberCall object function arguments => do
    let object ← evaluate call object
    let arguments ← evaluateAll call arguments
    call function (some object) arguments
  | .implicitCall function arguments => do
    let object ← currentObject
    let arguments ← evaluateAll call arguments
    call function (some object) arguments
  | .construct function? arguments => do
    let arguments ← evaluateAll call arguments
    construct call type function? arguments
  | .scriptDirectory directory function arguments => do
    let arguments ← evaluateAll call arguments
    inDirectory directory (call function none arguments)
  | .declarativeDirectory directory function => inDirectory directory (call function none [])
  | .listfileDirectory directory => do
    perform (Effect.request (.addListfileDirectory directory))
    new type .void
  | .declarativeFile _ function => call function none []
  | .cast kind inner => do
    let inner ← evaluate call inner
    cast kind type inner
  | .list values => do
    let values ← evaluateAll call values
    let elements ← values.mapM own
    new type (.list (elements.map (·.cell)))
  | .designated members => do
    let object ← createDefault type
    evaluateMembers call object members
    return object
  | .pending _ => fail .untypedInitializers

/-- The values of expressions, from first to last. -/
def evaluateAll (call : Caller) : List TypedExpr → Run (List Handle)
  | [] => return []
  | first :: rest => do
    let first ← evaluate call first
    let rest ← evaluateAll call rest
    return first :: rest

/-- Sets the members of an object, from first to last. -/
def evaluateMembers (call : Caller) (object : Handle) : List MemberValue → Run Unit
  | [] => return ()
  | .mk index value :: rest => do
    let value ← evaluate call value
    let value ← own value
    setMember object index value
    evaluateMembers call object rest

end

end Run

end BuildScript
