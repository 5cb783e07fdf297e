import BuildScript.Decimal.Integer
import BuildScript.Decimal.Shortest
import BuildScript.Registry.Basic
import BuildScript.Text.Quoted

/-! Checked scripts as indented text, one node on a line. -/

namespace BuildScript.Dump

/-- Lines one level further in. -/
def indent (lines : List String) : List String := lines.map ("  " ++ ·)

/-- A line and the lines below it. -/
def node (line : String) (children : List String) : List String := line :: indent children

/-- A name between double quotes, as it is. -/
def verbatim (name : String) : String := "\"" ++ name ++ "\""

/-- The name of a cast. -/
def castName : CastKind → String
  | .reference => "cast_to_reference"
  | .baseReference => "cast_to_reference_to_base"
  | .value => "cast_to_value"
  | .baseValue => "cast_to_base_value"

mutual

/-- The lines of an expression. -/
def expr (registry : Registry) : TypedExpr → List String
  | .mk kind type _ =>
    let typeName := registry.typeName type
    let typed (head : String) : String := head ++ ": " ++ typeName
    let function (id : FunctionId) : String := (registry.function id).name
    match kind with
    | .bool value => node ("bool_value " ++ toString value) []
    | .int value => node ("int_value " ++ Decimal.writeInt64 value) []
    | .double value => node ("double_value " ++ Decimal.writeFloat value) []
    | .string value => node ("string_value " ++ Text.quoted value) []
    | .enumerator value => node ("enum_constant " ++ typeName ++ " " ++ toString value) []
    | .id _ name => node (typed ("id " ++ name)) []
    | .binary lhs operator _ rhs =>
      node (typed ("binary_operator " ++ operator)) (expr registry lhs ++ expr registry rhs)
    | .unary operator _ operand =>
      node (typed ("unary_operator " ++ operator)) (expr registry operand)
    | .ternary condition whenTrue whenFalse =>
      node (typed "ternary")
        (expr registry condition ++ expr registry whenTrue ++ expr registry whenFalse)
    | .member object name _ => node (typed ("member_access " ++ name)) (expr registry object)
    | .call id arguments =>
      node (typed ("function_call " ++ function id)) (exprs registry arguments)
    | .memberCall object id arguments =>
      node (typed ("member_function_call " ++ function id))
        (expr registry object ++ exprs registry arguments)
    | .implicitCall id arguments =>
      node (typed ("implicit_member_function_call " ++ function id)) (exprs registry arguments)
    | .construct _ arguments =>
      node ("constructor_call " ++ typeName) (exprs registry arguments)
    | .scriptDirectory directory _ arguments =>
      node (typed ("add_subdirectory " ++ verbatim directory)) (exprs registry arguments)
    | .declarativeDirectory directory _ =>
      node (typed ("add_subdirectory_with_declarative_script " ++ verbatim directory)) []
    | .listfileDirectory directory =>
      node ("add_subdirectory_with_old_script " ++ verbatim directory) []
    | .declarativeFile file _ =>
      node (typed ("add_declarative_file " ++ verbatim file)) []
    | .cast kind inner => node (castName kind ++ " " ++ typeName) (expr registry inner)
    | .list values => node ("initializer_list " ++ typeName) (exprs registry values)
    | .designated members =>
      node ("designated_initializers " ++ typeName) (memberValues registry members)
    | .pending fields =>
      node "unresolved_designated_initializers" (pendingFields registry fields)

/-- The lines of several expressions. -/
def exprs (registry : Registry) : List TypedExpr → List String
  | [] => []
  | first :: rest => expr registry first ++ exprs registry rest

/-- The lines of initialisers by member. -/
def memberValues (registry : Registry) : List MemberValue → List String
  | [] => []
  | .mk index value :: rest =>
    node ("member #" ++ toString index) (expr registry value) ++ memberValues registry rest

/-- The lines of initialisers by name. -/
def pendingFields (registry : Registry) : List PendingField → List String
  | [] => []
  | .mk name value _ :: rest =>
    node ("." ++ name) (expr registry value) ++ pendingFields registry rest

end

/-- The lines of an expression that may be missing. -/
def expr? (registry : Registry) : Option TypedExpr → List String
  | none => []
  | some value => expr registry value

/-- The lines of a variable. -/
def variableLines (registry : Registry) (decl : TypedVariable) : List String :=
  node ("variable_declaration " ++ registry.typeName decl.type ++ " " ++ decl.name)
    (expr? registry decl.initial?)

mutual

/-- The lines of a statement. -/
def stmt (registry : Registry) : TypedStmt → List String
  | .expression value => expr registry value
  | .varDecl decl => variableLines registry decl
  | .returnValue value? _ => node "return" (expr? registry value?)
  | .implicitReturn _ => node "implicit_return" []
  | .conditional branches otherwise? _ =>
    node "if_else" (branchLines registry branches ++ otherwiseLines registry otherwise?)
  | .whileLoop condition body _ =>
    node "while" (expr registry condition ++ block registry "block" body)
  | .forLoop initial? condition? iteration? body _ =>
    node "for"
      (initialLines registry initial? ++ expr? registry condition?
        ++ expr? registry iteration? ++ block registry "block" body)
  | .breakLoop _ => node "break" []
  | .block body => block registry "block" body

/-- The lines of several statements. -/
def stmts (registry : Registry) : List TypedStmt → List String
  | [] => []
  | first :: rest => stmt registry first ++ stmts registry rest

/-- The lines of a block with a heading. -/
def block (registry : Registry) (heading : String) : TypedBlock → List String
  | .mk body _ => node heading (stmts registry body)

/-- The lines of the first part of the head of a loop. -/
def initialLines (registry : Registry) : Option TypedStmt → List String
  | none => []
  | some initial => stmt registry initial

/-- The lines of the block for when no condition holds. -/
def otherwiseLines (registry : Registry) : Option TypedBlock → List String
  | none => []
  | some body => block registry "else" body

/-- The lines of branches. -/
def branchLines (registry : Registry) : List TypedBranch → List String
  | [] => []
  | .mk condition body :: rest =>
    node "if" (expr registry condition ++ block registry "block" body)
      ++ branchLines registry rest

end

/-- The lines of a function. -/
def functionLines (registry : Registry) (definition : FunctionDefinition) : List String :=
  let function := registry.function definition.function
  let params := function.params.map fun param =>
    registry.typeName param.type ++ " " ++ param.name
  let result := (function.returnType?.map registry.typeName).getD "auto"
  node
    ("function " ++ result ++ " " ++ function.name ++ "(" ++ ", ".intercalate params ++ ")")
    (stmts registry definition.body.body)

/-- The lines of a class. -/
def classLines (registry : Registry) (type : TypeId) (functions : List FunctionDefinition)
    : List String :=
  let members := (registry.type type).members.map fun member =>
    "member " ++ registry.typeName member.type ++ " " ++ member.name
  node ("class " ++ registry.typeName type)
    (members ++ functions.flatMap (functionLines registry))

mutual

/-- The lines of a declaration. -/
def decl (registry : Registry) : TypedDecl → List String
  | .varDecl decl => variableLines registry decl
  | .function definition => functionLines registry definition
  | .classDecl type functions _ => classLines registry type functions
  | .enumDecl type _ => node ("enum " ++ registry.typeName type) []
  | .namespaceDecl name body _ => node ("namespace " ++ name) (decls registry body)
  | .importModule path _ => node ("import " ++ verbatim path) []

/-- The lines of several declarations. -/
def decls (registry : Registry) : List TypedDecl → List String
  | [] => []
  | first :: rest => decl registry first ++ decls registry rest

end

end BuildScript.Dump

namespace BuildScript

/-- A checked script as text. -/
def TypedUnit.dump (scriptUnit : TypedUnit) (registry : Registry) : String :=
  String.join
    ((Dump.node ("translation_unit " ++ scriptUnit.file) (Dump.decls registry scriptUnit.decls)).map
      (· ++ "\n"))

end BuildScript
