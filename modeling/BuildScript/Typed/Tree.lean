import BuildScript.Registry.Id
import BuildScript.Span

/-! Checked scripts. Every expression has its type, every call its function, and every
variable the number of its declaration, so that nothing is looked up by name any more.
-/

namespace BuildScript

/-- How a value is made to fit a place of another type. -/
inductive CastKind where
  | reference
  | baseReference
  | value
  | baseValue
deriving Repr, DecidableEq, Inhabited

mutual

/-- An expression with the type of its value. -/
inductive TypedExpr where
  | mk (kind : ExprKind) (type : TypeId) (span : Span)

/-- The kinds of checked expressions. A construction without a function gives every member its
default, and `pending` holds initialisers whose class is not known yet.
-/
inductive ExprKind where
  | bool (value : Bool)
  | int (value : Int64)
  | double (value : Float)
  | string (value : String)
  | enumerator (value : Nat)
  | id (index : Nat) (name : String)
  | binary (lhs : TypedExpr) (operator : String) (function : FunctionId) (rhs : TypedExpr)
  | unary (operator : String) (function : FunctionId) (operand : TypedExpr)
  | ternary (condition whenTrue whenFalse : TypedExpr)
  | member (object : TypedExpr) (name : String) (index : Nat)
  | call (function : FunctionId) (arguments : List TypedExpr)
  | memberCall (object : TypedExpr) (function : FunctionId) (arguments : List TypedExpr)
  | implicitCall (function : FunctionId) (arguments : List TypedExpr)
  | construct (function? : Option FunctionId) (arguments : List TypedExpr)
  | scriptDirectory (directory : String) (function : FunctionId) (arguments : List TypedExpr)
  | declarativeDirectory (directory : String) (function : FunctionId)
  | listfileDirectory (directory : String)
  | declarativeFile (file : String) (function : FunctionId)
  | cast (kind : CastKind) (inner : TypedExpr)
  | list (values : List TypedExpr)
  | designated (members : List MemberValue)
  | pending (fields : List PendingField)

/-- The value given to the member with a number. -/
inductive MemberValue where
  | mk (index : Nat) (value : TypedExpr)

/-- The value given to a named member of a class that is not known yet. -/
inductive PendingField where
  | mk (name : String) (value : TypedExpr) (span : Span)

end

namespace TypedExpr

/-- What the expression does. -/
def kind : TypedExpr → ExprKind
  | mk kind _ _ => kind

/-- The type of the expression's value. -/
def type : TypedExpr → TypeId
  | mk _ type _ => type

/-- The text the expression was read from. -/
def span : TypedExpr → Span
  | mk _ _ span => span

end TypedExpr

instance : Inhabited TypedExpr := ⟨.mk (.bool false) default Span.unknown⟩

/-- A checked declaration of a variable. -/
structure TypedVariable where
  type : TypeId
  name : String
  index : Nat
  initial? : Option TypedExpr
  span : Span
deriving Inhabited

mutual

/-- Checked statements. An implicit return ends a body that does not end in a `return`. -/
inductive TypedStmt where
  | expression (value : TypedExpr)
  | varDecl (decl : TypedVariable)
  | returnValue (value? : Option TypedExpr) (span : Span)
  | implicitReturn (span : Span)
  | conditional (branches : List TypedBranch) (otherwise? : Option TypedBlock) (span : Span)
  | whileLoop (condition : TypedExpr) (body : TypedBlock) (span : Span)
  | forLoop (initial? : Option TypedStmt) (condition? iteration? : Option TypedExpr)
      (body : TypedBlock) (span : Span)
  | breakLoop (span : Span)
  | block (body : TypedBlock)

/-- Checked statements that share a scope. -/
inductive TypedBlock where
  | mk (body : List TypedStmt) (span : Span)

/-- A checked condition and what is done when it is the first that holds. -/
inductive TypedBranch where
  | mk (condition : TypedExpr) (body : TypedBlock)

end

namespace TypedBlock

/-- The statements in order. -/
def body : TypedBlock → List TypedStmt
  | mk body _ => body

/-- The text the block was read from. -/
def span : TypedBlock → Span
  | mk _ span => span

end TypedBlock

instance : Inhabited TypedBlock := ⟨.mk [] Span.unknown⟩

/-- A function with its checked body. -/
structure FunctionDefinition where
  function : FunctionId
  body : TypedBlock
  span : Span
deriving Inhabited

/-- Checked declarations. -/
inductive TypedDecl where
  | varDecl (decl : TypedVariable)
  | function (definition : FunctionDefinition)
  | classDecl (type : TypeId) (functions : List FunctionDefinition) (span : Span)
  | enumDecl (type : TypeId) (span : Span)
  | namespaceDecl (name : String) (decls : List TypedDecl) (span : Span)
  | importModule (path : String) (span : Span)

instance : Inhabited TypedDecl := ⟨.importModule "" Span.unknown⟩

/-- A checked script. -/
structure TypedUnit where
  file : String
  decls : List TypedDecl
  span : Span
deriving Inhabited

namespace TypedDecl

mutual

/-- The variables that a declaration declares, those in namespaces included. -/
def globals : TypedDecl → List TypedVariable
  | varDecl decl => [decl]
  | namespaceDecl _ decls _ => globalsOf decls
  | _ => []

/-- The variables that several declarations declare, in order. -/
def globalsOf : List TypedDecl → List TypedVariable
  | [] => []
  | decl :: rest => globals decl ++ globalsOf rest

end

end TypedDecl

/-- The global variables of a script, in order. -/
def TypedUnit.globals (scriptUnit : TypedUnit) : List TypedVariable :=
  TypedDecl.globalsOf scriptUnit.decls

end BuildScript
