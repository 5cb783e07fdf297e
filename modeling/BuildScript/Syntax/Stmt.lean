import BuildScript.Syntax.Expr

/-! Statements and declarations as they are written. -/

namespace BuildScript

/-- The declaration of a variable. -/
structure VariableDecl where
  type : TypeExpr
  name : Token
  initial? : Option Expr
  exported : Bool
  span : Span
deriving Inhabited

/-- The declaration of a parameter. -/
structure ParamDecl where
  type : TypeExpr
  name : Token
deriving Inhabited

/-- The declaration of an enumeration. -/
structure EnumDecl where
  name : Token
  enumerators : List Token
  exported : Bool
  span : Span
deriving Inhabited

mutual

/-- Statements and declarations. -/
inductive Stmt where
  | expression (value : Expr) (span : Span)
  | varDecl (decl : VariableDecl)
  | block (body : Block)
  | conditional (branches : List Branch) (otherwise? : Option Block) (span : Span)
  | whileLoop (condition : Expr) (body : Block) (span : Span)
  | forLoop (initial? : Option Stmt) (condition? iteration? : Option Expr) (body : Block)
      (span : Span)
  | breakLoop (span : Span)
  | returnValue (value? : Option Expr) (span : Span)
  | function (decl : FunctionDecl)
  | classDecl (decl : ClassDecl)
  | enumDecl (decl : EnumDecl)
  | namespaceDecl (names : List Token) (body : List Stmt) (span : Span)
  | importModule (path : Token) (span : Span)

/-- Statements between braces. -/
inductive Block where
  | mk (body : List Stmt) (span : Span)

/-- A condition and what is done when it is the first that holds. -/
inductive Branch where
  | mk (condition : Expr) (body : Block)

/-- The declaration of a function. -/
inductive FunctionDecl where
  | mk (returnType : TypeExpr) (name : Token) (params : List ParamDecl) (body : Block)
      (exported : Bool) (span : Span)

/-- What a class may declare. -/
inductive ClassMember where
  | varDecl (decl : VariableDecl)
  | function (decl : FunctionDecl)

/-- The declaration of a class. -/
inductive ClassDecl where
  | mk (name : Token) (base? : Option TypeExpr) (members : List ClassMember) (exported : Bool)
      (span : Span)

end

/-- The text a block was read from. -/
def Block.span : Block → Span
  | mk _ span => span

/-- The statements of a block. -/
def Block.body : Block → List Stmt
  | mk body _ => body

namespace FunctionDecl

/-- The declared type of the result. -/
def returnType : FunctionDecl → TypeExpr
  | mk type _ _ _ _ _ => type

/-- The name that is declared. -/
def name : FunctionDecl → Token
  | mk _ name _ _ _ _ => name

/-- The parameters in order. -/
def params : FunctionDecl → List ParamDecl
  | mk _ _ params _ _ _ => params

/-- What the function does. -/
def body : FunctionDecl → Block
  | mk _ _ _ body _ _ => body

/-- Whether importers see the function. -/
def exported : FunctionDecl → Bool
  | mk _ _ _ _ exported _ => exported

/-- The text the declaration was read from. -/
def span : FunctionDecl → Span
  | mk _ _ _ _ _ span => span

end FunctionDecl

/-- The text a statement was read from. -/
def Stmt.span : Stmt → Span
  | expression _ span | conditional _ _ span | whileLoop _ _ span | forLoop _ _ _ _ span
  | breakLoop span | returnValue _ span | namespaceDecl _ _ span | importModule _ span => span
  | varDecl decl => decl.span
  | block body => body.span
  | function decl => decl.span
  | classDecl (.mk _ _ _ _ span) => span
  | enumDecl decl => decl.span

instance : Inhabited Block := ⟨.mk [] Span.unknown⟩

instance : Inhabited Stmt := ⟨.breakLoop Span.unknown⟩

/-- A whole script. -/
structure ScriptUnit where
  body : List Stmt
  span : Span
deriving Inhabited

end BuildScript
