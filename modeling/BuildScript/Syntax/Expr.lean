import BuildScript.Syntax.TypeExpr

/-! Expressions as they are written. -/

namespace BuildScript

mutual

/-- Expressions. Every operator with two operands, assignments included, is `binary`, and the
callee of `call` names a function or a type that is constructed.
-/
inductive Expr where
  | bool (value : Bool) (span : Span)
  | int (value : Int64) (span : Span)
  | double (value : Float) (span : Span)
  | string (value : String) (span : Span)
  | id (names : List Token) (span : Span)
  | binary (operator : Token) (lhs rhs : Expr) (span : Span)
  | unary (operator : Token) (operand : Expr) (span : Span)
  | ternary (condition whenTrue whenFalse : Expr) (span : Span)
  | member (object : Expr) (name : Token) (span : Span)
  | call (callee : TypeExpr) (arguments : List Expr) (span : Span)
  | memberCall (object : Expr) (name : Token) (arguments : List Expr) (span : Span)
  | list (values : List Expr) (span : Span)
  | designated (fields : List FieldInit) (span : Span)

/-- The value given to a named member. -/
inductive FieldInit where
  | mk (name : Token) (value : Expr)

end

instance : Inhabited Expr := ⟨.bool false Span.unknown⟩

/-- The text an expression was read from. -/
def Expr.span : Expr → Span
  | bool _ span | int _ span | double _ span | string _ span | id _ span
  | binary _ _ _ span | unary _ _ span | ternary _ _ _ span | member _ _ span
  | call _ _ span | memberCall _ _ _ span | list _ span | designated _ span => span

/-- The member that is initialised. -/
def FieldInit.name : FieldInit → Token
  | mk name _ => name

/-- The value that the member is given. -/
def FieldInit.value : FieldInit → Expr
  | mk _ value => value

end BuildScript
