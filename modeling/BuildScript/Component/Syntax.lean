import BuildScript.Token

/-! Declarative files as they are written: one component with its properties. -/

namespace BuildScript

/-- The values of properties. -/
inductive ValueExpr where
  | bool (value : Bool) (span : Span)
  | int (value : Int64) (span : Span)
  | double (value : Float) (span : Span)
  | string (value : String) (span : Span)
  | list (values : List ValueExpr) (span : Span)
deriving Inhabited

/-- The text a value was read from. -/
def ValueExpr.span : ValueExpr → Span
  | bool _ span | int _ span | double _ span | string _ span | list _ span => span

/-- A property and its value. -/
structure PropertyDecl where
  name : Token
  value : ValueExpr
  span : Span
deriving Inhabited

/-- A component. Its name says of which kind it is. -/
structure ComponentDecl where
  name : Token
  properties : List PropertyDecl
  span : Span
deriving Inhabited

end BuildScript
