import BuildScript.Token

/-! Types as they are written. -/

namespace BuildScript

/-- A qualified name with type arguments, possibly followed by the mark of a reference. -/
structure TypeExpr where
  names : List Token
  generics : List TypeExpr
  isReference : Bool
  span : Span
deriving Repr, Inhabited

namespace TypeExpr

/-- Whether the type is to be deduced. -/
def isAuto (type : TypeExpr) : Bool :=
  match type.names with
  | [name] => name.kind == .autoKeyword
  | _ => false

/-- Whether type arguments are given. -/
def isGeneric (type : TypeExpr) : Bool := !type.generics.isEmpty

/-- The segments of the qualified name. -/
def path (type : TypeExpr) : List String := type.names.map (·.value)

/-- The last segment of the qualified name. -/
def primaryName (type : TypeExpr) : String := (type.path.getLast?).getD ""

/-- The segments of a qualified name, joined. -/
def joinPath (path : List String) : String := "::".intercalate path

mutual

/-- The type in its canonical spelling. -/
def text : TypeExpr → String
  | ⟨names, generics, isReference, _⟩ =>
    joinPath (names.map (·.value))
      ++ (if generics.isEmpty then "" else "<" ++ ", ".intercalate (texts generics) ++ ">")
      ++ (if isReference then "&" else "")

/-- The canonical spellings of several types. -/
def texts : List TypeExpr → List String
  | [] => []
  | type :: rest => text type :: texts rest

end

/-- The same type without the mark of a reference. -/
def withoutReference (type : TypeExpr) : TypeExpr := { type with isReference := false }

end TypeExpr

end BuildScript
